import AeroSLS.Cap.Revoking

namespace AeroSLS.Cap

open Function Register Chain List State

variable {env : Env} {R : Rules} {s v : State} {pid ti o : ℕ} {w : CapWord}

namespace CapTable

def pop (t : CapTable) : Option (CapTable × ℕ) :=
  if t.freelistHead = capFreelistEnd then none
  else some ({ t with
    freelistHead := (t.slots t.freelistHead).obj % 2 ^ 16
    slots := update t.slots t.freelistHead 0 }, t.freelistHead)

def push (t : CapTable) (i : ℕ) : CapTable :=
  { t with slots := update t.slots i (freeLink t.freelistHead), freelistHead := i }

def set (t : CapTable) (i : ℕ) (w : CapWord) : CapTable :=
  { t with slots := update t.slots i w }

def popEnds (t : CapTable) : CapTable × Option (ℕ × ℕ) :=
  match t.pop with
  | none => (t, none)
  | some (t, rd) =>
    match t.pop with
    | none => (t.push rd, none)
    | some (t, wr) => (t, some (rd, wr))

def installNear (t : CapTable) (o : ℕ) (both : Bool) :
    CapTable × Option (ℕ × ℕ × ℕ × ℕ) :=
  match t.popEnds with
  | (t, none) => (t, none)
  | (t, some (rd, wr)) =>
    if both then
      match t.pop with
      | none => ((t.push rd).push wr, none)
      | some (t, frd) =>
        match t.pop with
        | none => (((t.push rd).push wr).push frd, none)
        | some (t, fwr) =>
          ((((t.set rd (readEnd o)).set wr (writeEnd o)).set frd (readEnd o)).set fwr (writeEnd o),
            some (rd, wr, frd, fwr))
    else ((t.set rd (readEnd o)).set wr (writeEnd o), some (rd, wr, capNone, capNone))

end CapTable

lemma modTable_modTable :
    (s.modTable ti fun _ => T).modTable ti f = s.modTable ti fun _ => f T := by
  simp [modTable]

lemma modTable_self : (s.modTable ti fun _ => s.tables ti) = s := by
  simp [modTable]

lemma capSlotPop_table : capSlotPop s ti =
    (s.tables ti).pop.map fun r => (s.modTable ti fun _ => r.1, r.2) := by
  simp only [capSlotPop, CapTable.pop]
  split_ifs <;> rfl

lemma capSlotPush_table : capSlotPush s ti i = s.modTable ti fun _ => (s.tables ti).push i := rfl

lemma setSlot_table : s.setSlot ti i w = s.modTable ti fun _ => (s.tables ti).set i w := rfl

lemma popEnds_table : popEnds s ti =
    (s.modTable ti fun _ => (s.tables ti).popEnds.1, (s.tables ti).popEnds.2) := by
  simp only [popEnds, CapTable.popEnds, capSlotPop_table]
  rcases hpop : (s.tables ti).pop with _ | r
  · simp [modTable_self]
  obtain ⟨t, rd⟩ := r
  have ht : (s.modTable ti fun _ => t).tables ti = t := by simp [modTable]
  simp only [Option.map_some, ht]
  cases hpop' : t.pop with
  | none => simp [capSlotPush_table, ht, modTable_modTable]
  | some => simp [modTable_modTable]

lemma installNear_table : installNear s ti o both =
    (s.modTable ti fun _ => ((s.tables ti).installNear o both).1,
      ((s.tables ti).installNear o both).2) := by
  have ht : ∀ (s : State) T, (s.modTable ti fun _ => T).tables ti = T := by simp [modTable]
  simp only [installNear, CapTable.installNear, popEnds_table]
  generalize (s.tables ti).popEnds = r
  obtain ⟨t, r⟩ := r
  rcases r with _ | r
  · rfl
  rcases both with _ | _
  · simp [writeEnds, setSlot_table, ht, modTable_modTable]
  simp only [capSlotPop_table, ht]
  rcases hpop : t.pop with _ | r
  · simp [capSlotPush_table, ht, modTable_modTable]
  obtain ⟨t1, frd⟩ := r
  simp only [Option.map_some, ht]
  cases hpop' : t1.pop with
  | none => simp [capSlotPush_table, ht, modTable_modTable]
  | some => simp [writeEnds, setSlot_table, ht, modTable_modTable]

/-- The table `t` of the code has popped the slots in `acc`, while `u` already holds their
words. -/
structure Lag (acc : List ℕ) (u t : CapTable) : Prop where
  pid : u.pid = t.pid
  maps : u.maps = t.maps
  head : u.freelistHead = t.freelistHead
  slots : ∀ j, j ∉ acc → u.slots j = t.slots j
  used : ∀ j ∈ acc, j < capTableEntries ∧ (u.slots j).ty ≠ .none
  nodup : acc.Nodup

lemma Lag.eq (h : Lag [] u t) : u = t := by
  obtain ⟨hp, hm, hh, hs, -, -⟩ := h
  have hslots : u.slots = t.slots := funext fun j => hs j not_mem_nil
  cases u
  simp_all

lemma Lag.fill (h : Lag (i :: acc) u t) : Lag acc u (t.set i (u.slots i)) where
  pid := h.pid
  maps := h.maps
  head := h.head
  slots j hj := by
    by_cases hji : j = i
    · subst hji
      simp [CapTable.set]
    · simp only [CapTable.set, update_of_ne hji]
      exact h.slots j (by simp [hji, hj])
  used j hj := h.used j (mem_cons_of_mem _ hj)
  nodup := (nodup_cons.1 h.nodup).2

/-- Giving a popped slot back, first come first served. -/
theorem Lag.push (h : Lag (i :: acc) u t) : Lag acc (u.push i) (t.push i) where
  pid := h.pid
  maps := h.maps
  head := rfl
  slots j hj := by
    by_cases hji : j = i
    · subst hji
      simp [CapTable.push, h.head]
    · simp only [CapTable.push, update_of_ne hji]
      exact h.slots j (by simp [hji, hj])
  used j hj := by
    have hji : j ≠ i := by
      rintro rfl
      exact (nodup_cons.1 h.nodup).1 hj
    simp only [CapTable.push, update_of_ne hji]
    exact h.used j (mem_cons_of_mem _ hj)
  nodup := (nodup_cons.1 h.nodup).2

/-- The words `ws` of an object not yet in use stand in the slots `acc` of the process. -/
structure Loaded (env : Env) (R : Rules) (s v : State) (pid ti o : ℕ) (acc : List ℕ)
    (ws : List CapWord) (t : CapTable) : Prop where
  chain : Changes env R s v
  shape : ∃ T, v = s.modTable ti fun _ => T
  lag : Lag acc (v.tables ti) t
  words : acc.map (v.tables ti).slots = ws
  names : ∀ w ∈ ws, w.names = some o
  named : ∀ p, v.named p = if p ∈ acc.map (CapHolder.slot pid) then some o else s.named p
  free : ∀ i ∈ acc, s.named (.slot pid i) = none

variable (env R) in
lemma loaded_nil : Loaded env R s s pid ti o [] [] (s.tables ti) :=
  ⟨.refl, ⟨s.tables ti, modTable_self.symm⟩, ⟨rfl, rfl, rfl, fun _ _ => rfl, by simp, by simp⟩,
    rfl, by simp, by simp, by simp⟩

section

variable (h : Loaded env R s v pid ti o acc ws t)
include h

lemma Loaded.objects : v.objects = s.objects ∧ v.objNext = s.objNext ∧ v.tablePid = s.tablePid := by
  obtain ⟨T, rfl⟩ := h.shape
  exact ⟨rfl, rfl, rfl⟩

/-- One more word. -/
theorem Loaded.pop (ht : Tidy R.exact s) (hown : s.Owns pid ti) (hres : s.Reserved o)
    (hw : w.names = some o) (hk : s.Known w) (hpop : t.pop = some (t1, i)) :
    ∃ v', Loaded env R s v' pid ti o (acc ++ [i]) (ws ++ [w]) t1 := by
  have htv := h.chain.tidy ht
  obtain ⟨hobj, hnext, hpids⟩ := h.objects
  have hownv : v.Owns pid ti := (State.Owns.congr hpids).2 hown
  simp only [CapTable.pop] at hpop
  split_ifs at hpop with hne
  cases hpop
  have hne' : (v.tables ti).freelistHead ≠ capFreelistEnd := by rwa [h.lag.head]
  obtain ⟨hlt, hfree⟩ := htv.tables.free_head hown.lt hne'
  rw [h.lag.head] at hlt hfree
  have hnot : t.freelistHead ∉ acc := fun hmem => (h.lag.used _ hmem).2 hfree
  have hty := ty_ne_none_of_names hw
  have hpopv : capSlotPop v ti = some (v.modTable ti fun t' => { t' with
      freelistHead := (t'.slots t.freelistHead).obj % 2 ^ 16
      slots := update t'.slots t.freelistHead 0 }, t.freelistHead) := by
    simp only [capSlotPop, h.lag.head, if_neg hne]
  have hset := capSlotPop_setSlot (w := w) hpopv
  have hchange : Change env R v (v.modTable ti fun t' => { t' with
      freelistHead := (t'.slots t.freelistHead).obj % 2 ^ 16
      slots := update t'.slots t.freelistHead w }) := by
    rw [← hset]
    refine .install pid ti _ w hownv hpopv hty fun o' ho' => ?_
    rw [hw] at ho'
    cases ho'
    exact ⟨by simpa only [State.Reserved, hobj, hnext] using hres,
      by simpa only [State.Known, hobj, hnext] using hk⟩
  refine ⟨_, h.chain.tail hchange, ?_, ⟨?_, ?_, ?_, fun j hj => ?_, fun j hj => ?_, ?_⟩, ?_, ?_,
    fun p => ?_, fun j hj => ?_⟩
  · obtain ⟨T, rfl⟩ := h.shape
    exact ⟨_, modTable_modTable⟩
  · simpa [modTable] using h.lag.pid
  · simpa [modTable] using h.lag.maps
  · simp [modTable, h.lag.slots _ hnot]
  · rw [mem_append, not_or, mem_singleton] at hj
    simpa [modTable, hj.2] using h.lag.slots j hj.1
  · rcases mem_append.1 hj with hj | hj
    · have hjne : j ≠ t.freelistHead := fun he => hnot (he ▸ hj)
      simpa [modTable, hjne] using h.lag.used j hj
    · rw [mem_singleton.1 hj]
      exact ⟨hlt, by simpa [modTable] using hty⟩
  · refine nodup_append.2 ⟨h.lag.nodup, by simp, ?_⟩
    rintro a ha b hb rfl
    exact hnot (mem_singleton.1 hb ▸ ha)
  · rw [map_append, ← h.words]
    congr 1
    · refine map_congr_left fun j hj => ?_
      have hjne : j ≠ t.freelistHead := fun he => hnot (he ▸ hj)
      simp [modTable, hjne]
    · simp [modTable]
  · grind [h.names]
  · rw [named_slots htv.tables hownv hlt rfl]
    by_cases hp : p = .slot pid t.freelistHead
    · subst hp
      simp [hw]
    · rw [update_of_ne hp, h.named p]
      simp [hp]
  · rcases mem_append.1 hj with hj | hj
    · exact h.free j hj
    have hn := h.named (.slot pid t.freelistHead)
    rw [if_neg (by simpa using hnot), named_slot hownv hlt, names_of_none hfree] at hn
    rw [mem_singleton.1 hj]
    exact hn.symm

/-- Everything is given back. -/
theorem Loaded.undo (hown : s.Owns pid ti) (hres : s.Reserved o) :
    Changes env R s (s.modTable ti fun _ => acc.foldl CapTable.push t) := by
  obtain ⟨hobj, -, hpids⟩ := h.objects
  have hownv : v.Owns pid ti := (State.Owns.congr hpids).2 hown
  have hun : ¬v.Tracked o := by
    rintro ⟨hact, -⟩
    rw [hobj, hres.2.1] at hact
    cases hact
  have hnames : ∀ j ∈ acc, ((v.tables ti).slots j).names = some o := fun j hj =>
    h.names _ (h.words ▸ mem_map_of_mem hj)
  have key : ∀ acc v t, Lag acc (v.tables ti) t →
      v.Owns pid ti → ¬v.Tracked o → (∀ j ∈ acc, ((v.tables ti).slots j).names = some o) →
      Drops env R v (v.modTable ti fun _ => acc.foldl CapTable.push t) := by
    intro acc
    induction acc with
    | nil =>
      intro v t hl _ _ _
      rw [foldl_nil, ← hl.eq, modTable_self]
    | cons i acc ih =>
      intro v t hl hown hun hnames
      have hi := hl.used i (mem_cons_self ..)
      have hclear : Drop env R v (capSlotPush v ti i) := by
        refine .clear pid ti i hown hi.1 hi.2 fun _ o' ho' => ?_
        rw [hnames i (mem_cons_self ..)] at ho'
        cases ho'
        exact hun
      have htab : (capSlotPush v ti i).tables ti = (v.tables ti).push i := by
        simp [capSlotPush, modTable, CapTable.push]
      have hrest := ih (capSlotPush v ti i) (t.push i) (htab ▸ hl.push) hown hun fun j hj => by
        have hji : j ≠ i := by
          rintro rfl
          exact (nodup_cons.1 hl.nodup).1 hj
        rw [htab]
        simpa [CapTable.push, hji] using hnames j (mem_cons_of_mem _ hj)
      have heq : (capSlotPush v ti i).modTable ti (fun _ => acc.foldl CapTable.push (t.push i)) =
          v.modTable ti fun _ => acc.foldl CapTable.push (t.push i) := by
        rw [capSlotPush_table, modTable_modTable]
      rw [heq] at hrest
      exact .head hclear hrest
  have hdrops := key acc v t h.lag hownv hun hnames
  obtain ⟨T, rfl⟩ := h.shape
  rw [modTable_modTable] at hdrops
  exact h.chain.trans hdrops.changes

lemma Loaded.done : v = s.modTable ti fun _ => (acc.zip ws).foldl (fun t p => t.set p.1 p.2) t := by
  have key : ∀ acc u t, Lag acc u t →
      u = (acc.zip (acc.map u.slots)).foldl (fun t p => t.set p.1 p.2) t := by
    intro acc
    induction acc with
    | nil => exact fun u t hl => hl.eq
    | cons i acc ih => exact fun u t hl => ih u _ hl.fill
  have heq := key acc _ t h.lag
  rw [h.words] at heq
  obtain ⟨T, rfl⟩ := h.shape
  rw [← heq]
  simp [modTable]

end

lemma lt_of_named (h : Tidy D s) (hn : s.named p = some o) : o < s.objNext := by
  cases p with
  | slot pid ref =>
    obtain ⟨ti, hown, hlt, hname⟩ := exists_of_named_slot hn
    have hk := h.contents.slots ti hown.lt ref hlt o hname
    rw [← (names_eq_some.1 hname).2.2]
    exact hk.1
  | queue c ref d =>
    obtain ⟨entry, i, -, hi, hc, hl, hw⟩ := exists_of_named_queue hn
    have hk := (((h.contents.queues c hc d entry hl).2 i hi).2 o hw).1
    rw [← (names_eq_some.1 hw).2.2]
    exact hk.1

lemma registers_slots (hn : ∀ p, v.named p = some o ↔ p ∈ L) (hnodup : L.Nodup)
    (hslots : ∀ p ∈ L, ∃ pid i, p = .slot pid i) :
    Registers CapHolder.key D L fun p => v.named p = some o where
  mem p _ := (hn p).symm
  once k _ := by
    cases k with
    | queue c ref =>
      rw [countP_eq_zero.2 fun p hp => ?_]
      · exact Nat.zero_le 1
      · grind [CapHolder.key]
    | slot pid i =>
      refine Nat.le_trans (countP_mono_left fun p _ hp => ?_)
        (nodup_iff_count_le_one.1 hnodup (.slot pid i))
      rw [beq_iff_eq] at hp ⊢
      exact key_eq_slot hp

/-- An object as `cap_object_alloc` leaves it, up to its own fields. -/
structure Fresh (ob : CapObject) (o : ℕ) : Prop where
  id : ob.id = o
  active : ob.active = true
  revoking : ob.revoking = false
  holders : ob.holders = []
  refcount : ob.refcount = 0

def State.withObject (s : State) (ob : CapObject) : State :=
  { s with objNext := s.objNext + 1, objects := update s.objects s.objNext ob }

variable (env R) in
lemma reserve_spec (ob : CapObject) (h : Tidy R.exact s) (hroom : s.objNext < capObjectMax)
    (hid : ob.id = s.objNext) (hact : ob.active = false) (hrev : ob.revoking = false) :
    Change env R s (s.withObject ob) ∧ (s.withObject ob).Reserved s.objNext ∧
      ∀ p, (s.withObject ob).named p ≠ some s.objNext := by
  refine ⟨.reserve ob hroom hid hact, ?_, fun p hn => ?_⟩
  · simp [State.Reserved, withObject, hact, hrev]
  · have hlt := lt_of_named h (show s.named p = some s.objNext from hn)
    omega

/-- An object that is given up again, once the words are where they are to stay. -/
theorem reserve_abort (h : Tidy R.exact s) (hroom : s.objNext < capObjectMax)
    (hid : ob.id = s.objNext) (hact : ob.active = false)
    (hwords : ∀ ob', ob'.kind = ob.kind → Tidy R.exact (s.withObject ob') →
      (s.withObject ob').Reserved s.objNext →
      Changes env R (s.withObject ob') { s.withObject ob' with tables := T }) :
    Changes env R s { s.withObject ob with tables := T } := by
  obtain ⟨ob', hob'⟩ : ∃ ob', ob' = { ob with active := false, revoking := false } := ⟨_, rfl⟩
  obtain ⟨hreserve, hres, -⟩ :=
    reserve_spec env R ob' h hroom (hob' ▸ hid) (hob' ▸ rfl) (hob' ▸ rfl)
  have hchain := hwords ob' (hob' ▸ rfl) (hreserve.tidy h) hres
  have habort : Change env R { s.withObject ob' with tables := T } _ :=
    .abort s.objNext (fun _ => ob) hres hid (by simp [withObject, hob']) hact
  refine .head hreserve (hchain.tail ?_)
  simpa [withObject, modObject] using habort

lemma names_make (hty : ty.namesObject) (ho : o < capObjectMax) :
    (capWordMake ty o p off len).names = some o := by
  have hobj : o % 2 ^ 17 = o := Nat.mod_eq_of_lt (ho.trans (by decide))
  refine names_eq_some.2 ⟨?_, hty, hobj⟩
  cases ty <;> simp_all [capWordValid, capWordMake, CapType.namesObject]

lemma known_make (ho : o < capObjectMax) (hlt : o < s.objNext)
    (hfits : ty.fits (s.objects o).kind) : s.Known (capWordMake ty o p off len) := by
  have hobj : o % 2 ^ 17 = o := Nat.mod_eq_of_lt (ho.trans (by decide))
  simp only [capWordMake, hobj]
  exact ⟨hlt, hfits⟩

/-- A table after a pop that may have been taken back. -/
def Refiled (t T : CapTable) : Prop :=
  T = t ∨ ∃ t₁ i, t.pop = some (t₁, i) ∧ T = t₁.push i

lemma Refiled.drops (h : Refiled (s.tables ti) T) (hown : s.Owns pid ti) :
    Drops env R s (s.modTable ti fun _ => T) := by
  rcases h with rfl | ⟨t1, i, hpop, rfl⟩
  · rw [modTable_self]
  have hpop' : capSlotPop s ti = some (s.modTable ti fun _ => t1, i) := by
    rw [capSlotPop_table, hpop]
    rfl
  have hd : Drop env R s _ := .refile pid ti i hown hpop'
  rw [capSlotPush_table] at hd
  simpa [modTable] using Relation.ReflTransGen.single hd

variable (s pid ti o w) in
theorem installFirst_cases (undo : State → State) :
    (∃ T e, Refiled (s.tables ti) T ∧ installFirst s ti pid o w undo =
      (capObjectDestroy (undo (s.modTable ti fun _ => T)) o, .error e)) ∨
    ∃ t1 i, (s.tables ti).pop = some (t1, i) ∧ installFirst s ti pid o w undo =
      ((capHolderLink { s.modTable ti (fun _ => t1.set i w) with holderFree := s.holderFree - 1 } o
        (.slot (pid % 2 ^ 16) i)), .ok i) := by
  simp only [installFirst, capSlotPop_table]
  rcases hpop : (s.tables ti).pop with _ | r
  · refine .inl ⟨s.tables ti, .etablefull, .inl rfl, ?_⟩
    rw [modTable_self]
    rfl
  obtain ⟨t1, i⟩ := r
  have ht : (s.modTable ti fun _ => t1).tables ti = t1 := by simp [modTable]
  rcases halloc : capHolderAlloc (s.modTable ti fun _ => t1) with _ | s1
  · refine .inl ⟨t1.push i, .enomem, .inr ⟨t1, i, hpop, rfl⟩, ?_⟩
    simp only [Option.map_some, halloc, capSlotPush_table, ht, modTable_modTable]
  refine .inr ⟨t1, i, rfl, ?_⟩
  simp only [Option.map_some, halloc]
  rw [capHolderAlloc_eq halloc]
  simp only [capHolderLink, modObject, setSlot, modTable, update_self, update_idem]
  rfl

/-- A new object with one word. -/
theorem mintOne_changes (h : Tidy R.exact s) (hown : s.Owns pid ti)
    (hroom : s.objNext < capObjectMax) (hob : Fresh ob s.objNext) (hkind : ob.kind ≠ .chan)
    (hname : w.names = some s.objNext) (hfits : w.ty.fits ob.kind)
    (hpop : (s.tables ti).pop = some (t1, i)) :
    Changes env R s ((s.withObject { ob with holders := [.slot pid i], refcount := 1 }).modTable ti
      fun _ => t1.set i w) := by
  obtain ⟨hreserve, hres, hfresh⟩ := reserve_spec env _ { ob with active := false } h
    hroom hob.id rfl hob.revoking
  have htidy := hreserve.tidy h
  have hwobj : w.obj = s.objNext := (names_eq_some.1 hname).2.2
  have hknown : (s.withObject { ob with active := false }).Known w := by
    refine ⟨by simp [withObject, hwobj], ?_⟩
    simpa [withObject, hwobj] using hfits
  obtain ⟨v, hv⟩ := (loaded_nil env R).pop htidy hown hres hname hknown hpop
  have hvobj : v.objects = update s.objects s.objNext { ob with active := false } := hv.objects.1
  have hnamed : ∀ p, v.named p = some s.objNext ↔ p ∈ [CapHolder.slot pid i] := by grind [hv.named]
  have henlist : Change env R v (v.modObject s.objNext fun _ =>
      { ob with holders := [.slot pid i], refcount := 1 }) := by
    refine .enlist _ _ ?_ hob.id hob.revoking ?_ hkind (fun c ref d hn => ?_)
      (registers_slots hnamed (by simp) (by simp)) rfl (by simp)
    · simpa only [State.Reserved, hv.objects.1, hv.objects.2.1] using hres
    · simp [hvobj]
    · rw [hnamed] at hn
      simp at hn
  refine .head hreserve (hv.chain.tail ?_)
  rw [hv.done] at henlist ⊢
  simpa [modObject, withObject, modTable] using henlist

lemma capObjectDestroy_other (hkind : (s.objects o).kind ≠ .chan) :
    capObjectDestroy s o = s.modObject o CapObject.dead := by
  simp only [capObjectDestroy, hkind, false_and, and_false]
  rfl

lemma withObject_modObject : (s.withObject ob).modObject s.objNext f = s.withObject (f ob) := by
  simp [withObject, modObject]

/-- An object gets its first word, perhaps after a run of the arena, or everything is given
back. -/
theorem installFirst_changes (h : Ready R s) (hpid : pid < 2 ^ 16)
    (hown : s.Owns pid ti) (hroom : s.objNext < capObjectMax) (hob : Fresh ob s.objNext)
    (hkind : ob.kind ≠ .chan) (hname : w.names = some s.objNext) (hfits : w.ty.fits ob.kind)
    (hg : g = { s with arenaUsed := used, arenaOwner := owner }) (hgrab : Drops env R s g)
    (hundo : ∀ T, ∃ v, Drops env R (s.modTable ti fun _ => T) v ∧ v.objNext = s.objNext ∧
      undo ((g.withObject ob).modTable ti fun _ => T) = v.withObject ob) :
    Changes env R s (installFirst (g.withObject ob) ti pid s.objNext w undo).1 := by
  rcases installFirst_cases (g.withObject ob) pid ti s.objNext w undo with
    ⟨T, e, hT, heq⟩ | ⟨t1, i, hpop, heq⟩ <;> subst hg
  · obtain ⟨v, hv, hnext, hundo⟩ := hundo T
    have hrefile : Drops env R s (s.modTable ti fun _ => T) := Refiled.drops hT hown
    have hback : Drops env R s v := hrefile.trans hv
    rw [heq, hundo, ← hnext, capObjectDestroy_other (by simpa [withObject] using hkind),
      withObject_modObject]
    exact hback.changes.trans (reserve_abort (hback.tidy h.tidy) (hnext ▸ hroom)
      (hob.id.trans hnext.symm) rfl fun _ _ _ _ => .refl)
  · rw [heq, Nat.mod_eq_of_lt hpid]
    refine hgrab.changes.trans
      ((mintOne_changes (hgrab.tidy h.tidy) hown hroom hob hkind hname hfits
      hpop).tail (.shift (.drop ?_)))
    convert Drop.holders (s.holderFree - 1) using 1
    simp [capHolderLink, withObject, modObject, modTable, hob.holders, hob.refcount]

lemma capObjectAlloc_eq : capObjectAlloc s kind = if capObjectMax ≤ s.objNext then none
    else some (s.withObject (freshObject s.objNext kind), s.objNext) := rfl

lemma alloc_changes {α : Type*} {e : α} {f : State → ℕ → State × α} (hf : s.objNext < capObjectMax →
      Changes env R s (f (s.withObject (freshObject s.objNext kind)) s.objNext).1) :
    Changes env R s (match capObjectAlloc s kind with
      | none => (s, e)
      | some (s, o) => f s o).1 := by
  rw [capObjectAlloc_eq]
  split_ifs with hfull
  · exact .refl
  · exact hf (Nat.not_le.1 hfull)

lemma fresh_of {o chanId : ℕ} :
    Fresh { freshObject o kind with physBase, npages, chanId } o := ⟨rfl, rfl, rfl, rfl, rfl⟩

lemma capCreateMem_changes (h : Ready R s) (hpid : pid < 2 ^ 16) :
    Changes env R s (capCreateMem env s pid physBase npages perm).1 := by
  refine guard_chain fun _ => guard_chain fun _ => guard_chain fun _ => guard_chain fun _ =>
    guard_chain fun _ => bound_changes h fun s1 ti hown h1 _ _ => alloc_changes fun hroom => ?_
  rw [withObject_modObject]
  exact installFirst_changes h1 hpid hown hroom fresh_of (by simp [freshObject])
    (names_make rfl hroom) rfl rfl .refl fun T => ⟨_, .refl, rfl, rfl⟩

lemma mintDev_changes (h : Ready R s) (hpid : pid < 2 ^ 16) :
    Changes env R s (mintDev s pid physBase sizeBytes rights).1 := by
  refine guard_chain fun _ => guard_chain fun _ => bound_changes h fun s1 ti hown h1 _ _ =>
    alloc_changes fun hroom => ?_
  rw [withObject_modObject]
  exact installFirst_changes h1 hpid hown hroom fresh_of (by simp [freshObject])
    (names_make rfl hroom) rfl rfl .refl fun T => ⟨_, .refl, rfl, rfl⟩

/-- The run that the arena found, marked for the owner. -/
def State.grabbed (s : State) (start npages owner : ℕ) : State :=
  { s with
    arenaUsed := fun f => if start ≤ f ∧ f < start + npages then true else s.arenaUsed f
    arenaOwner := fun f => if start ≤ f ∧ f < start + npages then owner else s.arenaOwner f }

lemma capArenaAllocRun_eq (h : capArenaAllocRun s npages owner = some (s1, start)) :
    s1 = s.grabbed start npages owner := by
  simp only [capArenaAllocRun] at h
  split_ifs at h
  split at h <;> cases h
  rfl

lemma grabbed_modObject :
    ((s.withObject ob).grabbed start npages s.objNext).modObject s.objNext f =
      (s.grabbed start npages s.objNext).withObject (f ob) := by
  simp [withObject, grabbed, modObject]

lemma capArenaAlloc_changes (h : Ready R s) (hpid : pid < 2 ^ 16) :
    Changes env R s (capArenaAlloc s pid npages perm).1 := by
  refine guard_chain fun _ => guard_chain fun _ => guard_chain fun _ =>
    bound_changes h fun s1 ti hown h1 _ _ => alloc_changes fun hroom => ?_
  rcases hrun : capArenaAllocRun (s1.withObject (freshObject s1.objNext .mem)) npages s1.objNext
    with _ | r
  · rw [capObjectDestroy_other (by simp [withObject, freshObject]), withObject_modObject]
    exact reserve_abort h1.tidy hroom rfl rfl fun _ _ _ _ => .refl
  obtain ⟨s2, start⟩ := r
  obtain rfl := capArenaAllocRun_eq hrun
  dsimp only
  rw [grabbed_modObject]
  exact installFirst_changes h1 hpid hown hroom fresh_of (by simp [freshObject])
    (names_make rfl hroom) rfl rfl (.single .unread) fun T => ⟨_, .single .unread, rfl, rfl⟩

lemma mintPlain_changes (h : Ready R s) (hty : w.ty ≠ .none) (hname : w.names = none) :
    Changes env R s (mintPlain s pid w).1 := by
  refine bound_changes h fun s1 ti hown _ _ _ => ?_
  rcases hpop : capSlotPop s1 ti with _ | r
  · exact .refl
  refine .single (.install pid ti r.2 w hown hpop hty fun o ho => ?_)
  rw [hname] at ho
  cases ho

lemma names_plain (hty : ty.namesObject = false) : (capWordMake ty obj p off len).names = none := by
  simp [CapWord.names, capWordMake, hty]

lemma mintIrq_changes (h : Ready R s) : Changes env R s (mintIrq s pid vector rights).1 :=
  guard_chain fun _ => mintPlain_changes h (by simp [capWordMake]) (names_plain rfl)

lemma mintIo_changes (h : Ready R s) : Changes env R s (mintIo s pid physBase sizeBytes rights).1 :=
  guard_chain fun _ => mintPlain_changes h (by simp [capWordMake]) (names_plain rfl)

lemma capTrampolineCreate_changes (h : Ready R s) :
    Changes env R s (capTrampolineCreate s pid).1 := by
  refine guard_chain fun _ => ?_
  have hstep : Drop env R s { s with trampNext := s.trampNext + 1 } := .unread
  exact .head (.shift (.drop hstep)) (mintPlain_changes ((Shift.drop hstep).ready h)
    (by simp [capWordMake]) (names_plain rfl))

end AeroSLS.Cap
