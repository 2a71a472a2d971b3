import AeroSLS.Cap.Minting

namespace AeroSLS.Cap

open Function Register Chain List Loaded State

variable {env : Env} {R : Rules} {s s₁ : State} {pid c o : ℕ}

def Rewrites (env : Env) (R : Rules) (s : State) (o : ℕ) (T : ℕ → CapTable) : Prop :=
  ∀ s', Tidy R.exact s' → s'.tables = s.tables → s'.tablePid = s.tablePid → s'.Reserved o →
    o < capObjectMax → (s'.objects o).kind = .chan → Changes env R s' { s' with tables := T }

/-- In the tables `T` the places in `L`, which were free, name the object, and nothing else
changed. -/
structure Filled (s : State) (o : ℕ) (T : ℕ → CapTable) (L : List CapHolder) : Prop where
  named : ∀ p, ({ s with tables := T } : State).named p = if p ∈ L then some o else s.named p
  free : ∀ p ∈ L, s.named p = none
  nodup : L.Nodup
  slots : ∀ p ∈ L, ∃ pid i, p = .slot pid i

/-- The tables can be brought to `T`, and then the places in `L` name the object. -/
def Fills (env : Env) (R : Rules) (s : State) (o : ℕ) (T : ℕ → CapTable) (L : List CapHolder) :
    Prop :=
  Rewrites env R s o T ∧
    ∀ s', Tidy R.exact s' → s'.tables = s.tables → s'.tablePid = s.tablePid → s'.Reserved o →
      o < capObjectMax → (s'.objects o).kind = .chan → Filled s' o T L

variable {T : ℕ → CapTable}

lemma rewrites_refl : Rewrites env R s o s.tables := by
  intro s' _ htab _ _ _ _
  rw [← htab]

lemma Rewrites.trans (h : Rewrites env R s o T)
    (h' : Rewrites env R { s with tables := T } o T') : Rewrites env R s o T' := by
  intro s' ht htab hpid hres hlt hkind
  have hfirst := h s' ht htab hpid hres hlt hkind
  exact hfirst.trans (h' _ (hfirst.tidy ht) rfl hpid hres hlt hkind)

lemma Fills.trans (h : Fills env R s o T L) (h' : Fills env R { s with tables := T } o T' L') :
    Fills env R s o T' (L ++ L') := by
  refine ⟨h.1.trans h'.1, fun s' ht htab hpid hres hlt hkind => ?_⟩
  have hfirst := h.1 s' ht htab hpid hres hlt hkind
  have hf := h.2 s' ht htab hpid hres hlt hkind
  have hf' := h'.2 _ (hfirst.tidy ht) rfl hpid hres hlt hkind
  -- a place of the second list was still free after the first
  have hapart : ∀ p ∈ L', p ∉ L := by
    intro p hp' hp
    have hnone := hf'.free p hp'
    rw [hf.named p, if_pos hp] at hnone
    cases hnone
  refine ⟨fun p => ?_, fun p hp => ?_, ?_, fun p hp => ?_⟩
  · grind [hf.named, hf'.named]
  · grind [hf.named, hf.free, hf'.free]
  · refine nodup_append.2 ⟨hf.nodup, hf'.nodup, ?_⟩
    rintro a ha b hb rfl
    exact hapart a hb ha
  · rcases mem_append.1 hp with hp | hp
    · exact hf.slots p hp
    · exact hf'.slots p hp

lemma modTable_eq : (s.modTable ti fun _ => U) = { s with tables := update s.tables ti U } := rfl

/-- Wherever the object is reserved, slots can be popped for the words, which leaves `t`. -/
def Loads (env : Env) (R : Rules) (s : State) (pid ti o : ℕ) (acc : List ℕ) (ws : List CapWord)
    (t : CapTable) : Prop :=
  ∀ s', Tidy R.exact s' → s'.tables = s.tables → s'.Owns pid ti → s'.Reserved o →
    o < capObjectMax → (s'.objects o).kind = .chan → ∃ v, Loaded env R s' v pid ti o acc ws t

lemma loads_nil : Loads env R s pid ti o [] [] (s.tables ti) :=
  fun s' _ htab _ _ _ _ => ⟨s', htab ▸ loaded_nil env R⟩

section

variable (hload : Loads env R s pid ti o acc ws t)
include hload

lemma Loads.popEnd (ty : CapType) (perm : ℕ) (hfits : ty.fits .chan) (hpop : t.pop = some (t1, i)) :
    Loads env R s pid ti o (acc ++ [i]) (ws ++ [capWordMake ty o perm 0 1]) t1 := by
  intro s' ht htab hown hres hlt hkind
  obtain ⟨v, hv⟩ := hload s' ht htab hown hres hlt hkind
  refine hv.pop ht hown hres (names_make (fits_namesObject hfits) hlt) ?_ hpop
  exact known_make hlt hres.1 (by rw [hkind]; exact hfits)

variable (hown : s.Owns pid ti)
include hown

lemma Loads.fills :
    Fills env R s o (update s.tables ti ((acc.zip ws).foldl (fun t p => t.set p.1 p.2) t))
      (acc.map (CapHolder.slot pid)) := by
  refine ⟨fun s' ht htab hpid hres hlt hkind => ?_, fun s' ht htab hpid hres hlt hkind => ?_⟩
  · obtain ⟨v, hv⟩ := hload s' ht htab ((State.Owns.congr hpid).2 hown) hres hlt hkind
    have hchain := hv.chain
    rwa [hv.done, modTable_eq, htab] at hchain
  obtain ⟨v, hv⟩ := hload s' ht htab ((State.Owns.congr hpid).2 hown) hres hlt hkind
  refine ⟨fun p => ?_, fun p hp => ?_, ?_, fun p hp => ?_⟩
  · have hn := hv.named p
    rwa [hv.done, modTable_eq, htab] at hn
  · grind [hv.free]
  · exact hv.lag.nodup.map fun a b hab => by simpa using hab
  · grind

lemma Loads.rewrites : Rewrites env R s o (update s.tables ti (acc.foldl CapTable.push t)) := by
  intro s' ht htab hpid hres hlt hkind
  have hown' := (State.Owns.congr hpid).2 hown
  obtain ⟨v, hv⟩ := hload s' ht htab hown' hres hlt hkind
  have hundo := hv.undo hown' hres
  rwa [modTable_eq, htab] at hundo

end

lemma loads_popEnds (hpop : (s.tables ti).popEnds = (t, some (rd, wr))) :
    Loads env R s pid ti o [rd, wr] [readEnd o, writeEnd o] t := by
  simp only [CapTable.popEnds] at hpop
  split at hpop
  · cases hpop
  rename_i t1 rd' h1
  split at hpop
  · cases hpop
  rename_i t2 wr' h2
  cases hpop
  exact (loads_nil.popEnd .chanR capPermRecv rfl h1).popEnd .chanW capPermSend rfl h2

lemma fills_popEnds (hown : s.Owns pid ti) (hpop : (s.tables ti).popEnds = (t, some (rd, wr))) :
    Fills env R s o (update s.tables ti ((t.set rd (readEnd o)).set wr (writeEnd o)))
      [.slot pid rd, .slot pid wr] :=
  (loads_popEnds hpop).fills hown

lemma rewrites_popEnds (hown : s.Owns pid ti)
    (hpop : (s.tables ti).popEnds = (t, none)) : Rewrites env R s o (update s.tables ti t) := by
  simp only [CapTable.popEnds] at hpop
  split at hpop
  · cases hpop
    rw [update_eq_self]
    exact rewrites_refl
  rename_i t1 rd h1
  split at hpop
  · cases hpop
    exact (loads_nil.popEnd .chanR capPermRecv rfl h1).rewrites hown
  · cases hpop

/-- The slots of the caller that a new channel takes. -/
def nearSlots (both : Bool) (rd wr frd fwr : ℕ) : List ℕ :=
  if both then [rd, wr, frd, fwr] else [rd, wr]

lemma fills_installNear (hown : s.Owns pid ti)
    (hnear : (s.tables ti).installNear o both = (t, some (rd, wr, frd, fwr))) :
    Fills env R s o (update s.tables ti t)
      ((nearSlots both rd wr frd fwr).map (CapHolder.slot pid)) := by
  simp only [CapTable.installNear] at hnear
  split at hnear
  · cases hnear
  rename_i t1 rd' wr' hends
  rcases both with _ | _
  · cases hnear
    exact fills_popEnds hown hends
  simp only [if_true] at hnear
  split at hnear
  · cases hnear
  rename_i t2 frd' h3
  split at hnear
  · cases hnear
  rename_i t3 fwr' h4
  cases hnear
  exact (((loads_popEnds hends).popEnd .chanR capPermRecv rfl h3).popEnd .chanW capPermSend rfl
    h4).fills hown

lemma rewrites_installNear (hown : s.Owns pid ti)
    (hnear : (s.tables ti).installNear o both = (t, none)) :
    Rewrites env R s o (update s.tables ti t) := by
  simp only [CapTable.installNear] at hnear
  split at hnear
  · grind [rewrites_popEnds]
  rename_i t1 rd wr hends
  rcases both with _ | _
  · cases hnear
  simp only [if_true] at hnear
  split at hnear
  · cases hnear
    exact (loads_popEnds hends).rewrites hown
  rename_i t2 frd h3
  split at hnear
  · cases hnear
    exact ((loads_popEnds hends).popEnd .chanR capPermRecv rfl h3).rewrites hown
  · cases hnear

/-- The channel object that a call makes. -/
def chanObject (o c : ℕ) : CapObject := { freshObject o .chan with chanId := c }

/-- A channel being made: its id is taken, its object is there and the tables are `T`. -/
def staged (s₁ : State) (c p q : ℕ) (T : ℕ → CapTable) (H : List CapHolder) (r n : ℕ) : State :=
  { (s₁.modChannel c fun ch => ch.reset p q).withObject
      { chanObject s₁.objNext c with holders := H, refcount := r } with
    tables := T, holderFree := n }

def scrapped (s₁ : State) (c p q : ℕ) (b : Bool) (T : ℕ → CapTable) (n : ℕ) : State :=
  { ((capChanIdPut s₁ c).modChannel c fun ch => { ch.reset p q with active := b }).withObject
      (chanObject s₁.objNext c).dead with
    tables := T, holderFree := n }

variable {H : List CapHolder} {p q r n : ℕ}

variable (s₁ c T H p q r n) in
lemma capHolderRemove_staged (k : HolderKey) : ∃ H' r' n',
    capHolderRemove (staged s₁ c p q T H r n) s₁.objNext k = staged s₁ c p q T H' r' n' := by
  unfold capHolderRemove
  split_ifs
  · refine ⟨H.eraseP fun h => h.key == k, r - 1, n + 1, ?_⟩
    simp [staged, withObject, modObject, modChannel]
  · exact ⟨H, r, n, rfl⟩

lemma staged_holders : ({ staged s₁ c p q T H r n with holderFree := m } : State) =
    staged s₁ c p q T H r m := rfl

lemma capHolderLink_staged (hnext : s₁.objNext = o) :
    capHolderLink (staged s₁ c p q T H r n) o k = staged s₁ c p q T (k :: H) (r + 1) n := by
  subst hnext
  simp [capHolderLink, staged, withObject, modObject, modChannel]

lemma capObjectDestroy_staged (hc : c < capChanMax) (hirq : ∀ v, s₁.irqChan v ≠ c) :
    capObjectDestroy (staged s₁ c p q T H r n) s₁.objNext = scrapped s₁ c p q true T n := by
  have hob : (staged s₁ c p q T H r n).objects s₁.objNext =
      { chanObject s₁.objNext c with holders := H, refcount := r } := update_self ..
  rw [capObjectDestroy, hob]
  by_cases hroom : s₁.recycled.length < capChanMax
  all_goals
    simp [capChanIdPut, staged, scrapped, hc, hroom, withObject, modObject,
      modChannel, chanObject, freshObject, CapObject.dead, CapChannel.reset]
    exact funext fun v => if_neg (hirq v)

lemma scrapped_close : (scrapped s₁ c p q true T n).modChannel c
    (fun ch => { ch with active := false }) = scrapped s₁ c p q false T n := by
  simp [scrapped, modChannel, withObject]

variable (pid T H p q r n) in
lemma abandonChan_staged (far : ℕ) (hc : c < capChanMax) (hirq : ∀ v, s₁.irqChan v ≠ c) :
    ∃ n', abandonChan (staged s₁ c p q T H r n) c s₁.objNext pid far =
      scrapped s₁ c p q false T n' := by
  unfold abandonChan
  obtain ⟨H1, r1, n1, h1⟩ := capHolderRemove_staged s₁ c T H p q r n (.slot (pid % 2 ^ 16) 0)
  obtain ⟨H2, r2, n2, h2⟩ := capHolderRemove_staged s₁ c T H1 p q r1 n1 (.slot (pid % 2 ^ 16) 1)
  obtain ⟨H3, r3, n3, h3⟩ := capHolderRemove_staged s₁ c T H2 p q r2 n2 (.slot far 2)
  obtain ⟨H4, r4, n4, h4⟩ := capHolderRemove_staged s₁ c T H3 p q r3 n3 (.slot far 3)
  refine ⟨n4, ?_⟩
  simp only [h1, h2, h3, h4, capObjectDestroy_staged hc hirq]
  exact scrapped_close

lemma usedUp_changes (h : Tidy R.exact s) (hroom : s.objNext < capObjectMax)
    (hrewrite : Rewrites env R s s.objNext T) (hid : ob.id = s.objNext) (hkind : ob.kind = .chan)
    (hact : ob.active = false) :
    Changes env R s { s.withObject ob with tables := T, holderFree := n } := by
  have hchain := reserve_abort h hroom hid hact fun ob' hob' ht hres =>
    hrewrite _ ht rfl rfl hres hroom (by simp [withObject, hob', hkind])
  exact hchain.tail (.shift (.drop (.holders n)))

lemma Rewrites.congr (h : Rewrites env R s o T) (htab : s'.tables = s.tables)
    (hpid : s'.tablePid = s.tablePid) : Rewrites env R s' o T :=
  fun v ht hvtab hvpid => h v ht (hvtab.trans htab) (hvpid.trans hpid)

lemma capChanCreate_eq : capChanCreate s pid farPid = match capTableIndex s pid with
    | (s, none) => (s, .error .etablefull)
    | (s, some ti) =>
      if farPid != 0 && farPid != pid then match capTableIndex s farPid with
        | (s, none) => (s, .error .etablefull)
        | (s, some fti) => createChan s ti (some fti) pid farPid
      else createChan s ti none pid farPid := by
  unfold capChanCreate
  rcases capTableIndex s pid with ⟨s₁, _ | ti⟩
  · rfl
  rcases farPid != 0 && farPid != pid with _ | _
  · rfl
  rcases h : capTableIndex s₁ farPid with ⟨s2, _ | fti⟩ <;> simp [h]

lemma fills_refl : Fills env R s o s.tables [] := by
  refine ⟨rewrites_refl, fun s' _ htab _ _ _ _ => ⟨fun p => ?_, by simp, by simp, by simp⟩⟩
  rw [← htab]
  simp

/-- The slots of the far table that a new channel takes. -/
def farSlots (fti : Option ℕ) (frd fwr : ℕ) : List ℕ :=
  if fti.isSome then [frd, fwr] else []

variable (s s₁ c o H p q r n) in
lemma farEnds_staged (env : Env) (R : Rules) (hfti : ∀ f, fti = some f → s.Owns farPid f) :
    ∃ T e, farEnds (staged s₁ c p q s.tables H r n) o fti = (staged s₁ c p q T H r n, e) ∧
      (e = none → Rewrites env R s o T) ∧ ∀ frd fwr, e = some (frd, fwr) →
        Fills env R s o T ((farSlots fti frd fwr).map (CapHolder.slot farPid)) := by
  rcases fti with _ | f
  · refine ⟨s.tables, some (capNone, capNone), rfl, by simp, fun _ _ _ => ?_⟩
    exact fills_refl
  have hown := hfti f rfl
  simp only [farEnds, popEnds_table]
  rw [show (staged s₁ c p q s.tables H r n).tables f = s.tables f from rfl]
  rcases hends : (s.tables f).popEnds with ⟨t, e⟩
  rcases e with _ | e
  · exact ⟨_, none, rfl, fun _ => rewrites_popEnds hown hends, by simp⟩
  obtain ⟨frd, fwr⟩ := e
  refine ⟨update s.tables f ((t.set frd (readEnd o)).set fwr (writeEnd o)),
    some (frd, fwr), ?_, by simp, ?_⟩
  · simp [writeEnds, setSlot_table, staged, modTable]
  · rintro _ _ ⟨⟩
    exact fills_popEnds hown hends

lemma installNear_staged : installNear (staged s₁ c p q T H r n) ti o both =
    (staged s₁ c p q (update T ti ((T ti).installNear o both).1) H r n,
      ((T ti).installNear o both).2) := by
  rw [installNear_table]
  rfl

section take

variable (htake : capChanIdTake s = some (s₁, c))
include htake

lemma capChanIdTake_eq :
    s₁ = { s with chanNext := s₁.chanNext, recycled := s₁.recycled } ∧
      ∀ s' : State, s'.chanNext = s.chanNext → s'.recycled = s.recycled →
        capChanIdTake s' =
          some ({ s' with chanNext := s₁.chanNext, recycled := s₁.recycled }, c) := by
  unfold capChanIdTake at htake
  split at htake
  · grind [capChanIdTake]
  · grind [capChanIdTake]

lemma same_of_take : s₁.objNext = s.objNext ∧
    s₁.tables = s.tables ∧ s₁.tablePid = s.tablePid ∧ s₁.holderFree = s.holderFree := by
  rw [(capChanIdTake_eq htake).1]
  exact ⟨rfl, rfl, rfl, rfl⟩

lemma staged_start : ((s₁.modChannel c fun ch => ch.reset p q).withObject
      (freshObject s.objNext .chan)).modObject s.objNext (fun ob => { ob with chanId := c }) =
      staged s₁ c p q s.tables [] 0 s.holderFree := by
  obtain ⟨hnext, htab, -, hpool⟩ := same_of_take htake
  rw [← hnext, ← htab, ← hpool]
  simp [staged, withObject, modObject, modChannel, chanObject, freshObject]

lemma irqChan_of_take (h : Wires s) : c < capChanMax ∧ ∀ v, s₁.irqChan v ≠ c := by
  obtain ⟨h1, hun, hlt, -⟩ := h.take htake
  have hc : c < capChanMax := hlt.trans_le h1.next
  refine ⟨hc, fun v hv => hun (hv ▸ h1.bound v ?_)⟩
  have : capChanMax < capNone := by decide
  omega

lemma idle_of_take (h : Ready R s) (hquiet : R.Exact → Quiet (fun _ => False) s) :
    s.Idle R.exact c := by
  obtain ⟨h1, hun, hlt, -⟩ := h.wires.take htake
  have hobj := (capChanIdTake_calm htake).2.1
  have hc : c < capChanMax := hlt.trans_le h1.next
  rw [Owned.congr hobj] at hun
  intro d entry hl i hi hD o ho htr
  refine hquiet ⟨c, entry, i, hD⟩ c (fun hf => hf) hun o ⟨htr, entry * capMsgMaxCaps + i, d, ?_⟩
  rw [show CapHolder.queue c (entry * capMsgMaxCaps + i) d = queuePlace c d entry i from rfl,
    named_queuePlace hi, if_pos ⟨hc, hl⟩]
  exact ho

variable (hroom : s.objNext < capObjectMax)
include hroom

/-- With an id, an object and four nodes at hand, the words are handed out. -/
theorem createChan_taken (hfree : 4 ≤ s.holderFree) :
    let far := (if farPid ≠ 0 then farPid else pid) % 2 ^ 16
    createChan s ti fti pid farPid = handOut (staged s₁ c (pid % 2 ^ 16) (farPid % 2 ^ 16) s.tables
        [.slot far 3, .slot far 2, .slot (pid % 2 ^ 16) 1, .slot (pid % 2 ^ 16) 0] 4
        (s.holderFree - 4)) c s.objNext ti fti pid far := by
  obtain ⟨hnext, -⟩ := same_of_take htake
  unfold createChan
  simp only [htake, capObjectAlloc_eq]
  rw [show (s₁.modChannel c fun ch => ch.reset (pid % 2 ^ 16) (farPid % 2 ^ 16)).objNext =
    s.objNext from hnext, if_neg (Nat.not_le.2 hroom)]
  dsimp only
  rw [staged_start htake, if_neg (show ¬(staged ..).holderFree < 4 from Nat.not_lt.2 hfree)]
  simp only [staged_holders, capHolderLink_staged hnext]
  rfl

variable (h : Ready R s) (hquiet : R.Exact → Quiet (fun _ => False) s)
include h hquiet

/-- The words of a new channel are installed and it is put to use. -/
theorem staged_changes (hfill : Fills env R s s.objNext T L) (hH : H.Perm L) (hne : H ≠ []) :
    Changes env R s (staged s₁ c p q T H H.length n) := by
  obtain ⟨hshape, htake'⟩ := capChanIdTake_eq htake
  obtain ⟨ob, hob⟩ : ∃ ob, ob = { chanObject s.objNext c with active := false } := ⟨_, rfl⟩
  obtain ⟨hreserve, hres, hfresh⟩ :=
    reserve_spec env R ob h.tidy hroom (hob ▸ rfl) (hob ▸ rfl) (hob ▸ rfl)
  have htidy := hreserve.tidy h.tidy
  have hkind : ((s.withObject ob).objects s.objNext).kind = .chan := by
    simp [withObject, hob, chanObject, freshObject]
  have hchain := hfill.1 _ htidy rfl rfl hres hroom hkind
  have hf := hfill.2 _ htidy rfl rfl hres hroom hkind
  have hnamed : ∀ p, ({ s.withObject ob with tables := T } : State).named p = some s.objNext ↔
      p ∈ H := by
    intro p
    rw [hf.named p, hH.mem_iff]
    split_ifs with hp
    · simp [hp]
    · grind
  have hidle : ({ s.withObject ob with tables := T } : State).Idle R.exact c := by
    intro d entry hl i hi hD o ho htr
    refine idle_of_take htake h hquiet d entry hl i hi hD o ho ?_
    have hoo : o ≠ s.objNext := by
      rintro rfl
      have hact := htr.1
      simp [withObject, hob] at hact
    simpa [State.Tracked, withObject, hoo] using htr
  have hslot : ∀ p ∈ H, ∃ pid i, p = CapHolder.slot pid i :=
    fun p hp => hf.slots p (hH.mem_iff.1 hp)
  have hconnect : Change env R { s.withObject ob with tables := T } _ := .connect
    s.objNext c { chanObject s.objNext c with holders := H, refcount := H.length } p q hres rfl rfl
    (by simp [withObject, hob]) rfl (htake' _ rfl rfl) rfl hidle
    (fun c' ref d hn => by
      obtain ⟨pid, i, hp⟩ := hslot _ ((hnamed _).1 hn)
      cases hp)
    (registers_slots hnamed (hH.nodup_iff.2 hf.nodup) hslot) rfl hne
  refine .head hreserve ((hchain.tail hconnect).tail ?_)
  rw [hshape]
  have hn : Change env R { staged s₁ c p q T H H.length n with holderFree := s.holderFree } _ :=
    .shift (.drop (.holders n))
  rw [hshape] at hn
  simpa [staged, withObject, modObject, modChannel] using hn

lemma scrapped_changes (hrewrite : Rewrites env R s s.objNext T) :
    Changes env R s (scrapped s₁ c p q b T n) := by
  have hcycle : Change env R s _ := .cycle c p q b htake (idle_of_take htake h hquiet)
  obtain ⟨hshape, -⟩ := capChanIdTake_eq htake
  obtain ⟨w, hw⟩ : ∃ w, w = capChanIdPut s₁ c := ⟨_, rfl⟩
  have hsame : w.tables = s.tables ∧ w.tablePid = s.tablePid ∧ w.objNext = s.objNext := by
    grind [capChanIdPut]
  have hnext : s₁.objNext = s.objNext := by rw [hshape]
  rw [scrapped, ← hw, hnext]
  rw [← hw] at hcycle
  refine .head hcycle ?_
  refine usedUp_changes (hcycle.tidy h.tidy) (hsame.2.2 ▸ hroom) ?_ hsame.2.2.symm rfl rfl
  have hcongr : Rewrites env R (w.modChannel c fun ch => { ch.reset p q with active := b })
    s.objNext T := hrewrite.congr hsame.1 hsame.2.1
  rwa [← hsame.2.2] at hcongr

lemma handOut_changes (hpid : pid < 2 ^ 16) (hown : s.Owns pid ti)
    (hfti : ∀ f, fti = some f → s.Owns farPid f) (hfar : far = if fti.isSome then farPid else pid) :
    Changes env R s (handOut (staged s₁ c p q s.tables H 4 n) c s.objNext ti fti pid far).1 := by
  obtain ⟨hc, hirq⟩ := irqChan_of_take htake h.wires
  obtain ⟨hnext, -⟩ := same_of_take htake
  obtain ⟨T, e, heq, hnone, hsome⟩ := farEnds_staged s s₁ c s.objNext H p q 4 n env R hfti
  rw [handOut, heq]
  cases e with
  | none =>
    obtain ⟨n', hab⟩ := abandonChan_staged pid T H p q 4 n far hc hirq
    rw [hnext] at hab
    simp only [hab]
    exact scrapped_changes htake hroom h hquiet (hnone rfl)
  | some e =>
    obtain ⟨frd, fwr⟩ := e
    have hfill := hsome frd fwr rfl
    simp only [installNear_staged]
    rcases hnear : (T ti).installNear s.objNext fti.isNone with ⟨t, e⟩
    cases e with
    | none =>
      obtain ⟨n', hab⟩ := abandonChan_staged pid (update T ti t) H p q 4 n far hc hirq
      rw [hnext] at hab
      simp only [hab]
      exact scrapped_changes htake hroom h hquiet (hfill.1.trans (rewrites_installNear hown hnear))
    | some e =>
      obtain ⟨rd, wr, nfrd, nfwr⟩ := e
      have hboth := hfill.trans (fills_installNear hown hnear)
      have hob : ∀ H', (staged s₁ c p q (update T ti t) H 4 n).modObject s.objNext
          (fun ob => { ob with holders := H' }) = staged s₁ c p q (update T ti t) H' 4 n := by
        simp [staged, modObject, withObject, modChannel, hnext]
      simp only [hob, Nat.mod_eq_of_lt hpid]
      refine staged_changes htake hroom h hquiet hboth ?_ (by simp)
      cases fti with
      | none =>
        rw [show far = pid from hfar]
        exact reverse_perm [CapHolder.slot pid rd, .slot pid wr, .slot pid nfrd, .slot pid nfwr]
      | some =>
        rw [show far = farPid from hfar]
        exact (List.Perm.swap _ _ _).trans (((List.Perm.swap _ _ _).cons _).cons _)

end take

lemma capChanIdPut_reset : (capChanIdPut (s.modChannel c fun ch => ch.reset p q) c).modChannel c
    (fun ch => { ch with active := false }) =
      (capChanIdPut s c).modChannel c fun ch => { ch.reset p q with active := false } := by
  unfold capChanIdPut
  rw [show (s.modChannel c fun ch => ch.reset p q).recycled = s.recycled from rfl]
  split_ifs <;> simp [modChannel]

lemma Quiet.capTableIndex (h : Quiet E s)
    (hs1 : s₁ = { s with tables := s₁.tables, tablePid := s₁.tablePid }) : Quiet E s₁ := by
  rwa [hs1]

variable (s₁ c T H p q r n) in
lemma capHolderAlloc_staged : capHolderAlloc (staged s₁ c p q T H r n) = none ∨
    capHolderAlloc (staged s₁ c p q T H r n) = some (staged s₁ c p q T H r (n - 1)) := by
  unfold capHolderAlloc
  split_ifs
  · exact .inl rfl
  · exact .inr rfl

variable (env R o) in
lemma fills_pop (hown : s.Owns pid ti) (hpop : (s.tables ti).pop = some (t, rd)) :
    Fills env R s o (update s.tables ti (t.set rd (readEnd o))) [.slot pid rd] ∧
      Rewrites env R s o (update s.tables ti (t.push rd)) := by
  have hload : Loads env R s pid ti o [rd] [readEnd o] t :=
    loads_nil.popEnd .chanR capPermRecv rfl hpop
  exact ⟨hload.fills hown, hload.rewrites hown⟩

theorem vector_changes (ht : Tables s) (hown : s.Owns pid ti) (hslot : slot < capTableEntries)
    (hirq : ((s.tables ti).slots slot).ty = .irq) (hpop : (s.tables ti).pop = some (t, rd))
    (hpids : s₁.tablePid = s.tablePid) (hbudget : budget ≤ chanQueueDepth)
    (hw : w = staged s₁ c p q (update s.tables ti (t.set rd (readEnd o))) H r n) :
    Changes env R w ({ w with
      irqChan := update w.irqChan vec c
      irqBudget := update w.irqBudget vec (budget % 2 ^ 16) }.setSlot ti slot
        (capWordStampRevoked ((s.tables ti).slots slot))) := by
  have howned : w.Owned c :=
    ⟨s₁.objNext, by simp [hw, staged, withObject, modChannel, chanObject, freshObject]⟩
  have hbind : Drop env R w _ :=
    .vectors (update w.irqChan vec c) (update w.irqBudget vec (budget % 2 ^ 16)) (fun x => by
      by_cases hx : x = vec
      · exact .inr (.inr (by simpa [hx] using howned))
      · exact .inl (by simp [hx])) (fun x => by
      by_cases hx : x = vec
      · grind
      · exact .inl (by simp [hx]))
  refine .head (.shift (.drop hbind)) (.single ?_)
  subst hw
  simp only [CapTable.pop] at hpop
  split_ifs at hpop with hend
  cases hpop
  obtain ⟨-, hfree⟩ := ht.free_head hown.lt hend
  -- the slot of the vector's word is not the one that was free
  have hne : slot ≠ (s.tables ti).freelistHead := by grind
  have hword : ((update s.tables ti (CapTable.set { s.tables ti with
      freelistHead := ((s.tables ti).slots (s.tables ti).freelistHead).obj % 2 ^ 16
      slots := update (s.tables ti).slots (s.tables ti).freelistHead 0 }
        (s.tables ti).freelistHead (readEnd o))) ti).slots slot = (s.tables ti).slots slot := by
    simp [CapTable.set, hne]
  refine .restamp pid ti slot _ ((State.Owns.congr hpids).2 hown) hslot ?_ ?_ ?_ (names_stamp _)
  · rw [show ((staged ..).tables ti).slots slot = _ from hword, hirq]
    simp
  · rw [show ((staged ..).tables ti).slots slot = _ from hword]
    simp [CapWord.names, hirq, CapType.namesObject]
  · simp [capWordStampRevoked, hirq]

section calls

variable (h : Ready R s) (hquiet : R.Exact → Quiet (fun _ => False) s) (hpid : pid < 2 ^ 16)
include h hquiet hpid

lemma createChan_changes (hfarPid : farPid < 2 ^ 16) (hown : s.Owns pid ti)
    (hfti : ∀ f, fti = some f → s.Owns farPid f)
    (hfar : (if farPid ≠ 0 then farPid else pid) = if fti.isSome then farPid else pid) :
    Changes env R s (createChan s ti fti pid farPid).1 := by
  rcases htake : capChanIdTake s with _ | r
  · simp only [createChan, htake]
    exact .refl
  obtain ⟨s₁, c⟩ := r
  obtain ⟨hc, hirq⟩ := irqChan_of_take htake h.wires
  obtain ⟨hnext, -⟩ := same_of_take htake
  have hobj : ∀ p q, (s₁.modChannel c fun ch => ch.reset p q).objNext = s.objNext :=
    fun _ _ => hnext
  by_cases hroom : capObjectMax ≤ s.objNext
  · simp only [createChan, htake, capObjectAlloc_eq, hobj, if_pos hroom]
    have hcycle : Change env R s _ := .cycle c (pid % 2 ^ 16) (farPid % 2 ^ 16) false htake
      (idle_of_take htake h hquiet)
    rw [capChanIdPut_reset]
    exact .single hcycle
  have hroom := Nat.not_le.1 hroom
  by_cases hfree : 4 ≤ s.holderFree
  · rw [createChan_taken htake hroom hfree, hfar]
    refine handOut_changes htake hroom h hquiet hpid hown hfti ?_
    rw [Nat.mod_eq_of_lt]
    split_ifs <;> assumption
  simp only [createChan, htake, capObjectAlloc_eq, hobj, if_neg (Nat.not_le.2 hroom),
    staged_start htake]
  rw [if_pos (show (staged ..).holderFree < 4 from Nat.not_le.1 hfree), ← hnext,
    capObjectDestroy_staged hc hirq]
  exact scrapped_changes htake hroom h hquiet rewrites_refl

theorem capChanCreate_changes (hfarPid : farPid < 2 ^ 16) :
    Changes env R s (capChanCreate s pid farPid).1 := by
  rw [capChanCreate_eq]
  refine bound_changes h fun s₁ ti hown h1 _ hs1 => ?_
  have hquiet1 : R.Exact → Quiet (fun _ => False) s₁ := fun hR => (hquiet hR).capTableIndex hs1
  split_ifs with hfar
  · have hne : farPid ≠ 0 := by
      rintro rfl
      simp at hfar
    refine bound_changes h1 fun s2 f hownf h2 htab hs2 => ?_
    have hown2 : (capTableIndex s₁ farPid).1.Owns pid ti := capTableIndex_keeps hown
    rw [htab] at hown2
    refine createChan_changes h2 (fun hR => (hquiet1 hR).capTableIndex hs2) hpid hfarPid hown2 ?_ ?_
    · rintro _ ⟨⟩
      exact hownf
    · simp [hne]
  · grind [createChan_changes]

theorem kIrqBind_changes : Changes env R s (kIrqBind s pid slot budget).1 := by
  refine guard_chain fun hbudget => bound_changes h fun s1 ti hown h1 _ hs1 =>
    guard_chain fun hslot =>
    guard_chain fun _ => guard_chain fun hty => guard_chain fun _ => guard_chain fun _ =>
      guard_chain fun _ => ?_
  have hquiet1 : R.Exact → Quiet (fun _ => False) s1 := fun hR => (hquiet hR).capTableIndex hs1
  replace hslot := not_le.1 hslot
  have hirq := not_not.1 hty
  simp only [Nat.mod_eq_of_lt hpid]
  rcases htake : capChanIdTake s1 with _ | r
  · exact .refl
  obtain ⟨s2, c⟩ := r
  obtain ⟨hc, hreg⟩ := irqChan_of_take htake h1.wires
  obtain ⟨hnext, -, hpids, -⟩ := same_of_take htake
  simp only [capObjectAlloc_eq]
  rw [show (s2.modChannel c fun ch => ch.reset pid 0).objNext = s1.objNext from hnext]
  by_cases hroom : capObjectMax ≤ s1.objNext
  · rw [if_pos hroom]
    have hlost : Change env R s1 _ := .lose c pid 0 htake (idle_of_take htake h1 hquiet1)
    refine .single ?_
    simpa [modChannel] using hlost
  rw [if_neg hroom]
  dsimp only
  rw [staged_start htake, capSlotPop_table]
  rw [show (staged s2 c pid 0 s1.tables [] 0 s1.holderFree).tables ti = s1.tables ti from rfl]
  have hscrap : ∀ {T n}, Rewrites env R s1 s1.objNext T → Changes env R s1
      ((capObjectDestroy (staged s2 c pid 0 T [] 0 n) s1.objNext).modChannel c
        fun ch => { ch with active := false }) := by
    intro T n hT
    rw [← hnext, capObjectDestroy_staged hc hreg, scrapped_close]
    exact scrapped_changes htake (not_le.1 hroom) h1 hquiet1 hT
  rcases hpop : (s1.tables ti).pop with _ | r
  · exact hscrap rewrites_refl
  obtain ⟨t, rd⟩ := r
  obtain ⟨hfill, hrewrite⟩ := fills_pop env R s1.objNext hown hpop
  have hset : ((staged s2 c pid 0 s1.tables [] 0 s1.holderFree).modTable ti
      fun _ => t).setSlot ti rd (readEnd s1.objNext) =
      staged s2 c pid 0 (update s1.tables ti (t.set rd (readEnd s1.objNext))) [] 0
        s1.holderFree := by
    simp [setSlot_table, modTable, staged]
  simp only [Option.map_some, hset]
  rcases capHolderAlloc_staged s2 c (update s1.tables ti (t.set rd (readEnd s1.objNext))) []
    pid 0 0 s1.holderFree with hnone | hsome
  · have hpush : capSlotPush (staged s2 c pid 0
        (update s1.tables ti (t.set rd (readEnd s1.objNext))) [] 0 s1.holderFree) ti rd =
        staged s2 c pid 0 (update s1.tables ti (t.push rd)) [] 0 s1.holderFree := by
      simp [capSlotPush_table, modTable, staged, CapTable.push, CapTable.set]
    rw [hnone, hpush]
    exact hscrap hrewrite
  · rw [hsome]
    dsimp only
    rw [capHolderLink_staged hnext]
    exact (staged_changes htake (not_le.1 hroom) h1 hquiet1 hfill (.refl _) (by simp)).trans
      (vector_changes h1.tidy.tables hown hslot hirq hpop hpids (not_lt.1 hbudget) rfl)

end calls

end AeroSLS.Cap
