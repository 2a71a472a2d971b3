import AeroSLS.Cap.Mapping
import AeroSLS.Lib.Machine

namespace AeroSLS.Cap

open Function Register Chain List CapHolder State

variable {env : Env} {R : Rules} {s s' : State} {pid ti i o : ℕ}

def Rules.Slots (R : Rules) : Prop := ∀ pid i, R.exact (.slot pid i)

lemma capArenaFree_shifts (h : Ready R s) (hpid : pid < 2 ^ 16) (hidx : capIdx < capTableEntries)
    (hdie : ∀ o, s.named (.slot pid capIdx) = some o → (s.objects o).kind = .mem →
      ((s.objects o).without (.slot pid capIdx)).active = false → R.mayDie s o) :
    Shifts env R s (capArenaFree s pid capIdx).1 := by
  refine tabled_shifts h (fun _ _ hnone => by simp [not_valid_of_none (hnone capIdx hidx)])
    fun ti hown => guard_chain fun hword => guard_chain fun hget => guard_chain fun _ => ?_
  simp only [Bool.not_eq_true', Bool.not_eq_false, Bool.and_eq_true, beq_iff_eq] at hword
  have htr := h.tracked (active_of_get hget)
  have hname : ((s.tables ti).slots capIdx).names = some ((s.tables ti).slots capIdx).obj :=
    names_eq_some.2 ⟨hword.1, by rw [hword.2]; rfl, rfl⟩
  have hkind : (s.objects ((s.tables ti).slots capIdx).obj).kind = .mem := by
    have hfits := (h.tidy.contents.slots ti hown.lt capIdx hidx _ hname).2
    cases hk : (s.objects ((s.tables ti).slots capIdx).obj).kind <;> simp_all [CapType.fits]
  rw [Nat.mod_eq_of_lt hpid]
  refine .single (.drop (.slot pid ti capIdx _ hown hidx hname htr (hdie _ ?_ hkind)))
  rw [named_slot hown hidx, hname]

lemma queueKey_div_mod : queueKey c (ref / capMsgMaxCaps) (ref % capMsgMaxCaps) = .queue c ref := by
  rw [queueKey, Nat.div_add_mod']

variable (env R) in
theorem stampHolders_drops (hrev : (s.objects o).revoking) (hlt : o < s.objNext)
    (L : List CapHolder)
    (hL : ∀ c ref d, queue c ref d ∈ L → R.exact (.queue c ref) →
      (s.word c d (ref / capMsgMaxCaps) (ref % capMsgMaxCaps)).obj = o) :
    Drops env R s (L.foldl stampHolder s) ∧
      ∃ channels, L.foldl stampHolder s = { s with channels } := by
  induction L generalizing s with
  | nil => exact ⟨.refl, s.channels, rfl⟩
  | cons p L ih =>
    cases p with
    | slot pid' ref => exact ih hrev hlt fun c ref d hmem => hL c ref d (mem_cons_of_mem _ hmem)
    | queue c ref d =>
      have hfirst : Drop env R s (stampHolder s (.queue c ref d)) := by
        refine .word c d _ _ _ (Nat.mod_lt _ (by decide)) (.inr ⟨rfl, fun hD => ?_⟩)
          fun hD o' ho' => ?_
        · grind [queueKey_div_mod]
        rw [queueKey_div_mod] at hD
        have hobj := (names_eq_some.1 ho').2.2
        rw [hL c ref d (mem_cons_self ..) hD] at hobj
        rintro ⟨-, hno⟩
        rw [← hobj, hrev] at hno
        cases hno
      obtain ⟨hrest, channels, heq⟩ := ih (s := stampHolder s (.queue c ref d)) hrev hlt
        fun c' ref' d' hmem hD => by
          rw [← hL c' ref' d' (mem_cons_of_mem _ hmem) hD, stampHolder, word_setWord]
          split_ifs with hp
          · grind [capWordStampRevoked]
          · rfl
      exact ⟨.head hfirst hrest, channels, heq⟩

variable (env) in
/-- Freeing the slots of an object that is not live. -/
theorem zeroHolders_drops (h : Tidy R.exact s) (ho : ¬s.Tracked o) (L : List CapHolder)
    (hL : ∀ pid i, slot pid i ∈ L → s.named (.slot pid i) = some o)
    (honce : ∀ pid i, L.count (.slot pid i) ≤ 1) :
    Drops env R s (L.foldl zeroHolder s) ∧ (L.foldl zeroHolder s).objects = s.objects ∧
      ∀ pid i, slot pid i ∈ L → (L.foldl zeroHolder s).named (.slot pid i) = none := by
  induction L generalizing s with
  | nil => exact ⟨.refl, rfl, fun _ _ hmem => by cases hmem⟩
  | cons p L ih =>
    have hrest : ∀ pid i, L.count (.slot pid i) ≤ 1 := fun pid i =>
      (count_le_count_cons ..).trans (honce pid i)
    cases p with
    | queue =>
      obtain ⟨hd, hobj, hnone⟩ := ih h ho (fun pid i hmem => hL pid i (mem_cons_of_mem _ hmem))
        hrest
      refine ⟨hd, hobj, fun pid i hmem => hnone pid i ?_⟩
      simpa using hmem
    | slot pid ref =>
      obtain ⟨ti, hown, hlt, hname⟩ := exists_of_named_slot (hL pid ref (mem_cons_self ..))
      have hzero : zeroHolder s (.slot pid ref) = capSlotPush s ti ref := by
        rw [zeroHolder, capTableIndex_owned hown]
      have hfirst : Drop env R s (capSlotPush s ti ref) := by
        refine .clear pid ti ref hown hlt (ty_ne_none_of_names hname) fun _ o' ho' => ?_
        rw [hname] at ho'
        cases ho'
        exact ho
      have hnamed := named_capSlotPush h.tables hown hlt
      have hother : ∀ pid' i, slot pid' i ∈ L → slot pid' i ≠ .slot pid ref := by grind
      rw [foldl_cons, hzero]
      obtain ⟨hd, hobj, hnone⟩ := ih (hfirst.tidy h) ho (fun pid' i hmem => by
        rw [hnamed, update_of_ne (hother pid' i hmem)]
        exact hL pid' i (mem_cons_of_mem _ hmem)) hrest
      refine ⟨.head hfirst hd, hobj, fun pid' i hmem => ?_⟩
      rcases mem_cons.1 hmem with heq | hmem
      · refine hd.named_none (hfirst.tidy h) ?_
        rw [hnamed, heq, update_self]
      · exact hnone pid' i hmem

/-- A record that does not show the object. -/
def CapMap.Off (m : CapMap) (o : ℕ) : Prop := m.active = true → m.objId ≠ o

/-- No map record shows the object. -/
def State.Unmapped (s : State) (o : ℕ) : Prop :=
  ∀ ti < capTableMax, ∀ i < capMapMax, ((s.tables ti).maps i).Off o

lemma State.Unmapped.congr (h : s.Unmapped o) (htab : s'.tables = s.tables) : s'.Unmapped o := by
  simpa only [State.Unmapped, htab] using h

lemma off_dropMap (h : ((s.tables tj).maps j).Off o) :
    (((dropMap s cr3 ti i).tables tj).maps j).Off o := by
  rw [dropMap_maps]
  split_ifs
  · exact fun hact => by cases hact
  · exact h

lemma off_capTableUnmapObject (h : ((s.tables tj).maps j).Off o) :
    (((capTableUnmapObject env s ti o).tables tj).maps j).Off o := by
  unfold capTableUnmapObject
  refine foldlRecOn (motive := fun s' : State => ((s'.tables tj).maps j).Off o) _ _ h ?_
  intro s1 h1 i _
  dsimp only
  split_ifs
  · exact off_dropMap h1
  · exact h1

lemma capTableUnmapObject_off (hi : i < capMapMax) :
    (((capTableUnmapObject env s ti o).tables ti).maps i).Off o := by
  unfold capTableUnmapObject
  refine Machine.foldl_establishes (Q := fun (s' : State) i => ((s'.tables ti).maps i).Off o)
    (fun s1 i j h1 => ?_) (fun s1 i _ => ?_) i (mem_range.2 hi)
  · grind [off_dropMap]
  dsimp only
  split_ifs with hm
  · rw [dropMap_maps, if_pos ⟨rfl, rfl⟩]
    exact fun hact => by cases hact
  · exact fun hact hobj => hm ⟨hact, hobj⟩

def unmapEverywhere (env : Env) (s : State) (o : ℕ) : State :=
  (range capTableMax).foldl (fun s ti => capTableUnmapObject env s ti o) s

variable (env R s o) in
lemma unmapEverywhere_drops : Drops env R s (unmapEverywhere env s o) ∧
    (unmapEverywhere env s o).objects = s.objects := by
  refine foldlRecOn (motive := fun s' : State => Drops env R s s' ∧ s'.objects = s.objects)
    _ _ ⟨.refl, rfl⟩ ?_
  intro s1 ⟨hs, hobj⟩ ti _
  have hstep : Drops env R s1 (capTableUnmapObject env s1 ti o) ∧ _ := capTableUnmapObject_drops
  exact ⟨hs.trans hstep.1, hstep.2.trans hobj⟩

lemma unmapEverywhere_unmapped : (unmapEverywhere env s o).Unmapped o := by
  have hall : ∀ l : List ℕ, ∀ ti ∈ l, ∀ i < capMapMax,
      (((l.foldl (fun s ti => capTableUnmapObject env s ti o) s).tables ti).maps i).Off o := by
    intro l
    refine Machine.foldl_establishes
      (Q := fun (s' : State) ti => ∀ i < capMapMax, ((s'.tables ti).maps i).Off o)
      (fun s1 ti tj h1 i hi => ?_) (fun s1 ti _ i hi => ?_)
    · exact off_capTableUnmapObject (h1 i hi)
    · exact capTableUnmapObject_off hi
  intro ti hti
  rw [unmapEverywhere]
  exact hall _ ti (mem_range.2 hti)

/-- The object as a revocation finds it when it starts to clean up. -/
def State.mark (s : State) (o : ℕ) : State :=
  s.modObject o fun ob => { ob with revoking := true, holders := [] }

/-- The state at the end of a revocation, before the object dies. -/
def swept (env : Env) (s : State) (o : ℕ) : State :=
  unmapEverywhere env ((s.objects o).holders.reverse.foldl zeroHolder
    ((s.objects o).holders.foldl stampHolder (s.mark o))) o

variable (env) in
lemma swept_spec (h : Ready R s) (hR : R.Slots) (ho : s.Tracked o) :
    Drops env R (s.mark o) (swept env s o) ∧ (swept env s o).objects = (s.mark o).objects ∧
      (swept env s o).Unmapped o ∧ ∀ pid i, (swept env s o).named (.slot pid i) ≠ some o := by
  have hmark : Change env { R with mayRevoke := fun _ => True } s (s.mark o) :=
    .revoking o ho trivial
  have htidy : Tidy R.exact (s.mark o) := hmark.tidy h.tidy
  obtain ⟨hreg, hcount⟩ := h.tidy.held o ho
  have hlt : o < s.objNext := by grind [ho.1, h.tidy.objects.unborn]
  have hrev : ((s.mark o).objects o).revoking := by simp [mark, modObject]
  obtain ⟨hstamp, channels, hchannels⟩ := stampHolders_drops env R hrev hlt
    (s.objects o).holders fun c ref d hmem hD => by
      have hn := (hreg.mem (.queue c ref d) hD).1 hmem
      simp only [named] at hn
      split_ifs at hn
      exact (names_eq_some.1 hn).2.2
  have hslots : ∀ pid i, ((s.objects o).holders.foldl stampHolder (s.mark o)).named (.slot pid i) =
      s.named (.slot pid i) := by
    intro pid i
    rw [hchannels]
    rfl
  have hun : ¬((s.objects o).holders.foldl stampHolder (s.mark o)).Tracked o := by
    rw [hchannels]
    rintro ⟨-, hno⟩
    rw [show ((s.mark o).objects o).revoking = false from hno] at hrev
    cases hrev
  obtain ⟨hzero, hobj, hnone⟩ := zeroHolders_drops env (hstamp.tidy htidy) hun
    (s.objects o).holders.reverse (fun pid i hmem => by
      rw [hslots]
      exact (hreg.mem (.slot pid i) (hR pid i)).1 (mem_reverse.1 hmem)) fun pid i => by
      rw [count_reverse]
      refine Nat.le_trans ?_ (hreg.once (.slot pid i) (hR pid i))
      exact countP_mono_left fun q _ hq => by simp_all [key]
  obtain ⟨hunmap, hobj'⟩ := unmapEverywhere_drops env R ((s.objects o).holders.reverse.foldl
    zeroHolder ((s.objects o).holders.foldl stampHolder (s.mark o))) o
  refine ⟨(hstamp.trans hzero).trans hunmap, ?_, unmapEverywhere_unmapped, fun pid i hn => ?_⟩
  · rw [swept, hobj', hobj, hchannels]
  have hn2 := hunmap.named (hzero.tidy (hstamp.tidy htidy)) hn
  have hn1 := hzero.named (hstamp.tidy htidy) hn2
  rw [hslots] at hn1
  rw [hnone pid i (mem_reverse.2 ((hreg.mem (.slot pid i) (hR pid i)).2 hn1))] at hn2
  cases hn2

/-- The nodes of an object under revocation are given back, and the object dies. -/
def settleRevoked (s : State) (o n : ℕ) : State :=
  reapUnheld { s.modObject o fun ob => { ob with refcount := ob.refcount - n } with
    holderFree := s.holderFree + n } o

variable (env R) in
lemma settleRevoked_drops (n : ℕ) (hact : (s.objects o).active)
    (hrev : (s.objects o).revoking) (hn : (s.objects o).refcount = n)
    (hdie : ∀ s1, Drops env R s s1 → R.mayDie s1 o) :
    Drops env R s (settleRevoked s o n) ∧
      ∃ ob : CapObject, (settleRevoked s o n).objects = update s.objects o ob.dead := by
  have hsettle : Drop env R s (s.modObject o fun ob => { ob with
      holders := (s.objects o).holders, refcount := (s.objects o).refcount - n }) :=
    .settle o _ _ hrev
  have hready := (Relation.ReflTransGen.single hsettle).tail (.holders (s.holderFree + n))
  refine ⟨hready.tail (.reap o ?_ ?_ fun _ => hdie _ hready),
    ⟨{ s.objects o with refcount := 0 }, ?_⟩⟩
  · simpa [modObject] using hact
  · simpa [modObject] using hrev
  · rw [settleRevoked, reapUnheld_objects]
    simp [modObject, hn]

lemma settleRevoked_tables : (settleRevoked s o n).tables = s.tables := by
  obtain ⟨_, _, _, _, _, heq⟩ := reapUnheld_eq { s.modObject o fun ob =>
    { ob with refcount := ob.refcount - n } with holderFree := s.holderFree + n } o
  rw [settleRevoked, heq]
  rfl

def revoked (env : Env) (s : State) (o : ℕ) : State :=
  settleRevoked (swept env s o) o (s.objects o).holders.length

/-- The object dies, the others stay, no record maps it, and no slot names it any more. -/
theorem revoked_spec (h : Ready R s) (hR : R.Slots) (ho : s.Tracked o)
    (hdie : ∀ s1, Drops env R (s.mark o) s1 → R.mayDie s1 o) :
    Drops env R (s.mark o) (revoked env s o) ∧
      (∃ ob : CapObject, (revoked env s o).objects = update s.objects o ob.dead) ∧
      (revoked env s o).Unmapped o ∧ ∀ pid i, (revoked env s o).named (.slot pid i) ≠ some o := by
  obtain ⟨hswept, hobj, hunmapped, hslots⟩ := swept_spec env h hR ho
  have hmark : Tidy R.exact (s.mark o) := by
    have hc : Change env { R with mayRevoke := fun _ => True } s (s.mark o) :=
      .revoking o ho trivial
    exact hc.tidy h.tidy
  obtain ⟨hsettled, ob, hob⟩ := settleRevoked_drops env R (s.objects o).holders.length
    (by simpa [hobj, mark, modObject] using ho.1)
    (by simp [hobj, mark, modObject])
    (by simpa [hobj, mark, modObject] using (h.tidy.held o ho).2)
    fun s1 hs1 => hdie s1 (hswept.trans hs1)
  refine ⟨hswept.trans hsettled, ⟨ob, ?_⟩, ?_, fun pid i hn => ?_⟩
  · rw [revoked, hob, hobj, mark, modObject, update_idem]
  · exact hunmapped.congr settleRevoked_tables
  · exact hslots pid i (hsettled.named (hswept.tidy hmark) hn)

variable (env) in
/-- A revocation fails and changes no more than a table's owner, or revokes an object. -/
theorem capRevoke_cases (h : Ready R s) (hidx : capIdx < capTableEntries) :
    (∃ e, (capRevoke env s pid capIdx).2 = .error e) ∧
        Shifts env R s (capRevoke env s pid capIdx).1 ∨
      ∃ ti, s.Owns pid ti ∧ capWordValid ((s.tables ti).slots capIdx) ∧
        s.Tracked ((s.tables ti).slots capIdx).obj ∧
        capRevoke env s pid capIdx = (revoked env s ((s.tables ti).slots capIdx).obj, .ok ()) := by
  rcases capTableIndex_cases env R h.tidy.tables pid with
    ⟨ti, hown, htab⟩ | htab | ⟨ti, htab, hbind, -, hempty⟩
  case inr.inl =>
    rw [capRevoke, htab]
    exact .inl ⟨⟨_, rfl⟩, .refl⟩
  case inr.inr =>
    rw [capRevoke, htab]
    dsimp only
    rw [if_pos (by simp [not_valid_of_none (hempty capIdx hidx)])]
    exact .inl ⟨⟨_, rfl⟩, .single hbind⟩
  rw [capRevoke, htab]
  dsimp only
  split_ifs with hvalid hget hrev
  · exact .inl ⟨⟨_, rfl⟩, .refl⟩
  · exact .inl ⟨⟨_, rfl⟩, .refl⟩
  · exact .inl ⟨⟨_, rfl⟩, .refl⟩
  · exact .inr ⟨ti, hown, by simpa using hvalid, h.tracked (active_of_get hget), rfl⟩

lemma capRevoke_changes (h : Ready R s) (hR : R.Slots) (hidx : capIdx < capTableEntries)
    (hdie : s.Tracked (s.slotWord pid capIdx).obj → R.mayRevoke (s.slotWord pid capIdx).obj ∧
      ∀ s1, Drops env R (s.mark (s.slotWord pid capIdx).obj) s1 →
        R.mayDie s1 (s.slotWord pid capIdx).obj) :
    Changes env R s (capRevoke env s pid capIdx).1 ∧ Ready R (capRevoke env s pid capIdx).1 := by
  rcases capRevoke_cases env h hidx with ⟨-, hs⟩ | ⟨ti, hown, -, ho, heq⟩
  · exact ⟨hs.changes, hs.ready h⟩
  rw [slotWord_owned hown] at hdie
  obtain ⟨hrevoke, hdie⟩ := hdie ho
  obtain ⟨hdrops, ⟨ob, hob⟩, -⟩ := revoked_spec h hR ho hdie
  have hchain : Changes env R s (capRevoke env s pid capIdx).1 := by
    rw [heq]
    exact .head (.revoking _ ho hrevoke) hdrops.changes
  refine ⟨hchain, hchain.tidy h.tidy, ?_, hchain.kept h.tidy h.kept, hchain.wires h.tidy h.wires⟩
  rw [heq]
  exact settled_update h.settled hob fun hact => by cases hact

end AeroSLS.Cap
