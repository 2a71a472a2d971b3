import AeroSLS.Cap.Effects

namespace AeroSLS.Cap

open Function Register Chain

variable {p : CapHolder} {ob : CapObject}

/-- A word that, if its place is accounted for, names no live object. -/
def State.Spent (s : State) (D : HolderKey → Prop) (k : HolderKey) (w : CapWord) : Prop :=
  D k → ∀ o, w.names = some o → ¬s.Tracked o

/-- The table of `ti` made ready for the next process. -/
def unbindTable (s : State) (ti : ℕ) : State :=
  capTableFreelistInit
    { s.modTable ti fun t => { t with pid := 0 } with tablePid := update s.tablePid ti 0 } ti

variable {D : HolderKey → Prop} {s s' : State} {pid ti o : ℕ} {w : CapWord}

lemma Tables.of_eq (h : Tables s) (htab : s'.tables = s.tables)
    (hpid : s'.tablePid = s.tablePid) : Tables s' where
  kernel := by rw [hpid, h.kernel]
  pid := by simpa only [hpid, htab] using h.pid
  inj := by simpa only [hpid] using h.inj
  free := by simpa only [htab] using h.free
  idle := by simpa only [hpid, htab] using h.idle

lemma Rings.modChannel (h : Rings s) {f : CapChannel → CapChannel}
    (hf : c < capChanMax → ∀ d, (f (s.channels c)).qdepth d ≤ chanQueueDepth ∧
      (f (s.channels c)).qtail d = (f (s.channels c)).qhead d + (f (s.channels c)).qdepth d) :
    Rings (s.modChannel c f) := by
  intro c' hc' d
  by_cases hc : c' = c
  · subst hc
    simpa [State.modChannel] using hf hc' d
  · simpa [State.modChannel, hc] using h c' hc' d

lemma Rings.modMsg (h : Rings s) : Rings (s.modMsg c d entry f) := h.modChannel (h c)

lemma Objects.of_eq (h : Objects s) (hobj : s'.objects = s.objects)
    (hnext : s'.objNext = s.objNext) : Objects s' := by
  obtain ⟨h1, h2, h3⟩ := h
  exact ⟨by rwa [hnext], by rwa [hnext, hobj], by rwa [hnext, hobj]⟩

lemma Tidy.aside (h : Tidy D s) (hcalm : Calm s s') (hobj : s'.objects = s.objects) :
    Tidy D s' where
  tables := h.tables.calm hcalm
  rings := h.rings.calm hcalm
  contents := h.contents.calm hcalm fun _ _ => by rw [hobj]
  stamped := h.stamped.calm hcalm fun _ _ hr => by rwa [hobj]
  objects := h.objects.of_eq hobj hcalm.objNext
  held := h.held.congr hobj hcalm.named

lemma Contents.setWord (h : Contents s)
    (hw : w = 0 ∨ w = capWordStampRevoked (s.word c d entry i)) :
    Contents (s.setWord c d entry i w) :=
  h.modMsg fun hl hc => (h.queues c hc d entry hl).blank
    (f := fun cap => { cap with word := w }) hw

lemma word_setWord : (s.setWord c d entry i w).word c' d' entry' i' =
    if c' = c ∧ d' = d ∧ entry' = entry ∧ i' = i then w else s.word c' d' entry' i' := by
  simp only [State.word, State.setWord, msg_modMsg]
  by_cases hp : c' = c ∧ d' = d ∧ entry' = entry
  · obtain ⟨rfl, rfl, rfl⟩ := hp
    by_cases hii : i' = i
    · subst hii
      simp
    · simp [hii]
  · grind

lemma Stamped.setWord (h : Stamped D s) (hw : w.state = .revoked → D (queueKey c entry i) →
      w.obj < s.objNext ∧ (s.objects w.obj).revoking) :
    Stamped D (s.setWord c d entry i w) := by
  intro c' hc' d' entry' hl i' hi' hD hst
  have hl' : s.Live c' d' entry' := live_modMsg.1 hl
  rw [word_setWord] at hst ⊢
  split_ifs at hst ⊢ with hp
  · obtain ⟨rfl, rfl, rfl, rfl⟩ := hp
    exact hw hst hD
  · exact h c' hc' d' entry' hl' i' hi' hD hst

lemma revoking_update (hobj : s'.objects = update s.objects o ob)
    (hr : (s.objects o).revoking → ob.revoking) (h : (s.objects o').revoking) :
    (s'.objects o').revoking := by
  rw [hobj]
  by_cases hoo : o' = o
  · grind
  · rwa [update_of_ne hoo]

lemma without_revoking (h : ob.revoking) : (ob.without k).revoking := by
  simp only [CapObject.without]
  split_ifs
  · rfl
  · exact h

lemma queuePlace_key : (queuePlace c d entry i).key = queueKey c entry i := rfl

lemma key_eq_queueKey (hp : p.key = queueKey c entry i) :
    p = queuePlace c d entry i ∨ p = queuePlace c (!d) entry i := by
  cases p with
  | slot => cases hp
  | queue c' ref d' =>
    obtain ⟨rfl, rfl⟩ := hp
    cases d <;> cases d' <;> simp [queuePlace]

lemma key_eq_slot (hp : p.key = .slot pid i) : p = .slot pid i := by
  cases p with
  | slot => cases hp; rfl
  | queue => cases hp

lemma registers_without (hreg : Registers CapHolder.key D (s.objects o).holders
    fun p => s.named p = some o) (hp : D p.key → s.named p = some o)
    (hact : ((s.objects o).without p.key).active) :
    Registers CapHolder.key D ((s.objects o).without p.key).holders
      fun q => update s.named p none q = some o := by
  rw [(without_of_active hact).1]
  refine (hreg.remove p.key).congr fun q hq => ?_
  by_cases hqp : q = p
  · subst hqp
    simp
  · grind [hreg.unique]

lemma named_update_none (hne : o' ≠ o) (hp : D p.key → s.named p = some o) (hq : D q.key) :
    update s.named p none q = some o' ↔ s.named q = some o' := by
  by_cases hqp : q = p
  · subst hqp
    rw [hp hq]
    simp [hne.symm]
  · rw [update_of_ne hqp]

/-- An object is rewritten and the rest is left alone, except for the places. -/
theorem Tidy.calmed (h : Tidy D s) (hcalm : Calm s s1) (hobj : s1.objects = update s.objects o ob)
    (hkind : ob.kind = (s.objects o).kind) (hrev : (s.objects o).revoking → ob.revoking) :
    Tables s1 ∧ Rings s1 ∧ Contents s1 ∧ Stamped D s1 :=
  ⟨h.tables.calm hcalm, h.rings.calm hcalm, h.contents.calm hcalm fun _ _ => kind_update hobj hkind,
    h.stamped.calm hcalm fun _ _ => revoking_update hobj hrev⟩

/-- The list of an object after the holder at `p` and its word are gone. -/
theorem Held.without (h : Tidy D s) (ho : s.Tracked o) (hp : D p.key → s.named p = some o)
    (hobj : s'.objects = update s.objects o ((s.objects o).without p.key))
    (hn : s'.named = update s.named p none) : Held D s' := by
  refine h.held.relist hobj (fun hact _ => ?_) fun q o' hne hq _ => ?_
  · rw [hn]
    exact ⟨registers_without (h.held o ho).1 hp hact, (without_of_active hact).2⟩
  · rw [hn]
    exact named_update_none hne hp hq

lemma Tidy.queued (h : Tidy D s) (hc : c < capChanMax) (hl : s.Live c d entry)
    (hi : i < capMsgMaxCaps) (ho : s.Tracked (s.word c d entry i).obj)
    (hD : D (queueKey c entry i) → (s.word c d entry i).names = some (s.word c d entry i).obj) :
    Tidy D ((reapUnheld (capHolderRemove s (s.word c d entry i).obj (queueKey c entry i))
      (s.word c d entry i).obj).setWord c d entry i 0) := by
  have hobj := reap_remove_objects (k := queueKey c entry i) (h.held _ ho).2
  have hcalm := calm_reap_remove (s := s) (o := (s.word c d entry i).obj) (k := queueKey c entry i)
  generalize hs1 : reapUnheld (capHolderRemove s (s.word c d entry i).obj (queueKey c entry i))
    (s.word c d entry i).obj = s1 at hobj hcalm
  obtain ⟨htab, hrings, hcont, hst⟩ := h.calmed hcalm hobj without_kind without_revoking
  refine ⟨htab.of_eq rfl rfl, hrings.modMsg, hcont.setWord (.inl rfl),
    hst.setWord fun hst => (by cases hst),
    (h.objects.update hobj hcalm.objNext without_id without_active).of_eq rfl rfl,
    Held.without (p := queuePlace c d entry i) h ho (fun hk => ?_) hobj ?_⟩
  · rw [named_queuePlace hi, if_pos ⟨hc, hl⟩, hD hk]
  · rw [named_setWord hc (hcalm.live.2 hl) hi, hcalm.named, names_zero]

lemma Tidy.word (h : Tidy D s) (hi : i < capMsgMaxCaps)
    (hw : w = 0 ∨ w = capWordStampRevoked (s.word c d entry i) ∧ (D (queueKey c entry i) →
      (s.word c d entry i).obj < s.objNext ∧ (s.objects (s.word c d entry i).obj).revoking))
    (hD : s.Spent D (queueKey c entry i) (s.word c d entry i)) :
    Tidy D (s.setWord c d entry i w) := by
  have hwn : w.names = none := by
    rcases hw with rfl | ⟨rfl, -⟩
    · rfl
    · exact names_stamp _
  refine ⟨h.tables.of_eq rfl rfl, h.rings.modMsg, h.contents.setWord (hw.imp_right And.left),
    h.stamped.setWord fun hst => ?_, h.objects.of_eq rfl rfl, h.held.erase rfl fun p => ?_⟩
  · rcases hw with rfl | ⟨rfl, hrev⟩
    · cases hst
    · exact hrev
  by_cases hlc : c < capChanMax ∧ s.Live c d entry
  · rw [named_setWord hlc.1 hlc.2 hi]
    by_cases hp : p = queuePlace c d entry i
    · subst hp
      refine .inr ⟨by rw [update_self, hwn], fun hk o ho => ?_⟩
      rw [named_queuePlace hi, if_pos hlc] at ho
      exact hD hk o ho
    · rw [update_of_ne hp]
      exact .inl rfl
  · exact .inl (congrFun (named_modMsg_of_not_live hlc) p)

lemma ty_ne_none_of_names (h : w.names = some o) : w.ty ≠ .none := by
  have hv := (names_eq_some.1 h).1
  intro hty
  simp [capWordValid, hty] at hv

lemma Contents.push (h : Contents s) : Contents (capSlotPush s ti i) :=
  h.slot (w := freeLink (s.tables ti).freelistHead) rfl fun o ho => by simp [names_freeLink] at ho

lemma Tidy.slot (h : Tidy D s) (hown : s.Owns pid ti) (hi : i < capTableEntries)
    (hw : ((s.tables ti).slots i).names = some o) (ho : s.Tracked o) :
    Tidy D (capSlotPush (reapUnheld (capHolderRemove s o (.slot pid i)) o) ti i) := by
  have hobj := reap_remove_objects (k := .slot pid i) (h.held o ho).2
  have hcalm := calm_reap_remove (s := s) (o := o) (k := .slot pid i)
  generalize reapUnheld (capHolderRemove s o (.slot pid i)) o = s1 at hobj hcalm
  obtain ⟨htab, hrings, hcont, hst⟩ := h.calmed hcalm hobj without_kind without_revoking
  refine ⟨htab.push hown.lt hi ?_, hrings, hcont.push, hst,
    (h.objects.update hobj hcalm.objNext without_id without_active).of_eq rfl rfl,
    Held.without h ho (fun _ => (named_slot hown hi).trans hw) hobj ?_⟩
  · rw [(hcalm.tables ti).2.2]
    exact ty_ne_none_of_names hw
  · rw [named_capSlotPush htab (hcalm.owns.2 hown) hi, hcalm.named]

lemma Tidy.clear (h : Tidy D s) (hown : s.Owns pid ti) (hi : i < capTableEntries)
    (hty : ((s.tables ti).slots i).ty ≠ .none)
    (hD : s.Spent D (.slot pid i) ((s.tables ti).slots i)) : Tidy D (capSlotPush s ti i) := by
  refine ⟨h.tables.push hown.lt hi hty, h.rings, h.contents.push, h.stamped,
    h.objects.of_eq rfl rfl, h.held.erase rfl fun p => ?_⟩
  rw [named_capSlotPush h.tables hown hi]
  by_cases hp : p = .slot pid i
  · subst hp
    rw [update_self]
    refine .inr ⟨rfl, fun hk o ho => hD hk o ?_⟩
    rwa [named_slot hown hi] at ho
  · rw [update_of_ne hp]
    exact .inl rfl

lemma Tables.refile (ht : Tables s) (hown : s.Owns pid ti)
    (hpop : capSlotPop s ti = some (s1, idx)) : Tables (capSlotPush s1 ti idx) := by
  have hset : capSlotPush s1 ti idx = capSlotPush (s1.setSlot ti idx (capWordMake .mem 0 0 0 0))
      ti idx := by
    simp [capSlotPush, State.setSlot, State.modTable]
  have hpopped := ht.popSet (w := capWordMake .mem 0 0 0 0) hpop hown.lt (hown.used ht) (by decide)
  rw [hset]
  refine hpopped.1.push hown.lt hpopped.2.1 ?_
  simp [State.setSlot, State.modTable, capWordMake]

lemma names_of_none (h : w.ty = .none) : w.names = none := by
  simp [CapWord.names, capWordValid, h]

lemma capSlotPush_pop (hpop : capSlotPop s ti = some (s1, idx)) :
    capSlotPush s1 ti idx = s.modTable ti fun t => { t with
      freelistHead := idx
      slots := update t.slots idx (freeLink ((t.slots idx).obj % 2 ^ 16)) } := by
  obtain ⟨-, -, rfl⟩ := capSlotPop_eq hpop
  simp [capSlotPush, State.modTable]

lemma named_refile (ht : Tables s) (hown : s.Owns pid ti)
    (hpop : capSlotPop s ti = some (s1, idx)) : (capSlotPush s1 ti idx).named = s.named := by
  obtain ⟨hidx, hty⟩ := ht.popped hpop hown.lt
  rw [capSlotPush_pop hpop, named_slots ht hown hidx rfl, update_eq_iff]
  exact ⟨((named_slot hown hidx).trans (names_of_none hty)).symm, fun _ _ => rfl⟩

lemma Tidy.refile (h : Tidy D s) (hown : s.Owns pid ti)
    (hpop : capSlotPop s ti = some (s1, idx)) : Tidy D (capSlotPush s1 ti idx) := by
  have htables := h.tables.refile hown hpop
  have hnamed := named_refile h.tables hown hpop
  rw [capSlotPush_pop hpop] at htables hnamed ⊢
  exact ⟨htables, h.rings, h.contents.slot rfl fun o ho => by simp [names_freeLink] at ho,
    h.stamped,
    h.objects.of_eq rfl rfl, h.held.congr rfl hnamed⟩

lemma Tidy.scribble (h : Tidy D s) (hl : ¬s.Live c d entry) : Tidy D (s.modMsg c d entry f) where
  tables := h.tables.of_eq rfl rfl
  rings := h.rings.modMsg
  contents := h.contents.modMsg fun hl' => absurd hl' hl
  stamped := h.stamped.mono (fun c' _ d' entry' hl' i' _ _ => by
    have hl'' := live_modMsg.1 hl'
    refine ⟨hl'', ?_⟩
    simp only [State.word, msg_modMsg]
    rw [if_neg]
    rintro ⟨rfl, rfl, rfl⟩
    exact hl hl'') (Nat.le_refl _) fun _ _ hr => hr
  objects := h.objects.of_eq rfl rfl
  held := h.held.congr rfl (named_modMsg_of_not_live fun h => hl h.2)

theorem Tidy.shorten (h : Tidy D s) {f : CapChannel → CapChannel}
    (hrings : Rings (s.modChannel c f)) (hq : (f (s.channels c)).q = (s.channels c).q)
    (hlive : ∀ {c' d entry}, (s.modChannel c f).Live c' d entry → s.Live c' d entry)
    (hD : ∀ c' d entry, s.Live c' d entry → ¬(s.modChannel c f).Live c' d entry →
      ∀ i < capMsgMaxCaps, s.Spent D (queueKey c' entry i) (s.word c' d entry i)) :
    Tidy D (s.modChannel c f) where
  tables := h.tables.of_eq rfl rfl
  rings := hrings
  contents :=
    { slots := h.contents.slots
      queues := fun c' hc' d entry hl => by
        rw [msg_modChannel hq]
        exact h.contents.queues c' hc' d entry (hlive hl) }
  stamped := h.stamped.mono (fun _ _ _ _ hl _ _ _ =>
    ⟨hlive hl, by simp only [State.word, msg_modChannel hq]⟩) (Nat.le_refl _) fun _ _ hr => hr
  objects := h.objects.of_eq rfl rfl
  held := h.held.erase rfl fun p => by
    cases p with
    | slot => exact .inl rfl
    | queue c' ref d =>
      obtain ⟨entry, i, hi, hp⟩ := exists_queuePlace
      rw [hp, named_queuePlace hi, named_queuePlace hi]
      simp only [State.word, msg_modChannel hq]
      by_cases hl : (s.modChannel c f).Live c' d entry
      · exact .inl (by simp [hl, hlive hl])
      refine .inr ⟨by simp [hl], fun hk o ho => ?_⟩
      split_ifs at ho with hl'
      exact hD c' d entry hl'.2 hl i hi hk o ho

lemma Tidy.head (h : Tidy D s) (hc : c < capChanMax) (hpos : 0 < (s.channels c).qdepth d)
    (hD : ∀ i < capMsgMaxCaps, s.Spent D (queueKey c ((s.channels c).qhead d % chanQueueDepth) i)
      (s.word c d ((s.channels c).qhead d % chanQueueDepth) i)) :
    Tidy D (popHead s c d) := by
  have hlive : ∀ {c' d' entry'}, (popHead s c d).Live c' d' entry' ↔ _ :=
    live_popHead h.rings hc hpos
  refine h.shorten (h.rings.modChannel fun hc d' => ?_) rfl (fun hl => (hlive.1 hl).1)
    fun c' d' entry hl hnot => ?_
  · have hr := h.rings c hc d'
    by_cases hd : d' = d
    · grind
    · simpa [hd] using hr
  · obtain ⟨rfl, rfl, rfl⟩ := not_not.1 fun hne => hnot (hlive.2 ⟨hl, hne⟩)
    exact hD

lemma Tidy.remade (h : Tidy D s) (hcalm : Calm s s') (hobj : s'.objects = update s.objects o ob)
    (hid : ob.id = (s.objects o).id) (hkind : ob.kind = (s.objects o).kind)
    (hact : ob.active → (s.objects o).active) (hrev : (s.objects o).revoking → ob.revoking)
    (hheld : Held D s') : Tidy D s' := by
  obtain ⟨htab, hrings, hcont, hst⟩ := h.calmed hcalm hobj hkind hrev
  exact ⟨htab, hrings, hcont, hst, h.objects.update hobj hcalm.objNext hid hact, hheld⟩

lemma unbindTable_tables : (unbindTable s ti).tables tj =
    if tj = ti then { s.tables ti with pid := 0, freelistHead := 0, slots := freshSlots }
    else s.tables tj := by
  simp [unbindTable, capTableFreelistInit, State.modTable, update_apply]

lemma unbindTable_tablePid : (unbindTable s ti).tablePid = update s.tablePid ti 0 := rfl

lemma freshSlots_free : FreeList (fun i => (freshSlots i).obj % 2 ^ 16) capFreelistEnd 0
    fun i => i < capTableEntries ∧ (freshSlots i).ty = .none := by
  refine (freeList_init (by decide) (by decide)).congr (fun i hi => ?_)
    fun i => ⟨fun h => h.1, fun h => ⟨h, rfl⟩⟩
  simp only [freshSlots, freeLink]
  split_ifs with hlast
  · simp only [capTableEntries] at hlast
    omega
  · rfl

lemma Tables.unbind (h : Tables s) : Tables (unbindTable s ti) where
  kernel := by
    rw [unbindTable_tablePid]
    by_cases h0 : 0 = ti
    · subst h0
      rw [update_self]
    · rw [update_of_ne h0, h.kernel]
  pid tj htj := by
    rw [unbindTable_tables, unbindTable_tablePid]
    by_cases ht : tj = ti
    · subst ht
      simp
    · simp [ht, h.pid tj htj]
  inj tj htj tk htk heq hne := by
    rw [unbindTable_tablePid] at heq hne
    by_cases hj : tj = ti
    · subst hj
      simp at hne
    · grind [h.inj]
  free tj htj := by
    rw [unbindTable_tables]
    by_cases ht : tj = ti
    · subst ht
      simpa using freshSlots_free
    · simpa [ht] using h.free tj htj
  idle tj htj h0 hp i hi := by
    rw [unbindTable_tables]
    by_cases ht : tj = ti
    · subst ht
      simp only [if_true]
      rfl
    · rw [unbindTable_tablePid, update_of_ne ht] at hp
      simpa [ht] using h.idle tj htj h0 hp i hi

/-- The slots of a process. -/
def CapHolder.ofPid (pid : ℕ) : CapHolder → Bool
  | .slot pid' _ => pid' == pid
  | .queue _ _ _ => false

/-- After a table is given back, its slots name nothing. -/
theorem named_unbindTable (ht : Tables s) (hown : s.Owns pid ti) :
    (unbindTable s ti).named = fun p => if p.ofPid pid then none else s.named p := by
  have ht' : Tables (unbindTable s ti) := ht.unbind
  refine named_ext (fun pid' ref => ?_) fun c d entry i hi => rfl
  by_cases hp : pid' = pid
  · subst hp
    simp only [CapHolder.ofPid, beq_self_eq_true]
    rcases hn : (unbindTable s ti).named (.slot pid' ref) with _ | o
    · rfl
    obtain ⟨tj, hown', -, hname⟩ := exists_of_named_slot hn
    have hpid := hown'.tablePid ht'
    rw [unbindTable_tables] at hname
    rw [unbindTable_tablePid] at hpid
    by_cases htj : tj = ti
    · simp [htj, freshSlots, names_freeLink] at hname
    rw [update_of_ne htj] at hpid
    by_cases h0 : pid' = 0
    · subst h0
      exact absurd ((owns_zero.1 hown').trans (owns_zero.1 hown).symm) htj
    · have := ht.inj tj hown'.lt ti hown.lt (hpid.trans (hown.tablePid ht).symm) (by rwa [hpid])
      exact absurd this htj
  · have hfind : capTableFind (unbindTable s ti) pid' = capTableFind s pid' := by
      by_cases h0 : pid' = 0
      · simp [capTableFind, h0]
      refine capTableFind_congr fun tj _ => ?_
      rw [unbindTable_tablePid]
      by_cases htj : tj = ti
      · grind [hown.tablePid]
      · rw [update_of_ne htj]
    simp only [CapHolder.ofPid, beq_false_of_ne hp, Bool.false_eq_true, State.named, hfind]
    split
    · rfl
    rename_i tj htj
    have hne : tj ≠ ti := by
      rintro rfl
      exact hp (State.Owns.pid_unique ht htj hown)
    simp only [unbindTable_tables, hne, if_false]

lemma Tidy.unbind (h : Tidy D s) (hown : s.Owns pid ti)
    (hD : ∀ i < capTableEntries, s.Spent D (.slot pid i) ((s.tables ti).slots i)) :
    Tidy D (unbindTable s ti) where
  tables := h.tables.unbind
  rings := h.rings
  contents :=
    { slots := fun tj htj i hi o ho => by
        rw [unbindTable_tables] at ho ⊢
        by_cases ht : tj = ti
        · simp [ht, freshSlots, names_freeLink] at ho
        · simp only [ht, if_false] at ho ⊢
          exact h.contents.slots tj htj i hi o ho
      queues := h.contents.queues }
  stamped := h.stamped
  objects := h.objects.of_eq rfl rfl
  held := h.held.erase rfl fun p => by
    rw [named_unbindTable h.tables hown]
    cases p with
    | queue => exact .inl rfl
    | slot pid' ref =>
      by_cases hp : pid' = pid
      · subst hp
        refine .inr ⟨by simp [CapHolder.ofPid], fun hk o ho => ?_⟩
        obtain ⟨tj, hown', hr, hname⟩ := exists_of_named_slot ho
        obtain rfl : tj = ti := Option.some.inj (hown'.symm.trans hown)
        exact hD ref hr hk o hname
      · exact .inl (by simp [CapHolder.ofPid, hp])

end AeroSLS.Cap
