import AeroSLS.Cap.Keep

namespace AeroSLS.Cap

open Function Register Chain

variable {q : CapHolder} {p : ℕ}

/-- Advance the tail back over the last entry. -/
def popTail (s : State) (c : ℕ) (d : Dir) : State :=
  s.modChannel c fun ch => { ch with
    qtail := update ch.qtail d (ch.qtail d - 1)
    qdepth := update ch.qdepth d (ch.qdepth d - 1) }

variable {D : HolderKey → Prop} {s : State} {pid ti i o : ℕ} {w : CapWord} {cap : MsgCap}

/-- A process takes a table that was unbound. -/
def bindTable (s : State) (ti pid : ℕ) : State :=
  { s.modTable ti fun t => { t with pid } with tablePid := update s.tablePid ti pid }

lemma bindTable_slots : ((bindTable s ti pid).tables tj).slots = (s.tables tj).slots :=
  update_same rfl

lemma bindTable_freelistHead :
    ((bindTable s ti pid).tables tj).freelistHead = (s.tables tj).freelistHead :=
  update_same rfl

section

variable (h0 : ti ≠ 0) (hpid : pid ≠ 0) (hnew : ∀ tj < capTableMax, s.tablePid tj ≠ pid)
include h0 hpid hnew

lemma Tables.bind (h : Tables s) : Tables (bindTable s ti pid) where
  kernel := by
    change update s.tablePid ti pid 0 = 0
    rw [update_of_ne h0.symm, h.kernel]
  pid tj htj := by
    by_cases ht : tj = ti
    · subst ht
      simp [bindTable, State.modTable]
    · simp [bindTable, State.modTable, ht, h.pid tj htj]
  inj tj htj tk htk heq hne := by
    change update s.tablePid ti pid tj = update s.tablePid ti pid tk at heq
    change update s.tablePid ti pid tj ≠ 0 at hne
    by_cases hj : tj = ti <;> by_cases hk : tk = ti
    · rw [hj, hk]
    · grind
    · grind
    · grind [h.inj]
  free tj htj := by
    rw [bindTable_slots, bindTable_freelistHead]
    exact h.free tj htj
  idle tj htj h0' hp i hi := by
    rw [bindTable_slots]
    change update s.tablePid ti pid tj = 0 at hp
    by_cases ht : tj = ti
    · grind
    · rw [update_of_ne ht] at hp
      exact h.idle tj htj h0' hp i hi

/-- A table that is bound was empty, so its new owner's slots name nothing yet. -/
theorem named_bindTable (ht : Tables s) (hti : ti < capTableMax) (hfree : s.tablePid ti = 0) :
    (bindTable s ti pid).named = s.named := by
  have ht' := ht.bind h0 hpid hnew
  refine named_ext (fun pid' ref => ?_) fun c d entry i hi => rfl
  by_cases hp : pid' = pid
  · subst hp
    have hown := owns_of_tablePid ht' hti (update_self ..) hpid
    have hnone : capTableFind s pid' = none := by
      cases hf : capTableFind s pid' with
      | none => rfl
      | some tj => exact absurd (State.Owns.tablePid ht hf) (hnew tj (State.Owns.lt hf))
    rw [State.Owns] at hown
    simp only [State.named, hown, hnone, bindTable_slots]
    split_ifs with hr
    · exact names_of_none (ht.idle ti hti h0 hfree ref hr)
    · rfl
  · have hfind : capTableFind (bindTable s ti pid) pid' = capTableFind s pid' := by
      by_cases hp0 : pid' = 0
      · simp [capTableFind, hp0]
      refine capTableFind_congr fun tj _ => ?_
      change update s.tablePid ti pid tj = pid' ↔ _
      by_cases htj : tj = ti
      · grind
      · rw [update_of_ne htj]
    simp only [State.named, hfind, bindTable_slots]

lemma Tidy.bind (h : Tidy D s) (hti : ti < capTableMax) (hfree : s.tablePid ti = 0) :
    Tidy D (bindTable s ti pid) where
  tables := h.tables.bind h0 hpid hnew
  rings := h.rings
  contents :=
    { slots := fun tj htj i hi o ho => by
        rw [bindTable_slots] at ho ⊢
        exact h.contents.slots tj htj i hi o ho
      queues := h.contents.queues }
  stamped := h.stamped
  objects := h.objects.of_eq rfl rfl
  held := h.held.congr rfl (named_bindTable h0 hpid hnew h.tables hti hfree)

end

theorem registers_moved (hreg : Registers CapHolder.key D (s.objects o).holders
    fun p => s.named p = some o) {p : CapHolder} (hne : p ≠ q) (hp : D p.key → s.named p = some o)
    (hq : D q.key → ∀ r ∈ (s.objects o).holders, r.key ≠ p.key → r.key ≠ q.key) :
    Registers CapHolder.key D (q :: (s.objects o).holders.eraseP fun h => h.key == p.key)
      fun r => update (update s.named p none) q (some o) r = some o := by
  have hrem := hreg.remove p.key
  refine (hrem.enter fun hD r hr => ?_).congr fun r hr => ?_
  · by_cases hk : r.key = p.key
    · intro hkq
      have hDp : D p.key := by rw [← hk, hkq]; exact hD
      exact not_mem_eraseP_key (hreg.once p.key hDp) hk hr
    · exact hq hD r ((mem_eraseP_key hk).1 hr) hk
  by_cases hrq : r = q
  · subst hrq
    simp
  rw [update_of_ne hrq]
  by_cases hrp : r = p
  · subst hrp
    simp [hrq]
  rw [update_of_ne hrp]
  simp only [hrq, or_false]
  refine ⟨fun h => ⟨h, fun hkey => ?_⟩, fun h => h.1⟩
  have hD : D p.key := hkey ▸ hr
  exact hrp (hreg.unique hD hkey (hp hD) h)

lemma named_update_move {p r : CapHolder} {o' : ℕ} (hne : o' ≠ o)
    (hp : D p.key → s.named p = some o) (hq : D q.key → ∀ o', s.named q = some o' → ¬s.Tracked o')
    (hr : D r.key) (ho' : s.Tracked o') :
    update (update s.named p none) q (some o) r = some o' ↔ s.named r = some o' := by
  by_cases hrq : r = q
  · grind
  · grind

/-- The two steps every move makes on the holder list. -/
def rehold (s : State) (o : ℕ) (k : HolderKey) (q : CapHolder) : State :=
  capHolderLink (capHolderRemove s o k) o q

def CapObject.moved (ob : CapObject) (k : HolderKey) (q : CapHolder) : CapObject :=
  { ob with
    holders := q :: ob.holders.eraseP fun h => h.key == k
    refcount := (ob.holders.eraseP fun h => h.key == k).length + 1 }

lemma calm_rehold : Calm s (rehold s o k q) := calm_capHolderRemove.trans calm_capHolderLink

lemma rehold_objects (hcount : (s.objects o).refcount = (s.objects o).holders.length) :
    (rehold s o k q).objects = update s.objects o ((s.objects o).moved k q) := by
  simp only [rehold, capHolderLink, State.modObject, capHolderRemove_objects hcount, update_self,
    update_idem, CapObject.moved]

lemma moveToQueue_eq (hpid : pid < 2 ^ 16) : moveToQueue s ti pid idx c d entry i cap =
    (capSlotPush (rehold s cap.word.obj (.slot pid idx) (queuePlace c d entry i)) ti idx).setCap
      c d entry i cap := by
  simp only [moveToQueue, Nat.mod_eq_of_lt hpid]
  rfl

lemma valid_of_names (h : w.names = some o) : w.state = .valid := by
  have hv := (names_eq_some.1 h).1
  simp only [capWordValid, Bool.and_eq_true, beq_iff_eq] at hv
  exact hv.1.2

lemma Stamped.setCap (h : Stamped D s) (hcap : cap.word.state = .valid) :
    Stamped D (s.setCap c d entry i cap) := by
  refine h.mono (fun c' _ d' entry' hl i' _ hst => ⟨live_modMsg.1 hl, ?_⟩) le_rfl fun _ _ hr => hr
  simp only [State.word, State.setCap, msg_modMsg] at hst ⊢
  split_ifs at hst ⊢ with hp
  · grind
  · rfl

variable (cap) in
lemma named_moveToQueue (ht : Tables s) (hown : s.Owns pid ti) (hslot : idx < capTableEntries)
    (hc : c < capChanMax) (hl : s.Live c d entry) (hi : i < capMsgMaxCaps) :
    (moveToQueue s ti pid idx c d entry i cap).named = update
      (update s.named (.slot pid idx) none) (queuePlace c d entry i) cap.word.names := by
  simp only [moveToQueue]
  have hcalm : Calm s (capHolderRemove s cap.word.obj (.slot (pid % 2 ^ 16) idx)) :=
    calm_capHolderRemove
  generalize capHolderRemove s cap.word.obj (.slot (pid % 2 ^ 16) idx) = s1 at hcalm ⊢
  have hlink : Calm (capSlotPush s1 ti idx) (capHolderLink (capSlotPush s1 ti idx) cap.word.obj
      (.queue c (entry * capMsgMaxCaps + i) d)) := calm_capHolderLink
  have hl1 := hcalm.live.2 hl
  rw [named_setCap hc (hlink.live.2 hl1) hi, hlink.named,
    named_capSlotPush (ht.calm hcalm) (hcalm.owns.2 hown) hslot, hcalm.named]

lemma Tidy.out (h : Tidy D s) (hpid : pid < 2 ^ 16) (hown : s.Owns pid ti)
    (hslot : idx < capTableEntries) (hw : (s.tables ti).slots idx = cap.word)
    (hname : cap.word.names = some cap.word.obj) (ho : s.Tracked cap.word.obj)
    (hc : c < capChanMax) (hl : s.Live c d entry) (hi : i < capMsgMaxCaps)
    (hzero : s.word c d entry i = 0) (hn : i < (s.msg c d entry).nCaps)
    (hmem : 0 < i → cap.word.ty = .mem)
    (htwin : D (queueKey c entry i) → s.named (queuePlace c (!d) entry i) ≠ some cap.word.obj) :
    Tidy D (moveToQueue s ti pid idx c d entry i cap) := by
  obtain ⟨hreg, hcount⟩ := h.held _ ho
  have hnamed := named_moveToQueue cap h.tables hown hslot hc hl hi
  rw [moveToQueue_eq hpid, hname] at hnamed
  rw [moveToQueue_eq hpid]
  have hcalm : Calm s (rehold s cap.word.obj (.slot pid idx) (queuePlace c d entry i)) :=
    calm_rehold
  have hobj := rehold_objects (k := .slot pid idx) (q := queuePlace c d entry i) hcount
  have hp : D (CapHolder.slot pid idx).key → s.named (.slot pid idx) = some cap.word.obj :=
    fun _ => by rw [named_slot hown hslot, hw, hname]
  have hq : s.named (queuePlace c d entry i) = none := by
    rw [named_queuePlace hi, if_pos ⟨hc, hl⟩, hzero, names_zero]
  generalize rehold s cap.word.obj (.slot pid idx) (queuePlace c d entry i) = s1
    at hcalm hobj hnamed ⊢
  obtain ⟨htab, hrings, hcont1, hst1⟩ := h.calmed hcalm hobj rfl id
  have hcont : Contents (capSlotPush s1 ti idx) := hcont1.push
  refine ⟨(htab.push hown.lt hslot ?_).of_eq rfl rfl,
    Rings.modMsg hrings, hcont.modMsg fun hl' hc' => ?_,
    Stamped.setCap hst1 (valid_of_names hname),
    h.objects.update hobj hcalm.objNext rfl id, ?_⟩
  · rw [(hcalm.tables ti).2.2, hw]
    exact ty_ne_none_of_names hname
  · have hknown : s.Known cap.word := by
      rw [← hw]
      exact h.contents.slots ti hown.lt idx hslot _ (by rw [hw, hname])
    have hn' := (hcalm.msgs c d entry).1.symm ▸ hn
    exact (hcont.queues c hc' d entry hl').fill hname
      (hknown.mono hcalm.objNext.ge fun o' _ => kind_update hobj rfl) hn' hmem
  · refine h.held.relist hobj (fun _ _ => ?_) fun r o' hne hr ho' => ?_
    · rw [hnamed]
      refine ⟨registers_moved hreg (by simp [queuePlace]) hp fun hD r hr _ hkey => ?_,
        by simp [CapObject.moved]⟩
      have hDr : D r.key := hkey ▸ hD
      rcases key_eq_queueKey (d := d) hkey with rfl | rfl
      · grind [hreg.mem]
      · exact htwin hD ((hreg.mem _ hDr).1 hr)
    · rw [hnamed]
      exact named_update_move hne hp (fun _ o' h => by rw [hq] at h; cases h) hr ho'

lemma setSlot_rehold : (rehold s o k q).setSlot ti i w = rehold (s.setSlot ti i w) o k q := by
  by_cases hany : (s.objects o).holders.any (fun h => h.key == k)
  · have hany' : ((s.setSlot ti i w).objects o).holders.any (fun h => h.key == k) := hany
    simp only [rehold, capHolderRemove, hany, hany']
    rfl
  · have hany' : ¬((s.setSlot ti i w).objects o).holders.any (fun h => h.key == k) := hany
    simp only [rehold, capHolderRemove, hany, hany']
    rfl

lemma moveToSlot_eq (hpid : pid < 2 ^ 16) : moveToSlot s ti pid idx c d entry i w =
    (rehold (s.setSlot ti idx w) w.obj (queueKey c entry i) (.slot pid idx)).setWord
      c d entry i 0 := by
  rw [← setSlot_rehold]
  simp only [moveToSlot, Nat.mod_eq_of_lt hpid]
  rfl

theorem named_moveToSlot (ht : Tables s) (hown : s.Owns pid ti)
    (hpop : capSlotPop s ti = some (s1, idx)) (hc : c < capChanMax) (hl : s.Live c d entry)
    (hi : i < capMsgMaxCaps) :
    (moveToSlot s1 ti pid idx c d entry i w).named = update
      (update s.named (queuePlace c d entry i) none) (.slot pid idx) w.names := by
  have hidx : idx < capTableEntries := (ht.popped hpop hown.lt).1
  have hset := capSlotPop_setSlot (w := w) hpop
  have hnset : (s1.setSlot ti idx w).named = update s.named (.slot pid idx) w.names := by
    rw [hset, named_slots ht hown hidx rfl]
  have hlset : (s1.setSlot ti idx w).Live c d entry := by rwa [hset]
  have hmove : moveToSlot s1 ti pid idx c d entry i w =
      (rehold (s1.setSlot ti idx w) w.obj (queueKey c entry i) (.slot (pid % 2 ^ 16) idx)).setWord
        c d entry i 0 := by
    rw [← setSlot_rehold]
    rfl
  have hcalm : Calm (s1.setSlot ti idx w) (rehold (s1.setSlot ti idx w) w.obj
      (queueKey c entry i) (.slot (pid % 2 ^ 16) idx)) := calm_rehold
  rw [hmove, named_setWord hc (hcalm.live.2 hlset) hi, hcalm.named, hnset, names_zero,
    update_comm (by simp [queuePlace])]

lemma Tidy.into (h : Tidy D s) (hpid : pid < 2 ^ 16) (hown : s.Owns pid ti)
    (hpop : capSlotPop s ti = some (s1, idx)) (hc : c < capChanMax) (hl : s.Live c d entry)
    (hi : i < capMsgMaxCaps)
    (hname : (s.word c d entry i).names = some (s.word c d entry i).obj)
    (ho : s.Tracked (s.word c d entry i).obj) :
    Tidy D (moveToSlot s1 ti pid idx c d entry i (s.word c d entry i)) := by
  obtain ⟨hreg, hcount⟩ := h.held _ ho
  obtain ⟨htables, hidx, htyp⟩ := h.tables.popSet hpop hown.lt (hown.used h.tables)
    (ty_ne_none_of_names hname)
  have hset := capSlotPop_setSlot (w := s.word c d entry i) hpop
  have hknown : s.Known (s.word c d entry i) :=
    (((h.contents.queues c hc d entry hl).2 i hi).2 _ hname).1
  have hcont : Contents (s1.setSlot ti idx (s.word c d entry i)) := by
    rw [hset]
    exact h.contents.slot rfl fun _ _ => hknown
  have hnamed := named_moveToSlot (w := s.word c d entry i) h.tables hown hpop hc hl hi
  rw [moveToSlot_eq hpid, hname] at hnamed
  have hrest : (s1.setSlot ti idx (s.word c d entry i)).objects = s.objects ∧
      (s1.setSlot ti idx (s.word c d entry i)).objNext = s.objNext ∧
      (s1.setSlot ti idx (s.word c d entry i)).channels = s.channels := by
    rw [hset]
    exact ⟨rfl, rfl, rfl⟩
  have hp : D (queuePlace c d entry i).key →
      s.named (queuePlace c d entry i) = some (s.word c d entry i).obj := fun _ => by
    rw [named_queuePlace hi, if_pos ⟨hc, hl⟩, hname]
  have hq : s.named (.slot pid idx) = none := by rw [named_slot hown hidx, names_of_none htyp]
  rw [moveToSlot_eq hpid]
  generalize s.word c d entry i = w at *
  generalize s1.setSlot ti idx w = s2 at *
  obtain ⟨hobj2, hnext2, hchan2⟩ := hrest
  have hcalm : Calm s2 (rehold s2 w.obj (queueKey c entry i) (.slot pid idx)) := calm_rehold
  have hobj := rehold_objects (k := queueKey c entry i) (q := .slot pid idx)
    (by rw [hobj2]; exact hcount)
  rw [hobj2] at hobj
  generalize rehold s2 w.obj (queueKey c entry i) (.slot pid idx) = s3 at *
  have hkind : ∀ o', (s3.objects o').kind = (s2.objects o').kind := fun o' => by
    rw [hobj2]
    exact kind_update hobj rfl
  refine ⟨(htables.calm hcalm).of_eq rfl rfl, ?_, ?_, ?_, ?_, ?_⟩
  · have hrings : Rings s2 := by simpa only [Rings, hchan2] using h.rings
    exact (hrings.calm hcalm).modMsg
  · exact (hcont.calm hcalm fun o' _ => hkind o').setWord (.inl rfl)
  · have hst : Stamped D s2 := by
      simpa only [Stamped, State.Live, State.word, State.msg, hchan2, hnext2, hobj2] using h.stamped
    refine (hst.calm hcalm fun o' _ hr => ?_).setWord fun hst => by cases hst
    rw [hobj2] at hr
    exact revoking_update hobj id hr
  · exact h.objects.update hobj (hcalm.objNext.trans hnext2) rfl id
  · refine h.held.relist hobj (fun _ _ => ?_) fun r o' hne hr ho' => ?_
    · rw [hnamed]
      refine ⟨registers_moved hreg (by simp [queuePlace]) hp fun hD r hr _ hkey => ?_,
        by simp [CapObject.moved]⟩
      have hDr : D r.key := hkey ▸ hD
      obtain rfl := key_eq_slot hkey
      have := (hreg.mem _ hDr).1 hr
      rw [hq] at this
      cases this
    · rw [hnamed]
      exact named_update_move hne hp (fun _ o' h => by rw [hq] at h; cases h) hr ho'

lemma msg_popTail : (popTail s c d).msg c' d' entry = s.msg c' d' entry := msg_modChannel rfl

lemma live_popTail (hr : Rings s) (hc : c < capChanMax)
    (hpos : 0 < (s.channels c).qdepth d) : (popTail s c d).Live c' d' entry' ↔ s.Live c' d' entry' ∧
      ¬(c' = c ∧ d' = d ∧ entry' = ((s.channels c).qtail d - 1) % chanQueueDepth) := by
  by_cases hc' : c' = c
  · subst hc'
    by_cases hd : d' = d
    · subst hd
      obtain ⟨hdepth, htail⟩ := hr c' hc d'
      simp only [State.Live, popTail, State.modChannel, update_self, true_and]
      simp only [chanQueueDepth] at *
      omega
    · simp [State.Live, popTail, State.modChannel, hd]
  · simp [State.Live, popTail, State.modChannel, hc']

lemma Tidy.tail (h : Tidy D s) (hc : c < capChanMax)
    (hroom : (s.channels c).qdepth d < chanQueueDepth)
    (hzero : ∀ i < capMsgMaxCaps, s.word c d ((s.channels c).qtail d % chanQueueDepth) i = 0)
    (hn : (s.msg c d ((s.channels c).qtail d % chanQueueDepth)).nCaps ≤ capMsgMaxCaps) :
    Tidy D (pushTail s c d) where
  tables := h.tables.of_eq rfl rfl
  rings := h.rings.modChannel fun hc d' => by
    have hr := h.rings c hc d'
    by_cases hd : d' = d
    · grind
    · simpa [hd] using hr
  contents :=
    { slots := h.contents.slots
      queues := fun c' hc' d' entry' hl => by
        rw [msg_pushTail]
        rcases (live_pushTail h.rings hc hroom).1 hl with hl | ⟨rfl, rfl, rfl⟩
        · exact h.contents.queues c' hc' d' entry' hl
        refine ⟨hn, fun i hi => ?_⟩
        have hz : ((s.msg c' d' ((s.channels c').qtail d' % chanQueueDepth)).caps i).word = 0 :=
          hzero i hi
        simp [hz] }
  stamped := h.stamped.mono (fun c' hc' d' entry' hl i hi hst => by
    rw [word_pushTail] at hst ⊢
    rcases (live_pushTail h.rings hc hroom).1 hl with hl | ⟨rfl, rfl, rfl⟩
    · exact ⟨hl, rfl⟩
    · rw [hzero i hi] at hst
      cases hst) (Nat.le_refl _) fun _ _ hr => hr
  objects := h.objects.of_eq rfl rfl
  held := h.held.congr rfl (named_pushTail h.rings hc hroom fun i hi => by simp [hzero i hi])

lemma Tidy.untail (h : Tidy D s) (hc : c < capChanMax) (hpos : 0 < (s.channels c).qdepth d)
    (hzero : ∀ i < capMsgMaxCaps,
      s.word c d (((s.channels c).qtail d - 1) % chanQueueDepth) i = 0) :
    Tidy D (popTail s c d) := by
  have hlive : ∀ {c' d' entry'}, (popTail s c d).Live c' d' entry' ↔ _ :=
    live_popTail h.rings hc hpos
  refine h.shorten (h.rings.modChannel fun hc d' => ?_) rfl (fun hl => (hlive.1 hl).1)
    fun c' d' entry hl hnot i hi _ o ho => ?_
  · have hr := h.rings c hc d'
    by_cases hd : d' = d
    · grind
    · simpa [hd] using hr
  · obtain ⟨rfl, rfl, rfl⟩ := not_not.1 fun hne => hnot (hlive.2 ⟨hl, hne⟩)
    rw [hzero i hi] at ho
    cases ho

lemma Tidy.reserve (h : Tidy D s) (hroom : s.objNext < capObjectMax)
    (hid : ob.id = s.objNext) (hact : ob.active = false) :
    Tidy D { s with objNext := s.objNext + 1, objects := update s.objects s.objNext ob } where
  tables := h.tables.of_eq rfl rfl
  rings := h.rings
  contents := by
    have hkind : ∀ o < s.objNext, (update s.objects s.objNext ob o).kind = (s.objects o).kind :=
      fun o ho => by rw [update_of_ne ho.ne]
    exact
      { slots := fun ti hti i hi o ho =>
          (h.contents.slots ti hti i hi o ho).mono (Nat.le_succ _) hkind
        queues := fun c hc d entry hl =>
          (h.contents.queues c hc d entry hl).mono (Nat.le_succ _) hkind }
  stamped := h.stamped.mono (fun _ _ _ _ hl _ _ _ => ⟨hl, rfl⟩) (Nat.le_succ _)
    fun o ho hr => by simpa only [update_of_ne ho.ne] using hr
  objects :=
    { next := hroom
      id := fun o ho => by
        by_cases hoo : o = s.objNext
        · subst hoo
          simp [hid]
        · grind [h.objects.id]
      unborn := fun o ho => by
        simp only at ho
        simp only [update_of_ne (show o ≠ s.objNext by omega)]
        exact h.objects.unborn o (by omega) }
  held := by
    refine h.held.relist rfl (fun hact' => ?_) fun p o' _ _ _ => Iff.rfl
    rw [hact] at hact'
    cases hact'

lemma Tidy.install (h : Tidy D s) (hown : s.Owns pid ti)
    (hpop : capSlotPop s ti = some (s1, idx)) (hty : w.ty ≠ .none)
    (hname : ∀ o, w.names = some o → s.Reserved o ∧ s.Known w) :
    Tidy D (s1.setSlot ti idx w) := by
  obtain ⟨htables, hidx, htyp⟩ := h.tables.popSet hpop hown.lt (hown.used h.tables) hty
  have hset := capSlotPop_setSlot (w := w) hpop
  rw [hset] at htables ⊢
  refine ⟨htables, h.rings, h.contents.slot rfl fun o ho => (hname o ho).2, h.stamped,
    h.objects.of_eq rfl rfl, fun o ho => ?_⟩
  obtain ⟨hreg, hcount⟩ := h.held o ho
  refine ⟨hreg.congr fun p _ => ?_, hcount⟩
  rw [named_slots h.tables hown hidx rfl]
  by_cases hp : p = .slot pid idx
  · subst hp
    rw [update_self, named_slot hown hidx, names_of_none htyp]
    refine ⟨fun hw => ?_, fun h => by cases h⟩
    -- the word may name an object, but not one in use
    have hact : (s.objects o).active := ho.1
    rw [(hname o hw).1.2.1] at hact
    cases hact
  · rw [update_of_ne hp]

lemma Tidy.enlist (h : Tidy D s) (hres : s.Reserved o) (hid : ob.id = o)
    (hkind : ob.kind = (s.objects o).kind)
    (hreg : Registers CapHolder.key D ob.holders fun p => s.named p = some o)
    (hcount : ob.refcount = ob.holders.length) : Tidy D (s.modObject o fun _ => ob) := by
  obtain ⟨htab, hrings, hcont, hst⟩ := h.calmed (calm_modObject fun _ => ob) rfl hkind
    fun hr => by rw [hres.2.2] at hr; cases hr
  exact ⟨htab, hrings, hcont, hst,
    h.objects.set rfl rfl (fun _ => hid) fun ho => absurd hres.1 ho.not_gt,
    h.held.relist rfl (fun _ _ => ⟨hreg, hcount⟩) fun _ _ _ _ _ => Iff.rfl⟩

lemma Tidy.abort (h : Tidy D s) (hres : s.Reserved o)
    (hid : (f (s.objects o)).id = o) (hkind : (f (s.objects o)).kind = (s.objects o).kind)
    (hact : (f (s.objects o)).active = false) : Tidy D (s.modObject o f) :=
  h.remade (calm_modObject f) rfl (hid.trans (h.objects.id o hres.1).symm) hkind (by simp [hact])
    (fun hr => by rw [hres.2.2] at hr; cases hr) (h.held.untrack (by simp [hact]))

lemma live_reset {q : ℕ} : (s.modChannel c fun ch => ch.reset p q).Live c' d entry ↔
    c' ≠ c ∧ s.Live c' d entry := by
  by_cases hc : c' = c
  · subst hc
    simp [State.Live, State.modChannel, CapChannel.reset]
  · simp [State.Live, State.modChannel, hc]

lemma msg_reset {q : ℕ} :
    (s.modChannel c fun ch => ch.reset p q).msg c' d entry = s.msg c' d entry :=
  msg_modChannel rfl

lemma Tidy.reset (h : Tidy D s) {q : ℕ} (hD : ∀ d entry, s.Live c d entry → ∀ i < capMsgMaxCaps,
      s.Spent D (queueKey c entry i) (s.word c d entry i)) :
    Tidy D (s.modChannel c fun ch => ch.reset p q) := by
  refine h.shorten (h.rings.modChannel fun _ _ => ⟨Nat.zero_le _, rfl⟩) rfl
    (fun hl => (live_reset.1 hl).2) fun c' d entry hl hnot => ?_
  obtain rfl : c' = c := not_not.1 fun hne => hnot (live_reset.2 ⟨hne, hl⟩)
  exact hD d entry hl

lemma Tidy.restamp (h : Tidy D s) (hown : s.Owns pid ti) (hi : i < capTableEntries)
    (hty : ((s.tables ti).slots i).ty ≠ .none) (hname : ((s.tables ti).slots i).names = none)
    (hty' : w.ty ≠ .none) (hname' : w.names = none) : Tidy D (s.setSlot ti i w) where
  tables := by
    refine h.tables.modTable hown.lt rfl ?_ fun h0 hp =>
      absurd hp ((hown.used h.tables).resolve_left h0)
    refine (h.tables.free ti hown.lt).congr (fun j hj => ?_) fun j => ?_
    · grind
    · grind
  rings := h.rings
  contents := h.contents.slot rfl fun o ho => by rw [hname'] at ho; cases ho
  stamped := h.stamped
  objects := h.objects.of_eq rfl rfl
  held := by
    refine h.held.congr rfl ?_
    rw [named_setSlot h.tables hown hi, hname', update_eq_iff]
    exact ⟨(named_slot hown hi).trans hname |>.symm, fun _ _ => rfl⟩

end AeroSLS.Cap
