import Mathlib.Data.Finset.Card
import AeroSLS.Cap.Ready

namespace AeroSLS.Cap

open Bytes Function Register Chain List

variable {env : Env} {R : Rules} {s s' : State} {pid ti idx c entry i : ℕ} {d : Dir} {w : CapWord}
  {cap : MsgCap}

open State (modChannel modMsg modObject modTable msg setCap setSlot setWord word)

lemma modMsg_modMsg :
    (s.modMsg c d entry f).modMsg c d entry g = s.modMsg c d entry fun m => g (f m) := by
  simp [modMsg, modChannel]

lemma publish_eq : publish s c d entry n ck fl pl px = pushTail (s.modMsg c d entry fun m =>
      { m with nCaps := n, cookie := ck, flags := fl, payloadLen := pl, payloadIdx := px }) c d :=
        rfl

lemma publish_moveToQueue :
    publish (moveToQueue s ti pid idx c d entry i cap) c d entry n ck fl pl px =
      moveToQueue (publish s c d entry n ck fl pl px) ti pid idx c d entry i cap := by
  have hobj : (publish s c d entry n ck fl pl px).objects = s.objects := rfl
  simp only [moveToQueue, capHolderRemove, hobj]
  split_ifs <;> simp [publish, modMsg, modChannel, setCap, capHolderLink, capSlotPush,
    modObject, modTable]

lemma publish_capHolderAlloc : capHolderAlloc (publish s c d entry n ck fl pl px) =
      (capHolderAlloc s).map fun s => publish s c d entry n ck fl pl px := by
  have hfree : (publish s c d entry n ck fl pl px).holderFree = s.holderFree := rfl
  simp only [capHolderAlloc, hfree]
  split_ifs <;> rfl

variable (pid ti c entry d) in
lemma publish_moveCaps (n ck fl pl px : ℕ) (caps : List (SLSCapDesc × CapWord)) :
    ∀ (s : State) (i : ℕ), moveCaps (publish s c d entry n ck fl pl px) ti pid c d entry i caps =
      (publish (moveCaps s ti pid c d entry i caps).1 c d entry n ck fl pl px,
        (moveCaps s ti pid c d entry i caps).2) := by
  induction caps with
  | nil => exact fun s i => rfl
  | cons cap rest ih =>
    intro s i
    have hobj : (publish s c d entry n ck fl pl px).objects = s.objects := rfl
    simp only [moveCaps, hobj, publish_capHolderAlloc]
    split_ifs
    · rfl
    · grind [publish_moveToQueue]

lemma publish_restoreCap : restoreCap (publish s c d entry n ck fl pl px) ti pid c d entry i w =
      publish (restoreCap s ti pid c d entry i w) c d entry n ck fl pl px := by
  have htab : (publish s c d entry n ck fl pl px).tables = s.tables := rfl
  have hobj : (publish s c d entry n ck fl pl px).objects = s.objects := rfl
  have hfree : (publish s c d entry n ck fl pl px).holderFree = s.holderFree := rfl
  simp only [restoreCap, capSlotPop, htab]
  split_ifs
  · simp [publish, setWord, modMsg, modChannel]
  simp only [capHolderRemove, modTable, htab, hobj, hfree]
  by_cases hany : ((s.objects w.obj).holders.any fun h =>
      h.key == HolderKey.queue c (entry * capMsgMaxCaps + i))
  · simp only [hany, if_true, capHolderAlloc, Nat.add_one_ne_zero, if_false]
    simp [publish, setWord, modMsg, modChannel, modObject, capHolderLink, setSlot, modTable]
  · simp only [hany, if_false, capHolderAlloc, Bool.false_eq_true]
    split_ifs <;> simp [publish, setWord, modMsg, modChannel, modObject,
      capHolderLink, capSlotPush, setSlot, modTable]

variable (pid ti c entry d) in
lemma publish_restoreCaps (n ck fl pl px : ℕ) (ws : List CapWord) :
    ∀ (s : State) (i : ℕ), restoreCaps (publish s c d entry n ck fl pl px) ti pid c d entry i ws =
      publish (restoreCaps s ti pid c d entry i ws) c d entry n ck fl pl px := by
  induction ws with
  | nil => exact fun s i => rfl
  | cons w rest ih =>
    intro s i
    simp only [restoreCaps, publish_restoreCap]
    exact ih _ _

lemma capHolderRemove_same : (capHolderRemove s o k).tables = s.tables ∧
    (capHolderRemove s o k).tablePid = s.tablePid ∧
      (capHolderRemove s o k).channels = s.channels := by
  unfold capHolderRemove
  split_ifs <;> exact ⟨rfl, rfl, rfl⟩

lemma live_of_channels (h : s'.channels = s.channels) : s'.Live c d entry ↔ s.Live c d entry := by
  simp only [State.Live, h]

lemma msg_of_channels (h : s'.channels = s.channels) : s'.msg c d entry = s.msg c d entry := by
  simp only [msg, h]

lemma word_of_channels (h : s'.channels = s.channels) :
    s'.word c d entry i = s.word c d entry i := by
  simp only [word, msg, h]

lemma word_setCap : (s.setCap c d entry i cap).word c d entry j =
    if j = i then cap.word else s.word c d entry j := by
  simp only [word, setCap, msg_modMsg]
  by_cases hj : j = i
  · simp [hj]
  · simp [hj]

lemma moveToQueue_tables : (moveToQueue s ti pid idx c d entry i cap).tables =
    (capSlotPush s ti idx).tables := by
  simp only [moveToQueue, capHolderLink, setCap, modMsg, modChannel,
    modObject, capSlotPush, modTable, capHolderRemove_same]

variable (s pid ti idx c entry i d cap) in
lemma moveToQueue_channels : (moveToQueue s ti pid idx c d entry i cap).channels =
    (s.setCap c d entry i cap).channels := by
  simp only [moveToQueue, capHolderLink, setCap, modMsg, modChannel,
    modObject, capSlotPush, modTable, capHolderRemove_same]

lemma moveToSlot_tables : (moveToSlot s ti pid idx c d entry i w).tables =
    (s.setSlot ti idx w).tables := by
  simp only [moveToSlot, capHolderLink, setWord, modMsg, modChannel,
    modObject, setSlot, modTable, capHolderRemove_same]

lemma moveToSlot_tablePid :
    (moveToSlot s ti pid idx c d entry i w).tablePid = s.tablePid := capHolderRemove_same.2.1

lemma moveToSlot_channels : (moveToSlot s ti pid idx c d entry i w).channels =
    (s.setWord c d entry i 0).channels := by
  simp only [moveToSlot, capHolderLink, setWord, modMsg, modChannel,
    modObject, setSlot, modTable, capHolderRemove_same]

def freeSlots (s : State) (ti : ℕ) : Finset ℕ :=
  (Finset.range capTableEntries).filter fun i => ((s.tables ti).slots i).ty = .none

variable (s s' ti w) in
lemma card_freeSlots_push (hidx : idx < capTableEntries)
    (hty : ((s.tables ti).slots idx).ty ≠ .none)
    (hs : (s'.tables ti).slots = update (s.tables ti).slots idx w) (hw : w.ty = .none) :
    (freeSlots s' ti).card = (freeSlots s ti).card + 1 := by
  have hins : freeSlots s' ti = insert idx (freeSlots s ti) := by
    ext j
    by_cases hj : j = idx
    · subst hj
      simp [freeSlots, hs, hw, hidx]
    · simp [freeSlots, hs, hj]
  rw [hins, Finset.card_insert_of_notMem (by simp [freeSlots, hty])]

variable (s s' ti w) in
lemma card_freeSlots_fill (hidx : idx < capTableEntries)
    (hty : ((s.tables ti).slots idx).ty = .none)
    (hs : (s'.tables ti).slots = update (s.tables ti).slots idx w) (hw : w.ty ≠ .none) :
    (freeSlots s' ti).card + 1 = (freeSlots s ti).card := by
  refine (card_freeSlots_push s' s ti _ hidx ?_ ?_ hty).symm
  · rwa [hs, update_self]
  · rw [hs, update_idem, update_eq_self]

lemma exists_capSlotPop (ht : Tables s) (hti : ti < capTableMax)
    (hpos : 0 < (freeSlots s ti).card) : ∃ s1 idx, capSlotPop s ti = some (s1, idx) := by
  obtain ⟨j, hj⟩ := Finset.card_pos.1 hpos
  simp only [freeSlots, Finset.mem_filter, Finset.mem_range] at hj
  have hne := (ht.free ti hti).head_ne hj
  exact ⟨_, _, by simp only [capSlotPop]; rw [if_neg hne]⟩

structure Entry (s : State) (pid ti c : ℕ) (d : Dir) (entry lo : ℕ) (ws : List CapWord) : Prop where
  own : s.Owns pid ti
  lt : c < capChanMax
  live : s.Live c d entry
  fits : lo + ws.length ≤ capMsgMaxCaps
  word : ∀ j < capMsgMaxCaps, s.word c d entry j = if j < lo then 0 else ws.getD (j - lo) 0
  usable : ∀ w ∈ ws, w.names = some w.obj ∧ s.Tracked w.obj
  room : ws.length ≤ (freeSlots s ti).card

variable {slot : ℕ}

lemma tracked_of_face (hface : ∀ o, (s'.objects o).face = (s.objects o).face) :
    s'.Tracked o ↔ s.Tracked o := by
  have h1 : (s'.objects o).face.active = (s.objects o).face.active := by rw [hface]
  have h2 : (s'.objects o).face.revoking = (s.objects o).face.revoking := by rw [hface]
  exact and_congr (Iff.of_eq (congrArg (· = true) h1)) (Iff.of_eq (congrArg (· = false) h2))

variable (env cap slot) in
/-- The next cap moves into the entry. -/
theorem Entry.load (he : Entry s pid ti c d entry 0 ws) (h : Ready R s) (hpid : pid < 2 ^ 16)
    (howned : s.Owned c) (hslot : slot < capTableEntries)
    (hw : (s.tables ti).slots slot = cap.word) (hname : cap.word.names = some cap.word.obj)
    (ho : s.Tracked cap.word.obj) (hi : ws.length < capMsgMaxCaps)
    (hn : ws.length < (s.msg c d entry).nCaps) (hmem : 0 < ws.length → cap.word.ty = .mem)
    (htwin : R.exact (queueKey c entry ws.length) →
      s.named (queuePlace c (!d) entry ws.length) ≠ some cap.word.obj)
    (hfill : R.mayFill c d entry) (hs' : s' = moveToQueue s ti pid slot c d entry ws.length cap) :
    Shift env R s s' ∧ Entry s' pid ti c d entry 0 (ws ++ [cap.word]) := by
  have hzero : s.word c d entry ws.length = 0 := by
    rw [he.word _ hi]
    simp
  have hface : ∀ o, (s'.objects o).face = _ := hs' ▸ moveToQueue_face h.tidy hpid ho
  have hch : s'.channels = _ := hs' ▸ moveToQueue_channels s pid ti slot c entry ws.length d cap
  have htab : s'.tables = (capSlotPush s ti slot).tables := hs' ▸ moveToQueue_tables
  refine ⟨hs' ▸ .out pid ti slot c d entry ws.length cap hpid he.own hslot hw hname ho he.lt he.live
    hi hzero hn hmem howned htwin hfill, ?_⟩
  refine ⟨(State.Owns.congr (hs' ▸ capHolderRemove_same.2.1)).2 he.own, he.lt, ?_, ?_,
    fun j hj => ?_,
    fun w hw => ?_, ?_⟩
  · rw [live_of_channels hch]
    exact live_modMsg.2 he.live
  · grind
  · rw [word_of_channels hch, word_setCap, he.word j hj]
    simp only [Nat.sub_zero, getD_eq_getElem?_getD]
    rcases Nat.lt_trichotomy j ws.length with hlt | rfl | hgt
    · rw [if_neg hlt.ne, getElem?_append_left hlt]
    · simp
    · grind
  · grind [tracked_of_face, he.usable]
  · have hcard := card_freeSlots_push s s' ti (freeLink (s.tables ti).freelistHead) hslot
      (by rw [hw]; exact ty_ne_none_of_names hname) (by rw [htab]; simp [capSlotPush, modTable]) rfl
    rw [hcard, length_append]
    exact Nat.succ_le_succ he.room

lemma restoreCap_eq (hpop : capSlotPop s ti = some (s1, slot)) : restoreCap s ti pid c d entry i w =
      if (capHolderRemove s1 w.obj (queueKey c entry i)).holderFree = 0 then
        (capSlotPush s1 ti slot).setWord c d entry i 0
      else { moveToSlot s1 ti pid slot c d entry i w with
        holderFree := (capHolderRemove s1 w.obj (queueKey c entry i)).holderFree - 1 } := by
  have hkey : HolderKey.queue c (entry * capMsgMaxCaps + i) = queueKey c entry i := rfl
  simp only [restoreCap, hpop, hkey, capHolderAlloc]
  by_cases h0 : (capHolderRemove s1 w.obj (queueKey c entry i)).holderFree = 0
  · grind [capHolderRemove]
  · rw [if_neg h0, if_neg h0]
    rfl

lemma not_exact_of_free (h : Tidy R.exact s) (hpop : capSlotPop s ti = some (s1, slot))
    (hc : c < capChanMax) (hl : s.Live c d entry) (hi : i < capMsgMaxCaps)
    (hname : (s.word c d entry i).names = some (s.word c d entry i).obj)
    (ho : s.Tracked (s.word c d entry i).obj)
    (h0 : (capHolderRemove s1 (s.word c d entry i).obj (queueKey c entry i)).holderFree = 0) :
    ¬R.exact (queueKey c entry i) := by
  intro hD
  have hmem := ((h.held _ ho).1.mem (queuePlace c d entry i) hD).2
    (by rw [named_queuePlace hi, if_pos ⟨hc, hl⟩, hname])
  have hany : ((s1.objects (s.word c d entry i).obj).holders.any fun h =>
      h.key == queueKey c entry i) := by
    rw [capSlotPop_objects hpop]
    exact any_eq_true.2 ⟨_, hmem, by simp [queuePlace_key]⟩
  rw [capHolderRemove, if_pos hany] at h0
  cases h0

lemma Entry.behead (he : Entry s pid ti c d entry lo (w :: ws))
    (hpid : s'.tablePid = s.tablePid) (hch : s'.channels = (s.setWord c d entry lo 0).channels)
    (htr : ∀ o, s.Tracked o → s'.Tracked o) (hroom : ws.length ≤ (freeSlots s' ti).card) :
    Entry s' pid ti c d entry (lo + 1) ws := by
  have hfits := he.fits
  simp only [length_cons] at hfits
  refine ⟨(State.Owns.congr hpid).2 he.own, he.lt, ?_, by omega, fun j hj => ?_, fun x hx => ?_,
    hroom⟩
  · rw [live_of_channels hch]
    exact live_modMsg.2 he.live
  · rw [word_of_channels hch, word_setWord, he.word j hj]
    rcases Nat.lt_trichotomy j lo with hlt | rfl | hgt
    · simp [hlt, hlt.trans (Nat.lt_succ_self lo)]
    · simp
    · grind
  · grind [he.usable]

lemma capSlotPop_tablePid (h : capSlotPop s ti = some (s1, idx)) : s1.tablePid = s.tablePid := by
  obtain ⟨-, -, rfl⟩ := capSlotPop_eq h
  rfl

lemma capSlotPop_channels (h : capSlotPop s ti = some (s1, idx)) : s1.channels = s.channels := by
  obtain ⟨-, -, rfl⟩ := capSlotPop_eq h
  rfl

lemma freeSlots_refile (ht : Tables s) (hti : ti < capTableMax)
    (hpop : capSlotPop s ti = some (s1, slot)) : freeSlots (capSlotPush s1 ti slot) ti =
      freeSlots s ti := by
  obtain ⟨-, hty⟩ := ht.popped hpop hti
  rw [capSlotPush_pop hpop]
  ext j
  by_cases hj : j = slot
  · subst hj
    have hlink : (freeLink (((s.tables ti).slots j).obj % 2 ^ 16)).ty = .none := rfl
    simp only [freeSlots, modTable, Finset.mem_filter, update_self, hlink, hty]
  · simp [freeSlots, modTable, hj]

variable (env) in
/-- The first cap of the entry goes back to the sender. -/
theorem Entry.unload (he : Entry s pid ti c d entry lo (w :: ws)) (h : Ready R s)
    (hpid : pid < 2 ^ 16) (hs' : s' = restoreCap s ti pid c d entry lo w) :
    Shifts env R s s' ∧ Entry s' pid ti c d entry (lo + 1) ws ∧
      s'.channels = (s.setWord c d entry lo 0).channels := by
  have hlo : lo < capMsgMaxCaps := by
    have := he.fits
    simp only [length_cons] at this
    omega
  have hword : s.word c d entry lo = w := by
    rw [he.word lo hlo]
    simp
  obtain ⟨hname, ho⟩ := he.usable w (mem_cons_self ..)
  have hroom := he.room
  simp only [length_cons] at hroom
  obtain ⟨s1, slot, hpop⟩ := exists_capSlotPop h.tidy.tables he.own.lt (by omega)
  have hobj := capSlotPop_objects hpop
  rw [hs', restoreCap_eq hpop]
  split_ifs with h0
  · -- no holder node: this cannot be if the queues are followed exactly
    have hnot : ¬R.exact (queueKey c entry lo) := by
      subst hword
      exact not_exact_of_free h.tidy hpop he.lt he.live hlo hname ho h0
    have hch : ((capSlotPush s1 ti slot).setWord c d entry lo 0).channels =
        (s.setWord c d entry lo 0).channels := by
      simp only [setWord, modMsg, modChannel, capSlotPush, modTable, capSlotPop_channels hpop]
    have hpid' := capSlotPop_tablePid hpop
    refine ⟨.tail (.single (.drop (.refile pid ti slot he.own hpop)))
      (.drop (.word c d entry lo 0 hlo (.inl rfl) fun hD => absurd hD hnot)),
      he.behead hpid' hch (fun o ho => ?_) ?_, hch⟩
    · rwa [State.Tracked, ← hobj] at ho
    · change ws.length ≤ (freeSlots (capSlotPush s1 ti slot) ti).card
      rw [freeSlots_refile h.tidy.tables he.own.lt hpop]
      omega
  · have hmove : Shift env R s (moveToSlot s1 ti pid slot c d entry lo w) := by
      subst hword
      exact .into pid ti slot c d entry lo hpid he.own hpop he.lt he.live hlo hname ho
    have hch : (moveToSlot s1 ti pid slot c d entry lo w).channels =
        (s.setWord c d entry lo 0).channels := by
      refine moveToSlot_channels.trans ?_
      simp only [setWord, modMsg, modChannel, capSlotPop_channels hpop]
    have hpid' : (moveToSlot s1 ti pid slot c d entry lo w).tablePid = s.tablePid :=
      moveToSlot_tablePid.trans (capSlotPop_tablePid hpop)
    refine ⟨.tail (.single hmove) (.drop (.holders _)),
      he.behead hpid' hch (fun o' ho' => ?_) ?_, hch⟩
    · exact (tracked_of_face (moveToSlot_face (d := d) h.tidy hpid hpop ho)).2 ho'
    · obtain ⟨hslot, hty⟩ := h.tidy.tables.popped hpop he.own.lt
      have hset := capSlotPop_setSlot (w := w) hpop
      have hcard := card_freeSlots_fill s (moveToSlot s1 ti pid slot c d entry lo w) ti w hslot hty
        (by rw [moveToSlot_tables, hset]; simp [modTable])
        (ty_ne_none_of_names hname)
      change ws.length ≤ (freeSlots (moveToSlot s1 ti pid slot c d entry lo w) ti).card
      omega

structure Loading (R : Rules) (s : State) (pid ti c : ℕ) (d : Dir) (entry : ℕ)
    (ws : List CapWord) (caps : List (SLSCapDesc × CapWord)) : Prop where
  loaded : Entry s pid ti c d entry 0 ws
  owned : s.Owned c
  room : ws.length + caps.length ≤ (s.msg c d entry).nCaps
  each : ∀ x ∈ caps, x.1.slot < capTableEntries ∧ (s.tables ti).slots x.1.slot = x.2 ∧
    x.2.names = some x.2.obj ∧ s.Tracked x.2.obj ∧ x.2.ty = .mem
  distinct : (caps.map fun x => x.1.slot).Nodup
  twin : ∀ j x, caps[j]? = some x → R.exact (queueKey c entry (ws.length + j)) →
    s.named (queuePlace c (!d) entry (ws.length + j)) ≠ some x.2.obj
  fill : R.mayFill c d entry

lemma Entry.holders (he : Entry s pid ti c d entry lo ws) (n : ℕ) :
    Entry { s with holderFree := n } pid ti c d entry lo ws :=
  ⟨he.own, he.lt, he.live, he.fits, he.word, he.usable, he.room⟩

variable (env) in
lemma Loading.step (hl : Loading R s pid ti c d entry ws ((desc, w) :: rest)) (h : Ready R s)
    (hpid : pid < 2 ^ 16)
    (hs' : s' = moveToQueue s ti pid desc.slot c d entry ws.length (msgCap desc w)) :
    Shift env R s s' ∧ Loading R s' pid ti c d entry (ws ++ [w]) rest := by
  have he := hl.loaded
  obtain ⟨hslot, hw, hname, ho, hmem⟩ := hl.each (desc, w) (mem_cons_self ..)
  have hroom := hl.room
  simp only [length_cons] at hroom
  have hmax := (h.tidy.contents.queues c he.lt d entry he.live).1
  have hi : ws.length < capMsgMaxCaps := by omega
  obtain ⟨hstep, hentry⟩ := he.load env (msgCap desc w) _ h hpid hl.owned hslot hw hname ho
    hi (by omega) (fun _ => hmem) (hl.twin 0 (desc, w) rfl) hl.fill hs'
  subst hs'
  refine ⟨hstep, hentry, ?_, ?_, fun x hx => ?_, ?_, fun j x hx hD => ?_, hl.fill⟩
  · exact (sameUse_of_face (moveToQueue_face h.tidy hpid ho)).owned hl.owned
  · rw [msg_of_channels (moveToQueue_channels ..), setCap, msg_modMsg, if_pos ⟨rfl, rfl, rfl⟩]
    simp only [length_append, length_singleton]
    omega
  · obtain ⟨hslot', hw', hname', ho', hmem'⟩ := hl.each x (mem_cons_of_mem _ hx)
    have hne : x.1.slot ≠ desc.slot := by grind [hl.distinct]
    refine ⟨hslot', ?_, hname', ?_, hmem'⟩
    · rw [moveToQueue_tables]
      simpa [capSlotPush, modTable, hne] using hw'
    · exact (tracked_of_face (moveToQueue_face h.tidy hpid ho)).2 ho'
  · have hd := hl.distinct
    rw [map_cons, nodup_cons] at hd
    exact hd.2
  · have hidx : (ws ++ [w]).length + j = ws.length + (j + 1) := by
      simp only [length_append, length_singleton]
      omega
    rw [hidx] at hD ⊢
    rw [named_moveToQueue _ h.tidy.tables he.own hslot he.lt he.live hi,
      update_of_ne (by cases d <;> simp [queuePlace]), update_of_ne (by simp [queuePlace])]
    exact hl.twin (j + 1) x hx hD

lemma qtail_modMsg : ((s.modMsg c d entry f).channels c').qtail = (s.channels c').qtail :=
  update_same rfl

variable (env) in
lemma moveCaps_spec (hpid : pid < 2 ^ 16) (caps : List (SLSCapDesc × CapWord)) :
    ∀ (s : State) (ws : List CapWord), Ready R s → Loading R s pid ti c d entry ws caps →
      Shifts env R s (moveCaps s ti pid c d entry ws.length caps).1 ∧
      ((moveCaps s ti pid c d entry ws.length caps).1.channels c).qtail = (s.channels c).qtail ∧
      ∃ n, (moveCaps s ti pid c d entry ws.length caps).2.1 = ws.length + n ∧
        Entry (moveCaps s ti pid c d entry ws.length caps).1 pid ti c d entry 0
          (ws ++ (caps.take n).map (·.2)) := by
  induction caps with
  | nil =>
    intro s ws h hl
    exact ⟨.refl, rfl, 0, rfl, by simpa [moveCaps] using hl.loaded⟩
  | cons x rest ih =>
    intro s ws h hl
    obtain ⟨desc, w⟩ := x
    simp only [moveCaps]
    split_ifs
    · exact ⟨.refl, rfl, 0, rfl, by simpa using hl.loaded⟩
    rcases halloc : capHolderAlloc s with _ | s1
    · exact ⟨.refl, rfl, 0, rfl, by simpa using hl.loaded⟩
    obtain rfl := capHolderAlloc_eq halloc
    have haside : Shift env R s { s with holderFree := s.holderFree - 1 } := .drop (.holders _)
    have h1 := haside.ready h
    have hl1 : Loading R { s with holderFree := s.holderFree - 1 } pid ti c d entry ws
        ((desc, w) :: rest) :=
      ⟨hl.loaded.holders _, hl.owned, hl.room, hl.each, hl.distinct, hl.twin, hl.fill⟩
    obtain ⟨hstep, hl2⟩ := hl1.step env h1 hpid rfl
    obtain ⟨hchain, hq, n, hcount, hentry⟩ := ih _ _ (hstep.ready h1) hl2
    have hlen : (ws ++ [w]).length = ws.length + 1 := by simp
    rw [hlen] at hchain hq hcount hentry
    refine ⟨.head haside (.head hstep hchain), ?_, n + 1, by rw [hcount]; omega,
      by simpa using hentry⟩
    rw [hq, moveToQueue_channels]
    exact qtail_modMsg

variable (env) in
lemma restoreCaps_spec (hpid : pid < 2 ^ 16) (ws : List CapWord) :
    ∀ (s : State) (lo : ℕ), Ready R s → Entry s pid ti c d entry lo ws →
      Shifts env R s (restoreCaps s ti pid c d entry lo ws) ∧
        Entry (restoreCaps s ti pid c d entry lo ws) pid ti c d entry (lo + ws.length) [] ∧
        ((restoreCaps s ti pid c d entry lo ws).channels c).qtail = (s.channels c).qtail := by
  induction ws with
  | nil => exact fun s lo h he => ⟨.refl, he, rfl⟩
  | cons w ws ih =>
    intro s lo h he
    obtain ⟨hchain, he1, hch⟩ := he.unload env h hpid rfl
    obtain ⟨hrest, he2, hq⟩ := ih _ _ (hchain.ready h) he1
    have hlen : lo + (w :: ws).length = lo + 1 + ws.length := by
      rw [length_cons]
      omega
    refine ⟨hchain.trans hrest, by rwa [hlen], ?_⟩
    rw [restoreCaps, hq, hch]
    exact qtail_modMsg

lemma stagePayload_staged (h : stagePayload s payload len = some (s1, idx)) : Staged s s1 idx := by
  simp only [stagePayload] at h
  split_ifs at h
  · cases h
    exact ⟨s.payload, .inl ⟨rfl, rfl⟩⟩
  split at h
  · cases h
  · rename_i s0 i halloc
    cases h
    exact ⟨_, .inr ⟨s0, halloc, rfl⟩⟩

lemma publish_clearEntry : publish (clearEntry s c d entry) c d entry n ck fl pl px =
      pushTail (s.modMsg c d entry fun m =>
        { m with nCaps := n, cookie := ck, flags := fl, payloadLen := pl, payloadIdx := px,
                 caps := fun i => if i < capMsgMaxCaps then 0 else m.caps i }) c d := by
  rw [publish_eq, clearEntry, modMsg_modMsg]

section

variable (n ck fl pl : ℕ) (he : (s.channels c).qtail d % chanQueueDepth = entry)
  (hc : c < capChanMax) (hroom : (s.channels c).qdepth d < chanQueueDepth)
  (hstage : Staged s s1 idx)
include n ck fl pl he hc hroom hstage

variable (env R) in
lemma post_shift (howned : s.Owned c) (hn : n ≤ capMsgMaxCaps) :
    Shift env R s (publish (clearEntry s1 c d entry) c d entry n ck fl pl idx) := by
  rw [publish_clearEntry, ← he]
  refine .tail c d idx _ hc howned hroom hstage (fun m i hi => ?_) fun m => hn
  simp only [hi]
  rfl

theorem post_entry (h : Ready R s) (hown : s.Owns pid ti) :
    Entry (publish (clearEntry s1 c d entry) c d entry n ck fl pl idx) pid ti c d entry 0 [] := by
  rw [publish_clearEntry, ← he, ← hstage.calm.2.2]
  rw [← hstage.calm.2.2] at hroom
  refine ⟨?_, hc, ?_, Nat.zero_le _, fun j hj => ?_, by simp, Nat.zero_le _⟩
  · refine (State.Owns.congr ?_).2 hown
    exact hstage.calm.1.tablePid
  · have hrings : Rings s1 := h.tidy.rings.calm hstage.calm.1
    refine (live_pushTail hrings.modMsg hc ?_).2 (.inr ⟨rfl, rfl, ?_⟩)
    · simpa [modMsg, modChannel] using hroom
    · simp [modMsg, modChannel]
  · rw [word_pushTail, word, msg_modMsg, if_pos ⟨rfl, rfl, rfl⟩]
    simp only [hj]
    rfl

lemma named_publish (h : Ready R s) :
    (publish (clearEntry s1 c d entry) c d entry n ck fl pl idx).named = s.named := by
  rw [publish_clearEntry, ← he]
  refine named_post h.tidy hc hroom hstage fun m i hi => ?_
  simp only [hi]
  rfl

end

lemma clear_drop (h : Ready R s) (hc : c < capChanMax)
    (hroom : (s.channels c).qdepth d < chanQueueDepth) :
    Drop env R s (clearEntry s c d ((s.channels c).qtail d % chanQueueDepth)) :=
  .scribble c d _ _ (not_live_tail h.tidy.rings hc hroom)

/-- No object to be sent is queued at the same position of the opposite queue, where holders
look alike. -/
def NoTwin (s : State) (pid chW : ℕ) (slots : List ℕ) : Prop :=
  ∀ ti, s.Owns pid ti → ∀ c, handleChan s ((s.tables ti).slots chW) = some c →
    ∀ j slot, slots[j]? = some slot →
      s.named (queuePlace c (!sendDir s c pid)
        ((s.channels c).qtail (sendDir s c pid) % chanQueueDepth) j) ≠
        some ((s.tables ti).slots slot).obj

/-- Every ring with room may be filled at its tail. -/
def Rules.MaySend (R : Rules) (s : State) : Prop :=
  ∀ c d, (s.channels c).qdepth d < chanQueueDepth →
    R.mayFill c d ((s.channels c).qtail d % chanQueueDepth)

def Rules.Exact (R : Rules) : Prop := ∃ c entry i, R.exact (queueKey c entry i)

lemma capSend_shifts (h : Ready R s) (hpid : pid < 2 ^ 16)
    (hchW : chW < capTableEntries) (hidx : capIdx = capNone ∨ capIdx < capTableEntries)
    (hname : capIdx ≠ capNone → capWordValid (s.slotWord pid capIdx) →
      (s.slotWord pid capIdx).names = some (s.slotWord pid capIdx).obj)
    (htwin : R.Exact → capIdx ≠ capNone → NoTwin s pid chW [capIdx]) (hfill : R.MaySend s) :
    Shifts env R s (capSend s pid chW capIdx cookie).1 := by
  refine handled_shifts h hchW (fun _ => not_sendable_of_none) fun ti c hown hch hc howned =>
    guard_chain fun hbad => guard_chain fun hfull => ?_
  rw [slotWord_owned hown] at hname
  have htwin := fun hR hne => htwin hR hne ti hown c hch 0 capIdx rfl
  have hroom := Nat.not_le.1 hfull
  have hmay := hfill c _ hroom
  have hclear : Drop env R s _ := clear_drop h hc hroom
  generalize sendDir s c pid = d at *
  generalize he : (s.channels c).qtail d % chanQueueDepth = entry at *
  dsimp only
  split_ifs with hnone hrev
  · -- a bare notification
    exact .single (post_shift env R _ _ _ _ he hc hroom ⟨s.payload, .inl ⟨rfl, rfl⟩⟩ howned
      (Nat.zero_le _))
  · exact .single (.drop hclear)
  · split
    · exact .single (.drop hclear)
    rename_i s1 halloc
    obtain rfl := capHolderAlloc_eq halloc
    simp only [not_and, not_or, Bool.not_eq_true', Bool.not_eq_false] at hbad
    obtain ⟨hvalid, hget⟩ := hbad hnone
    have hact := active_of_get hget
    have hstage : Staged s s capNone := ⟨s.payload, .inl ⟨rfl, rfl⟩⟩
    have hpost := post_shift env R 1 cookie 0 0 he hc hroom hstage howned (by decide)
    have hentry := post_entry 1 cookie 0 0 he hc hroom hstage h hown
    have hready := Shift.ready (.drop (.holders (s.holderFree - 1)) : Shift env R _ _)
      (hpost.ready h)
    have hload := (hentry.holders (s.holderFree - 1)).load env
      { (0 : MsgCap) with word := (s.tables ti).slots capIdx } capIdx hready hpid howned
      (hidx.resolve_left hnone) rfl (hname hnone hvalid) (h.tracked hact) (by decide) ?_
      (fun h => absurd h (by decide)) (fun hD => ?_) hmay rfl
    · rw [publish_moveToQueue]
      exact .head hpost (.head (.drop (.holders (s.holderFree - 1))) (.single hload.1))
    · simp [publish, msg, modMsg, modChannel]
    · have htw := htwin ⟨_, _, _, hD⟩ hnone
      rwa [← named_publish 1 cookie 0 0 he hc hroom hstage h] at htw

lemma unpublish : (popTail (publish s c d entry n ck fl pl px) c d).modMsg c d entry (fun m =>
      { m with nCaps := 0, cookie := (s.msg c d entry).cookie, flags := (s.msg c d entry).flags,
               payloadLen := (s.msg c d entry).payloadLen,
               payloadIdx := (s.msg c d entry).payloadIdx }) =
      s.modMsg c d entry fun m => { m with nCaps := 0 } := by
  simp [popTail, publish, modMsg, modChannel, msg]

variable (env) in
lemma moveCaps_shifts (hpid : pid < 2 ^ 16) (hs' : s' = publish s c d entry n ck fl pl px)
    (h : Ready R s') (hl : Loading R s' pid ti c d entry [] caps)
    (hmv : moveCaps s ti pid c d entry 0 caps = (s2, m, b)) :
    ∃ s3, s3 = publish s2 c d entry n ck fl pl px ∧ Shifts env R s' s3 ∧
      (s3.channels c).qtail = (s'.channels c).qtail ∧
      Entry s3 pid ti c d entry 0 ((caps.take m).map (·.2)) := by
  have hpub := publish_moveCaps pid ti c entry d n ck fl pl px caps s 0
  rw [hmv, ← hs'] at hpub
  obtain ⟨hchain, hq, m', hcount, hentry⟩ := moveCaps_spec env hpid caps _ [] h hl
  simp only [length_nil, hpub, Nat.zero_add] at hchain hq hcount hentry
  subst hcount
  exact ⟨_, rfl, hchain, hq, hentry⟩

/-- Giving the caps back and taking the message off again. -/
theorem restoreCaps_shifts (hpid : pid < 2 ^ 16) (hs' : s' = publish s c d entry n ck fl pl px)
    (h : Ready R s') (he : Entry s' pid ti c d entry 0 ws)
    (htail : ((s'.channels c).qtail d - 1) % chanQueueDepth = entry) : Shifts env R s'
      (capMsgPayloadFree ((restoreCaps s ti pid c d entry 0 ws).modMsg c d entry
        fun m => { m with nCaps := 0 }) px) := by
  have hpub := publish_restoreCaps pid ti c entry d n ck fl pl px ws s 0
  obtain ⟨hchain, hempty, hq⟩ := restoreCaps_spec env hpid ws _ 0 h he
  rw [hs', hpub, ← hs'] at hchain
  rw [hs', hpub] at hempty hq
  rw [hs', ← hq] at htail
  generalize restoreCaps s ti pid c d entry 0 ws = s2 at hchain hempty htail ⊢
  generalize hs3 : publish s2 c d entry n ck fl pl px = s3 at hchain hempty htail
  have hdepth : 0 < (s3.channels c).qdepth d := by simp [← hs3, publish, modChannel]
  have hidx : (s3.msg c d entry).payloadIdx = px := by
    simp [← hs3, publish, msg, modMsg, modChannel]
  have hun : Shift env R s3 _ := .untail c d
    (fun m => { m with nCaps := 0, cookie := (s2.msg c d entry).cookie,
                       flags := (s2.msg c d entry).flags,
                       payloadLen := (s2.msg c d entry).payloadLen,
                       payloadIdx := (s2.msg c d entry).payloadIdx }) he.lt hdepth
    fun i hi => by
      rw [htail, hempty.word i hi]
      simp
  subst hs3
  rw [htail, hidx, unpublish] at hun
  exact hchain.tail hun

lemma capSendMsg_shifts (h : Ready R s) (hpid : pid < 2 ^ 16)
    (hchW : chW < capTableEntries) (hslots : ∀ desc ∈ descs, desc.slot < capTableEntries)
    (hdistinct : (descs.map SLSCapDesc.slot).Nodup)
    (htwin : R.Exact → NoTwin s pid chW (descs.map SLSCapDesc.slot)) (hfill : R.MaySend s) :
    Shifts env R s (capSendMsg s pid chW payload payloadLen descs tag flags).1 := by
  refine guard_chain fun hlen => guard_chain fun _ => guard_chain fun _ => handled_shifts h hchW
    (fun _ => not_sendable_of_none) fun ti c hown hch hc howned => guard_chain fun hfull =>
      guard_chain fun hdescs => ?_
  have htwin := fun hR => htwin hR ti hown c hch
  have hroom := Nat.not_le.1 hfull
  have hmay := hfill c _ hroom
  dsimp only
  generalize sendDir s c pid = d at *
  split
  · exact .refl
  rename_i s1 pidx hst
  have hstage := stagePayload_staged hst
  rw [hstage.calm.2.2]
  generalize he : (s.channels c).qtail d % chanQueueDepth = entry at *
  have hpost :=
    post_shift env R descs.length tag (flags % 2 ^ 8) payloadLen he hc hroom hstage howned
    (Nat.not_lt.1 hlen)
  have hl : Loading R (publish (clearEntry s1 c d entry) c d entry descs.length tag (flags % 2 ^ 8)
      payloadLen pidx) pid ti c d entry []
      (descs.map fun desc => (desc, (s.tables ti).slots desc.slot)) := by
    refine ⟨post_entry _ _ _ _ he hc hroom hstage h hown, ?_, ?_, fun x hx => ?_, ?_,
      fun j x hx hD => ?_, hmay⟩
    · exact (Owned.congr hstage.calm.2.1).2 howned
    · simp [publish, msg, modMsg, modChannel]
    · obtain ⟨desc, hmem, rfl⟩ := mem_map.1 hx
      simp only [Bool.not_eq_true', Bool.not_eq_false, all_eq_true] at hdescs
      have hok := hdescs desc hmem
      simp only [descOk, Bool.and_eq_true, beq_iff_eq] at hok
      obtain ⟨ob, hget⟩ := Option.isSome_iff_exists.1 hok.2
      refine ⟨hslots desc hmem, ?_, ?_, ?_, hok.1.2⟩
      · exact congrFun (hstage.calm.1.tables ti).2.2 desc.slot
      · exact names_eq_some.2 ⟨hok.1.1, by rw [hok.1.2]; rfl, rfl⟩
      · have htr := h.tracked (capObjectGet_eq_some hget).1
        rwa [State.Tracked, ← hstage.calm.2.1] at htr
    · rwa [map_map]
    · simp only [length_nil, Nat.zero_add] at hD ⊢
      rw [named_publish _ _ _ _ he hc hroom hstage h]
      rw [getElem?_map, Option.map_eq_some_iff] at hx
      obtain ⟨desc, hdesc, rfl⟩ := hx
      exact htwin ⟨_, _, _, hD⟩ j desc.slot (by rw [getElem?_map, hdesc]; rfl)
  have hready := hpost.ready h
  split
  · rename_i s2 moved hmv
    obtain ⟨_, hs3, hmoves, hq, hloaded⟩ := moveCaps_shifts env hpid rfl hready hl hmv
    refine .head hpost (hmoves.trans (restoreCaps_shifts hpid hs3 (hmoves.ready hready) hloaded ?_))
    rw [hq]
    simp [publish, clearEntry, modMsg, modChannel, hstage.calm.2.2, he]
  · rename_i s2 moved hmv
    obtain ⟨_, rfl, hmoves, -⟩ := moveCaps_shifts env hpid rfl hready hl hmv
    exact .head hpost hmoves

lemma capIrqNotifyLocked_shifts (h : Ready R s) : Shifts env R s (capIrqNotifyLocked s vector) := by
  have hbudget : (if s.irqBudget vector = 0 then chanQueueDepth else s.irqBudget vector) ≤
      chanQueueDepth := by
    split_ifs
    · exact le_rfl
    · exact h.wires.budget vector
  simp only [capIrqNotifyLocked]
  generalize (if s.irqBudget vector = 0 then chanQueueDepth else s.irqBudget vector) = budget
    at hbudget ⊢
  split
  · exact .refl
  rename_i hne
  split
  · exact .refl
  rename_i hroom
  split
  · exact .refl
  rename_i s1 pidx halloc
  obtain ⟨o, hact, hkind, hch⟩ := h.wires.bound vector hne
  have hc : s.irqChan vector < capChanMax := by
    rw [← hch]
    exact (h.wires.own o hact hkind).1.trans_le h.wires.next
  simp only [not_or, Nat.not_le] at hroom
  exact .single (post_shift env R _ _ _ _ rfl hc (hroom.2.trans_le hbudget)
    ⟨_, .inr ⟨s1, halloc, rfl⟩⟩ ⟨o, hact, hkind, hch⟩ (Nat.zero_le _))

end AeroSLS.Cap
