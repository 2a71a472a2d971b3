import AeroSLS.Cap.Change

namespace AeroSLS.Cap

open Function Register Chain State

variable {s s' : State} {c : ℕ} {d : Dir}

def CapObject.face (ob : CapObject) : CapObject := { ob with holders := [], refcount := 0 }

/-- What a change does to an object: only its list changes, or it dies. -/
def Life (ob ob' : CapObject) : Prop :=
  ob'.face = ob.face ∨
    ob.active = true ∧ ob'.face = { ob.face with active := false, revoking := true }

lemma face_update (hobj : s'.objects = update s.objects o ob) (h : ob.face = (s.objects o).face) :
    (s'.objects o').face = (s.objects o').face := by
  rw [hobj]
  exact update_same h

lemma Life.fields (h : Life ob ob') : ob'.kind = ob.kind ∧ ob'.chanId = ob.chanId := by
  have hfaces : ob'.face.kind = ob.face.kind ∧ ob'.face.chanId = ob.face.chanId := by
    rcases h with h | ⟨-, h⟩ <;> rw [h] <;> exact ⟨rfl, rfl⟩
  exact hfaces

lemma Life.flags (h : Life ob ob') : ob'.active = ob.active ∧ ob'.revoking = ob.revoking ∨
      ob.active ∧ ob'.active = false ∧ ob'.revoking := by
  rcases h with h | ⟨hact, h⟩
  · have hsame : ob'.face.active = ob.face.active ∧ ob'.face.revoking = ob.face.revoking := by
      rw [h]
      exact ⟨rfl, rfl⟩
    exact .inl hsame
  have hdead : ob'.face.active = false ∧ ob'.face.revoking := by
    rw [h]
    exact ⟨rfl, rfl⟩
  exact .inr ⟨hact, hdead⟩

lemma Life.active (h : Life ob ob') (hact : ob'.active) :
    ob.active ∧ ob'.revoking = ob.revoking := by
  rcases h.flags with ⟨h1, h2⟩ | ⟨h1, h2, -⟩
  · exact ⟨h1 ▸ hact, h2⟩
  · rw [h2] at hact
    cases hact

lemma capSlotPop_objects (h : capSlotPop s ti = some (s1, idx)) : s1.objects = s.objects := by
  obtain ⟨-, -, rfl⟩ := capSlotPop_eq h
  rfl

lemma dequeue_objects : (dequeue s c d entry f).objects = s.objects := by
  rw [dequeue_eq, capMsgPayloadFree_objects]
  rfl

/-- What a shift makes of an object. -/
inductive Fate (R : Rules) (s : State) (o : ℕ) (ob : CapObject) : Prop
  | same (h : ob = s.objects o)
  | relisted (hface : ob.face = (s.objects o).face)
    (hheld : (s.objects o).revoking = true ∨ ob.holders ≠ [])
  | dead (hact : (s.objects o).active = true) (hdie : R.mayDie s o)
    (hface : ob.face = { (s.objects o).face with active := false, revoking := true })

lemma fate_of_eq (hobj : s'.objects = s.objects) : Fate R s o (s'.objects o) :=
  .same (congrFun hobj o)

lemma fate_update (hobj : s'.objects = update s.objects o x) (h : Fate R s o x) :
    Fate R s o' (s'.objects o') := by
  rw [hobj]
  by_cases hoo : o' = o
  · subst hoo
    rwa [update_self]
  · exact .same (update_of_ne hoo _ _)

lemma fate_without (ho : s.Tracked o)
    (hdie : ((s.objects o).without k).active = false → R.mayDie s o) :
    Fate R s o ((s.objects o).without k) := by
  simp only [CapObject.without] at hdie ⊢
  split_ifs at hdie ⊢ with h0
  · exact .dead ho.1 (hdie rfl) rfl
  · exact .relisted rfl (.inr (by simpa using h0))

lemma Drop.fate (hd : Drop env R s s') (h : Tidy R.exact s) (o : ℕ) :
    Fate R s o (s'.objects o) := by
  cases hd with
  | aside _ hobj => exact fate_of_eq hobj
  | queued _ _ _ _ _ _ _ ho _ hdie | slot _ _ _ _ _ _ _ ho hdie =>
    exact fate_update (reap_remove_objects (h.held _ ho).2) (fate_without ho hdie)
  | refile pid ti idx hown hpop => exact .same (congrFun (capSlotPop_objects hpop) o)
  | head => exact fate_of_eq dequeue_objects
  | settle o' holders refcount hr =>
    exact fate_update rfl (.relisted rfl (.inl hr))
  | reap o' hact hr hdie =>
    refine fate_update reapUnheld_objects ?_
    split_ifs with h0
    · exact .dead hact (hdie h0) rfl
    · exact .same rfl
  | vectors | word | clear | scribble | unbind => exact .same rfl

section

variable (h : Tidy D s) (hpid : pid < 2 ^ 16)
include h hpid

lemma moveToQueue_objects (ho : s.Tracked cap.word.obj) :
    (moveToQueue s ti pid idx c d entry i cap).objects = update s.objects cap.word.obj
      ((s.objects cap.word.obj).moved (.slot pid idx) (queuePlace c d entry i)) := by
  rw [moveToQueue_eq hpid, ← rehold_objects (h.held _ ho).2]
  rfl

lemma moveToSlot_objects (hpop : capSlotPop s ti = some (s1, idx)) (ho : s.Tracked w.obj) :
    (moveToSlot s1 ti pid idx c d entry i w).objects = update s.objects w.obj
      ((s.objects w.obj).moved (queueKey c entry i) (.slot pid idx)) := by
  have hcount := (h.held _ ho).2
  rw [← capSlotPop_objects hpop] at hcount ⊢
  rw [moveToSlot_eq hpid]
  change (rehold (s1.setSlot ti idx w) w.obj (queueKey c entry i) (.slot pid idx)).objects = _
  rw [rehold_objects (s := s1.setSlot ti idx w) hcount]
  rfl

theorem moveToQueue_face (ho : s.Tracked cap.word.obj) (o : ℕ) :
    ((moveToQueue s ti pid idx c d entry i cap).objects o).face = (s.objects o).face :=
  face_update (moveToQueue_objects h hpid ho) rfl

lemma moveToSlot_face (hpop : capSlotPop s ti = some (s1, idx)) (ho : s.Tracked w.obj) (o : ℕ) :
    ((moveToSlot s1 ti pid idx c d entry i w).objects o).face = (s.objects o).face :=
  face_update (moveToSlot_objects h hpid hpop ho) rfl

end

section

variable (hs : Shift env R s s') (h : Tidy R.exact s)
include hs h

lemma Shift.fate (o : ℕ) : Fate R s o (s'.objects o) := by
  cases hs with
  | drop hd => exact hd.fate h o
  | bind => exact .same rfl
  | out pid ti slot c d entry i cap hpid hown hslot hw hname ho =>
    refine fate_update (moveToQueue_objects h hpid ho) (.relisted rfl (.inr ?_))
    simp [CapObject.moved]
  | into pid ti slot c d entry i hpid hown hpop hc hl hi hname ho =>
    refine fate_update (moveToSlot_objects h hpid hpop ho) (.relisted rfl (.inr ?_))
    simp [CapObject.moved]
  | tail c d idx f hc howned hroom hstage => exact .same (congrFun hstage.calm.2.1 o)
  | untail =>
    refine fate_of_eq ?_
    rw [capMsgPayloadFree_objects]
    rfl

lemma Shift.life (o : ℕ) : Life (s.objects o) (s'.objects o) := by
  cases hs.fate h o with
  | same he => exact .inl (congrArg CapObject.face he)
  | relisted hface => exact .inl hface
  | dead hact hdie hface => exact .inr ⟨hact, hface⟩

lemma Shift.tracked (ho : s'.Tracked o) : s.Tracked o := by
  have hlife := (hs.life h o).active ho.1
  exact ⟨hlife.1, hlife.2 ▸ ho.2⟩

theorem Shift.died (hact : (s.objects o).active) (hoff : (s'.objects o).active = false) :
    R.mayDie s o := by
  have hface : (s'.objects o).face ≠ (s.objects o).face := by
    intro he
    have hsame := congrArg CapObject.active he
    cases hact.symm.trans (hsame.symm.trans hoff)
  cases hs.fate h o with
  | same he => exact absurd (congrArg CapObject.face he) hface
  | relisted he => exact absurd he hface
  | dead _ hdie => exact hdie

end

lemma named_dequeue (h : Tidy D s) (hc : c < capChanMax) (hpos : 0 < (s.channels c).qdepth d) :
    (dequeue s c d ((s.channels c).qhead d % chanQueueDepth) f).named = (popHead s c d).named := by
  rw [dequeue_eq, (calm_capMsgPayloadFree).named]
  refine named_modMsg_of_not_live fun hl => ?_
  exact ((live_popHead h.rings hc hpos).1 hl.2).2 ⟨rfl, rfl, rfl⟩

lemma named_reap_remove : (reapUnheld (capHolderRemove s o k) o).named = s.named :=
  calm_reap_remove.named

/-- A drop gives no place a name. -/
theorem Drop.named (hd : Drop env R s s') (h : Tidy R.exact s) (hn : s'.named p = some o) :
    s.named p = some o := by
  have hup : ∀ q, update s.named q none p = some o → s.named p = some o := by grind
  cases hd with
  | aside hcalm => rwa [hcalm.named] at hn
  | vectors => exact hn
  | queued c d entry i hc hl hi =>
    rw [named_setWord hc (calm_reap_remove.live.2 hl) hi, named_reap_remove] at hn
    exact hup _ hn
  | word c d entry i w hi hw =>
    by_cases hlc : c < capChanMax ∧ s.Live c d entry
    · rw [named_setWord hlc.1 hlc.2 hi] at hn
      have hnone : w.names = none := by
        rcases hw with rfl | ⟨rfl, -⟩
        · rfl
        · exact names_stamp _
      rw [hnone] at hn
      exact hup _ hn
    · rwa [show (s.setWord c d entry i w).named = s.named from named_modMsg_of_not_live hlc] at hn
  | slot pid ti i o' hown hi =>
    rw [named_capSlotPush (h.tables.calm calm_reap_remove) (calm_reap_remove.owns.2 hown) hi,
      named_reap_remove] at hn
    exact hup _ hn
  | clear pid ti i hown hi =>
    rw [named_capSlotPush h.tables hown hi] at hn
    exact hup _ hn
  | refile pid ti idx hown hpop => rwa [named_refile h.tables hown hpop] at hn
  | scribble c d entry f hl => rwa [named_modMsg_of_not_live fun hlc => hl hlc.2] at hn
  | head c d f hc hpos =>
    rw [named_dequeue h hc hpos, named_popHead h.rings hc hpos] at hn
    beta_reduce at hn
    by_cases hp : InEntry c d ((s.channels c).qhead d % chanQueueDepth) p
    · rw [if_pos hp] at hn
      cases hn
    · rwa [if_neg hp] at hn
  | settle => rwa [(calm_modObject _).named] at hn
  | reap => rwa [calm_reapUnheld.named] at hn
  | unbind pid ti hown => grind [named_unbindTable, h.tables]

lemma named_post (h : Tidy D s)
    (hc : c < capChanMax) (hroom : (s.channels c).qdepth d < chanQueueDepth)
    (hstage : Staged s s1 idx) (hzero : ∀ m, ∀ i < capMsgMaxCaps, ((f m).caps i).word = 0) :
    (pushTail (s1.modMsg c d ((s.channels c).qtail d % chanQueueDepth) f) c d).named = s.named := by
  have hrings : Rings s1 := h.rings.calm hstage.calm.1
  rw [← hstage.calm.2.2] at hroom ⊢
  have hlive := not_live_tail hrings hc hroom
  rw [named_pushTail hrings.modMsg hc, named_modMsg_of_not_live fun hl => hlive hl.2,
    hstage.calm.1.named]
  · simpa [modMsg, modChannel] using hroom
  intro i hi
  have hz := hzero (s1.msg c d ((s1.channels c).qtail d % chanQueueDepth)) i hi
  have htail : ((s1.modMsg c d ((s1.channels c).qtail d % chanQueueDepth) f).channels c).qtail =
      (s1.channels c).qtail := by
    simp [modMsg, modChannel]
  rw [htail, word, msg_modMsg, if_pos ⟨rfl, rfl, rfl⟩, hz, names_zero]

lemma named_unpost (h : Tidy D s) (hc : c < capChanMax) (hpos : 0 < (s.channels c).qdepth d)
    (hzero : ∀ i < capMsgMaxCaps,
      s.word c d (((s.channels c).qtail d - 1) % chanQueueDepth) i = 0) :
    (capMsgPayloadFree ((popTail s c d).modMsg c d
      (((s.channels c).qtail d - 1) % chanQueueDepth) f) idx).named = s.named := by
  rw [calm_capMsgPayloadFree.named, named_modMsg_of_not_live fun hl =>
    ((live_popTail h.rings hc hpos).1 hl.2).2 ⟨rfl, rfl, rfl⟩]
  refine named_ext (fun _ _ => rfl) fun c' d' entry' i hi => ?_
  simp only [named_queuePlace hi, live_popTail h.rings hc hpos, word, msg_popTail]
  by_cases hp : c' = c ∧ d' = d ∧ entry' = ((s.channels c).qtail d - 1) % chanQueueDepth
  · obtain ⟨rfl, rfl, rfl⟩ := hp
    have hz := hzero i hi
    simp only [word] at hz
    simp [hz]
  · simp [hp]

/-- One name moves from a place to another that had none. -/
def Moved (R : Rules) (s s' : State) : Prop :=
  ∃ p q o, p ≠ q ∧ s.Tracked o ∧ s.named p = some o ∧ s.named q = none ∧
    (∀ c ref d, q = .queue c ref d → s.Owned c ∧ R.mayFill c d (ref / capMsgMaxCaps)) ∧
    s'.named = update (update s.named p none) q (some o) ∧
    ∀ o, (s'.objects o).face = (s.objects o).face

lemma Shift.named (hs : Shift env R s s') (h : Tidy R.exact s) :
    (∀ p o, s'.named p = some o → s.named p = some o) ∨ Moved R s s' := by
  cases hs with
  | drop hd => exact .inl fun p o hn => hd.named h hn
  | bind pid ti hti h0 hfree hpid hnew =>
    refine .inl fun p o hn => ?_
    rwa [named_bindTable h0 hpid hnew h.tables hti hfree] at hn
  | out pid ti slot c d entry i cap hpid hown hslot hw hname ho hc hl hi hzero hn hmem howned
      _ hfill =>
    refine .inr ⟨.slot pid slot, queuePlace c d entry i, cap.word.obj, by simp [queuePlace], ho,
      ?_, ?_, ?_, ?_, ?_⟩
    · rw [named_slot hown hslot, hw, hname]
    · rw [named_queuePlace hi, if_pos ⟨hc, hl⟩, hzero, names_zero]
    · rintro c' ref d' hq
      cases hq
      refine ⟨howned, ?_⟩
      rwa [show (entry * capMsgMaxCaps + i) / capMsgMaxCaps = entry by
        rw [capMsgMaxCaps] at hi ⊢; omega]
    · rw [named_moveToQueue _ h.tables hown hslot hc hl hi, hname]
    · exact moveToQueue_face h hpid ho
  | into pid ti slot c d entry i hpid hown hpop hc hl hi hname ho =>
    obtain ⟨hslot, hty⟩ := h.tables.popped hpop hown.lt
    refine .inr ⟨queuePlace c d entry i, .slot pid slot, (s.word c d entry i).obj,
      by simp [queuePlace], ho, ?_, ?_, ?_, ?_, ?_⟩
    · rw [named_queuePlace hi, if_pos ⟨hc, hl⟩, hname]
    · rw [named_slot hown hslot, names_of_none hty]
    · intro c' ref d' hq
      cases hq
    · rw [named_moveToSlot h.tables hown hpop hc hl hi, hname]
    · exact moveToSlot_face h hpid hpop ho
  | tail c d idx f hc howned hroom hstage hzero =>
    refine .inl fun p o hn => ?_
    rwa [named_post h hc hroom hstage hzero] at hn
  | untail c d f hc hpos hzero =>
    refine .inl fun p o hn => ?_
    rwa [named_unpost h hc hpos hzero] at hn

end AeroSLS.Cap
