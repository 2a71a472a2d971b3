import AeroSLS.Cap.Trace

namespace AeroSLS.Cap

open Function Register Chain State

lemma SameWires.refl (s : State) : SameWires s s := ⟨rfl, rfl, fun _ => rfl, rfl, rfl⟩

lemma SameWires.trans (h : SameWires s s') (h' : SameWires s' s'') : SameWires s s'' :=
  ⟨h'.chanNext.trans h.chanNext, h'.recycled.trans h.recycled,
    fun c => (h'.active c).trans (h.active c), h'.irqChan.trans h.irqChan,
    h'.irqBudget.trans h.irqBudget⟩

lemma sameWires_modObject {f : CapObject → CapObject} : SameWires s (s.modObject o f) :=
  ⟨rfl, rfl, fun _ => rfl, rfl, rfl⟩

lemma sameWires_modTable {f : CapTable → CapTable} : SameWires s (s.modTable ti f) :=
  ⟨rfl, rfl, fun _ => rfl, rfl, rfl⟩

lemma sameWires_modChannel {f : CapChannel → CapChannel}
    (hf : (f (s.channels c)).active = (s.channels c).active) : SameWires s (s.modChannel c f) :=
  ⟨rfl, rfl, fun _ => update_same hf, rfl, rfl⟩

lemma sameWires_modMsg : SameWires s (s.modMsg c d entry f) := sameWires_modChannel rfl

lemma sameWires_setWord : SameWires s (s.setWord c d entry i w) := sameWires_modMsg

lemma sameWires_setCap : SameWires s (s.setCap c d entry i cap) := sameWires_modMsg

lemma sameWires_capSlotPush : SameWires s (capSlotPush s ti i) := sameWires_modTable

lemma sameWires_setSlot : SameWires s (s.setSlot ti i w) := sameWires_modTable

lemma sameWires_capSlotPop (h : capSlotPop s ti = some (s1, idx)) : SameWires s s1 := by
  obtain ⟨-, -, rfl⟩ := capSlotPop_eq h
  exact sameWires_modTable

lemma sameWires_capHolderRemove : SameWires s (capHolderRemove s o k) := by
  unfold capHolderRemove
  split_ifs
  · exact ⟨rfl, rfl, fun _ => rfl, rfl, rfl⟩
  · exact .refl s

lemma sameWires_capHolderLink : SameWires s (capHolderLink s o p) := sameWires_modObject

lemma sameWires_moveToQueue : SameWires s (moveToQueue s ti pid idx c d entry i cap) := by
  refine SameWires.trans ?_ sameWires_setCap
  refine SameWires.trans ?_ sameWires_capHolderLink
  exact SameWires.trans sameWires_capHolderRemove sameWires_capSlotPush

lemma sameWires_moveToSlot : SameWires s (moveToSlot s ti pid idx c d entry i w) := by
  refine SameWires.trans ?_ sameWires_setWord
  refine SameWires.trans ?_ sameWires_setSlot
  exact SameWires.trans sameWires_capHolderRemove sameWires_capHolderLink

lemma sameWires_capMsgPayloadFree : SameWires s (capMsgPayloadFree s idx) := by
  unfold capMsgPayloadFree
  split_ifs
  · exact .refl s
  · exact ⟨rfl, rfl, fun _ => rfl, rfl, rfl⟩

lemma sameWires_dequeue : SameWires s (dequeue s c d entry f) := by
  rw [dequeue_eq]
  exact (SameWires.trans (sameWires_modChannel rfl) sameWires_modMsg).trans
    sameWires_capMsgPayloadFree

lemma Staged.wires (h : Staged s s1 idx) : SameWires s s1 := by
  obtain ⟨bufs, ⟨-, rfl⟩ | ⟨s0, halloc, rfl⟩⟩ := h
  · exact ⟨rfl, rfl, fun _ => rfl, rfl, rfl⟩
  simp only [capMsgPayloadAlloc] at halloc
  split_ifs at halloc
  cases halloc
  exact ⟨rfl, rfl, fun _ => rfl, rfl, rfl⟩

lemma capHolderRemove_face (o' : ℕ) :
    ((capHolderRemove s o k).objects o').face = (s.objects o').face := by
  unfold capHolderRemove
  split_ifs
  · exact update_same rfl
  · rfl

lemma reapUnheld_chan (h0 : (s.objects o).refcount = 0) (hact : (s.objects o).active)
    (hkind : (s.objects o).kind = .chan) (hlt : (s.objects o).chanId < capChanMax)
    (hroom : s.recycled.length < capChanMax) :
    reapUnheld s o = { s with
      channels := update s.channels (s.objects o).chanId
        { s.channels (s.objects o).chanId with active := false }
      irqChan := fun v => if s.irqChan v = (s.objects o).chanId then capNone else s.irqChan v
      recycled := (s.objects o).chanId :: s.recycled
      objects := update s.objects o (s.objects o).dead } := by
  simp [reapUnheld, h0, capObjectFreeResources, hkind, hlt, capObjectDestroy, modChannel, hact,
    capChanIdPut, hroom, modObject, CapObject.dead]

lemma sameWires_reapUnheld (hkind : (s.objects o).kind ≠ .chan) : SameWires s (reapUnheld s o) := by
  cases hk : (s.objects o).kind with
  | chan => exact absurd hk hkind
  | mem | dev =>
    simp only [reapUnheld, capObjectFreeResources, hk, capObjectDestroy]
    split_ifs
    · simp_all
    · exact ⟨rfl, rfl, fun _ => rfl, rfl, rfl⟩
    · exact .refl s

end AeroSLS.Cap
