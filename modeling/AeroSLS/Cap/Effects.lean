import AeroSLS.Cap.Tidy

namespace AeroSLS.Cap

open Function Register Chain CapObject

variable {s s' : State} {ob : CapObject}

lemma calm_of_eq (htab : s'.tables = s.tables) (hpid : s'.tablePid = s.tablePid)
    (hchan : s'.channels = s.channels) (hnext : s'.objNext = s.objNext) : Calm s s' where
  tablePid := hpid
  objNext := hnext
  tables ti := by rw [htab]; exact ⟨rfl, rfl, rfl⟩
  rings c := by rw [hchan]; exact ⟨rfl, rfl, rfl⟩
  msgs c d entry := by simp only [State.msg, hchan]; exact ⟨trivial, fun _ => trivial⟩

lemma calm_modObject (f : CapObject → CapObject) : Calm s (s.modObject o f) :=
  calm_of_eq rfl rfl rfl rfl

lemma calm_modChannel {f : CapChannel → CapChannel}
    (hf : ∀ ch, (f ch).qhead = ch.qhead ∧ (f ch).qtail = ch.qtail ∧ (f ch).qdepth = ch.qdepth ∧
      (f ch).q = ch.q) : Calm s (s.modChannel c f) where
  tablePid := rfl
  objNext := rfl
  tables _ := ⟨rfl, rfl, rfl⟩
  rings c' := by
    by_cases hc : c' = c
    · subst hc
      simp [State.modChannel, hf]
    · simp [State.modChannel, hc]
  msgs c' d entry := by
    by_cases hc : c' = c
    · subst hc
      simp [State.msg, State.modChannel, hf]
    · simp [State.msg, State.modChannel, hc]

lemma calm_modTable
    (hf : ∀ t, (f t).pid = t.pid ∧ (f t).freelistHead = t.freelistHead ∧ (f t).slots = t.slots) :
    Calm s (s.modTable ti f) where
  tablePid := rfl
  objNext := rfl
  tables tj := by
    by_cases ht : tj = ti
    · subst ht
      simp [State.modTable, hf]
    · simp [State.modTable, ht]
  rings _ := ⟨rfl, rfl, rfl⟩
  msgs _ _ _ := ⟨rfl, fun _ => rfl⟩

lemma capHolderRemove_eq (s : State) (o : ℕ) (k : HolderKey) : ∃ objects holderFree,
    capHolderRemove s o k = { s with objects, holderFree } := by
  unfold capHolderRemove
  split_ifs <;> exact ⟨_, _, rfl⟩

/-- Of the channels only the flags are written. -/
lemma reapUnheld_eq (s : State) (o : ℕ) : ∃ (active arenaUsed : ℕ → Bool)
    (irqChan arenaOwner : ℕ → ℕ) (recycled : List ℕ), reapUnheld s o = { s with
      objects := update s.objects o
        (if (s.objects o).refcount = 0 then (s.objects o).dead else s.objects o)
      channels := fun c => { s.channels c with active := active c }
      arenaUsed, irqChan, arenaOwner, recycled } := by
  have hfree : ∃ active arenaUsed arenaOwner : ℕ → _, capObjectFreeResources s o = { s with
      channels := fun c => { s.channels c with active := active c }, arenaUsed, arenaOwner } := by
    simp only [capObjectFreeResources]
    split
    · exact ⟨_, _, _, rfl⟩
    · split_ifs
      · refine ⟨update (fun c => (s.channels c).active) (s.objects o).chanId false,
          s.arenaUsed, s.arenaOwner, ?_⟩
        simp only [State.modChannel]
        congr
        funext c
        by_cases hc : c = (s.objects o).chanId <;> simp [hc]
      · exact ⟨_, _, _, rfl⟩
    · exact ⟨_, _, _, rfl⟩
  unfold reapUnheld
  split_ifs
  · obtain ⟨active, used, owner, heq⟩ := hfree
    simp only [heq, capObjectDestroy, capChanIdPut]
    split_ifs <;> exact ⟨_, _, _, _, _, rfl⟩
  · rw [update_eq_self]
    exact ⟨_, _, _, _, _, rfl⟩

lemma calm_capHolderRemove : Calm s (capHolderRemove s o k) := by
  obtain ⟨_, _, heq⟩ := capHolderRemove_eq s o k
  rw [heq]
  exact calm_of_eq rfl rfl rfl rfl

lemma calm_capHolderLink : Calm s (capHolderLink s o p) := calm_modObject _

lemma calm_capChanIdPut : Calm s (capChanIdPut s c) := by
  unfold capChanIdPut
  split_ifs
  · exact calm_of_eq rfl rfl rfl rfl
  · exact Calm.refl s

lemma calm_reapUnheld : Calm s (reapUnheld s o) := by
  obtain ⟨_, _, _, _, _, heq⟩ := reapUnheld_eq s o
  rw [heq]
  exact ⟨rfl, rfl, fun _ => ⟨rfl, rfl, rfl⟩, fun _ => ⟨rfl, rfl, rfl⟩, fun _ _ _ =>
    ⟨rfl, fun _ => rfl⟩⟩

lemma calm_capMsgPayloadFree : Calm s (capMsgPayloadFree s idx) := by
  unfold capMsgPayloadFree
  split_ifs
  · exact Calm.refl s
  · exact calm_of_eq rfl rfl rfl rfl

lemma reapUnheld_objects : (reapUnheld s o).objects = update s.objects o
    (if (s.objects o).refcount = 0 then (s.objects o).dead else s.objects o) := by
  obtain ⟨_, _, _, _, _, heq⟩ := reapUnheld_eq s o
  rw [heq]

/-- The list of an object with one entry less, and the object dead if it was the last. -/
def CapObject.without (ob : CapObject) (k : HolderKey) : CapObject :=
  let ob' := { ob with
    holders := ob.holders.eraseP fun h => h.key == k
    refcount := (ob.holders.eraseP fun h => h.key == k).length }
  if ob'.refcount = 0 then ob'.dead else ob'

lemma reap_remove_objects (hcount : (s.objects o).refcount = (s.objects o).holders.length) :
    (reapUnheld (capHolderRemove s o k) o).objects =
      update s.objects o ((s.objects o).without k) := by
  rw [reapUnheld_objects, capHolderRemove_objects hcount, update_self, update_idem]
  rfl

lemma calm_reap_remove : Calm s (reapUnheld (capHolderRemove s o k) o) :=
  calm_capHolderRemove.trans calm_reapUnheld

lemma without_id : (ob.without k).id = ob.id := by
  simp only [without]
  split_ifs <;> rfl

lemma without_kind : (ob.without k).kind = ob.kind := by
  simp only [without]
  split_ifs <;> rfl

lemma without_active (h : (ob.without k).active) : ob.active := by
  simp only [without] at h
  split_ifs at h
  · cases h
  · exact h

lemma without_of_active (h : (ob.without k).active) :
    (ob.without k).holders = ob.holders.eraseP (fun h => h.key == k) ∧
      (ob.without k).refcount = (ob.without k).holders.length := by
  simp only [without] at h ⊢
  split_ifs at h ⊢
  · cases h
  · exact ⟨rfl, rfl⟩

/-- One object is replaced. -/
theorem Objects.set (h : Objects s) (hobj : s'.objects = Function.update s.objects o ob)
    (hnext : s'.objNext = s.objNext) (hid : o < s.objNext → ob.id = o)
    (hact : s.objNext ≤ o → ob.active = false) : Objects s' where
  next := by rw [hnext]; exact h.next
  id := by
    rw [hnext, hobj]
    exact (forall_update_iff s.objects fun o' ob => o' < s.objNext → ob.id = o').2
      ⟨hid, fun o' _ => h.id o'⟩
  unborn := by
    rw [hnext, hobj]
    exact (forall_update_iff s.objects fun o' ob => s.objNext ≤ o' → ob.active = false).2
      ⟨hact, fun o' _ => h.unborn o'⟩

lemma Objects.update (h : Objects s) (hobj : s'.objects = Function.update s.objects o ob)
    (hnext : s'.objNext = s.objNext) (hid : ob.id = (s.objects o).id)
    (hact : ob.active → (s.objects o).active) : Objects s' := by
  refine h.set hobj hnext (fun ho => hid.trans (h.id o ho)) fun ho => ?_
  simpa [h.unborn o ho] using hact

lemma kind_update (hobj : s'.objects = update s.objects o ob)
    (hkind : ob.kind = (s.objects o).kind) : (s'.objects o').kind = (s.objects o').kind := by
  rw [hobj]
  exact update_same hkind

section

variable (ht : Tables s) (hti : ti < capTableMax)
include ht hti

lemma Tables.free_head (hne : (s.tables ti).freelistHead ≠ capFreelistEnd) :
    (s.tables ti).freelistHead < capTableEntries ∧
      ((s.tables ti).slots (s.tables ti).freelistHead).ty = .none :=
  (ht.free ti hti).head_mem hne

lemma Tables.head_lt : (s.tables ti).freelistHead < 2 ^ 16 := by
  by_cases hne : (s.tables ti).freelistHead = capFreelistEnd
  · rw [hne]
    decide
  · have h := (ht.free_head hti hne).1
    simp only [capTableEntries] at h
    omega

/-- A table of the state is replaced; its binding stays. -/
theorem Tables.modTable (hpid : (f (s.tables ti)).pid = (s.tables ti).pid)
    (hfree : FreeList (fun i => ((f (s.tables ti)).slots i).obj % 2 ^ 16) capFreelistEnd
      (f (s.tables ti)).freelistHead
      fun i => i < capTableEntries ∧ ((f (s.tables ti)).slots i).ty = .none)
    (hidle : ti ≠ 0 → s.tablePid ti = 0 → ∀ i < capTableEntries,
      ((f (s.tables ti)).slots i).ty = .none) : Tables (s.modTable ti f) where
  kernel := ht.kernel
  pid tj htj := (update_same (g := CapTable.pid) hpid).trans (ht.pid tj htj)
  inj := ht.inj
  free tj htj := by
    by_cases h : tj = ti
    · subst h
      simpa [State.modTable] using hfree
    · simpa [State.modTable, h] using ht.free tj htj
  idle tj htj h0 hp := by
    by_cases h : tj = ti
    · subst h
      simpa [State.modTable] using hidle h0 hp
    · simpa [State.modTable, h] using ht.idle tj htj h0 hp

theorem Tables.push (hi : i < capTableEntries) (hty : ((s.tables ti).slots i).ty ≠ .none) :
    Tables (capSlotPush s ti i) := by
  refine ht.modTable hti rfl ?_ fun h0 hp j hj => ?_
  · have hne : i ≠ capFreelistEnd := by
      simp only [capTableEntries, capFreelistEnd] at *
      omega
    refine ((ht.free ti hti).push (fun h => hty h.2) hne).congr ?_ ?_
    · intro j _
      by_cases hji : j = i
      · subst hji
        simp only [update_self]
        exact Nat.mod_eq_of_lt (ht.head_lt hti)
      · simp only [update_of_ne hji]
    · intro j
      by_cases hji : j = i
      · subst hji
        simp only [update_self, or_true, iff_true]
        exact ⟨hi, rfl⟩
      · simp [hji]
  · grind [ht.idle]

end

section

variable (h : capSlotPop s ti = some (s1, idx))
include h

lemma capSlotPop_eq :
    idx = (s.tables ti).freelistHead ∧ idx ≠ capFreelistEnd ∧ s1 = s.modTable ti fun t =>
        { t with freelistHead := (t.slots idx).obj % 2 ^ 16, slots := update t.slots idx 0 } := by
  simp only [capSlotPop] at h
  split_ifs at h with hne
  cases h
  exact ⟨rfl, hne, rfl⟩

lemma capSlotPop_setSlot : s1.setSlot ti idx w = s.modTable ti fun t =>
      { t with freelistHead := (t.slots idx).obj % 2 ^ 16, slots := update t.slots idx w } := by
  obtain ⟨-, -, rfl⟩ := capSlotPop_eq h
  simp [State.setSlot, State.modTable]

lemma Tables.popped (ht : Tables s) (hti : ti < capTableMax) :
    idx < capTableEntries ∧ ((s.tables ti).slots idx).ty = .none := by
  obtain ⟨rfl, hne, -⟩ := capSlotPop_eq h
  exact ht.free_head hti hne

lemma Tables.popSet (ht : Tables s) (hti : ti < capTableMax) (hused : ti = 0 ∨ s.tablePid ti ≠ 0)
    (hw : w.ty ≠ .none) : Tables (s1.setSlot ti idx w) ∧ idx < capTableEntries ∧
      ((s.tables ti).slots idx).ty = .none := by
  obtain ⟨hidx, hne, -⟩ := capSlotPop_eq h
  refine ⟨?_, ht.popped h hti⟩
  rw [capSlotPop_setSlot h]
  refine ht.modTable hti rfl ?_ fun h0 hp => absurd hp (hused.resolve_left h0)
  have hpop := (ht.free ti hti).pop (hidx ▸ hne)
  rw [← hidx] at hpop
  refine hpop.congr ?_ ?_
  · grind
  · grind

end

end AeroSLS.Cap
