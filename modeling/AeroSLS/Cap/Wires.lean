import Mathlib.Data.List.Perm.Subperm
import AeroSLS.Cap.Frame

namespace AeroSLS.Cap

open Function Register Chain List CapObject

variable {s s' s1 : State} {ob : CapObject}

/-- No revocation is under way, except of the objects in `X`. -/
def Settled (X : ℕ → Prop) (s : State) : Prop :=
  ∀ o, ¬X o → (s.objects o).active = true → (s.objects o).revoking = false

lemma Shift.settled (hs : Shift env R s s') (h : Tidy R.exact s) (hset : Settled X s) :
    Settled X s' := by
  intro o ho hact
  obtain ⟨hact', hrev⟩ := (hs.life h o).active hact
  rw [hrev]
  exact hset o ho hact'

/-- A live object is held. -/
def Kept (s : State) : Prop := ∀ o, s.Tracked o → (s.objects o).holders ≠ []

lemma Shift.kept (hs : Shift env R s s') (ht : Tidy R.exact s) (h : Kept s) : Kept s' := by
  intro o ho
  have ho' := hs.tracked ht ho
  cases hs.fate ht o with
  | same he =>
    rw [he]
    exact h o ho'
  | relisted hface hheld =>
    refine hheld.resolve_left ?_
    simp [ho'.2]
  | dead hact hdie hface =>
    have hoff := congrArg active hface
    cases ho.1.symm.trans hoff

/-- What a change that is no shift makes of an object it touches. -/
inductive Made (R : Rules) (o : ℕ) (ob : CapObject) : Prop
  | unused (hact : ob.active = false)
  | revoked (hrev : ob.revoking = true) (hrevoke : R.mayRevoke o)
  | held (hrev : ob.revoking = false) (hheld : ob.holders ≠ [])

lemma made_update (hobj : s'.objects = update s.objects o x) (h : Made R o x) (o' : ℕ) :
    s'.objects o' = s.objects o' ∨ Made R o' (s'.objects o') := by
  rw [hobj]
  by_cases hoo : o' = o
  · subst hoo
    rw [update_self]
    exact .inr h
  · exact .inl (update_of_ne hoo _ _)

lemma Change.made (hs : Change env R s s') :
    Shift env R s s' ∨ s'.objects o = s.objects o ∨ Made R o (s'.objects o) := by
  cases hs with
  | shift hs => exact .inl hs
  | revoking o' ho hrevoke =>
    exact .inr (made_update rfl
      (.revoked rfl hrevoke) o)
  | reserve ob hroom hid hact => exact .inr (made_update rfl (.unused hact) o)
  | install pid ti idx w hown hpop => exact .inr (.inl (congrFun (capSlotPop_objects hpop) o))
  | enlist o' ob hres hid hrev hkind hchan hfresh hreg hcount hheld =>
    exact .inr (made_update rfl (.held hrev hheld) o)
  | connect o' c ob p q hres hid hrev hkind hchan htake hc hidle hfresh hreg hcount hheld =>
    have hobj := (capChanIdTake_calm htake).2.1
    exact .inr (made_update (congrArg (update · o' ob) hobj) (.held hrev hheld) o)
  | cycle c p q b htake =>
    exact .inr (.inl (congrFun (capChanIdPut_objects.trans (capChanIdTake_calm htake).2.1) o))
  | lose c p q htake => exact .inr (.inl (congrFun (capChanIdTake_calm htake).2.1 o))
  | abort o' f hres hid hkind hact => exact .inr (made_update rfl (.unused hact) o)
  | restamp => exact .inr (.inl rfl)

lemma Change.kept (hs : Change env R s s') (ht : Tidy R.exact s) (h : Kept s) : Kept s' := by
  intro o ho
  rcases hs.made with hs | heq | hmade
  · exact hs.kept ht h o ho
  · rw [State.Tracked, heq] at ho
    rw [heq]
    exact h o ho
  · cases hmade with
    | unused hact => cases ho.1.symm.trans hact
    | revoked hrev => cases ho.2.symm.trans hrev
    | held _ hheld => exact hheld

structure Wires (s : State) : Prop where
  next : s.chanNext ≤ capChanMax
  nodup : s.recycled.Nodup
  lt : ∀ c ∈ s.recycled, c < s.chanNext
  own : ∀ o, (s.objects o).active = true → (s.objects o).kind = .chan →
    (s.objects o).chanId < s.chanNext ∧ (s.objects o).chanId ∉ s.recycled ∧
      (s.channels (s.objects o).chanId).active = true
  inj : ∀ o o', (s.objects o).active = true → (s.objects o).kind = .chan →
    (s.objects o').active = true → (s.objects o').kind = .chan →
    (s.objects o).chanId = (s.objects o').chanId → o = o'
  bound : ∀ v, s.irqChan v ≠ capNone → s.Owned (s.irqChan v)
  budget : ∀ v, s.irqBudget v ≤ chanQueueDepth

def SameUse (s s' : State) : Prop :=
  ∀ o, (s'.objects o).active = (s.objects o).active ∧
    ((s.objects o).active = true → (s'.objects o).kind = (s.objects o).kind ∧
      (s'.objects o).chanId = (s.objects o).chanId)

lemma sameUse_of_face (h : ∀ o, (s'.objects o).face = (s.objects o).face) : SameUse s s' := by
  intro o
  have hlife : Life (s.objects o) (s'.objects o) := .inl (h o)
  have hact : (s'.objects o).face.active = (s.objects o).face.active := by rw [h o]
  exact ⟨hact, fun _ => ⟨hlife.fields.1, hlife.fields.2⟩⟩

lemma sameUse_of_eq (h : s'.objects = s.objects) : SameUse s s' :=
  sameUse_of_face fun o => by rw [h]

lemma SameUse.owned (h : SameUse s s') (hown : s.Owned c) : s'.Owned c := by
  obtain ⟨o, hact, hkind, hc⟩ := hown
  obtain ⟨h1, h2⟩ := h o
  obtain ⟨h2, h3⟩ := h2 hact
  exact ⟨o, h1.trans hact, h2.trans hkind, h3.trans hc⟩

theorem Wires.fewer (h : Wires s) (hwire : SameWires s s')
    (huse : ∀ o, (s'.objects o).active → (s.objects o).active ∧
      (s'.objects o).kind = (s.objects o).kind ∧ (s'.objects o).chanId = (s.objects o).chanId)
    (hown : ∀ c, s.Owned c → s'.Owned c) : Wires s' where
  next := by rw [hwire.chanNext]; exact h.next
  nodup := by rw [hwire.recycled]; exact h.nodup
  lt := by rw [hwire.recycled, hwire.chanNext]; exact h.lt
  own o hact hkind := by
    obtain ⟨ha, hk, hc⟩ := huse o hact
    rw [hwire.recycled, hwire.chanNext, hwire.active, hc]
    exact h.own o ha (hk ▸ hkind)
  inj o o' hact hkind hact' hkind' heq := by
    obtain ⟨ha, hk, hc⟩ := huse o hact
    obtain ⟨ha', hk', hc'⟩ := huse o' hact'
    exact h.inj o o' ha (hk ▸ hkind) ha' (hk' ▸ hkind') (by rw [← hc, ← hc', heq])
  bound v hv := by
    rw [hwire.irqChan] at hv ⊢
    exact hown _ (h.bound v hv)
  budget := by rw [hwire.irqBudget]; exact h.budget

/-- Nothing that the ids depend on changed. -/
theorem Wires.same (h : Wires s) (hwire : SameWires s s') (huse : SameUse s s') : Wires s' := by
  refine h.fewer hwire (fun o hact => ?_) fun _ => huse.owned
  have hact' := (huse o).1 ▸ hact
  exact ⟨hact', (huse o).2 hact'⟩

lemma length_lt_of_nodup {l : List ℕ} {n c : ℕ} (hl : l.Nodup) (hlt : ∀ a ∈ l, a < n)
    (hc : c < n) (hmem : c ∉ l) : l.length < n := by
  have hsub : (c :: l).Subperm (range n) := by grind [subperm_of_subset]
  have hlen := hsub.length_le
  simp only [length_cons, length_range] at hlen
  omega

lemma Wires.room (h : Wires s) (hc : c < s.chanNext) (hmem : c ∉ s.recycled) :
    s.recycled.length < capChanMax :=
  (length_lt_of_nodup h.nodup h.lt hc hmem).trans_le h.next

lemma dead_of_update (hact : (update s.objects o ob.dead o').active) :
    o' ≠ o ∧ (s.objects o').active := by
  by_cases hoo : o' = o
  · subst hoo
    rw [update_self] at hact
    cases hact
  · grind

open State (modObject)

section

variable (h : Wires s)
include h

/-- A channel in use dies: its id goes back. -/
theorem Wires.reap (hact : (s.objects o).active) : Wires (reapUnheld s o) := by
  by_cases h0 : (s.objects o).refcount = 0
  case neg =>
    have heq : reapUnheld s o = s := by rw [reapUnheld, if_neg h0]
    rwa [heq]
  by_cases hkind : (s.objects o).kind = .chan
  · obtain ⟨hlt, hmem, hch⟩ := h.own o hact hkind
    rw [reapUnheld_chan h0 hact hkind (hlt.trans_le h.next) (h.room hlt hmem)]
    have hother : ∀ o', (update s.objects o (s.objects o).dead o').active →
        (update s.objects o (s.objects o).dead o').kind = .chan →
        update s.objects o (s.objects o).dead o' = s.objects o' ∧
          (s.objects o').active ∧ (s.objects o').kind = .chan ∧
            (s.objects o').chanId ≠ (s.objects o).chanId := by
      intro o' hact' hkind'
      obtain ⟨hne, ha⟩ := dead_of_update hact'
      rw [update_of_ne hne] at hkind' ⊢
      exact ⟨rfl, ha, hkind', fun heq => hne (h.inj o' o ha hkind' hact hkind heq)⟩
    exact
      { next := h.next
        nodup := nodup_cons.2 ⟨hmem, h.nodup⟩
        lt := fun c hc => by
          rcases mem_cons.1 hc with rfl | hc
          · exact hlt
          · exact h.lt c hc
        own := fun o' hact' hkind' => by
          obtain ⟨heq, ha, hk, hne⟩ := hother o' hact' hkind'
          obtain ⟨h1, h2, h3⟩ := h.own o' ha hk
          simp only [heq]
          exact ⟨h1, by simp [hne, h2], by rw [update_of_ne hne]; exact h3⟩
        inj := fun o1 o2 ha1 hk1 ha2 hk2 heq => by
          obtain ⟨he1, ha1, hk1, -⟩ := hother o1 ha1 hk1
          obtain ⟨he2, ha2, hk2, -⟩ := hother o2 ha2 hk2
          exact h.inj o1 o2 ha1 hk1 ha2 hk2 (by rw [← he1, ← he2]; exact heq)
        bound := fun v hv => by
          simp only at hv
          split_ifs at hv with hvo
          · exact absurd rfl hv
          obtain ⟨o', ha, hk, hc⟩ := h.bound v hv
          have hne : o' ≠ o := by
            rintro rfl
            exact hvo hc.symm
          refine ⟨o', ?_⟩
          simp only [update_of_ne hne, if_neg hvo]
          exact ⟨ha, hk, hc⟩
        budget := h.budget }
  · have hobj := reapUnheld_objects (s := s) (o := o)
    rw [if_pos h0] at hobj
    refine h.fewer (sameWires_reapUnheld hkind) (fun o' ha => ?_) ?_
    · rw [hobj] at ha ⊢
      obtain ⟨hne, ha'⟩ := dead_of_update ha
      rw [update_of_ne hne]
      exact ⟨ha', rfl, rfl⟩
    · rintro c ⟨o', ha, hk, hc⟩
      have hne : o' ≠ o := by
        rintro rfl
        exact hkind hk
      refine ⟨o', ?_⟩
      rw [hobj, update_of_ne hne]
      exact ⟨ha, hk, hc⟩

lemma Wires.reap_remove (hact : (s.objects o).active) :
    Wires (reapUnheld (capHolderRemove s o k) o) := by
  have hface := capHolderRemove_face (s := s) (o := o) (k := k)
  refine (h.same sameWires_capHolderRemove (sameUse_of_face hface)).reap ?_
  exact (sameUse_of_face hface o).1.trans hact

lemma Drop.wires (hd : Drop env R s s') : Wires s' := by
  cases hd with
  | aside _ hobj hwire => exact h.same hwire (sameUse_of_eq hobj)
  | vectors f b hf hb =>
    refine ⟨h.next, h.nodup, h.lt, h.own, h.inj, fun v hv => ?_, fun v => ?_⟩
    · rcases hf v with hv' | hv' | hv'
      · simp only [hv'] at hv ⊢
        exact h.bound v hv
      · exact absurd hv' hv
      · exact hv'
    · rcases hb v with hv | hv
      · exact hv.trans_le (h.budget v)
      · exact hv
  | queued c d entry i hc hl hi ho =>
    exact (h.reap_remove ho.1).same sameWires_modMsg (sameUse_of_eq rfl)
  | word => exact h.same sameWires_modMsg (sameUse_of_eq rfl)
  | slot pid ti i o hown hi hw ho =>
    exact (h.reap_remove ho.1).same sameWires_capSlotPush (sameUse_of_eq rfl)
  | clear => exact h.same sameWires_capSlotPush (sameUse_of_eq rfl)
  | refile pid ti idx hown hpop =>
    have hobj := capSlotPop_objects hpop
    exact h.same ((sameWires_capSlotPop hpop).trans sameWires_capSlotPush) (sameUse_of_eq hobj)
  | scribble => exact h.same sameWires_modMsg (sameUse_of_eq rfl)
  | head => exact h.same sameWires_dequeue (sameUse_of_eq dequeue_objects)
  | settle =>
    exact h.same sameWires_modObject (sameUse_of_face fun _ => update_same rfl)
  | reap o hact => exact h.reap hact
  | unbind => exact h.same ⟨rfl, rfl, fun _ => rfl, rfl, rfl⟩ (sameUse_of_eq rfl)

lemma Shift.wires (hs : Shift env R s s') (ht : Tidy R.exact s) : Wires s' := by
  cases hs with
  | drop hd => exact hd.wires h
  | bind => exact h.same ⟨rfl, rfl, fun _ => rfl, rfl, rfl⟩ (sameUse_of_eq rfl)
  | out pid ti slot c d entry i cap hpid hown hslot hw hname ho =>
    exact h.same sameWires_moveToQueue (sameUse_of_face (moveToQueue_face ht hpid ho))
  | into pid ti slot c d entry i hpid hown hpop hc hl hi hname ho =>
    exact h.same ((sameWires_capSlotPop hpop).trans sameWires_moveToSlot)
      (sameUse_of_face (moveToSlot_face ht hpid hpop ho))
  | tail c d idx f hc howned hroom hstage =>
    refine h.same ?_ (sameUse_of_eq hstage.calm.2.1)
    exact (hstage.wires.trans sameWires_modMsg).trans (sameWires_modChannel rfl)
  | untail =>
    refine h.same ?_ (sameUse_of_eq (by rw [capMsgPayloadFree_objects]; rfl))
    refine SameWires.trans ?_ sameWires_capMsgPayloadFree
    exact SameWires.trans (sameWires_modChannel rfl) sameWires_modMsg

/-- An id that was taken belongs to nobody. -/
theorem Wires.take (htake : capChanIdTake s = some (s1, c)) :
    Wires s1 ∧ ¬s1.Owned c ∧ c < s1.chanNext ∧ c ∉ s1.recycled := by
  unfold capChanIdTake at htake
  split at htake
  · rename_i c' rest hrec
    cases htake
    have hnodup := h.nodup
    have hlt := h.lt
    have hown := h.own
    rw [hrec] at hnodup hlt hown
    refine ⟨⟨h.next, (nodup_cons.1 hnodup).2, fun c' hc' => hlt c' (by simp [hc']),
      fun o hact hkind => ?_, h.inj, h.bound, h.budget⟩, ?_, hlt c (by simp),
        (nodup_cons.1 hnodup).1⟩
    · grind
    · rintro ⟨o, hact, hkind, hc⟩
      exact (hown o hact hkind).2.1 (mem_cons.2 (.inl hc))
  · rename_i hrec
    split_ifs at htake with hn
    cases htake
    refine ⟨⟨hn, h.nodup, fun c' hc' => (h.lt c' hc').trans (Nat.lt_succ_self _),
      fun o hact hkind => ?_, h.inj, h.bound, h.budget⟩, ?_, Nat.lt_succ_self _, by simp [hrec]⟩
    · obtain ⟨h1, h2⟩ := h.own o hact hkind
      exact ⟨h1.trans (Nat.lt_succ_self _), h2⟩
    · rintro ⟨o, hact, hkind, hc⟩
      exact (h.own o hact hkind).1.ne hc

lemma Wires.modChannel (hun : ¬s.Owned c) : Wires (s.modChannel c f) := by
  refine ⟨h.next, h.nodup, h.lt, fun o hact hkind => ?_, h.inj, h.bound, h.budget⟩
  obtain ⟨h1, h2, h3⟩ := h.own o hact hkind
  refine ⟨h1, h2, ?_⟩
  have hne : (s.objects o).chanId ≠ c := fun hc => hun ⟨o, hact, hkind, hc⟩
  simpa [State.modChannel, hne] using h3

lemma Wires.put (hun : ¬s.Owned c) (hlt : c < s.chanNext) (hmem : c ∉ s.recycled) :
    Wires (capChanIdPut s c) := by
  rw [capChanIdPut, if_pos ⟨hlt.trans_le h.next, h.room hlt hmem⟩]
  refine ⟨h.next, nodup_cons.2 ⟨hmem, h.nodup⟩, fun c' hc' => ?_, fun o hact hkind => ?_,
    h.inj, h.bound, h.budget⟩
  · rcases mem_cons.1 hc' with rfl | hc'
    · exact hlt
    · exact h.lt c' hc'
  · obtain ⟨h1, h2, h3⟩ := h.own o hact hkind
    have hne : (s.objects o).chanId ≠ c := fun hc => hun ⟨o, hact, hkind, hc⟩
    exact ⟨h1, by simp [hne, h2], h3⟩

/-- An object is put to use; a channel object has an id that nobody else has. -/
theorem Wires.enlist (hoff : (s.objects o).active = false)
    (hchan : ob.kind = .chan → ob.chanId < s.chanNext ∧ ob.chanId ∉ s.recycled ∧
      (s.channels ob.chanId).active ∧ ¬s.Owned ob.chanId) : Wires (s.modObject o fun _ => ob) := by
  have hcases : ∀ o', (s.modObject o fun _ => ob).objects o' = ob ∧ o' = o ∨
      (s.modObject o fun _ => ob).objects o' = s.objects o' ∧ o' ≠ o := by
    intro o'
    by_cases hoo : o' = o
    · subst hoo
      simp [modObject]
    · simp [modObject, hoo]
  refine ⟨h.next, h.nodup, h.lt, fun o' hact hkind => ?_, fun o1 o2 ha1 hk1 ha2 hk2 heq => ?_,
    fun v hv => ?_, h.budget⟩
  · rcases hcases o' with ⟨he, -⟩ | ⟨he, -⟩
    · rw [he] at hkind ⊢
      obtain ⟨h1, h2, h3, -⟩ := hchan hkind
      exact ⟨h1, h2, h3⟩
    · rw [he] at hact hkind ⊢
      exact h.own o' hact hkind
  · rcases hcases o1 with ⟨he1, h₁⟩ | ⟨he1, h₁⟩ <;> rcases hcases o2 with ⟨he2, h₂⟩ | ⟨he2, h₂⟩
    · rw [h₁, h₂]
    · rw [he1] at hk1 heq
      rw [he2] at ha2 hk2 heq
      exact absurd ⟨o2, ha2, hk2, heq.symm⟩ (hchan hk1).2.2.2
    · rw [he1] at ha1 hk1 heq
      rw [he2] at hk2 heq
      exact absurd ⟨o1, ha1, hk1, heq⟩ (hchan hk2).2.2.2
    · grind [h.inj]
  · obtain ⟨o', ha, hk, hc⟩ := h.bound v hv
    rcases hcases o' with ⟨-, rfl⟩ | ⟨he, -⟩
    · rw [hoff] at ha
      cases ha
    · exact ⟨o', by rw [he]; exact ⟨ha, hk, hc⟩⟩

end

lemma sameUse_update (hobj : s'.objects = update s.objects o ob)
    (hact : ob.active = (s.objects o).active) (huse : (s.objects o).active →
      ob.kind = (s.objects o).kind ∧ ob.chanId = (s.objects o).chanId) : SameUse s s' := by
  intro o'
  rw [hobj]
  by_cases hoo : o' = o
  · subst hoo
    rw [update_self]
    exact ⟨hact, huse⟩
  · simp [hoo]

lemma sameUse_unused (hobj : s'.objects = update s.objects o ob)
    (hoff : (s.objects o).active = false) (hoff' : ob.active = false) : SameUse s s' :=
  sameUse_update hobj (hoff'.trans hoff.symm) (by simp [hoff])

lemma sameUse_revoking :
    SameUse s (s.modObject o fun ob => { ob with revoking := true, holders := [] }) :=
  sameUse_update rfl rfl fun _ => ⟨rfl, rfl⟩

lemma Owned.congr (h : s'.objects = s.objects) : s'.Owned c ↔ s.Owned c := by
  simp only [State.Owned, h]

lemma Change.wires (hs : Change env R s s') (ht : Tidy R.exact s) (h : Wires s) : Wires s' := by
  cases hs with
  | shift hs => exact hs.wires h ht
  | revoking => exact h.same sameWires_modObject sameUse_revoking
  | reserve ob hroom hid hact =>
    exact h.same ⟨rfl, rfl, fun _ => rfl, rfl, rfl⟩
      (sameUse_unused rfl (ht.objects.unborn _ le_rfl) hact)
  | install pid ti idx w hown hpop =>
    have hobj := capSlotPop_objects hpop
    exact h.same ((sameWires_capSlotPop hpop).trans sameWires_setSlot) (sameUse_of_eq hobj)
  | enlist o ob hres hid hrev hkind hchan => exact h.enlist hres.2.1 fun hk => absurd hk hchan
  | connect o c ob p q hres hid hrev hkind hchan htake hc =>
    obtain ⟨h1, hun, hlt, hmem⟩ := h.take htake
    obtain ⟨-, hobj, -⟩ := capChanIdTake_calm htake
    refine (h1.modChannel hun).enlist ?_ fun _ => ?_
    · exact (congrArg active (congrFun hobj o)).trans hres.2.1
    · subst hc
      exact ⟨hlt, hmem, by simp [State.modChannel, CapChannel.reset], hun⟩
  | cycle c p q b htake =>
    obtain ⟨h1, hun, hlt, hmem⟩ := h.take htake
    refine (h1.put hun hlt hmem).modChannel ?_
    rwa [Owned.congr capChanIdPut_objects]
  | lose c p q htake =>
    obtain ⟨h1, hun, -⟩ := h.take htake
    exact h1.modChannel hun
  | abort o f hres hid hkind hact =>
    exact h.same sameWires_modObject (sameUse_unused rfl hres.2.1 hact)
  | restamp => exact h.same sameWires_setSlot (sameUse_of_eq rfl)

/-- A live capability is queued in the channel. -/
def State.Cargo (s : State) (c o : ℕ) : Prop :=
  s.Tracked o ∧ ∃ ref d, s.named (.queue c ref d) = some o

/-- Channels without an owner hold no live capability, except those in `E`. -/
def Quiet (E : ℕ → Prop) (s : State) : Prop :=
  ∀ c, ¬E c → ¬s.Owned c → ∀ o, ¬s.Cargo c o

/-- A channel outside `E` may only die when nothing but itself is queued in it. -/
def Rules.Careful (R : Rules) (E : ℕ → Prop) : Prop :=
  ∀ s o, R.mayDie s o → (s.objects o).kind = .chan →
    E (s.objects o).chanId ∨ ∀ o', s.Cargo (s.objects o).chanId o' → o' = o

lemma Quiet.step (h : Quiet E s) (hcargo : ∀ c o, s'.Cargo c o → s.Cargo c o ∨ s'.Owned c)
    (hown : ∀ c, s.Owned c → s'.Owned c ∨ E c ∨ ∀ o, ¬s'.Cargo c o) : Quiet E s' := by
  intro c hE hun o ho
  have ho' : s.Cargo c o := (hcargo c o ho).resolve_right hun
  by_cases hc : s.Owned c
  · grind
  · exact h c hE hc o ho'

lemma Shift.cargo (hs : Shift env R s s') (ht : Tidy R.exact s) (ho : s'.Cargo c o) :
    s.Cargo c o ∨ s'.Owned c := by
  obtain ⟨htr, ref, d, hn⟩ := ho
  have htr' := hs.tracked ht htr
  rcases hs.named ht with hsub | ⟨p, q, o', hpq, ho', hp, hq, howned, hnamed, hface⟩
  · exact .inl ⟨htr', ref, d, hsub _ _ hn⟩
  rw [hnamed] at hn
  by_cases hqq : CapHolder.queue c ref d = q
  · exact .inr ((sameUse_of_face hface).owned (howned c ref d hqq.symm).1)
  rw [update_of_ne hqq] at hn
  by_cases hpp : CapHolder.queue c ref d = p
  · rw [hpp, update_self] at hn
    cases hn
  · rw [update_of_ne hpp] at hn
    exact .inl ⟨htr', ref, d, hn⟩

lemma Shift.quiet (hs : Shift env R s s') (hR : R.Careful E) (ht : Tidy R.exact s)
    (h : Quiet E s) : Quiet E s' := by
  refine h.step (fun c o ho => hs.cargo ht ho) fun c hc => ?_
  obtain ⟨o, hact, hkind, hch⟩ := hc
  have hlife := hs.life ht o
  rcases hlife.flags with ⟨hact', -⟩ | ⟨-, hoff, -⟩
  · refine .inl ⟨o, hact'.trans hact, hlife.fields.1.trans hkind, ?_⟩
    exact hlife.fields.2.trans hch
  by_cases hown : s'.Owned c
  · exact .inl hown
  rcases hR s o (hs.died ht hact hoff) hkind with hE | honly
  · exact .inr (.inl (hch ▸ hE))
  refine .inr (.inr fun o' ho' => ?_)
  have hbefore := (hs.cargo ht ho').resolve_right hown
  rw [hch] at honly
  rw [honly o' hbefore] at ho'
  have hact' := ho'.1.1
  rw [hoff] at hact'
  cases hact'

lemma named_reset {p q c' ref : ℕ} (hf : ∀ ch, ∃ b, f ch = { ch.reset p q with active := b })
    (hn : (s.modChannel c f).named (.queue c' ref d) = some o) :
    s.named (.queue c' ref d) = some o := by
  obtain ⟨b, hb⟩ := hf (s.channels c)
  obtain ⟨entry, i, hp, hi, hc', hl, hw⟩ := exists_of_named_queue hn
  have hne : c' ≠ c := by
    rintro rfl
    simp [State.Live, State.modChannel, hb, CapChannel.reset] at hl
  simp only [State.Live, State.word, State.msg, State.modChannel, update_of_ne hne] at hl hw
  rwa [hp, named_queuePlace hi, if_pos ⟨hc', hl⟩]

lemma Quiet.renew {p q : ℕ} (h : Quiet E s)
    (hf : ∀ ch, ∃ b, f ch = { ch.reset p q with active := b }) (hnamed : s1.named = s.named)
    (hobj : s1.objects = s.objects) : Quiet E (s1.modChannel c f) := by
  have htr : ∀ o, (s1.modChannel c f).Tracked o ↔ s.Tracked o := fun o => by
    simp only [State.Tracked, State.modChannel, hobj]
  refine h.step (fun c' o ho => ?_) fun c' hc' => .inl ?_
  · obtain ⟨ht, ref, d, hn⟩ := ho
    exact .inl ⟨(htr o).1 ht, ref, d, hnamed ▸ named_reset hf hn⟩
  · have hobj' : (s1.modChannel c f).objects = s.objects := hobj
    exact (Owned.congr hobj').2 hc'

lemma Quiet.enlist (h : Quiet E s) (hoff : (s.objects o).active = false)
    (hfresh : ∀ c ref d, s.named (.queue c ref d) ≠ some o) :
    Quiet E (s.modObject o fun _ => ob) := by
  refine h.step (fun c o' ho' => .inl ?_) fun c hc => .inl ?_
  · obtain ⟨ht, ref, d, hn⟩ := ho'
    have hoo : o' ≠ o := by
      rintro rfl
      exact hfresh c ref d hn
    refine ⟨?_, ref, d, hn⟩
    simpa [State.Tracked, modObject, hoo] using ht
  · obtain ⟨o', hact, hkind, hch⟩ := hc
    have hoo : o' ≠ o := by grind
    exact ⟨o', by simp [modObject, hoo, hact, hkind, hch]⟩

lemma Quiet.same (h : Quiet E s) (huse : SameUse s s') (htr : ∀ o, s'.Tracked o → s.Tracked o)
    (hn : ∀ c ref d o, s'.named (.queue c ref d) = some o → s.named (.queue c ref d) = some o) :
    Quiet E s' :=
  h.step (fun c o ⟨ht, ref, d, hname⟩ => .inl ⟨htr o ht, ref, d, hn c ref d o hname⟩)
    fun _ hc => .inl (huse.owned hc)

lemma Change.quiet (hs : Change env R s s') (hR : R.Careful E) (ht : Tidy R.exact s)
    (h : Quiet E s) : Quiet E s' := by
  cases hs with
  | shift hs => exact hs.quiet hR ht h
  | revoking o ho =>
    refine h.same sameUse_revoking (fun o' ho' => ?_) fun c ref d o' hn => ?_
    · by_cases hoo : o' = o
      · subst hoo
        exact ho
      · simpa [State.Tracked, modObject, hoo] using ho'
    · rwa [(calm_modObject _).named] at hn
  | reserve ob hroom hid hact =>
    refine h.same (sameUse_unused rfl (ht.objects.unborn _ le_rfl) hact)
      (fun o' ho' => ?_) fun c ref d o' hn => hn
    by_cases hoo : o' = s.objNext
    · subst hoo
      simp [State.Tracked, hact] at ho'
    · simpa [State.Tracked, hoo] using ho'
  | install pid ti idx w hown hpop =>
    rw [capSlotPop_setSlot hpop]
    exact h.same (sameUse_of_eq rfl) (fun o' ho' => ho') fun c ref d o' hn => hn
  | enlist o ob hres hid hrev hkind hchan hfresh => exact h.enlist hres.2.1 hfresh
  | connect o c ob p q hres hid hrev hkind hchan htake hc hidle hfresh =>
    obtain ⟨hcalm, hobj, -⟩ := capChanIdTake_calm htake
    refine (h.renew (fun _ => ⟨true, rfl⟩) hcalm.named hobj).enlist ?_ fun c' ref d hn => ?_
    · exact (congrArg active (congrFun hobj o)).trans hres.2.1
    · have hold := named_reset (fun _ => ⟨true, rfl⟩) hn
      rw [hcalm.named] at hold
      exact hfresh c' ref d hold
  | cycle c p q b htake =>
    obtain ⟨hcalm, hobj, -⟩ := capChanIdTake_calm htake
    exact h.renew (fun _ => ⟨b, rfl⟩) (calm_capChanIdPut.named.trans hcalm.named)
      (capChanIdPut_objects.trans hobj)
  | lose c p q htake =>
    obtain ⟨hcalm, hobj, -⟩ := capChanIdTake_calm htake
    exact h.renew (fun _ => ⟨false, rfl⟩) hcalm.named hobj
  | abort o f hres hid hkind hact =>
    refine h.same (sameUse_unused rfl hres.2.1 hact) (fun o' ho' => ?_) fun c ref d o' hn => ?_
    · by_cases hoo : o' = o
      · subst hoo
        simp [State.Tracked, modObject, hact] at ho'
      · simpa [State.Tracked, modObject, hoo] using ho'
    · rwa [(calm_modObject _).named] at hn
  | restamp =>
    exact h.same (sameUse_of_eq rfl) (fun o' ho' => ho') fun c ref d o' hn => hn

end AeroSLS.Cap
