import AeroSLS.Cap.Receiving
import AeroSLS.Cap.Revoking

namespace AeroSLS.Cap

open Function Register Chain List State

variable {env : Env} {R : Rules} {s s' s₁ : State} {pid ti c entry i o : ℕ} {d : Dir} {w : CapWord}
  {k : HolderKey} {t : CapTable}

lemma without_nil {ob : CapObject} (h : (ob.without k).active = false) (hact : ob.active) :
    (ob.holders.eraseP fun h => h.key == k) = [] := by
  simp only [CapObject.without] at h
  split_ifs at h with h0
  · exact eq_nil_of_length_eq_zero h0
  · rw [hact] at h
    cases h

lemma tracked_of_objects (hobj : s'.objects = s.objects) (ho : s.Tracked o) : s'.Tracked o := by
  simpa only [State.Tracked, hobj] using ho

/-- A followed place that still names the object has kept it alive. -/
theorem alive_update (h : Tidy R.exact s) (ho : s.Tracked o)
    (hobj : s'.objects = update s.objects i ((s.objects i).without k))
    (hn : s.named p = some o) (hp : R.exact p.key) (hne : o = i → p.key ≠ k) : s'.Tracked o := by
  by_cases hoi : o = i
  · subst hoi
    obtain ⟨hreg, -⟩ := h.held o ho
    have hmem := (mem_eraseP_key (hne rfl)).2 ((hreg.mem p hp).2 hn)
    have hact : ((s.objects o).without k).active := by
      by_contra hoff
      rw [without_nil (Bool.not_eq_true _ ▸ hoff) ho.1] at hmem
      cases hmem
    refine ⟨by rw [hobj, update_self, hact], ?_⟩
    rw [hobj, update_self]
    simp only [CapObject.without] at hact ⊢
    split_ifs at hact ⊢
    · cases hact
    · exact ho.2
  · simpa only [State.Tracked, hobj, update_of_ne hoi] using ho

lemma Drop.alive (hd : Drop env R s s') (h : Tidy R.exact s) (ho : s.Tracked o)
    (hp : R.exact p.key) (hn : s'.named p = some o) : s'.Tracked o := by
  have hn0 := hd.named h hn
  cases hd with
  | aside _ hobj => exact tracked_of_objects hobj ho
  | vectors => exact ho
  | queued c d entry i hc hl hi ho' hD =>
    have hobj := reap_remove_objects (k := queueKey c entry i) (h.held _ ho').2
    refine alive_update h ho hobj hn0 hp ?_
    rintro rfl hk
    -- the place with this key that named the object is the one that was dropped
    have hexact := hk ▸ hp
    have hplace : s.named (queuePlace c d entry i) = some (s.word c d entry i).obj := by
      grind [named_queuePlace]
    have hpq := (h.held _ ho).1.unique (p := queuePlace c d entry i) hexact hk hplace hn0
    rw [hpq, named_setWord hc (calm_reap_remove.live.2 hl) hi] at hn
    simp at hn
  | word => exact ho
  | slot pid ti i o' hown hi hw ho' =>
    have hobj := reap_remove_objects (k := .slot pid i) (h.held _ ho').2
    refine alive_update h ho hobj hn0 hp ?_
    rintro rfl hk
    have hcalm := calm_reap_remove (s := s) (o := o) (k := .slot pid i)
    rw [key_eq_slot hk, named_capSlotPush (h.tables.calm hcalm) (hcalm.owns.2 hown) hi,
      update_self] at hn
    cases hn
  | clear => exact ho
  | refile pid ti idx hown hpop =>
    have hobj := capSlotPop_objects hpop
    exact tracked_of_objects hobj ho
  | scribble => exact ho
  | head c d f =>
    have hobj : (dequeue s c d ((s.channels c).qhead d % chanQueueDepth) f).objects =
        s.objects := by
      rw [dequeue_eq, capMsgPayloadFree_objects]
      rfl
    exact tracked_of_objects hobj ho
  | settle o' holders refcount hr =>
    have hoo : o ≠ o' := by
      rintro rfl
      rw [ho.2] at hr
      cases hr
    simpa [State.Tracked, modObject, hoo] using ho
  | reap o' hact hr =>
    have hoo : o ≠ o' := by
      rintro rfl
      rw [ho.2] at hr
      cases hr
    simpa only [State.Tracked, reapUnheld_objects, update_of_ne hoo] using ho
  | unbind => exact ho

lemma Drops.alive (hs : Drops env R s s') (h : Tidy R.exact s) (ho : s.Tracked o)
    (hp : R.exact p.key) (hn : s'.named p = some o) : s'.Tracked o := by
  induction hs with
  | refl => exact ho
  | tail hab hd ih => grind [Drops.tidy, hd.alive, hd.named]

structure SameSides (s s' : State) : Prop where
  tables : s'.tables = s.tables
  tablePid : s'.tablePid = s.tablePid
  end0Pid : ∀ c, (s'.channels c).end0Pid = (s.channels c).end0Pid

lemma SameSides.refl (s : State) : SameSides s s := ⟨rfl, rfl, fun _ => rfl⟩

lemma SameSides.trans (h : SameSides s s') (h' : SameSides s' s'') : SameSides s s'' :=
  ⟨h'.tables.trans h.tables, h'.tablePid.trans h.tablePid,
    fun c => (h'.end0Pid c).trans (h.end0Pid c)⟩

lemma SameSides.owns (h : SameSides s s') : s'.Owns pid ti ↔ s.Owns pid ti :=
  State.Owns.congr h.tablePid

lemma SameSides.recvDir (h : SameSides s s') : recvDir s' c pid = recvDir s c pid := by
  simp only [Cap.recvDir, sendDir, h.end0Pid]

lemma sides_modChannel {f : CapChannel → CapChannel} (hf : ∀ ch, (f ch).end0Pid = ch.end0Pid) :
    SameSides s (s.modChannel c f) :=
  ⟨rfl, rfl, fun _ => update_same (hf _)⟩

lemma sides_modMsg : SameSides s (s.modMsg c d entry f) := sides_modChannel fun _ => rfl

lemma sides_setWord : SameSides s (s.setWord c d entry i w) := sides_modMsg

lemma sides_capHolderRemove : SameSides s (capHolderRemove s o k) := by
  obtain ⟨_, _, heq⟩ := capHolderRemove_eq s o k
  rw [heq]
  exact ⟨rfl, rfl, fun _ => rfl⟩

lemma sides_reapUnheld : SameSides s (reapUnheld s o) := by
  obtain ⟨_, _, _, _, _, heq⟩ := reapUnheld_eq s o
  rw [heq]
  exact ⟨rfl, rfl, fun _ => rfl⟩

lemma sides_dropQueued : SameSides s (dropQueued s c d entry i) := by
  rw [dropQueued_eq]
  split_ifs
  · exact .refl s
  · exact sides_setWord
  · exact (sides_capHolderRemove.trans sides_reapUnheld).trans sides_setWord

variable (s c entry d) in
lemma sides_dropAll (is : List ℕ) : SameSides s (dropAll s c d entry is) := by
  refine foldlRecOn (motive := SameSides s) _ _ (.refl s) ?_
  intro s₁ h1 i _
  exact h1.trans sides_dropQueued

lemma sides_dequeue : SameSides s (dequeue s c d entry f) := by
  have hpay : SameSides s (capMsgPayloadFree s (s.msg c d entry).payloadIdx) := by
    unfold capMsgPayloadFree
    split_ifs
    · exact .refl s
    · exact ⟨rfl, rfl, fun _ => rfl⟩
  unfold dequeue
  exact (hpay.trans sides_modMsg).trans (sides_modChannel fun _ => rfl)

/-- Whatever is dropped from a queue on the way may die. -/
def MayDrain (env : Env) (R : Rules) (s : State) : Prop :=
  ∀ s₁ s₂, Drops env R s s₁ → Drops env R s₁ s₂ → ∀ c < capChanMax, ∀ d entry,
    s₁.Live c d entry → ∀ i < capMsgMaxCaps, s₁.word c d entry i ≠ 0 →
      s₂.Tracked (s₁.word c d entry i).obj → R.mayDie s₂ (s₁.word c d entry i).obj

lemma MayDrain.mono (h : MayDrain env R s) (hs : Drops env R s s') : MayDrain env R s' :=
  fun s₁ s2 h1 => h s₁ s2 (hs.trans h1)

lemma dequeue_qdepth :
    ((dequeue s c d entry f).channels c).qdepth d = (s.channels c).qdepth d - 1 := by
  have hpay : ∀ idx, (capMsgPayloadFree s idx).channels = s.channels := by
    intro idx
    unfold capMsgPayloadFree
    split_ifs <;> rfl
  simp [dequeue, modMsg, modChannel, hpay]

variable (env d) in
lemma capDrainQueue_spec (n : ℕ) : ∀ s : State, Ready R s → MayDrain env R s → c < capChanMax →
    (s.channels c).qdepth d = n →
    Drops env R s (capDrainQueue s c d n) ∧ SameSides s (capDrainQueue s c d n) ∧
      ((capDrainQueue s c d n).channels c).qdepth d = 0 := by
  induction n with
  | zero => exact fun s _ _ _ hn => ⟨.refl, .refl s, hn⟩
  | succ n ih =>
    intro s h hm hc hn
    have hpos : 0 < (s.channels c).qdepth d := by omega
    have hlive := live_head hpos
    generalize he : (s.channels c).qhead d % chanQueueDepth = entry at hlive
    obtain ⟨hdrops, hcur, hword⟩ := dropAll_spec env (range capMsgMaxCaps) s h hc hlive
      (fun i hi => mem_range.1 hi) fun s₁ hs1 i hi htr h0 =>
        hm s s₁ .refl hs1 c hc d entry hlive i (mem_range.1 hi) h0 htr
    have hsides := sides_dropAll s c entry d (range capMsgMaxCaps)
    rw [capDrainQueue, he]
    generalize dropAll s c d entry (range capMsgMaxCaps) = s₁ at hdrops hcur hword hsides ⊢
    have hcursor : (s₁.channels c).qhead d % chanQueueDepth = entry := by rw [hcur.qhead, he]
    have hhead : Drop env R s₁ _ := .head c d (fun m => { m with nCaps := 0 }) hc
      (by rw [hcur.qdepth]; exact hpos) fun i hi => by
        rw [hcursor, hword, if_pos (mem_range.2 hi)]
        exact spent_zero
    rw [hcursor] at hhead
    have hall : Drops env R s _ := hdrops.tail hhead
    obtain ⟨h1, h2, h3⟩ := ih _ (hall.ready h) (hm.mono hall) hc
      (by rw [dequeue_qdepth, hcur.qdepth, hn]; rfl)
    exact ⟨hall.trans h1, (hsides.trans sides_dequeue).trans h2, h3⟩

lemma named_of_qdepth (h : (s.channels c).qdepth d = 0) : s.named (.queue c ref d) = none := by
  simp [named, State.Live, h]

variable (env d) in
lemma drain_spec (h : Ready R s) (hm : MayDrain env R s) (hc : c < capChanMax) :
    Drops env R s (drain s c d) ∧ SameSides s (drain s c d) ∧
      ∀ ref, (drain s c d).named (.queue c ref d) = none := by
  obtain ⟨h1, h2, h3⟩ := capDrainQueue_spec env d _ s h hm hc rfl
  exact ⟨h1, h2, fun ref => named_of_qdepth h3⟩

variable (pid o) in
lemma preDrain_spec (h : Ready R s) (hm : MayDrain env R s) :
    Drops env R s (preDrain s pid o) ∧ SameSides s (preDrain s pid o) ∧
      (s.Tracked o → (s.objects o).kind = .chan → ∀ ref, (preDrain s pid o).named
        (.queue (s.objects o).chanId ref (recvDir s (s.objects o).chanId pid)) = none) := by
  unfold preDrain
  rcases hget : capObjectGet s o with _ | ob
  · exact ⟨.refl, .refl s, fun ho => absurd ho (not_tracked_of_get h.tidy hget)⟩
  obtain ⟨hact, rfl⟩ := capObjectGet_eq_some hget
  dsimp only
  split_ifs with hkind
  · have hc := (h.wires.own o hact hkind).1.trans_le h.wires.next
    obtain ⟨h1, h2, h3⟩ := drain_spec env (recvDir s (s.objects o).chanId pid) h hm hc
    exact ⟨h1, h2, fun _ _ => h3⟩
  · exact ⟨.refl, .refl s, fun _ hk => absurd hk hkind⟩

variable (env pid) in
/-- A read queue is empty afterwards, if the channel was alive when its turn came. -/
theorem preDrains_spec (objs : List ℕ) : ∀ s s' : State,
    objs.foldl (fun s o => preDrain s pid o) s = s' → Ready R s → MayDrain env R s →
    Drops env R s s' ∧ SameSides s s' ∧
      ∀ o ∈ objs, ∀ p, R.exact p.key → s'.named p = some o → s.Tracked o →
        (s.objects o).kind = .chan → ∀ ref,
          s'.named (.queue (s.objects o).chanId ref (recvDir s (s.objects o).chanId pid)) =
            none := by
  induction objs with
  | nil =>
    rintro s _ rfl _ _
    exact ⟨.refl, .refl s, fun o ho => by cases ho⟩
  | cons a objs ih =>
    intro s s' hs h hm
    obtain ⟨h1, h2, h3⟩ := preDrain_spec pid a h hm
    obtain ⟨h4, h5, h6⟩ := ih _ s' hs (h1.ready h) (hm.mono h1)
    have htidy := h1.tidy h.tidy
    refine ⟨h1.trans h4, h2.trans h5, fun o ho p hp hn htr hkind ref => ?_⟩
    rcases mem_cons.1 ho with rfl | ho
    · exact h4.named_none htidy (h3 htr hkind ref)
    · obtain ⟨hk, hch⟩ := h1.life h.tidy o
      have hstep :=
        h6 o ho p hp hn (h1.alive h.tidy htr hp (h4.named htidy hn)) (hk.trans hkind) ref
      rwa [hch, h2.recvDir] at hstep

lemma reapUnheld_capSlotPush :
    reapUnheld (capSlotPush s ti i) o = capSlotPush (reapUnheld s o) ti i := by
  simp only [reapUnheld, capObjectDestroy, capChanIdPut, capSlotPush, modTable]
  cases hk : (s.objects o).kind with
  | mem | chan | dev =>
    simp only [capObjectFreeResources, hk, modChannel]
    split_ifs <;> rfl

lemma names_cases : w.names = some w.obj ∨ w.names = none := by
  unfold CapWord.names
  split_ifs
  · exact .inl rfl
  · exact .inr rfl

/-- The ids of channels that died are on the recycled stack. -/
structure Buried (s : State) (dead : List ℕ) : Prop where
  nodup : dead.Nodup
  recycled : ∀ c ∈ dead, c ∈ s.recycled

lemma Buried.room (h : Buried s dead) (hw : Wires s) (hc : c < s.chanNext)
    (hmem : c ∉ s.recycled) : c ∉ dead ∧ dead.length < capChanMax := by
  have hnot : c ∉ dead := fun hd => hmem (h.recycled c hd)
  exact ⟨hnot, (length_lt_of_nodup h.nodup (fun a ha => hw.lt a (h.recycled a ha)) hc hnot).trans_le
    hw.next⟩

lemma reapUnheld_recycled (hw : Wires s) (hact : (s.objects o).active) : (reapUnheld s o).recycled =
      if (s.objects o).refcount = 0 ∧ (s.objects o).kind = .chan then
        (s.objects o).chanId :: s.recycled else s.recycled := by
  by_cases h0 : (s.objects o).refcount = 0
  · by_cases hkind : (s.objects o).kind = .chan
    · obtain ⟨hlt, hmem, -⟩ := hw.own o hact hkind
      rw [if_pos ⟨h0, hkind⟩,
        reapUnheld_chan h0 hact hkind (hlt.trans_le hw.next) (hw.room hlt hmem)]
    · rw [if_neg fun h => hkind h.2, (sameWires_reapUnheld hkind).recycled]
  · rw [if_neg fun h => h0 h.1, reapUnheld, if_neg h0]

variable {dead : List ℕ}

theorem dropSlot_live (h : Ready R s) (hpid : pid < 2 ^ 16) (hdead : Buried s dead)
    (hact : (s.objects o).active) (hget : capObjectGet s o = some (s.objects o))
    (ho : ((s.tables ti).slots i).obj = o) :
    dropSlot ti pid (s, dead) i =
      (capSlotPush (reapUnheld (capHolderRemove s o (.slot pid i)) o) ti i,
        if ((capHolderRemove s o (.slot pid i)).objects o).refcount = 0 ∧
          (s.objects o).kind = .chan then dead ++ [(s.objects o).chanId] else dead) := by
  subst ho
  have hlife : Life _ _ := .inl (capHolderRemove_face (s := s) (o := ((s.tables ti).slots i).obj)
    (k := .slot pid i) ((s.tables ti).slots i).obj)
  have hkind := hlife.fields.1
  have hchan := hlife.fields.2
  -- the buffer has room for the id of a channel in use
  have hroom : (s.objects ((s.tables ti).slots i).obj).kind = .chan → dead.length < capChanMax :=
    fun hk => (hdead.room h.wires (h.wires.own _ hact hk).1 (h.wires.own _ hact hk).2.1).2
  simp only [dropSlot, hget, Nat.mod_eq_of_lt hpid, reapUnheld_capSlotPush]
  refine Prod.ext rfl ?_
  simp only [capSlotPush, modTable, hkind, hchan]
  exact if_congr (and_congr_right fun _ => ⟨And.left, fun hk => ⟨hk, hroom hk⟩⟩) rfl rfl

lemma Buried.drop (h : Ready R s) (hdead : Buried s dead) (hact : (s.objects o).active) :
    Buried (reapUnheld (capHolderRemove s o k) o)
      (if ((capHolderRemove s o k).objects o).refcount = 0 ∧ (s.objects o).kind = .chan then
        dead ++ [(s.objects o).chanId] else dead) := by
  have hface := capHolderRemove_face (s := s) (o := o) (k := k) o
  have hlife : Life (s.objects o) ((capHolderRemove s o k).objects o) := .inl hface
  have hrec := reapUnheld_recycled
    (h.wires.same sameWires_capHolderRemove (sameUse_of_face capHolderRemove_face))
    ((congrArg CapObject.active hface).trans hact)
  rw [hlife.fields.1, hlife.fields.2, sameWires_capHolderRemove.recycled] at hrec
  split_ifs at hrec ⊢ with hdies
  · have hown := h.wires.own o hact hdies.2
    refine ⟨nodup_append.2 ⟨hdead.nodup, by simp, ?_⟩, fun c hc => ?_⟩
    · grind [hdead.room, h.wires]
    · grind [hdead.recycled]
  · exact ⟨hdead.nodup, fun c hc => hrec ▸ hdead.recycled c hc⟩

lemma capHolderRemove_absent (hp : ∀ q ∈ (s.objects o).holders, q.key ≠ k) :
    capHolderRemove s o k = s := by
  have hany : ((s.objects o).holders.any fun q => q.key == k) = false := by
    simpa [any_eq_false] using hp
  simp [capHolderRemove, hany]

variable (env) in
lemma dropSlot_spec (h : Ready R s) (hR : R.Slots) (hpid : pid < 2 ^ 16) (hown : s.Owns pid ti)
    (hi : i < capTableEntries) (hvalid : capWordValid ((s.tables ti).slots i))
    (hdead : Buried s dead) (hr : dropSlot ti pid (s, dead) i = (s', dead'))
    (hdie : ∀ o, s.Tracked o → ((s.tables ti).slots i).names = some o →
      ((s.objects o).kind = .chan → (s.objects o).chanId ∈ dead') → R.mayDie s o) :
    Drops env R s s' ∧ s'.tables = (capSlotPush s ti i).tables ∧ s'.tablePid = s.tablePid ∧
      Buried s' dead' := by
  have hty : ((s.tables ti).slots i).ty ≠ .none := by grind [not_valid_of_none]
  generalize ho : ((s.tables ti).slots i).obj = o
  cases hget : capObjectGet s o with
  | none =>
    simp only [dropSlot, ho, hget] at hr
    obtain ⟨rfl, rfl⟩ := hr
    refine ⟨.single (.clear pid ti i hown hi hty fun _ o' ho' => ?_), rfl, rfl,
      hdead.nodup, hdead.recycled⟩
    rw [← (names_eq_some.1 ho').2.2, ho]
    exact not_tracked_of_get h.tidy hget
  | some =>
    obtain ⟨hact, rfl⟩ := capObjectGet_eq_some hget
    have htr := h.tracked hact
    obtain ⟨hreg, hcount⟩ := h.tidy.held o htr
    rw [dropSlot_live h hpid hdead hact hget ho] at hr
    obtain ⟨rfl, rfl⟩ := Prod.mk.inj hr
    have hsides := (sides_capHolderRemove (s := s) (o := o) (k := .slot pid i)).trans
      (sides_reapUnheld (o := o))
    have hburied := hdead.drop h hact (k := .slot pid i)
    refine ⟨?_, ?_, hsides.tablePid, hburied.nodup, hburied.recycled⟩
    · rcases names_cases with hname | hname
      · rw [ho] at hname
        refine .single (.slot pid ti i o hown hi hname htr fun hoff =>
          hdie o htr hname fun hk => ?_)
        have h0 : ((capHolderRemove s o (.slot pid i)).objects o).refcount = 0 := by
          rw [capHolderRemove_objects hcount, update_self, without_nil hoff hact]
          rfl
        rw [if_pos ⟨h0, hk⟩]
        simp
      · -- a word that names no object holds nothing, and what it hits is held elsewhere
        have habsent : capHolderRemove s o (.slot pid i) = s := by
          refine capHolderRemove_absent fun q hq hk => ?_
          rw [key_eq_slot hk, hreg.mem (.slot pid i) (hR pid i), named_slot hown hi, hname] at hq
          cases hq
        have hkept : reapUnheld s o = s := by
          rw [reapUnheld, if_neg]
          rw [hcount]
          exact fun h0 => h.kept o htr (eq_nil_of_length_eq_zero h0)
        rw [habsent, hkept]
        refine .single (.clear pid ti i hown hi hty fun _ o' ho' => ?_)
        rw [hname] at ho'
        cases ho'
    · simp only [capSlotPush, modTable, hsides.tables]

lemma mem_dropSlot (hc : c ∈ dead) : c ∈ (dropSlot ti pid (s, dead) i).2 := by
  simp only [dropSlot]
  split
  · exact hc
  · grind

lemma mem_dropSlots (slots : List ℕ) (hc : c ∈ dead) :
    c ∈ (slots.foldl (dropSlot ti pid) (s, dead)).2 := by
  refine foldlRecOn (motive := fun r : State × List ℕ => c ∈ r.2) _ _ hc ?_
  intro r hr i _
  exact mem_dropSlot hr

variable (env) in
/-- The loop over the slots; `E` holds of every channel it has seen die. -/
theorem dropSlots_spec (E : ℕ → Prop) (hR : R.Slots) (hpid : pid < 2 ^ 16) (slots : List ℕ) :
    ∀ (s : State) (dead : List ℕ) (r : State × List ℕ),
      slots.foldl (dropSlot ti pid) (s, dead) = r →
    Ready R s → s.Owns pid ti → slots.Nodup →
    (∀ i ∈ slots, i < capTableEntries ∧ capWordValid ((s.tables ti).slots i)) →
    Buried s dead → (∀ c ∈ r.2, E c) →
    (∀ s₁ o i, Drops env R s s₁ → s₁.Tracked o → s₁.named (.slot pid i) = some o →
      ((s₁.objects o).kind = .chan → E (s₁.objects o).chanId) → R.mayDie s₁ o) →
    Drops env R s r.1 ∧ r.1.tablePid = s.tablePid ∧ Buried r.1 r.2 ∧
      (∀ tj ≠ ti, r.1.tables tj = s.tables tj) ∧
      ∀ j, (j ∈ slots → ((r.1.tables ti).slots j).ty = .none) ∧
        (j ∉ slots → (r.1.tables ti).slots j = (s.tables ti).slots j) := by
  induction slots with
  | nil =>
    rintro s dead _ rfl _ _ _ _ hd _ _
    exact ⟨.refl, rfl, hd, fun _ _ => rfl, by simp⟩
  | cons i slots ih =>
    intro s dead r hr h hown hnodup hslots hdead hE hdie
    obtain ⟨hnot, hnodup⟩ := nodup_cons.1 hnodup
    obtain ⟨hi, hvalid⟩ := hslots i (mem_cons_self ..)
    rcases hr1 : dropSlot ti pid (s, dead) i with ⟨s₁, dead1⟩
    rw [foldl_cons, hr1] at hr
    obtain ⟨hdrops, htab, htp, hburied⟩ := dropSlot_spec env h hR hpid hown hi hvalid hdead hr1
      fun o htr hname hch => hdie s o i .refl htr (by rw [named_slot hown hi, hname]) fun hk =>
        hE _ (hr ▸ mem_dropSlots slots (hch hk))
    have hslot : ∀ j, j ≠ i → (s₁.tables ti).slots j = (s.tables ti).slots j := by
      intro j hj
      rw [htab]
      simp [capSlotPush, modTable, hj]
    obtain ⟨h1, h2, h3, h4, h5⟩ :=
      ih s₁ dead1 r hr (hdrops.ready h) ((State.Owns.congr htp).2 hown) hnodup
      (fun j hj => by
        rw [hslot j fun hji => hnot (hji ▸ hj)]
        exact hslots j (mem_cons_of_mem _ hj)) hburied hE
      fun s2 o j hs2 => hdie s2 o j (hdrops.trans hs2)
    refine ⟨hdrops.trans h1, h2.trans htp, h3, fun tj htj => ?_, fun j =>
      ⟨fun hj => ?_, fun hj => ?_⟩⟩
    · rw [h4 tj htj, htab]
      simp [capSlotPush, modTable, htj]
    · rcases mem_cons.1 hj with rfl | hj
      · rw [(h5 j).2 hnot, htab]
        simp [capSlotPush, modTable]
        rfl
      · exact (h5 j).1 hj
    · rw [mem_cons, not_or] at hj
      rw [(h5 j).2 hj.2, hslot j hj.1]

variable (env) in
lemma postDrains_spec (dead : List ℕ) : ∀ s s' : State,
    dead.foldl (fun s c => drain (drain s c false) c true) s = s' → Ready R s → MayDrain env R s →
    (∀ c ∈ dead, c < capChanMax) → Drops env R s s' ∧ SameSides s s' ∧
      ∀ c ∈ dead, ∀ ref d, s'.named (.queue c ref d) = none := by
  induction dead with
  | nil =>
    rintro s _ rfl _ _ _
    exact ⟨.refl, .refl s, fun c hc => by cases hc⟩
  | cons a dead ih =>
    intro s s' hs h hm hlt
    have ha := hlt a (mem_cons_self ..)
    obtain ⟨h1, h2, h3⟩ := drain_spec env false h hm ha
    obtain ⟨h4, h5, h6⟩ := drain_spec env true (h1.ready h) (hm.mono h1) ha
    obtain ⟨h7, h8, h9⟩ := ih _ s' hs (h4.ready (h1.ready h)) ((hm.mono h1).mono h4)
      fun c hc => hlt c (mem_cons_of_mem _ hc)
    refine ⟨(h1.trans h4).trans h7, (h2.trans h5).trans h8, fun c hc ref d => ?_⟩
    rcases mem_cons.1 hc with rfl | hc
    · have htidy := (h1.ready h).tidy
      refine h7.named_none (h4.tidy htidy) ?_
      cases d with
      | true => exact h6 ref
      | false => exact h4.named_none htidy (h3 ref)
    · exact h9 c hc ref d

def validSlots (t : CapTable) : List ℕ :=
  (range capTableEntries).filter fun i => capWordValid (t.slots i)

/-- After the queues that the process read are drained. -/
def preDrained (s : State) (pid ti : ℕ) : State :=
  (readObjects (s.tables ti) (validSlots (s.tables ti))).foldl (fun s o => preDrain s pid o) s

/-- After its slots are dropped, with the channels that died. -/
def slotsDropped (s : State) (pid ti : ℕ) : State × List ℕ :=
  (validSlots (s.tables ti)).foldl (dropSlot ti pid) (preDrained s pid ti, [])

/-- After these are drained. -/
def drained (s : State) (pid ti : ℕ) : State :=
  (slotsDropped s pid ti).2.foldl (fun s c => drain (drain s c false) c true)
    (slotsDropped s pid ti).1

def unmapAll (env : Env) (s : State) (pid ti : ℕ) : State :=
  (range capMapMax).foldl (fun s i =>
    if ((s.tables ti).maps i).active then dropMap s (env.procCr3 pid) ti i else s) s

def peersTold (s : State) (pid : ℕ) : State :=
  (range capChanMax).foldl (fun s c => noticeDeath s pid c) s

lemma capTableTeardown_eq (hown : s.Owns pid ti) : capTableTeardown env s pid =
    unbindVectors (peersTold (unbindTable (unmapAll env (drained s pid ti) pid ti) ti) pid)
      pid := by
  have hfold : (validSlots (s.tables ti)).foldl (dropSlot ti pid) (preDrained s pid ti, []) =
      slotsDropped s pid ti := rfl
  have hpre : (readObjects (s.tables ti) (validSlots (s.tables ti))).foldl
      (fun s o => preDrain s pid o) s = preDrained s pid ti := rfl
  have hslots : (range capTableEntries).filter (fun i => capWordValid ((s.tables ti).slots i)) =
      validSlots (s.tables ti) := rfl
  unfold capTableTeardown
  rw [show capTableFind s pid = some ti from hown]
  simp only [hslots, hpre, hfold, drained, unmapAll, peersTold, unbindTable]

/-- What may die during a teardown: what is dropped from a queue, and what a slot of the process
holds. -/
structure MayTear (env : Env) (R : Rules) (s : State) (pid ti : ℕ) : Prop where
  drain : MayDrain env R s
  slot : ∀ s₁ o i, Drops env R s s₁ → s₁.Tracked o → s₁.named (.slot pid i) = some o →
    ((s₁.objects o).kind = .chan → (s₁.objects o).chanId ∈ (slotsDropped s pid ti).2) →
    R.mayDie s₁ o

lemma mem_validSlots : i ∈ validSlots t ↔ i < capTableEntries ∧ capWordValid (t.slots i) := by
  simp [validSlots]

structure Drained (env : Env) (R : Rules) (s s' : State) (pid ti : ℕ) : Prop where
  drops : Drops env R s s'
  tablePid : s'.tablePid = s.tablePid
  others : ∀ tj ≠ ti, s'.tables tj = s.tables tj
  spent : ∀ i < capTableEntries, ((s'.tables ti).slots i).names = none
  dead : ∀ c ∈ (slotsDropped s pid ti).2, ∀ ref d, s'.named (.queue c ref d) = none
  read : ∀ o ∈ readObjects (s.tables ti) (validSlots (s.tables ti)),
    ∀ i, s.named (.slot pid i) = some o → s.Tracked o → (s.objects o).kind = .chan → ∀ ref,
      s'.named (.queue (s.objects o).chanId ref (recvDir s (s.objects o).chanId pid)) = none

lemma named_slot_of_sides (h : SameSides s s') :
    s'.named (.slot pid i) = s.named (.slot pid i) := by
  simp only [named, capTableFind, tableOf, h.tables, h.tablePid]

lemma drained_spec (h : Ready R s) (hR : R.Slots) (hpid : pid < 2 ^ 16) (hown : s.Owns pid ti)
    (hm : MayTear env R s pid ti) : Drained env R s (drained s pid ti) pid ti := by
  obtain ⟨h1, h2, h3⟩ := preDrains_spec env pid _ s (preDrained s pid ti) rfl h hm.drain
  have hready := h1.ready h
  obtain ⟨h4, h5, h6, h7, h8⟩ := dropSlots_spec env (· ∈ (slotsDropped s pid ti).2) hR hpid
    (validSlots (s.tables ti)) (preDrained s pid ti) [] (slotsDropped s pid ti) rfl hready
      (h2.owns.2 hown) (nodup_range.filter _)
    (fun i hi => by rw [h2.tables]; exact mem_validSlots.1 hi) ⟨.nil, by simp⟩ (fun c hc => hc)
    fun s₁ o i hs1 => hm.slot s₁ o i (h1.trans hs1)
  have hready1 := h4.ready hready
  obtain ⟨h9, h10, h11⟩ := postDrains_spec env (slotsDropped s pid ti).2
    (slotsDropped s pid ti).1 (drained s pid ti) rfl hready1 ((hm.drain.mono h1).mono h4)
    fun c hc => (hready1.wires.lt c (h6.recycled c hc)).trans_le hready1.wires.next
  refine ⟨(h1.trans h4).trans h9, ?_, fun tj htj => ?_, fun i hi => ?_, h11,
    fun o ho i hn htr hkind ref => ?_⟩
  · rw [h10.tablePid, h5, h2.tablePid]
  · rw [h10.tables, ← h2.tables]
    exact h7 tj htj
  · rw [h10.tables]
    by_cases hvalid : i ∈ validSlots (s.tables ti)
    · exact names_of_none ((h8 i).1 hvalid)
    rw [(h8 i).2 hvalid, h2.tables]
    cases hn : ((s.tables ti).slots i).names with
    | none => rfl
    | some => exact absurd (mem_validSlots.2 ⟨hi, (names_eq_some.1 hn).1⟩) hvalid
  · exact Drops.named_none (h4.trans h9) hready.tidy
      (h3 o ho (.slot pid i) (hR pid i) ((named_slot_of_sides h2).trans hn) htr hkind ref)

lemma dropMap_others (htj : tj ≠ ti) : (dropMap s cr3 ti i).tables tj = s.tables tj := by
  obtain ⟨pages, heq⟩ := dropMap_eq s cr3 ti i
  simp [heq, modMap, modTable, htj]

variable (env R s pid ti) in
lemma unmapAll_spec : Drops env R s (unmapAll env s pid ti) ∧ Calm s (unmapAll env s pid ti) ∧
    ∀ tj ≠ ti, (unmapAll env s pid ti).tables tj = s.tables tj := by
  unfold unmapAll
  refine foldlRecOn (motive := fun s' => Drops env R s s' ∧ Calm s s' ∧
    ∀ tj ≠ ti, s'.tables tj = s.tables tj) _ _ ⟨.refl, .refl s, fun _ _ => rfl⟩ ?_
  rintro s₁ ⟨h1, h2, h3⟩ i -
  split_ifs
  · exact ⟨h1.tail dropMap_drop, h2.trans dropMap_calm,
      fun tj htj => (dropMap_others htj).trans (h3 tj htj)⟩
  · exact ⟨h1, h2, h3⟩

lemma unmapAll_maps (hi : i < capMapMax) :
    (((unmapAll env s pid ti).tables ti).maps i).active = false := by
  unfold unmapAll
  refine Machine.foldl_establishes
    (Q := fun (s' : State) i => ((s'.tables ti).maps i).active = false)
    (fun s₁ i j h1 => ?_) (fun s₁ i _ => ?_) i (mem_range.2 hi)
  · grind [dropMap_maps]
  · split_ifs with hact
    · rw [dropMap_maps, if_pos ⟨rfl, rfl⟩]
    · exact Bool.not_eq_true _ ▸ hact

lemma modChannel_drop {f : CapChannel → CapChannel}
    (hf : ∀ ch, (f ch).qhead = ch.qhead ∧ (f ch).qtail = ch.qtail ∧ (f ch).qdepth = ch.qdepth ∧
      (f ch).q = ch.q) (hact : ∀ ch, (f ch).active = ch.active) : Drop env R s (s.modChannel c f) :=
  .aside (calm_modChannel hf) rfl (sameWires_modChannel (hact _))

lemma noticeDeath_drop : Drop env R s (noticeDeath s pid c) := by
  refine modChannel_drop (fun ch => ?_) fun ch => ?_
  · grind
  · dsimp only
    split_ifs <;> rfl

variable (env R s pid) in
lemma peersTold_spec : Drops env R s (peersTold s pid) ∧ SameSides s (peersTold s pid) := by
  refine foldlRecOn (motive := fun s' => Drops env R s s' ∧ SameSides s s') _ _
    ⟨.refl, .refl s⟩ ?_
  rintro s₁ ⟨h1, h2⟩ c _
  refine ⟨h1.tail noticeDeath_drop, h2.trans (sides_modChannel fun ch => ?_)⟩
  dsimp only
  split_ifs <;> rfl

lemma unbindVectors_drop : Drop env R s (unbindVectors s pid) := by
  refine .vectors _ _ (fun v => ?_) fun v => ?_
  · grind
  · grind

/-- What a teardown leaves. -/
structure TornDown (env : Env) (R : Rules) (s s' : State) (pid ti : ℕ) : Prop where
  drops : Drops env R s s'
  others : ∀ tj ≠ ti, s'.tables tj = s.tables tj
  tablePid : s'.tablePid = update s.tablePid ti 0
  unbound : (s'.tables ti).pid = 0
  slots : (s'.tables ti).freelistHead = 0 ∧ (s'.tables ti).slots = freshSlots
  maps : ∀ i < capMapMax, ((s'.tables ti).maps i).active = false
  gone : ∀ i, s'.named (.slot pid i) = none
  dead : ∀ c ∈ (slotsDropped s pid ti).2, ∀ ref d, s'.named (.queue c ref d) = none
  read : ∀ o ∈ readObjects (s.tables ti) (validSlots (s.tables ti)),
    ∀ i, s.named (.slot pid i) = some o → s.Tracked o → (s.objects o).kind = .chan → ∀ ref,
      s'.named (.queue (s.objects o).chanId ref (recvDir s (s.objects o).chanId pid)) = none

variable (env) in
lemma capTableTeardown_spec (h : Ready R s) (hR : R.Slots) (hpid : pid < 2 ^ 16)
    (hown : s.Owns pid ti) (hm : MayTear env R s pid ti) :
    TornDown env R s (capTableTeardown env s pid) pid ti := by
  have hd := drained_spec h hR hpid hown hm
  rw [capTableTeardown_eq hown]
  generalize drained s pid ti = s₁ at hd ⊢
  have htidy1 := hd.drops.tidy h.tidy
  have hown1 : s₁.Owns pid ti := (State.Owns.congr hd.tablePid).2 hown
  obtain ⟨h2, hcalm, hothers⟩ := unmapAll_spec env R s₁ pid ti
  have hmaps : ∀ i < capMapMax, (((unmapAll env s₁ pid ti).tables ti).maps i).active = false :=
    fun i hi => unmapAll_maps hi
  generalize unmapAll env s₁ pid ti = s2 at h2 hcalm hothers hmaps ⊢
  have htidy2 := h2.tidy htidy1
  have hown2 : s2.Owns pid ti := hcalm.owns.2 hown1
  have hspent : ∀ i < capTableEntries, ((s2.tables ti).slots i).names = none := by
    intro i hi
    rw [(hcalm.tables ti).2.2]
    exact hd.spent i hi
  have h3 : Drop env R s2 (unbindTable s2 ti) := by
    refine .unbind pid ti hown2 fun i hi _ o ho => ?_
    rw [hspent i hi] at ho
    cases ho
  have hnone : ∀ i, (unbindTable s2 ti).named (.slot pid i) = none := by
    rw [named_unbindTable htidy2.tables hown2]
    simp [CapHolder.ofPid]
  have htables : ∀ tj, (unbindTable s2 ti).tables tj = if tj = ti then
      { s2.tables ti with pid := 0, freelistHead := 0, slots := freshSlots } else s2.tables tj :=
    fun tj => unbindTable_tables
  have hpids : (unbindTable s2 ti).tablePid = update s2.tablePid ti 0 := unbindTable_tablePid
  have htidy3 := h3.tidy htidy2
  generalize unbindTable s2 ti = s3 at h3 hnone htables hpids htidy3 ⊢
  obtain ⟨h4, hsides⟩ := peersTold_spec env R s3 pid
  generalize peersTold s3 pid = s4 at h4 hsides ⊢
  have h5 : Drop env R s4 (unbindVectors s4 pid) := unbindVectors_drop
  have hlate : Drops env R s3 (unbindVectors s4 pid) := h4.tail h5
  have htail : Drops env R s₁ (unbindVectors s4 pid) := (h2.tail h3).trans hlate
  have hstay : ∀ p, s₁.named p = none → (unbindVectors s4 pid).named p = none :=
    fun p hp => htail.named_none htidy1 hp
  have htab : (unbindVectors s4 pid).tables = s3.tables := hsides.tables
  refine ⟨hd.drops.trans htail, fun tj htj => ?_, ?_, ?_, ?_, fun i hi => ?_, fun i => ?_,
    fun c hc ref d => hstay _ (hd.dead c hc ref d),
    fun o ho i hn htr hk ref => hstay _ (hd.read o ho i hn htr hk ref)⟩
  · rw [htab, htables, if_neg htj, hothers tj htj, hd.others tj htj]
  · change s4.tablePid = _
    rw [hsides.tablePid, hpids, hcalm.tablePid, hd.tablePid]
  · rw [htab, htables, if_pos rfl]
  · grind
  · grind
  · exact hlate.named_none htidy3 (hnone i)

end AeroSLS.Cap
