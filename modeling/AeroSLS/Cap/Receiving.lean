import AeroSLS.Cap.Sending

namespace AeroSLS.Cap

open Bytes Function Register Chain List Option State

variable {env : Env} {R : Rules} {s : State} {pid c entry i : ℕ} {d : Dir} {w : CapWord}
  {cap : MsgCap}

/-- The message that the process would receive next stands in `entry`. -/
structure Head (s : State) (pid ti c : ℕ) (d : Dir) (entry : ℕ) : Prop where
  own : s.Owns pid ti
  lt : c < capChanMax
  pos : 0 < (s.channels c).qdepth d
  cursor : (s.channels c).qhead d % chanQueueDepth = entry

lemma Head.live (h : Head s pid ti c d entry) : s.Live c d entry := by
  have hl := live_head h.pos
  rwa [h.cursor] at hl

/-- Nothing moved but words. -/
structure SameCursors (s s' : State) : Prop where
  tablePid : s'.tablePid = s.tablePid
  qhead : ∀ c, (s'.channels c).qhead = (s.channels c).qhead
  qdepth : ∀ c, (s'.channels c).qdepth = (s.channels c).qdepth
  nCaps : ∀ c d entry, (s'.msg c d entry).nCaps = (s.msg c d entry).nCaps

lemma SameCursors.refl (s : State) : SameCursors s s :=
  ⟨rfl, fun _ => rfl, fun _ => rfl, fun _ _ _ => rfl⟩

lemma SameCursors.trans (h : SameCursors s s') (h' : SameCursors s' s'') : SameCursors s s'' :=
  ⟨h'.tablePid.trans h.tablePid, fun c => (h'.qhead c).trans (h.qhead c),
    fun c => (h'.qdepth c).trans (h.qdepth c),
    fun c d e => (h'.nCaps c d e).trans (h.nCaps c d e)⟩

lemma Calm.cursors (h : Calm s s') : SameCursors s s' :=
  ⟨h.tablePid, fun c => (h.rings c).1, fun c => (h.rings c).2.2, fun c d e => (h.msgs c d e).1⟩

variable (c entry i d w) in
lemma cursors_setWord : SameCursors s (s.setWord c d entry i w) := by
  refine ⟨rfl, fun c' => ?_, fun c' => ?_, fun c' d' e' => ?_⟩
  · exact update_same rfl
  · exact update_same rfl
  · grind [setWord, msg_modMsg]

lemma SameCursors.of_channels (hpid : s'.tablePid = s.tablePid) (hch : s'.channels = s.channels) :
    SameCursors s s' :=
  ⟨hpid, fun c => by rw [hch], fun c => by rw [hch], fun c d e => by rw [msg_of_channels hch]⟩

lemma cursors_moveToSlot : SameCursors s (moveToSlot s ti pid idx c d entry i w) := by
  refine SameCursors.trans (cursors_setWord c entry i d 0) ?_
  exact .of_channels moveToSlot_tablePid moveToSlot_channels

lemma Head.congr (h : Head s pid ti c d entry) (hs : SameCursors s s') : Head s' pid ti c d entry :=
  ⟨(State.Owns.congr hs.tablePid).2 h.own, h.lt, by rw [hs.qdepth]; exact h.pos,
    by rw [hs.qhead]; exact h.cursor⟩

lemma dropQueued_eq : dropQueued s c d entry i = if s.word c d entry i = 0 then s
    else if (capObjectGet s (s.word c d entry i).obj).isNone then s.setWord c d entry i 0
    else (reapUnheld (capHolderRemove s (s.word c d entry i).obj (queueKey c entry i))
      (s.word c d entry i).obj).setWord c d entry i 0 := by
  simp only [dropQueued]
  split_ifs with h0 hget
  · rfl
  · rw [isNone_iff_eq_none.1 hget]
  · rw [isNone_iff_eq_none] at hget
    obtain ⟨ob, hob⟩ := ne_none_iff_exists'.1 hget
    rw [hob]
    rfl

variable (s c entry i d) in
lemma cursors_dropQueued : SameCursors s (dropQueued s c d entry i) := by
  rw [dropQueued_eq]
  split_ifs
  · exact .refl s
  · exact cursors_setWord ..
  · exact calm_reap_remove.cursors.trans (cursors_setWord ..)

lemma word_dropQueued : (dropQueued s c d entry i).word c d entry j =
    if j = i then 0 else s.word c d entry j := by
  rw [dropQueued_eq]
  by_cases hj : j = i
  · grind [word_setWord]
  split_ifs with h0 hget
  · rfl
  · rw [word_setWord, if_neg (by simp [hj])]
  · rw [word_setWord, if_neg (by simp [hj])]
    exact calm_reap_remove.sameWords.word c d entry j

section

variable (hc : c < capChanMax) (hl : s.Live c d entry) (hi : i < capMsgMaxCaps)
include hc hl hi

lemma names_of_queued (h : Ready R s) (h0 : s.word c d entry i ≠ 0)
    (hact : (s.objects (s.word c d entry i).obj).active)
    (hD : R.exact (queueKey c entry i) ∨ (s.word c d entry i).state ≠ .revoked) :
    (s.word c d entry i).names = some (s.word c d entry i).obj := by
  refine ((h.tidy.contents.queues c hc d entry hl).2 i hi).1 h0 fun hst => ?_
  rcases hD with hD | hD
  · -- a stamped word's object is under revocation
    have hrev := (h.tidy.stamped c hc d entry hl i hi hD hst).2
    rw [h.settled _ (id) hact] at hrev
    cases hrev
  · exact hD hst

lemma lt_nCaps_of_queued (h : Tidy D s) (hn : (s.word c d entry i).names = some o) :
    i < (s.msg c d entry).nCaps :=
  (((h.contents.queues c hc d entry hl).2 i hi).2 o hn).2.1

lemma dropQueued_drops (h : Ready R s)
    (hdie : s.Tracked (s.word c d entry i).obj → R.mayDie s (s.word c d entry i).obj) :
    Drops env R s (dropQueued s c d entry i) := by
  rw [dropQueued_eq]
  split_ifs with h0 hget
  · exact .refl
  · refine .single (.word c d entry i 0 hi (.inl rfl) fun _ o ho => ?_)
    rw [← (names_eq_some.1 ho).2.2]
    exact not_tracked_of_get h.tidy (isNone_iff_eq_none.1 hget)
  · have hact := active_of_get hget
    exact .single (.queued c d entry i hc hl hi (h.tracked hact)
      (fun hD => names_of_queued hc hl hi h h0 hact (.inl hD)) fun _ => hdie (h.tracked hact))

end

variable (env) in
/-- The drop loop over some caps of an entry. -/
theorem dropAll_spec (is : List ℕ) : ∀ s : State, Ready R s → c < capChanMax → s.Live c d entry →
    (∀ i ∈ is, i < capMsgMaxCaps) →
    (∀ s1, Drops env R s s1 → ∀ i ∈ is, s1.Tracked (s.word c d entry i).obj →
      s.word c d entry i ≠ 0 → R.mayDie s1 (s.word c d entry i).obj) →
    Drops env R s (dropAll s c d entry is) ∧ SameCursors s (dropAll s c d entry is) ∧
      ∀ j, (dropAll s c d entry is).word c d entry j = if j ∈ is then 0 else
        s.word c d entry j := by
  induction is with
  | nil =>
    intro s _ _ _ _ _
    exact ⟨.refl, .refl s, by simp [dropAll]⟩
  | cons i is ih =>
    intro s h hc hl his hdie
    have hfirst : Drops env R s (dropQueued s c d entry i) := by
      grind [dropQueued_eq, dropQueued_drops]
    have hcur := cursors_dropQueued s c entry i d
    have hl1 : (dropQueued s c d entry i).Live c d entry := by
      simpa only [State.Live, hcur.qhead, hcur.qdepth] using hl
    obtain ⟨hrest, hcur', hword⟩ := ih (dropQueued s c d entry i) (hfirst.ready h) hc hl1
      (fun j hj => his j (mem_cons_of_mem _ hj)) fun s1 hs1 j hj htr h0 => by
        rw [word_dropQueued] at htr h0 ⊢
        by_cases hji : j = i
        · simp [hji] at h0
        · rw [if_neg hji] at htr h0 ⊢
          exact hdie s1 (hfirst.trans hs1) j (mem_cons_of_mem _ hj) htr h0
    refine ⟨hfirst.trans hrest, hcur.trans hcur', fun j => ?_⟩
    change (dropAll (dropQueued s c d entry i) c d entry is).word c d entry j = _
    rw [hword, word_dropQueued]
    by_cases hj : j ∈ is
    · simp [hj]
    · by_cases hji : j = i
      · simp [hji]
      · simp [hj]

lemma dequeue_drop (hh : Head s pid ti c d entry)
    (hD : ∀ i < capMsgMaxCaps, s.Spent R.exact (queueKey c entry i) (s.word c d entry i)) :
    Drop env R s (dequeue s c d entry f) := by
  obtain ⟨hown, hc, hpos, rfl⟩ := hh
  exact .head c d f hc hpos hD

lemma spent_past (h : Tidy R.exact s) (hc : c < capChanMax) (hl : s.Live c d entry)
    (hi : i < capMsgMaxCaps) (hn : (s.msg c d entry).nCaps ≤ i) :
    s.Spent R.exact k (s.word c d entry i) := by
  intro _ o ho
  have := lt_nCaps_of_queued hc hl hi h ho
  omega

lemma spent_zero : s.Spent R.exact k 0 := fun _ o ho => by simp at ho

/-- The caps after the first are dropped and the message taken off. -/
theorem drainTail_shifts (h : Ready R s) (hh : Head s pid ti c d entry)
    (hfirst : ∀ o, (s.word c d entry 0).names = some o → ¬s.Tracked o)
    (hdie : ∀ s1, Drops env R s s1 → ∀ i, 0 < i → i < (s.msg c d entry).nCaps →
      s1.Tracked (s.word c d entry i).obj → s.word c d entry i ≠ 0 →
      R.mayDie s1 (s.word c d entry i).obj) :
    Shifts env R s (dequeue (capMsgDrainTail s c d entry) c d entry f) := by
  have hmax := (h.tidy.contents.queues c hh.lt d entry hh.live).1
  obtain ⟨hdrops, hcur, hword⟩ := dropAll_spec env
    (range' 1 ((s.msg c d entry).nCaps - 1)) s h hh.lt hh.live
    (fun i hi => by rw [mem_range'_1] at hi; omega)
    fun s1 hs1 i hi => hdie s1 hs1 i (by rw [mem_range'_1] at hi; omega)
      (by rw [mem_range'_1] at hi; omega)
  refine hdrops.shifts.tail (.drop (dequeue_drop (hh.congr hcur) fun i hi => ?_))
  rw [hword i]
  split_ifs with hmem
  · exact spent_zero
  rw [mem_range'_1] at hmem
  rcases Nat.eq_zero_or_pos i with rfl | hpos
  · exact fun _ o ho htr => hfirst o ho (hdrops.shifts.tracked h htr)
  · exact fun hD o ho => absurd (lt_nCaps_of_queued hh.lt hh.live hi h.tidy ho) (by omega)

/-- The first word of the next message is there, if it says it has any. -/
def HeadIntact (s : State) (pid chR : ℕ) : Prop :=
  ∀ ti, s.Owns pid ti → ∀ c, handleChan s ((s.tables ti).slots chR) = some c →
    let d := recvDir s c pid
    let entry := (s.channels c).qhead d % chanQueueDepth
    0 < (s.channels c).qdepth d → (s.msg c d entry).nCaps ≠ 0 → s.word c d entry 0 ≠ 0

/-- The caps of the next message from the `lo`-th on may die when they are dropped. -/
def TailMayDie (env : Env) (R : Rules) (s : State) (pid chR lo : ℕ) : Prop :=
  ∀ ti, s.Owns pid ti → ∀ c, handleChan s ((s.tables ti).slots chR) = some c →
    let d := recvDir s c pid
    let entry := (s.channels c).qhead d % chanQueueDepth
    0 < (s.channels c).qdepth d → ∀ i, lo ≤ i → i < (s.msg c d entry).nCaps →
      s.word c d entry i ≠ 0 → ∀ s₁, Shifts env R s s₁ → s₁.Tracked (s.word c d entry i).obj →
        R.mayDie s₁ (s.word c d entry i).obj

lemma capSlotPop_holders (hpop : capSlotPop s ti = some (s1, idx)) :
    capSlotPop { s with holderFree := n } ti = some ({ s1 with holderFree := n }, idx) := by
  obtain ⟨rfl, hne, rfl⟩ := capSlotPop_eq hpop
  simp only [capSlotPop]
  rw [if_neg hne]
  rfl

variable (env R) in
lemma install_shifts (hpid : pid < 2 ^ 16) (hown : s.Owns pid ti)
    (hpop : capSlotPop s ti = some (s1, idx)) (hc : c < capChanMax) (hl : s.Live c d entry)
    (hi : i < capMsgMaxCaps) (hname : (s.word c d entry i).names = some (s.word c d entry i).obj)
    (ho : s.Tracked (s.word c d entry i).obj) (halloc : capHolderAlloc s1 = some s2) :
    Shifts env R s (moveToSlot s2 ti pid idx c d entry i (s.word c d entry i)) := by
  obtain rfl := capHolderAlloc_eq halloc
  exact .head (.drop (.holders (s1.holderFree - 1)))
    (.single (.into pid ti idx c d entry i hpid hown
    (capSlotPop_holders hpop) hc hl hi hname ho))

lemma word_moveToSlot : (moveToSlot s ti pid idx c d entry i w).word c d entry j =
    if j = i then 0 else s.word c d entry j := by
  rw [word_of_channels moveToSlot_channels, word_setWord]
  simp

variable (pid c entry i d w) in
lemma install_words (hpop : capSlotPop s ti = some (s1, idx))
    (halloc : capHolderAlloc s1 = some s2) :
    SameCursors s (moveToSlot s2 ti pid idx c d entry i w) ∧
      ∀ j, (moveToSlot s2 ti pid idx c d entry i w).word c d entry j =
        if j = i then 0 else s.word c d entry j := by
  obtain rfl := capHolderAlloc_eq halloc
  have hch := capSlotPop_channels hpop
  have hpid := capSlotPop_tablePid hpop
  have hcur : SameCursors s { s1 with holderFree := s1.holderFree - 1 } := .of_channels hpid hch
  refine ⟨hcur.trans cursors_moveToSlot, fun j => ?_⟩
  rw [word_moveToSlot]
  split_ifs
  · rfl
  · exact word_of_channels hch

lemma capRecv_shifts (h : Ready R s) (hpid : pid < 2 ^ 16)
    (hchR : chR < capTableEntries) (hhead : HeadIntact s pid chR)
    (hdie : TailMayDie env R s pid chR 1) : Shifts env R s (capRecv s pid chR).1 := by
  refine handled_shifts h hchR (fun _ => not_receivable_of_none) fun ti c hown hch hc _ =>
    guard_chain fun hdepth => ?_
  have hpos := Nat.pos_of_ne_zero hdepth
  have hhead := hhead ti hown c hch hpos
  have hdie := hdie ti hown c hch hpos
  dsimp only
  generalize hd : recvDir s c pid = d at *
  generalize he : (s.channels c).qhead d % chanQueueDepth = entry at *
  have hh : Head s pid ti c d entry := ⟨hown, hc, hpos, he⟩
  split
  · exact .single (.drop (dequeue_drop hh fun i hi => spent_past h.tidy hc hh.live hi (by omega)))
  rename_i hn
  have hzero : s.word c d entry 0 ≠ 0 := hhead hn
  split
  · -- the first capability is gone: the message goes too
    rename_i hgone
    refine drainTail_shifts h hh (fun o ho htr => ?_) fun s1 hs1 i hpos hlt htr h0 =>
      hdie i hpos hlt h0 s1 hs1.shifts htr
    have hobj := (names_eq_some.1 ho).2.2
    have hst := valid_of_names ho
    rcases hgone with hget | hst' | hrev
    · exact not_tracked_of_get h.tidy (isNone_iff_eq_none.1 hget) (hobj ▸ htr)
    · change (s.word c d entry 0).state = .revoked at hst'
      rw [hst] at hst'
      cases hst'
    · have hrev' : (s.objects (s.word c d entry 0).obj).revoking := hrev
      rw [hobj, htr.2] at hrev'
      cases hrev'
  · rename_i hok
    rw [not_or, not_or] at hok
    have hact := active_of_get hok.1
    have hname := names_of_queued hc hh.live (by decide) h hzero hact (.inr hok.2.1)
    split
    · exact .refl
    rename_i s1 slot hpop
    split
    · exact .single (.drop (.refile pid ti slot hown hpop))
    rename_i s2 halloc
    have hmove := install_shifts env R hpid hown hpop hc hh.live (by decide) hname
      (h.tracked hact) halloc
    obtain ⟨hcur, hword⟩ := install_words pid c entry 0 d (s.word c d entry 0) hpop halloc
    refine hmove.trans (drainTail_shifts (hmove.ready h) (hh.congr hcur) (fun o ho => ?_)
      fun s3 hs3 i hpos hlt htr h0 => ?_)
    · have hz := hword 0
      rw [show (moveToSlot s2 ti pid slot c d entry 0 (s.word c d entry 0)).word c d entry 0 = 0
        from hz] at ho
      simp at ho
    have hw := hword i
    rw [if_neg hpos.ne'] at hw
    have hlt' : i < (s.msg c d entry).nCaps := by
      rw [← hcur.nCaps]
      exact hlt
    rw [show (moveToSlot s2 ti pid slot c d entry 0 (s.word c d entry 0)).word c d entry i =
      s.word c d entry i from hw] at htr h0 ⊢
    exact hdie i hpos hlt' h0 s3 (hmove.trans hs3.shifts) htr

lemma grantPages_drop : Drop env R s (grantPages env s pid cap) := by
  simp only [grantPages]
  split_ifs
  · exact .unread
  · exact .unread

variable (env s pid cap) in
lemma grantPages_channels : (grantPages env s pid cap).channels = s.channels ∧
    (grantPages env s pid cap).tablePid = s.tablePid := by
  simp only [grantPages]
  split_ifs <;> exact ⟨rfl, rfl⟩

variable (env) in
/-- One step of the install loop: the word is moved out, or its object is dead. -/
theorem installCap_spec (h : Ready R s) (hpid : pid < 2 ^ 16) (hh : Head s pid ti c d entry)
    (hi : i < capMsgMaxCaps) (hr : installCap env s ti pid c d entry i = r) :
    Shifts env R s r.1 ∧ SameCursors s r.1 ∧
      (∀ j, r.1.word c d entry j = s.word c d entry j ∨ j = i ∧ r.1.word c d entry j = 0) ∧
      (r.2.isOk → s.Tracked (s.word c d entry i).obj → r.1.word c d entry i = 0) := by
  subst hr
  have hcap : ((s.msg c d entry).caps i).word = s.word c d entry i := rfl
  simp only [installCap, hcap]
  split_ifs with h0 hget hgone
  · exact ⟨.refl, .refl s, fun j => .inl rfl, fun _ _ => h0⟩
  · refine ⟨.refl, .refl s, fun j => .inl rfl, fun _ htr => ?_⟩
    exact absurd htr (not_tracked_of_get h.tidy (isNone_iff_eq_none.1 hget))
  · refine ⟨.single (.drop (.word c d entry i 0 hi (.inl rfl) fun _ o ho htr => ?_)),
      cursors_setWord .., fun j => ?_, fun _ _ => by simp [word_setWord]⟩
    · grind [valid_of_names, htr.2, names_eq_some]
    · grind [word_setWord]
  · have hact := active_of_get hget
    have hname := names_of_queued hh.lt hh.live hi h h0 hact (.inr fun hst => hgone (.inl hst))
    rcases hpop : capSlotPop s ti with _ | r
    · exact ⟨.refl, .refl s, fun j => .inl rfl, fun hok => by cases hok⟩
    obtain ⟨s1, slot⟩ := r
    cases halloc : capHolderAlloc s1 with
    | none =>
      simp only [halloc]
      have hch := capSlotPop_channels hpop
      have htab := capSlotPop_tablePid hpop
      exact ⟨.single (.drop (.refile pid ti slot hh.own hpop)), .of_channels htab hch,
        fun j => .inl (word_of_channels hch), fun hok => by cases hok⟩
    | some s2 =>
      simp only [halloc]
      obtain ⟨hcur, hword⟩ := install_words pid c entry i d (s.word c d entry i) hpop halloc
      have hmove := install_shifts env R hpid hh.own hpop hh.lt hh.live hi hname
        (h.tracked hact) halloc
      generalize moveToSlot s2 ti pid slot c d entry i (s.word c d entry i) = s3 at *
      obtain ⟨hch, htab⟩ := grantPages_channels env s3 pid ((s.msg c d entry).caps i)
      refine ⟨hmove.tail (.drop grantPages_drop), hcur.trans (.of_channels htab hch), fun j => ?_,
        fun _ _ => ?_⟩
      · grind [word_of_channels]
      · rw [word_of_channels hch, hword, if_pos rfl]

variable (env) in
/-- The install loop.  If it gets through, what is left of its caps names dead objects. -/
theorem installCaps_spec (hpid : pid < 2 ^ 16) (is : List ℕ) : ∀ s r, Ready R s →
    Head s pid ti c d entry → (∀ i ∈ is, i < capMsgMaxCaps) →
    installCaps env s ti pid c d entry is = r → Shifts env R s r.1 ∧ SameCursors s r.1 ∧
      (∀ j, r.1.word c d entry j = s.word c d entry j ∨ r.1.word c d entry j = 0) ∧
      (r.2.isOk → ∀ i ∈ is, r.1.word c d entry i = 0 ∨ ¬r.1.Tracked (s.word c d entry i).obj) := by
  induction is with
  | nil =>
    rintro s _ _ _ _ rfl
    exact ⟨.refl, .refl s, fun j => .inl rfl, fun _ i hi => by simp at hi⟩
  | cons i is ih =>
    rintro s _ h hh his rfl
    simp only [installCaps]
    generalize hr : installCap env s ti pid c d entry i = r
    obtain ⟨hfirst, hcur, hwords, hdone⟩ := installCap_spec env h hpid hh (his i (by simp)) hr
    obtain ⟨s1, res⟩ := r
    rcases res with e | desc
    · exact ⟨hfirst, hcur, fun j => (hwords j).imp_right And.right, fun hok => by cases hok⟩
    simp only
    generalize hr' : installCaps env s1 ti pid c d entry is = r'
    obtain ⟨hrest, hcur', hwords', hdone'⟩ := ih s1 r' (hfirst.ready h) (hh.congr hcur)
      (fun j hj => his j (mem_cons_of_mem _ hj)) hr'
    obtain ⟨s2, res'⟩ := r'
    have hsame : ∀ j, s2.word c d entry j = s.word c d entry j ∨ s2.word c d entry j = 0 := by
      grind
    rcases res' with e | descs
    · exact ⟨hfirst.trans hrest, hcur.trans hcur', hsame, fun hok => by cases hok⟩
    refine ⟨hfirst.trans hrest, hcur.trans hcur', hsame, fun _ j hj => ?_⟩
    by_cases hz : s2.word c d entry j = 0
    · exact .inl hz
    refine .inr fun htr => hz ?_
    have hw2 := (hwords' j).resolve_right hz
    have hnz : s1.word c d entry j ≠ 0 := hw2 ▸ hz
    have hw1 : s1.word c d entry j = s.word c d entry j := (hwords j).resolve_right fun h => hnz h.2
    rcases mem_cons.1 hj with rfl | hj
    · exact absurd (hdone rfl (Shifts.tracked (hfirst.trans hrest) h htr)) hnz
    · refine (hdone' rfl j hj).resolve_right fun hun => hun ?_
      rwa [hw1]

lemma capRecvMsg_shifts (h : Ready R s) (hpid : pid < 2 ^ 16)
    (hchR : chR < capTableEntries) (hdie : TailMayDie env R s pid chR maxCaps) :
    Shifts env R s (capRecvMsg env s pid chR bufLen maxCaps).1 := by
  refine handled_shifts h hchR (fun _ => not_receivable_of_none) fun ti c hown hch hc _ =>
    guard_chain fun hdepth => ?_
  have hpos := Nat.pos_of_ne_zero hdepth
  have hdie := hdie ti hown c hch hpos
  dsimp only
  generalize hd : recvDir s c pid = d at *
  generalize he : (s.channels c).qhead d % chanQueueDepth = entry at *
  have hh : Head s pid ti c d entry := ⟨hown, hc, hpos, he⟩
  have hmax := (h.tidy.contents.queues c hc d entry hh.live).1
  generalize hr : installCaps env s ti pid c d entry _ = r
  obtain ⟨hinst, hcur, hwords, hdone⟩ := installCaps_spec env hpid _ s r h hh
    (fun i hi => by rw [mem_range] at hi; omega) hr
  obtain ⟨s1, res⟩ := r
  rcases res with e | descs
  · exact hinst
  have h1 := hinst.ready h
  have hh1 := hh.congr hcur
  obtain ⟨hdrops, hcur', hword⟩ := dropAll_spec env (range (s.msg c d entry).nCaps) s1
    h1 hc hh1.live (fun i hi => by rw [mem_range] at hi; omega)
    fun s2 hs2 i hi htr h0 => by
      rw [mem_range] at hi
      have hw := (hwords i).resolve_right h0
      by_cases hlt : i < maxCaps
      · have hmem : i ∈ range (min (s.msg c d entry).nCaps (min maxCaps capMsgMaxCaps)) := by
          rw [mem_range]
          omega
        refine absurd (hdone rfl i hmem) (not_or.2 ⟨h0, not_not.2 ?_⟩)
        rw [← hw]
        exact hs2.shifts.tracked h1 htr
      · rw [hw] at htr h0 ⊢
        exact hdie i (Nat.not_lt.1 hlt) hi h0 s2 (hinst.trans hs2.shifts) htr
  refine (hinst.trans hdrops.shifts).tail (.drop (dequeue_drop (hh1.congr hcur') fun i hi => ?_))
  rw [hword i]
  split_ifs with hmem
  · exact spent_zero
  · rw [mem_range] at hmem
    refine fun hD o ho => absurd (lt_nCaps_of_queued hc hh1.live hi h1.tidy ho) ?_
    rwa [hcur.nCaps]

end AeroSLS.Cap
