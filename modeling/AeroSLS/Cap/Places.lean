import Mathlib.Data.List.Find
import AeroSLS.Cap.Release
import AeroSLS.Cap.Mint
import AeroSLS.Lib.Chain
import AeroSLS.Lib.Register

namespace AeroSLS.Cap

open Function Register Chain List

/-- The ring entry holds a queued message: its distance from the head is below the
depth of the queue. -/
def State.Live (s : State) (c : ℕ) (d : Dir) (entry : ℕ) : Prop :=
  entry < chanQueueDepth ∧
    (entry + chanQueueDepth - (s.channels c).qhead d % chanQueueDepth) % chanQueueDepth <
      (s.channels c).qdepth d

instance (s : State) (c : ℕ) (d : Dir) (entry : ℕ) : Decidable (s.Live c d entry) :=
  inferInstanceAs (Decidable (_ ∧ _))

/-- The object named by the word at a place, if the word is a usable capability. -/
def State.named (s : State) : CapHolder → Option ℕ
  | .slot pid ref =>
    match capTableFind s pid with
    | none => none
    | some ti => if ref < capTableEntries then ((s.tables ti).slots ref).names else none
  | .queue c ref d =>
    if c < capChanMax ∧ s.Live c d (ref / capMsgMaxCaps) then
      (s.word c d (ref / capMsgMaxCaps) (ref % capMsgMaxCaps)).names
    else none

def queuePlace (c : ℕ) (d : Dir) (entry i : ℕ) : CapHolder :=
  .queue c (entry * capMsgMaxCaps + i) d

/-- The process holds table `ti`. -/
def State.Owns (s : State) (pid ti : ℕ) : Prop := capTableFind s pid = some ti

/-- The tables are bound one to one, and an unbound one is empty. -/
structure Tables (s : State) : Prop where
  kernel : s.tablePid 0 = 0
  pid : ∀ ti < capTableMax, (s.tables ti).pid = s.tablePid ti
  inj : ∀ ti < capTableMax, ∀ tj < capTableMax, s.tablePid ti = s.tablePid tj →
    s.tablePid ti ≠ 0 → ti = tj
  free : ∀ ti < capTableMax, FreeList (fun i => ((s.tables ti).slots i).obj % 2 ^ 16)
    capFreelistEnd (s.tables ti).freelistHead
    fun i => i < capTableEntries ∧ ((s.tables ti).slots i).ty = .none
  idle : ∀ ti < capTableMax, ti ≠ 0 → s.tablePid ti = 0 → ∀ i < capTableEntries,
    ((s.tables ti).slots i).ty = .none

/-- The cursors of every ring fit its depth. -/
def Rings (s : State) : Prop :=
  ∀ c < capChanMax, ∀ d, (s.channels c).qdepth d ≤ chanQueueDepth ∧
    (s.channels c).qtail d = (s.channels c).qhead d + (s.channels c).qdepth d

variable {s s' : State}

lemma owns_zero : s.Owns 0 ti ↔ ti = 0 := by
  simp [State.Owns, capTableFind, eq_comm]

lemma owns_of_ne_zero (hpid : pid ≠ 0) (h : s.Owns pid ti) :
    ti < capTableMax ∧ s.tablePid ti = pid := by
  rw [State.Owns, capTableFind, if_neg hpid] at h
  have hmem := mem_of_find?_eq_some h
  have hp := find?_some h
  exact ⟨mem_range.1 hmem, by simpa using hp⟩

lemma State.Owns.lt (h : s.Owns pid ti) : ti < capTableMax := by
  by_cases hpid : pid = 0
  · subst hpid
    rw [owns_zero.1 h]
    decide
  · exact (owns_of_ne_zero hpid h).1

lemma State.Owns.tablePid (ht : Tables s) (h : s.Owns pid ti) : s.tablePid ti = pid := by
  by_cases hpid : pid = 0
  · subst hpid
    rw [owns_zero.1 h, ht.kernel]
  · exact (owns_of_ne_zero hpid h).2

lemma State.Owns.used (ht : Tables s) (h : s.Owns pid ti) : ti = 0 ∨ s.tablePid ti ≠ 0 := by
  by_cases hpid : pid = 0
  · subst hpid
    exact .inl (owns_zero.1 h)
  · exact .inr (by rwa [h.tablePid ht])

lemma owns_of_tablePid (ht : Tables s) (hti : ti < capTableMax) (hpid : s.tablePid ti = pid)
    (hne : pid ≠ 0) : s.Owns pid ti := by
  rcases hfind : capTableFind s pid with _ | tj
  · grind [capTableFind, tableOf]
  obtain ⟨htj, hpj⟩ := owns_of_ne_zero hne hfind
  obtain rfl := ht.inj ti hti tj htj (hpid.trans hpj.symm) (by rwa [hpid])
  exact hfind

lemma State.Owns.pid_unique (ht : Tables s) (h : s.Owns pid ti) (h' : s.Owns pid' ti) :
    pid = pid' := by
  rw [← h.tablePid ht, ← h'.tablePid ht]

lemma State.Owns.congr (h : s'.tablePid = s.tablePid) : s'.Owns pid ti ↔ s.Owns pid ti := by
  simp only [State.Owns, capTableFind, tableOf, h]

lemma capTableFind_congr (h : ∀ ti < capTableMax, s'.tablePid ti = pid ↔ s.tablePid ti = pid) :
    capTableFind s' pid = capTableFind s pid := by
  unfold capTableFind tableOf
  split_ifs
  · rfl
  · refine find?_congr fun ti hti => ?_
    rw [Bool.eq_iff_iff, beq_iff_eq, beq_iff_eq]
    exact h ti (mem_range.1 hti)

/-- The two states agree on the words of their slots and rings. -/
structure SameWords (s s' : State) : Prop where
  tablePid : s'.tablePid = s.tablePid
  slots : ∀ ti, (s'.tables ti).slots = (s.tables ti).slots
  qhead : ∀ c, (s'.channels c).qhead = (s.channels c).qhead
  qdepth : ∀ c, (s'.channels c).qdepth = (s.channels c).qdepth
  word : ∀ c d entry i, s'.word c d entry i = s.word c d entry i

lemma SameWords.live (h : SameWords s s') : s'.Live c d entry ↔ s.Live c d entry := by
  simp only [State.Live, h.qhead, h.qdepth]

lemma SameWords.named (h : SameWords s s') : s'.named = s.named := by
  funext p
  cases p with
  | slot => simp only [State.named, capTableFind, tableOf, h.tablePid, h.slots]
  | queue => simp only [State.named, h.live, h.word]

lemma named_slot (h : s.Owns pid ti) (hi : i < capTableEntries) :
    s.named (.slot pid i) = ((s.tables ti).slots i).names := by
  rw [State.Owns] at h
  simp only [State.named, h, hi, if_true]

lemma named_queuePlace (hi : i < capMsgMaxCaps) : s.named (queuePlace c d entry i) =
      if c < capChanMax ∧ s.Live c d entry then (s.word c d entry i).names else none := by
  have hdiv : (entry * capMsgMaxCaps + i) / capMsgMaxCaps = entry := by
    simp only [capMsgMaxCaps] at *
    omega
  have hmod : (entry * capMsgMaxCaps + i) % capMsgMaxCaps = i := by
    simp only [capMsgMaxCaps] at *
    omega
  simp only [State.named, queuePlace, hdiv, hmod]

lemma exists_queuePlace :
    ∃ entry i, i < capMsgMaxCaps ∧ CapHolder.queue c ref d = queuePlace c d entry i := by
  refine ⟨ref / capMsgMaxCaps, ref % capMsgMaxCaps, Nat.mod_lt _ (by decide), ?_⟩
  rw [queuePlace, Nat.div_add_mod']

lemma queuePlace_inj (hi : i < capMsgMaxCaps) (hi' : i' < capMsgMaxCaps) :
    queuePlace c d entry i = queuePlace c' d' entry' i' ↔
      c = c' ∧ d = d' ∧ entry = entry' ∧ i = i' := by
  simp only [queuePlace, CapHolder.queue.injEq, capMsgMaxCaps] at *
  constructor
  · grind
  · grind

lemma named_ext (hslot : ∀ pid ref, s.named (.slot pid ref) = N (.slot pid ref))
    (hqueue : ∀ c d entry i, i < capMsgMaxCaps →
      s.named (queuePlace c d entry i) = N (queuePlace c d entry i)) : s.named = N := by
  funext p
  cases p with
  | slot pid ref => exact hslot pid ref
  | queue c ref d =>
    obtain ⟨entry, i, hi, hp⟩ := exists_queuePlace
    rw [hp, hqueue c d entry i hi]

lemma exists_of_named_queue (h : s.named (.queue c ref d) = some o) :
    ∃ entry i, .queue c ref d = queuePlace c d entry i ∧ i < capMsgMaxCaps ∧ c < capChanMax ∧
      s.Live c d entry ∧ (s.word c d entry i).names = some o := by
  obtain ⟨entry, i, hi, hp⟩ := exists_queuePlace
  rw [hp, named_queuePlace hi] at h
  split_ifs at h with hl
  exact ⟨entry, i, hp, hi, hl.1, hl.2, h⟩

lemma exists_of_named_slot (h : s.named (.slot pid ref) = some o) :
    ∃ ti, s.Owns pid ti ∧ ref < capTableEntries ∧ ((s.tables ti).slots ref).names = some o := by
  simp only [State.named] at h
  split at h
  · cases h
  · rename_i ti hti
    split_ifs at h with hr
    exact ⟨ti, hti, hr, h⟩

/-- A table whose slots differ from the old ones in one. -/
theorem named_slots (ht : Tables s) (hown : s.Owns pid ti) (hi : i < capTableEntries)
    {f : CapTable → CapTable} (hf : (f (s.tables ti)).slots = update (s.tables ti).slots i w) :
    (s.modTable ti f).named = update s.named (.slot pid i) w.names := by
  funext p
  cases p with
  | queue => rw [update_of_ne (by simp)]; rfl
  | slot pid' ref =>
    have hfind : capTableFind (s.modTable ti f) pid' = capTableFind s pid' := rfl
    by_cases hown' : s.Owns pid' ti
    · obtain rfl := hown.pid_unique ht hown'
      have hown'' : (s.modTable ti f).Owns pid ti := hown
      by_cases hri : ref = i
      · subst hri
        rw [named_slot hown'' hi]
        simp [State.modTable, hf]
      rw [update_of_ne (by simp [hri])]
      simp only [State.named, hfind]
      rw [show capTableFind s pid = some ti from hown]
      simp [State.modTable, hf, hri]
    · rw [update_of_ne (by rintro ⟨⟩; exact hown' hown)]
      simp only [State.named, hfind]
      split
      · rfl
      · rename_i tj htj
        have hne : tj ≠ ti := by rintro rfl; exact hown' htj
        simp [State.modTable, hne]

lemma named_setSlot (ht : Tables s) (hown : s.Owns pid ti) (hi : i < capTableEntries) :
    (s.setSlot ti i w).named = update s.named (.slot pid i) w.names :=
  named_slots ht hown hi rfl

lemma names_freeLink (n : ℕ) : (freeLink n).names = none := rfl

lemma named_capSlotPush (ht : Tables s) (hown : s.Owns pid ti) (hi : i < capTableEntries) :
    (capSlotPush s ti i).named = update s.named (.slot pid i) none :=
  named_slots (w := freeLink (s.tables ti).freelistHead) ht hown hi rfl

open State (modChannel modMsg msg word)

/-- What the new value shares with the old one is the same after an update. -/
theorem update_same [DecidableEq ι] {f : ι → α} {a b : ι} {v : α} {g : α → β}
    (h : g v = g (f a)) : g (update f a v b) = g (f b) := by
  by_cases hb : b = a
  · subst hb
    rwa [update_self]
  · rw [update_of_ne hb]

lemma msg_modChannel {f : CapChannel → CapChannel} (hf : (f (s.channels c)).q = (s.channels c).q) :
    (s.modChannel c f).msg c' d entry = s.msg c' d entry :=
  congrFun₂ (update_same hf) d entry

lemma msg_modMsg : (s.modMsg c d entry f).msg c' d' entry' =
      if c' = c ∧ d' = d ∧ entry' = entry then f (s.msg c d entry) else s.msg c' d' entry' := by
  by_cases hc : c' = c
  · subst hc
    by_cases hd : d' = d
    · subst hd
      by_cases he : entry' = entry
      · subst he
        simp [msg, modMsg, modChannel]
      · simp [msg, modMsg, modChannel, he]
    · simp [msg, modMsg, modChannel, hd]
  · simp [msg, modMsg, modChannel, hc]

lemma live_modMsg : (s.modMsg c d entry f).Live c' d' entry' ↔ s.Live c' d' entry' := by
  by_cases hc : c' = c
  · subst hc
    simp [State.Live, modMsg, modChannel]
  · simp [State.Live, modMsg, modChannel, hc]

section

variable (hc : c < capChanMax) (hl : s.Live c d entry) (hi : i < capMsgMaxCaps)
include hc hl hi

lemma named_caps {f : MsgCap → MsgCap} (hf : (f ((s.msg c d entry).caps i)).word = w) :
    (s.modMsg c d entry fun m => { m with caps := update m.caps i (f (m.caps i)) }).named =
      update s.named (queuePlace c d entry i) w.names := by
  refine named_ext (fun pid ref => ?_) fun c' d' entry' i' hi' => ?_
  · rfl
  simp only [named_queuePlace hi', live_modMsg, word, msg_modMsg, update_apply,
    queuePlace_inj hi' hi]
  by_cases hp : c' = c ∧ d' = d ∧ entry' = entry
  · obtain ⟨rfl, rfl, rfl⟩ := hp
    by_cases hii : i' = i
    · subst hii
      simp [hc, hl, hf]
    · simp [hii]
  · grind

lemma named_setWord :
    (s.setWord c d entry i w).named = update s.named (queuePlace c d entry i) w.names :=
  named_caps hc hl hi (f := fun cap => { cap with word := w }) rfl

lemma named_setCap :
    (s.setCap c d entry i cap).named = update s.named (queuePlace c d entry i) cap.word.names :=
  named_caps hc hl hi (f := fun _ => cap) rfl

end

lemma named_modMsg_of_not_live
    (hl : ¬(c < capChanMax ∧ s.Live c d entry)) : (s.modMsg c d entry f).named = s.named := by
  refine named_ext (fun _ _ => rfl) fun c' d' entry' i hi => ?_
  simp only [named_queuePlace hi, live_modMsg, word, msg_modMsg]
  by_cases hp : c' = c ∧ d' = d ∧ entry' = entry
  · grind
  · simp [hp]

/-- Advance the tail over an entry. -/
def pushTail (s : State) (c : ℕ) (d : Dir) : State :=
  s.modChannel c fun ch => { ch with
    qtail := update ch.qtail d (ch.qtail d + 1)
    qdepth := update ch.qdepth d (ch.qdepth d + 1) }

/-- Advance the head over an entry. -/
def popHead (s : State) (c : ℕ) (d : Dir) : State :=
  s.modChannel c fun ch => { ch with
    qhead := update ch.qhead d (ch.qhead d + 1)
    qdepth := update ch.qdepth d (ch.qdepth d - 1) }

lemma live_pushTail (hr : Rings s) (hc : c < capChanMax)
    (hroom : (s.channels c).qdepth d < chanQueueDepth) :
    (pushTail s c d).Live c' d' entry' ↔ s.Live c' d' entry' ∨
      c' = c ∧ d' = d ∧ entry' = (s.channels c).qtail d % chanQueueDepth := by
  by_cases hc' : c' = c
  · subst hc'
    by_cases hd : d' = d
    · subst hd
      have htail := (hr c' hc d').2
      simp only [State.Live, pushTail, modChannel, update_self, true_and]
      simp only [chanQueueDepth] at *
      omega
    · simp [State.Live, pushTail, modChannel, hd]
  · simp [State.Live, pushTail, modChannel, hc']

lemma live_popHead (hr : Rings s) (hc : c < capChanMax) (hpos : 0 < (s.channels c).qdepth d) :
    (popHead s c d).Live c' d' entry' ↔ s.Live c' d' entry' ∧
      ¬(c' = c ∧ d' = d ∧ entry' = (s.channels c).qhead d % chanQueueDepth) := by
  by_cases hc' : c' = c
  · subst hc'
    by_cases hd : d' = d
    · subst hd
      have hdepth := (hr c' hc d').1
      simp only [State.Live, popHead, modChannel, update_self, true_and]
      simp only [chanQueueDepth] at *
      omega
    · simp [State.Live, popHead, modChannel, hd]
  · simp [State.Live, popHead, modChannel, hc']

lemma live_head (hpos : 0 < (s.channels c).qdepth d) :
    s.Live c d ((s.channels c).qhead d % chanQueueDepth) := by
  simp only [State.Live, chanQueueDepth]
  omega

lemma not_live_tail (hr : Rings s) (hc : c < capChanMax)
    (hroom : (s.channels c).qdepth d < chanQueueDepth) :
    ¬s.Live c d ((s.channels c).qtail d % chanQueueDepth) := by
  have htail := (hr c hc d).2
  simp only [State.Live, chanQueueDepth] at *
  omega

lemma msg_pushTail : (pushTail s c d).msg c' d' entry = s.msg c' d' entry := msg_modChannel rfl

lemma msg_popHead : (popHead s c d).msg c' d' entry = s.msg c' d' entry := msg_modChannel rfl

@[simp] lemma word_pushTail : (pushTail s c d).word c' d' entry i = s.word c' d' entry i := by
  rw [word, msg_pushTail, word]

@[simp] lemma word_popHead : (popHead s c d).word c' d' entry i = s.word c' d' entry i := by
  rw [word, msg_popHead, word]

lemma named_pushTail (hr : Rings s) (hc : c < capChanMax)
    (hroom : (s.channels c).qdepth d < chanQueueDepth)
    (hzero : ∀ i < capMsgMaxCaps,
      (s.word c d ((s.channels c).qtail d % chanQueueDepth) i).names = none) :
    (pushTail s c d).named = s.named := by
  refine named_ext (fun _ _ => rfl) fun c' d' entry i hi => ?_
  simp only [named_queuePlace hi, live_pushTail hr hc hroom, word_pushTail]
  by_cases hp : c' = c ∧ d' = d ∧ entry = (s.channels c).qtail d % chanQueueDepth
  · grind
  · simp [hp]

def InEntry (c : ℕ) (d : Dir) (entry : ℕ) (p : CapHolder) : Prop :=
  ∃ i < capMsgMaxCaps, p = queuePlace c d entry i

open Classical in
/-- What the head message named goes with it. -/
theorem named_popHead (hr : Rings s) (hc : c < capChanMax) (hpos : 0 < (s.channels c).qdepth d) :
    (popHead s c d).named = fun p =>
      if InEntry c d ((s.channels c).qhead d % chanQueueDepth) p then none else s.named p := by
  refine named_ext (fun pid ref => ?_) fun c' d' entry i hi => ?_
  · have hp : ¬InEntry c d ((s.channels c).qhead d % chanQueueDepth) (.slot pid ref) := by
      rintro ⟨i, -, h⟩
      cases h
    rw [if_neg hp]
    rfl
  have hin : InEntry c d ((s.channels c).qhead d % chanQueueDepth) (queuePlace c' d' entry i) ↔
      c' = c ∧ d' = d ∧ entry = (s.channels c).qhead d % chanQueueDepth := by
    constructor
    · rintro ⟨j, hj, h⟩
      obtain ⟨h1, h2, h3, -⟩ := (queuePlace_inj hi hj).1 h
      exact ⟨h1, h2, h3⟩
    · rintro ⟨rfl, rfl, rfl⟩
      exact ⟨i, hi, rfl⟩
  simp only [named_queuePlace hi, live_popHead hr hc hpos, hin]
  by_cases hp : c' = c ∧ d' = d ∧ entry = (s.channels c).qhead d % chanQueueDepth
  · simp [hp]
  · simp [hp]

end AeroSLS.Cap
