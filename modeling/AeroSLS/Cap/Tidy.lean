import AeroSLS.Cap.Places

namespace AeroSLS.Cap

open Function Register Chain State

/-- The object is alive and no revocation of it is under way. -/
def State.Tracked (s : State) (o : ℕ) : Prop :=
  (s.objects o).active = true ∧ (s.objects o).revoking = false

/-- The id is taken, and the object not yet in use. -/
def State.Reserved (s : State) (o : ℕ) : Prop :=
  o < s.objNext ∧ (s.objects o).active = false ∧ (s.objects o).revoking = false

def CapType.fits : CapType → ObjKind → Bool
  | .mem, .mem | .chanR, .chan | .chanW, .chan | .dev, .dev => true
  | _, _ => false

def State.Known (s : State) (w : CapWord) : Prop :=
  w.obj < s.objNext ∧ w.ty.fits (s.objects w.obj).kind = true

/-- Each word of a queued message is zero, stamped REVOKED or usable; the usable ones are among
the first `nCaps`, and only the first may be anything but memory. -/
def MsgOk (s : State) (m : ChanMsg) : Prop :=
  m.nCaps ≤ capMsgMaxCaps ∧ ∀ i < capMsgMaxCaps,
    ((m.caps i).word ≠ 0 → (m.caps i).word.state ≠ .revoked →
      (m.caps i).word.names = some (m.caps i).word.obj) ∧
    ∀ o, (m.caps i).word.names = some o →
      s.Known (m.caps i).word ∧ i < m.nCaps ∧ (0 < i → (m.caps i).word.ty = .mem)

/-- Every word names an object that was made for it. -/
structure Contents (s : State) : Prop where
  slots : ∀ ti < capTableMax, ∀ i < capTableEntries, ∀ o,
    ((s.tables ti).slots i).names = some o → s.Known ((s.tables ti).slots i)
  queues : ∀ c < capChanMax, ∀ d entry, s.Live c d entry → MsgOk s (s.msg c d entry)

/-- Ids are handed out in order and kept. -/
structure Objects (s : State) : Prop where
  next : s.objNext ≤ capObjectMax
  id : ∀ o < s.objNext, (s.objects o).id = o
  unborn : ∀ o, s.objNext ≤ o → (s.objects o).active = false

/-- The holder list of every live object registers the places that name it. -/
def Held (D : HolderKey → Prop) (s : State) : Prop :=
  ∀ o, s.Tracked o →
    Registers CapHolder.key D (s.objects o).holders (fun p => s.named p = some o) ∧
      (s.objects o).refcount = (s.objects o).holders.length

def queueKey (c entry i : ℕ) : HolderKey := .queue c (entry * capMsgMaxCaps + i)

def Stamped (D : HolderKey → Prop) (s : State) : Prop :=
  ∀ c < capChanMax, ∀ d entry, s.Live c d entry → ∀ i < capMsgMaxCaps, D (queueKey c entry i) →
    (s.word c d entry i).state = .revoked →
      (s.word c d entry i).obj < s.objNext ∧
        (s.objects (s.word c d entry i).obj).revoking = true

structure Tidy (D : HolderKey → Prop) (s : State) : Prop where
  tables : Tables s
  rings : Rings s
  contents : Contents s
  stamped : Stamped D s
  objects : Objects s
  held : Held D s

variable {s s' : State}

lemma fits_namesObject {ty : CapType} (h : ty.fits k) : ty.namesObject := by
  cases ty <;> cases k <;> simp_all [CapType.fits, CapType.namesObject]

/-- Up to the objects, the two states agree on all that `Tidy` reads. -/
structure Calm (s s' : State) : Prop where
  tablePid : s'.tablePid = s.tablePid
  objNext : s'.objNext = s.objNext
  tables : ∀ ti, (s'.tables ti).pid = (s.tables ti).pid ∧
    (s'.tables ti).freelistHead = (s.tables ti).freelistHead ∧
    (s'.tables ti).slots = (s.tables ti).slots
  rings : ∀ c, (s'.channels c).qhead = (s.channels c).qhead ∧
    (s'.channels c).qtail = (s.channels c).qtail ∧
    (s'.channels c).qdepth = (s.channels c).qdepth
  msgs : ∀ c d entry, (s'.msg c d entry).nCaps = (s.msg c d entry).nCaps ∧
    ∀ i, ((s'.msg c d entry).caps i).word = ((s.msg c d entry).caps i).word

lemma Calm.refl (s : State) : Calm s s :=
  ⟨rfl, rfl, fun _ => ⟨rfl, rfl, rfl⟩, fun _ => ⟨rfl, rfl, rfl⟩, fun _ _ _ => ⟨rfl, fun _ => rfl⟩⟩

section

variable (h : Calm s s')
include h

lemma Calm.trans (h' : Calm s' s'') : Calm s s'' where
  tablePid := h'.tablePid.trans h.tablePid
  objNext := h'.objNext.trans h.objNext
  tables ti := ⟨(h'.tables ti).1.trans (h.tables ti).1, (h'.tables ti).2.1.trans (h.tables ti).2.1,
      (h'.tables ti).2.2.trans (h.tables ti).2.2⟩
  rings c := ⟨(h'.rings c).1.trans (h.rings c).1, (h'.rings c).2.1.trans (h.rings c).2.1,
      (h'.rings c).2.2.trans (h.rings c).2.2⟩
  msgs c d entry := ⟨(h'.msgs c d entry).1.trans (h.msgs c d entry).1,
      fun i => ((h'.msgs c d entry).2 i).trans ((h.msgs c d entry).2 i)⟩

lemma Calm.sameWords : SameWords s s' :=
  ⟨h.tablePid, fun ti => (h.tables ti).2.2, fun c => (h.rings c).1, fun c => (h.rings c).2.2,
    fun c d entry i => (h.msgs c d entry).2 i⟩

lemma Calm.named : s'.named = s.named := h.sameWords.named

lemma Calm.live : s'.Live c d entry ↔ s.Live c d entry := h.sameWords.live

lemma Calm.owns : s'.Owns pid ti ↔ s.Owns pid ti := State.Owns.congr h.tablePid

lemma Tables.calm (ht : Tables s) : Tables s' where
  kernel := by rw [h.tablePid, ht.kernel]
  pid ti hti := by rw [(h.tables ti).1, h.tablePid, ht.pid ti hti]
  inj := by rw [h.tablePid]; exact ht.inj
  free ti hti := by
    rw [(h.tables ti).2.1, (h.tables ti).2.2]
    exact ht.free ti hti
  idle ti hti := by
    rw [h.tablePid, (h.tables ti).2.2]
    exact ht.idle ti hti

lemma Rings.calm (hr : Rings s) : Rings s' := by
  intro c hc d
  rw [(h.rings c).1, (h.rings c).2.1, (h.rings c).2.2]
  exact hr c hc d

end

section

variable (hnext : s.objNext ≤ s'.objNext)
  (hkind : ∀ o < s.objNext, (s'.objects o).kind = (s.objects o).kind)
include hnext hkind

lemma State.Known.mono (h : s.Known w) : s'.Known w := by
  refine ⟨h.1.trans_le hnext, ?_⟩
  rw [hkind _ h.1]
  exact h.2

lemma MsgOk.mono (h : MsgOk s m) : MsgOk s' m := by
  refine ⟨h.1, fun i hi => ⟨(h.2 i hi).1, fun o ho => ?_⟩⟩
  obtain ⟨hk, hrest⟩ := (h.2 i hi).2 o ho
  exact ⟨hk.mono hnext hkind, hrest⟩

end

lemma MsgOk.congr (hn : m'.nCaps = m.nCaps)
    (hw : ∀ i, (m'.caps i).word = (m.caps i).word) (h : MsgOk s m) : MsgOk s m' := by
  simpa only [MsgOk, hn, hw] using h

lemma Contents.calm (hw : Contents s) (h : Calm s s')
    (hkind : ∀ o < s.objNext, (s'.objects o).kind = (s.objects o).kind) : Contents s' where
  slots ti hti i hi o ho := by
    rw [(h.tables ti).2.2] at ho ⊢
    exact (hw.slots ti hti i hi o ho).mono h.objNext.ge hkind
  queues c hc d entry hl := by
    have hm := (hw.queues c hc d entry (h.live.1 hl)).mono h.objNext.ge hkind
    exact hm.congr (h.msgs c d entry).1 (h.msgs c d entry).2

lemma Stamped.mono (h : Stamped D s)
    (hl : ∀ c < capChanMax, ∀ d entry, s'.Live c d entry → ∀ i < capMsgMaxCaps,
      (s'.word c d entry i).state = .revoked →
        s.Live c d entry ∧ s'.word c d entry i = s.word c d entry i)
    (hnext : s.objNext ≤ s'.objNext)
    (hrev : ∀ o < s.objNext, (s.objects o).revoking → (s'.objects o).revoking) :
    Stamped D s' := by
  intro c hc d entry hlive i hi hD hst
  obtain ⟨hlive', hw⟩ := hl c hc d entry hlive i hi hst
  rw [hw] at hst ⊢
  obtain ⟨h1, h2⟩ := h c hc d entry hlive' i hi hD hst
  exact ⟨h1.trans_le hnext, hrev _ h1 h2⟩

lemma Stamped.calm (h : Stamped D s) (hcalm : Calm s s')
    (hrev : ∀ o < s.objNext, (s.objects o).revoking → (s'.objects o).revoking) :
    Stamped D s' :=
  h.mono (fun _ _ _ _ hl _ _ _ => ⟨hcalm.live.1 hl, hcalm.sameWords.word ..⟩) hcalm.objNext.ge hrev

lemma Contents.slot (h : Contents s) (hf : (f (s.tables ti)).slots = update (s.tables ti).slots i w)
    (hw : ∀ o, w.names = some o → s.Known w) : Contents (s.modTable ti f) where
  slots tj htj j hj o ho := by
    by_cases ht : tj = ti
    · subst ht
      simp only [modTable, update_self, hf] at ho ⊢
      by_cases hji : j = i
      · subst hji
        rw [update_self] at ho ⊢
        exact hw o ho
      · rw [update_of_ne hji] at ho ⊢
        exact h.slots tj htj j hj o ho
    · simp only [modTable, update_of_ne ht] at ho ⊢
      exact h.slots tj htj j hj o ho
  queues := h.queues

lemma Contents.modMsg (h : Contents s)
    (hf : s.Live c d entry → c < capChanMax → MsgOk s (f (s.msg c d entry))) :
    Contents (s.modMsg c d entry f) where
  slots := h.slots
  queues c' hc' d' entry' hl := by
    rw [live_modMsg] at hl
    rw [msg_modMsg]
    split_ifs with hp
    · obtain ⟨rfl, rfl, rfl⟩ := hp
      exact hf hl hc'
    · exact h.queues c' hc' d' entry' hl

lemma MsgOk.blank (h : MsgOk s m) {f : MsgCap → MsgCap}
    (hf : (f (m.caps i)).word = 0 ∨ (f (m.caps i)).word = capWordStampRevoked (m.caps i).word) :
    MsgOk s { m with caps := update m.caps i (f (m.caps i)) } := by
  refine ⟨h.1, fun j hj => ?_⟩
  by_cases hji : j = i
  · subst hji
    rcases hf with hf | hf
    · simp [hf]
    · simp [hf, capWordStampRevoked, CapWord.names, capWordValid]
  · simp only [update_of_ne hji]
    exact h.2 j hj

lemma MsgOk.fill (h : MsgOk s m)
    (hn : cap.word.names = some cap.word.obj) (hk : s.Known cap.word) (hi : i < m.nCaps)
    (hmem : 0 < i → cap.word.ty = .mem) : MsgOk s { m with caps := update m.caps i cap } := by
  refine ⟨h.1, fun j hj => ?_⟩
  by_cases hji : j = i
  · grind
  · simp only [update_of_ne hji]
    exact h.2 j hj

lemma Held.congr (h : Held D s) (hobj : s'.objects = s.objects) (hn : s'.named = s.named) :
    Held D s' := by
  intro o ho
  rw [hobj, hn]
  exact h o (by simpa only [State.Tracked, hobj] using ho)

lemma Held.erase (h : Held D s) (hobj : s'.objects = s.objects) (hn : ∀ p, s'.named p = s.named p ∨
      s'.named p = none ∧ (D p.key → ∀ o, s.named p = some o → ¬s.Tracked o)) : Held D s' := by
  intro o ho
  have ho' : s.Tracked o := by simpa only [State.Tracked, hobj] using ho
  obtain ⟨hreg, hcount⟩ := h o ho'
  rw [hobj]
  refine ⟨hreg.congr fun p hp => ?_, hcount⟩
  rcases hn p with hsame | ⟨hnone, hun⟩
  · rw [hsame]
  · grind

lemma Held.untrack (h : Held D s)
    (hf : ¬((f (s.objects o)).active ∧ (f (s.objects o)).revoking = false)) :
    Held D (s.modObject o f) := by
  intro o' ho'
  by_cases hoo : o' = o
  · subst hoo
    simp only [State.Tracked, modObject, update_self] at ho'
    exact absurd ho' hf
  have ho : s.Tracked o' := by simpa only [State.Tracked, modObject, update_of_ne hoo] using ho'
  simp only [modObject, update_of_ne hoo]
  exact h o' ho

lemma capHolderRemove_objects (hcount : (s.objects o).refcount = (s.objects o).holders.length) :
    (capHolderRemove s o k).objects = update s.objects o { s.objects o with
      holders := (s.objects o).holders.eraseP fun h => h.key == k
      refcount := ((s.objects o).holders.eraseP fun h => h.key == k).length } := by
  unfold capHolderRemove
  split_ifs with hany
  · grind [modObject]
  have hnone : ∀ h ∈ (s.objects o).holders, ¬(h.key == k) := by
    simpa only [List.any_eq_true, not_exists, not_and] using hany
  rw [List.eraseP_of_forall_not hnone, ← hcount]
  simp

lemma Held.relist (h : Held D s) (hobj : s'.objects = update s.objects o ob)
    (hreg : ob.active → ob.revoking = false →
      Registers CapHolder.key D ob.holders (fun p => s'.named p = some o) ∧
        ob.refcount = ob.holders.length) (hn : ∀ p o', o' ≠ o → D p.key → s.Tracked o' →
      (s'.named p = some o' ↔ s.named p = some o')) : Held D s' := by
  intro o' ho'
  by_cases hoo : o' = o
  · subst hoo
    simp only [State.Tracked, hobj, update_self] at ho' ⊢
    exact hreg ho'.1 ho'.2
  have ho : s.Tracked o' := by simpa only [State.Tracked, hobj, update_of_ne hoo] using ho'
  simp only [hobj, update_of_ne hoo]
  obtain ⟨hreg', hcount⟩ := h o' ho
  exact ⟨hreg'.congr fun p hp => hn p o' hoo hp ho, hcount⟩

def CapObject.dead (ob : CapObject) : CapObject :=
  { ob with active := false, revoking := true, holders := [], refcount := 0 }

end AeroSLS.Cap
