import AeroSLS.Cap.Moves
import Mathlib.Logic.Relation

namespace AeroSLS.Cap

open Function Register Chain

/-- What the changes of a chain may do; a condition on the calls is read here. -/
structure Rules where
  /-- The holder keys that are followed exactly. -/
  exact : HolderKey → Prop
  /-- The object may lose its last holder in this state. -/
  mayDie : State → ℕ → Prop
  /-- A revocation of the object may start. -/
  mayRevoke : ℕ → Prop
  /-- Words may be moved into the ring entry. -/
  mayFill : ℕ → Dir → ℕ → Prop

/-- The channel belongs to an object in use. -/
def State.Owned (s : State) (c : ℕ) : Prop :=
  ∃ o, (s.objects o).active = true ∧ (s.objects o).kind = .chan ∧ (s.objects o).chanId = c

structure SameWires (s s' : State) : Prop where
  chanNext : s'.chanNext = s.chanNext
  recycled : s'.recycled = s.recycled
  active : ∀ c, (s'.channels c).active = (s.channels c).active
  irqChan : s'.irqChan = s.irqChan
  irqBudget : s'.irqBudget = s.irqBudget

inductive Drop (env : Env) (R : Rules) : State → State → Prop
  /-- Nothing that an invariant reads changes. -/
  | aside {s s'} (hcalm : Calm s s') (hobj : s'.objects = s.objects) (hwire : SameWires s s') :
    Drop env R s s'
  /-- Vectors are unbound, or bound to a channel in use. -/
  | vectors {s} (f : ℕ → ℕ) (b : ℕ → ℕ)
    (hf : ∀ v, f v = s.irqChan v ∨ f v = capNone ∨ s.Owned (f v))
    (hb : ∀ v, b v = s.irqBudget v ∨ b v ≤ chanQueueDepth) :
    Drop env R s { s with irqChan := f, irqBudget := b }
  /-- A queued word and its holder go, and its object with the last holder. -/
  | queued {s} (c d entry i) (hc : c < capChanMax) (hl : s.Live c d entry)
    (hi : i < capMsgMaxCaps) (ho : s.Tracked (s.word c d entry i).obj)
    (hD : R.exact (queueKey c entry i) →
      (s.word c d entry i).names = some (s.word c d entry i).obj)
    (hdie : ((s.objects (s.word c d entry i).obj).without (queueKey c entry i)).active = false →
      R.mayDie s (s.word c d entry i).obj) :
    Drop env R s ((reapUnheld (capHolderRemove s (s.word c d entry i).obj (queueKey c entry i))
      (s.word c d entry i).obj).setWord c d entry i 0)
  /-- A spent queued word is zeroed or stamped. -/
  | word {s} (c d entry i) (w : CapWord) (hi : i < capMsgMaxCaps)
    (hw : w = 0 ∨ w = capWordStampRevoked (s.word c d entry i) ∧
      (R.exact (queueKey c entry i) → (s.word c d entry i).obj < s.objNext ∧
        (s.objects (s.word c d entry i).obj).revoking = true))
    (hD : s.Spent R.exact (queueKey c entry i) (s.word c d entry i)) :
    Drop env R s (s.setWord c d entry i w)
  /-- A slot's word and its holder go, and its object with the last holder. -/
  | slot {s} (pid ti i o) (hown : s.Owns pid ti) (hi : i < capTableEntries)
    (hw : ((s.tables ti).slots i).names = some o) (ho : s.Tracked o)
    (hdie : ((s.objects o).without (.slot pid i)).active = false → R.mayDie s o) :
    Drop env R s (capSlotPush (reapUnheld (capHolderRemove s o (.slot pid i)) o) ti i)
  /-- A slot with a spent word is freed. -/
  | clear {s} (pid ti i) (hown : s.Owns pid ti) (hi : i < capTableEntries)
    (hty : ((s.tables ti).slots i).ty ≠ .none)
    (hD : s.Spent R.exact (.slot pid i) ((s.tables ti).slots i)) :
    Drop env R s (capSlotPush s ti i)
  /-- A free slot is taken and put back. -/
  | refile {s s₁} (pid ti idx) (hown : s.Owns pid ti) (hpop : capSlotPop s ti = some (s₁, idx)) :
    Drop env R s (capSlotPush s₁ ti idx)
  /-- An entry that is not queued is overwritten. -/
  | scribble {s} (c d entry f) (hl : ¬s.Live c d entry) : Drop env R s (s.modMsg c d entry f)
  /-- A message whose words are spent is taken off, and its payload buffer freed. -/
  | head {s} (c d f) (hc : c < capChanMax) (hpos : 0 < (s.channels c).qdepth d)
    (hD : ∀ i < capMsgMaxCaps, s.Spent R.exact
      (queueKey c ((s.channels c).qhead d % chanQueueDepth) i)
      (s.word c d ((s.channels c).qhead d % chanQueueDepth) i)) :
    Drop env R s (dequeue s c d ((s.channels c).qhead d % chanQueueDepth) f)
  /-- The list of an object under revocation changes. -/
  | settle {s} (o holders refcount) (hr : (s.objects o).revoking = true) :
    Drop env R s (s.modObject o fun ob => { ob with holders, refcount })
  /-- An object under revocation dies, if nothing holds it. -/
  | reap {s} (o) (hact : (s.objects o).active = true) (hr : (s.objects o).revoking = true)
    (hdie : (s.objects o).refcount = 0 → R.mayDie s o) : Drop env R s (reapUnheld s o)
  /-- A table with nothing but spent words is given back. -/
  | unbind {s} (pid ti) (hown : s.Owns pid ti)
    (hD : ∀ i < capTableEntries, s.Spent R.exact (.slot pid i) ((s.tables ti).slots i)) :
    Drop env R s (unbindTable s ti)

/-- The payload of a new message: none, or a buffer from the pool. -/
def Staged (s s₁ : State) (idx : ℕ) : Prop :=
  ∃ bufs, idx = capNone ∧ s₁ = { s with payload := bufs } ∨
    ∃ s₀, capMsgPayloadAlloc s = some (s₀, idx) ∧ s₁ = { s₀ with payload := bufs }

inductive Shift (env : Env) (R : Rules) : State → State → Prop
  | drop {s s'} (h : Drop env R s s') : Shift env R s s'
  /-- A process takes an unbound table. -/
  | bind {s} (pid ti) (hti : ti < capTableMax) (h0 : ti ≠ 0) (hfree : s.tablePid ti = 0)
    (hpid : pid ≠ 0) (hnew : ∀ tj < capTableMax, s.tablePid tj ≠ pid) :
    Shift env R s (bindTable s ti pid)
  /-- From a slot to a queued message. -/
  | out {s} (pid ti slot c d entry i) (cap : MsgCap) (hpid : pid < 2 ^ 16) (hown : s.Owns pid ti)
    (hslot : slot < capTableEntries) (hw : (s.tables ti).slots slot = cap.word)
    (hname : cap.word.names = some cap.word.obj) (ho : s.Tracked cap.word.obj)
    (hc : c < capChanMax) (hl : s.Live c d entry) (hi : i < capMsgMaxCaps)
    (hzero : s.word c d entry i = 0) (hn : i < (s.msg c d entry).nCaps)
    (hmem : 0 < i → cap.word.ty = .mem) (howned : s.Owned c)
    (htwin : R.exact (queueKey c entry i) →
      s.named (queuePlace c (!d) entry i) ≠ some cap.word.obj) (hfill : R.mayFill c d entry) :
    Shift env R s (moveToQueue s ti pid slot c d entry i cap)
  /-- From a queued message to a free slot. -/
  | into {s s₁} (pid ti slot c d entry i) (hpid : pid < 2 ^ 16) (hown : s.Owns pid ti)
    (hpop : capSlotPop s ti = some (s₁, slot)) (hc : c < capChanMax) (hl : s.Live c d entry)
    (hi : i < capMsgMaxCaps)
    (hname : (s.word c d entry i).names = some (s.word c d entry i).obj)
    (ho : s.Tracked (s.word c d entry i).obj) :
    Shift env R s (moveToSlot s₁ ti pid slot c d entry i (s.word c d entry i))
  /-- A message without words is queued. -/
  | tail {s s₁} (c d idx) (f : ChanMsg → ChanMsg) (hc : c < capChanMax) (howned : s.Owned c)
    (hroom : (s.channels c).qdepth d < chanQueueDepth) (hstage : Staged s s₁ idx)
    (hzero : ∀ m, ∀ i < capMsgMaxCaps, ((f m).caps i).word = 0)
    (hn : ∀ m, (f m).nCaps ≤ capMsgMaxCaps) :
    Shift env R s
      (pushTail (s₁.modMsg c d ((s.channels c).qtail d % chanQueueDepth) f) c d)
  /-- The last message, which has no words, is taken back. -/
  | untail {s} (c d) (f : ChanMsg → ChanMsg) (hc : c < capChanMax)
    (hpos : 0 < (s.channels c).qdepth d)
    (hzero : ∀ i < capMsgMaxCaps,
      s.word c d (((s.channels c).qtail d - 1) % chanQueueDepth) i = 0) :
    Shift env R s
      (capMsgPayloadFree
        ((popTail s c d).modMsg c d (((s.channels c).qtail d - 1) % chanQueueDepth) f)
        (s.msg c d (((s.channels c).qtail d - 1) % chanQueueDepth)).payloadIdx)

/-- The ring of a channel holds nothing but spent words. -/
def State.Idle (s : State) (D : HolderKey → Prop) (c : ℕ) : Prop :=
  ∀ d entry, s.Live c d entry → ∀ i < capMsgMaxCaps,
    s.Spent D (queueKey c entry i) (s.word c d entry i)

inductive Change (env : Env) (R : Rules) : State → State → Prop
  | shift {s s'} (h : Shift env R s s') : Change env R s s'
  /-- A revocation starts. -/
  | revoking {s} (o) (ho : s.Tracked o) (hrevoke : R.mayRevoke o) :
    Change env R s (s.modObject o fun ob => { ob with revoking := true, holders := [] })
  /-- The next object id is taken. -/
  | reserve {s} (ob : CapObject) (hroom : s.objNext < capObjectMax) (hid : ob.id = s.objNext)
    (hact : ob.active = false) :
    Change env R s { s with objNext := s.objNext + 1, objects := update s.objects s.objNext ob }
  /-- A word that names nothing, or an object not yet in use, is put into a free slot. -/
  | install {s s₁} (pid ti idx) (w : CapWord) (hown : s.Owns pid ti)
    (hpop : capSlotPop s ti = some (s₁, idx)) (hty : w.ty ≠ .none)
    (hname : ∀ o, w.names = some o → s.Reserved o ∧ s.Known w) :
    Change env R s (s₁.setSlot ti idx w)
  /-- An object is put to use; its list registers the places that name it. -/
  | enlist {s} (o : ℕ) (ob : CapObject) (hres : s.Reserved o) (hid : ob.id = o)
    (hrev : ob.revoking = false) (hkind : ob.kind = (s.objects o).kind) (hchan : ob.kind ≠ .chan)
    (hfresh : ∀ c' ref d, s.named (.queue c' ref d) ≠ some o)
    (hreg : Registers CapHolder.key R.exact ob.holders fun p => s.named p = some o)
    (hcount : ob.refcount = ob.holders.length) (hheld : ob.holders ≠ []) :
    Change env R s (s.modObject o fun _ => ob)
  /-- A channel object is put to use, with an empty ring. -/
  | connect {s s₁} (o c : ℕ) (ob : CapObject) (p q : ℕ) (hres : s.Reserved o) (hid : ob.id = o)
    (hrev : ob.revoking = false) (hkind : ob.kind = (s.objects o).kind) (hchan : ob.kind = .chan)
    (htake : capChanIdTake s = some (s₁, c)) (hc : ob.chanId = c) (hidle : s.Idle R.exact c)
    (hfresh : ∀ c' ref d, s.named (.queue c' ref d) ≠ some o)
    (hreg : Registers CapHolder.key R.exact ob.holders fun p => s.named p = some o)
    (hcount : ob.refcount = ob.holders.length) (hheld : ob.holders ≠ []) :
    Change env R s ((s₁.modChannel c fun ch => ch.reset p q).modObject o fun _ => ob)
  /-- A channel id is taken and put back, its ring empty. -/
  | cycle {s s₁} (c p q : ℕ) (b : Bool) (htake : capChanIdTake s = some (s₁, c))
    (hidle : s.Idle R.exact c) :
    Change env R s ((capChanIdPut s₁ c).modChannel c fun ch => { ch.reset p q with active := b })
  /-- A channel id is taken and lost. -/
  | lose {s s₁} (c p q : ℕ) (htake : capChanIdTake s = some (s₁, c))
    (hidle : s.Idle R.exact c) :
    Change env R s (s₁.modChannel c fun ch => { ch.reset p q with active := false })
  /-- An object is given up before it was in use. -/
  | abort {s} (o : ℕ) (f : CapObject → CapObject) (hres : s.Reserved o)
    (hid : (f (s.objects o)).id = o) (hkind : (f (s.objects o)).kind = (s.objects o).kind)
    (hact : (f (s.objects o)).active = false) : Change env R s (s.modObject o f)
  /-- A word that names nothing is replaced by another such word. -/
  | restamp {s} (pid ti i) (w : CapWord) (hown : s.Owns pid ti) (hi : i < capTableEntries)
    (hty : ((s.tables ti).slots i).ty ≠ .none) (hname : ((s.tables ti).slots i).names = none)
    (hty' : w.ty ≠ .none) (hname' : w.names = none) : Change env R s (s.setSlot ti i w)

/-- Chains of changes. -/
abbrev Drops (env : Env) (R : Rules) : State → State → Prop := Relation.ReflTransGen (Drop env R)
abbrev Shifts (env : Env) (R : Rules) : State → State → Prop := Relation.ReflTransGen (Shift env R)
abbrev Changes (env : Env) (R : Rules) : State → State → Prop :=
  Relation.ReflTransGen (Change env R)

lemma Drops.shifts (h : Drops env R s s') : Shifts env R s s' :=
  Relation.ReflTransGen.mono (fun _ _ => Shift.drop) _ _ h

lemma Shifts.changes (h : Shifts env R s s') : Changes env R s s' :=
  Relation.ReflTransGen.mono (fun _ _ => Change.shift) _ _ h

lemma Drops.changes (h : Drops env R s s') : Changes env R s s' := h.shifts.changes

lemma dequeue_eq : dequeue s c d entry f =
    capMsgPayloadFree ((popHead s c d).modMsg c d entry fun m =>
      { f m with payloadLen := 0, payloadIdx := capNone }) (s.msg c d entry).payloadIdx := by
  have hcomm : ∀ s, (s.modMsg c d entry fun m =>
      { f m with payloadLen := 0, payloadIdx := capNone }).modChannel c (fun ch => { ch with
        qhead := update ch.qhead d (ch.qhead d + 1)
        qdepth := update ch.qdepth d (ch.qdepth d - 1) }) =
      (popHead s c d).modMsg c d entry fun m =>
        { f m with payloadLen := 0, payloadIdx := capNone } := by
    simp [State.modMsg, State.modChannel, popHead]
  simp only [dequeue, hcomm, capMsgPayloadFree]
  split_ifs <;> rfl

lemma capMsgPayloadFree_objects : (capMsgPayloadFree s idx).objects = s.objects := by
  unfold capMsgPayloadFree
  split_ifs <;> rfl

lemma Staged.calm (h : Staged s s1 idx) :
    Calm s s1 ∧ s1.objects = s.objects ∧ s1.channels = s.channels := by
  obtain ⟨bufs, ⟨-, rfl⟩ | ⟨s0, halloc, rfl⟩⟩ := h
  · exact ⟨calm_of_eq rfl rfl rfl rfl, rfl, rfl⟩
  simp only [capMsgPayloadAlloc] at halloc
  split_ifs at halloc
  cases halloc
  exact ⟨calm_of_eq rfl rfl rfl rfl, rfl, rfl⟩

lemma capChanIdTake_calm (h : capChanIdTake s = some (s1, c)) :
    Calm s s1 ∧ s1.objects = s.objects ∧ s1.channels = s.channels := by
  unfold capChanIdTake at h
  split at h
  · cases h
    exact ⟨calm_of_eq rfl rfl rfl rfl, rfl, rfl⟩
  · split_ifs at h
    cases h
    exact ⟨calm_of_eq rfl rfl rfl rfl, rfl, rfl⟩

lemma capChanIdPut_objects : (capChanIdPut s c).objects = s.objects := by
  unfold capChanIdPut
  split_ifs <;> rfl

lemma Tidy.dequeue (h : Tidy D s) (hc : c < capChanMax) (hpos : 0 < (s.channels c).qdepth d)
    (hD : ∀ i < capMsgMaxCaps, s.Spent D (queueKey c ((s.channels c).qhead d % chanQueueDepth) i)
      (s.word c d ((s.channels c).qhead d % chanQueueDepth) i)) :
    Tidy D (dequeue s c d ((s.channels c).qhead d % chanQueueDepth) f) := by
  rw [dequeue_eq]
  have hhead := h.head hc hpos hD
  refine Tidy.aside (hhead.scribble fun hl => ?_) calm_capMsgPayloadFree capMsgPayloadFree_objects
  exact ((live_popHead h.rings hc hpos).1 hl).2 ⟨rfl, rfl, rfl⟩

lemma Tidy.reap (h : Tidy D s) (hr : (s.objects o).revoking) : Tidy D (reapUnheld s o) := by
  have hobj : (reapUnheld s o).objects = update s.objects o
    (if (s.objects o).refcount = 0 then (s.objects o).dead else s.objects o) := reapUnheld_objects
  generalize hob : (if (s.objects o).refcount = 0 then (s.objects o).dead else s.objects o) = ob
    at hobj
  have hsame : ob.id = (s.objects o).id ∧ ob.kind = (s.objects o).kind ∧ ob.revoking ∧
      (ob.active → (s.objects o).active) := by
    rw [← hob]
    split_ifs
    · exact ⟨rfl, rfl, rfl, fun h => by cases h⟩
    · exact ⟨rfl, rfl, hr, id⟩
  obtain ⟨hid, hkind, hrev, hact⟩ := hsame
  refine h.remade calm_reapUnheld hobj hid hkind hact (fun _ => hrev)
    (h.held.relist hobj (fun _ hrev' => ?_) fun p o' _ _ _ => by rw [calm_reapUnheld.named])
  rw [hrev] at hrev'
  cases hrev'

lemma Drop.tidy (hd : Drop env R s s') (h : Tidy R.exact s) : Tidy R.exact s' := by
  cases hd with
  | aside hcalm hobj => exact h.aside hcalm hobj
  | vectors => exact h.aside (calm_of_eq rfl rfl rfl rfl) rfl
  | queued c d entry i hc hl hi ho hD => exact h.queued hc hl hi ho hD
  | word c d entry i w hi hw hD => exact h.word hi hw hD
  | slot pid ti i o hown hi hw ho => exact h.slot hown hi hw ho
  | clear pid ti i hown hi hty hD => exact h.clear hown hi hty hD
  | refile pid ti idx hown hpop => exact h.refile hown hpop
  | scribble c d entry f hl => exact h.scribble hl
  | head c d f hc hpos hD => exact h.dequeue hc hpos hD
  | settle o holders refcount hr =>
    exact h.remade (calm_modObject _) rfl rfl rfl id id (h.held.untrack (by simp [hr]))
  | reap o hact hr => exact h.reap hr
  | unbind pid ti hown hD => exact h.unbind hown hD

lemma Tidy.post (h : Tidy D s)
    (hc : c < capChanMax) (hroom : (s.channels c).qdepth d < chanQueueDepth)
    (hstage : Staged s s1 idx) (hzero : ∀ m, ∀ i < capMsgMaxCaps, ((f m).caps i).word = 0)
    (hn : ∀ m, (f m).nCaps ≤ capMsgMaxCaps) :
    Tidy D (pushTail (s1.modMsg c d ((s.channels c).qtail d % chanQueueDepth) f) c d) := by
  have htidy : Tidy D s1 := h.aside hstage.calm.1 hstage.calm.2.1
  rw [← hstage.calm.2.2] at hroom ⊢
  have hcur : ∀ e, ((s1.modMsg c d e f).channels c).qtail = (s1.channels c).qtail ∧
      ((s1.modMsg c d e f).channels c).qdepth = (s1.channels c).qdepth := by
    simp [State.modMsg, State.modChannel]
  refine (htidy.scribble (not_live_tail htidy.rings hc hroom)).tail hc ?_ ?_ ?_
  · rwa [(hcur _).2]
  · grind [State.word, msg_modMsg]
  · rw [(hcur _).1]
    simpa [msg_modMsg] using hn _

lemma Tidy.unpost (h : Tidy D s) (hc : c < capChanMax) (hpos : 0 < (s.channels c).qdepth d)
    (hzero : ∀ i < capMsgMaxCaps,
      s.word c d (((s.channels c).qtail d - 1) % chanQueueDepth) i = 0) : Tidy D (capMsgPayloadFree
      ((popTail s c d).modMsg c d (((s.channels c).qtail d - 1) % chanQueueDepth) f) idx) := by
  refine Tidy.aside ((h.untail hc hpos hzero).scribble fun hl => ?_) calm_capMsgPayloadFree
    capMsgPayloadFree_objects
  exact ((live_popTail h.rings hc hpos).1 hl).2 ⟨rfl, rfl, rfl⟩

lemma Shift.tidy (hs : Shift env R s s') (h : Tidy R.exact s) : Tidy R.exact s' := by
  cases hs with
  | drop hd => exact hd.tidy h
  | bind pid ti hti h0 hfree hpid hnew => exact h.bind h0 hpid hnew hti hfree
  | out pid ti slot c d entry i cap hpid hown hslot hw hname ho hc hl hi hzero hn hmem _ htwin =>
    exact h.out hpid hown hslot hw hname ho hc hl hi hzero hn hmem htwin
  | into pid ti slot c d entry i hpid hown hpop hc hl hi hname ho =>
    exact h.into hpid hown hpop hc hl hi hname ho
  | tail c d idx f hc _ hroom hstage hzero hn => exact h.post hc hroom hstage hzero hn
  | untail c d f hc hpos hzero => exact h.unpost hc hpos hzero

lemma Tidy.renew (h : Tidy D s) {p q : ℕ} {f : CapChannel → CapChannel}
    (hf : ∀ ch, ∃ b, f ch = { ch.reset p q with active := b })
    (hcalm : Calm s s1) (hobj : s1.objects = s.objects) (hchan : s1.channels = s.channels)
    (hidle : s.Idle D c) : Tidy D (s1.modChannel c f) := by
  have hidle1 : s1.Idle D c := by
    simpa only [State.Idle, State.Live, State.Spent, State.word, State.msg, State.Tracked, hchan,
      hobj] using hidle
  refine ((h.aside hcalm hobj).reset (p := p) (q := q) hidle1).aside ?_ rfl
  obtain ⟨b, hb⟩ := hf (s1.channels c)
  have heq : s1.modChannel c f =
      (s1.modChannel c fun ch => ch.reset p q).modChannel c fun ch => { ch with active := b } := by
    simp [State.modChannel, hb]
  rw [heq]
  exact calm_modChannel fun _ => ⟨rfl, rfl, rfl, rfl⟩

lemma Change.tidy (hs : Change env R s s') (h : Tidy R.exact s) : Tidy R.exact s' := by
  cases hs with
  | shift hs => exact hs.tidy h
  | revoking =>
    exact h.remade (calm_modObject _) rfl rfl rfl id (fun _ => rfl) (h.held.untrack (by simp))
  | reserve ob hroom hid hact => exact h.reserve hroom hid hact
  | install pid ti idx w hown hpop hty hname => exact h.install hown hpop hty hname
  | enlist o ob hres hid hrev hkind hchan hfresh hreg hcount =>
    exact h.enlist hres hid hkind hreg hcount
  | connect o c ob p q hres hid hrev hkind hchan htake hc hidle hfresh hreg hcount =>
    obtain ⟨hcalm, hobj, hch⟩ := capChanIdTake_calm htake
    have hnew := h.renew (f := fun ch => ch.reset p q) (fun _ => ⟨true, rfl⟩)
      hcalm hobj hch hidle
    refine hnew.enlist ?_ hid ?_ ?_ hcount
    · exact ⟨hcalm.objNext ▸ hres.1, hobj ▸ hres.2⟩
    · exact hobj ▸ hkind
    · refine hreg.congr fun r _ => ?_
      cases r with
      | slot pid ref =>
        have hsame := congrFun hcalm.named (.slot pid ref)
        exact Iff.of_eq (congrArg (· = some o) hsame)
      | queue c' ref d =>
        refine iff_of_false (fun hr => ?_) (hfresh c' ref d)
        obtain ⟨entry, i, hp, hi, hc', hl, hw⟩ := exists_of_named_queue hr
        rw [live_reset] at hl
        apply hfresh c' ref d
        rw [hp, ← hcalm.named, named_queuePlace hi, if_pos ⟨hc', hl.2⟩]
        simpa only [State.word, msg_reset] using hw
  | cycle c p q b htake hidle =>
    obtain ⟨hcalm, hobj, hch⟩ := capChanIdTake_calm htake
    refine h.renew (fun _ => ⟨b, rfl⟩) (hcalm.trans calm_capChanIdPut)
      (capChanIdPut_objects.trans hobj) ?_ hidle
    unfold capChanIdPut
    split_ifs <;> exact hch
  | lose c p q htake hidle =>
    obtain ⟨hcalm, hobj, hch⟩ := capChanIdTake_calm htake
    exact h.renew (fun _ => ⟨false, rfl⟩) hcalm hobj hch hidle
  | abort o f hres hid hkind hact => exact h.abort hres hid hkind hact
  | restamp pid ti i w hown hi hty hname hty' hname' =>
    exact h.restamp hown hi hty hname hty' hname'

end AeroSLS.Cap
