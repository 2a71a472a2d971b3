import AeroSLS.Cap.Chan
import AeroSLS.Cap.Connecting
import AeroSLS.Cap.Teardown

namespace AeroSLS.Cap

open Bytes Function

inductive Call
  | createMem (pid physBase npages perm : ℕ)
  | arenaAlloc (pid npages perm : ℕ)
  | chanCreate (pid farPid : ℕ)
  | mintIrq (pid vector rights : ℕ)
  | mintIo (pid physBase sizeBytes rights : ℕ)
  | mintDev (pid physBase sizeBytes rights : ℕ)
  | trampolineCreate (pid : ℕ)
  | irqBind (pid slot budget : ℕ)
  | irqNotify (vector : ℕ)
  | send (pid chW capIdx cookie : ℕ)
  | recv (pid chR : ℕ)
  | sendMsg (pid chW : ℕ) (payload : Option Buf) (payloadLen : ℕ) (descs : List SLSCapDesc)
    (tag flags : ℕ)
  | recvMsg (pid chR bufLen maxCaps : ℕ)
  | chanSend (pid chan tag flags : ℕ) (payload : Option Buf) (payloadLen : ℕ)
    (caps : List SLSCapDesc)
  | chanRecv (pid chan bufLen nSlots : ℕ)
  | chanClose (pid chan reason detail : ℕ)
  | arenaFree (pid capIdx : ℕ)
  | revoke (pid capIdx : ℕ)
  | teardown (pid : ℕ)
  | map (pid capIdx vaddr flags : ℕ) (archFails : ℕ → Bool)
  | unmap (pid capIdx vaddr : ℕ)

def step (env : Env) (s : State) : Call → State
  | .createMem pid physBase npages perm => (capCreateMem env s pid physBase npages perm).1
  | .arenaAlloc pid npages perm => (capArenaAlloc s pid npages perm).1
  | .chanCreate pid farPid => (capChanCreate s pid farPid).1
  | .mintIrq pid vector rights => (mintIrq s pid vector rights).1
  | .mintIo pid physBase sizeBytes rights => (mintIo s pid physBase sizeBytes rights).1
  | .mintDev pid physBase sizeBytes rights => (mintDev s pid physBase sizeBytes rights).1
  | .trampolineCreate pid => (capTrampolineCreate s pid).1
  | .irqBind pid slot budget => (kIrqBind s pid slot budget).1
  | .irqNotify vector => capIrqNotifyLocked s vector
  | .send pid chW capIdx cookie => (capSend s pid chW capIdx cookie).1
  | .recv pid chR => (capRecv s pid chR).1
  | .sendMsg pid chW payload payloadLen descs tag flags =>
    (capSendMsg s pid chW payload payloadLen descs tag flags).1
  | .recvMsg pid chR bufLen maxCaps => (capRecvMsg env s pid chR bufLen maxCaps).1
  | .chanSend pid chan tag flags payload payloadLen caps =>
    (kChanSend s pid chan tag flags payload payloadLen caps).1
  | .chanRecv pid chan bufLen nSlots => (kChanRecv env s pid chan bufLen nSlots).1
  | .chanClose pid chan reason detail => (kChanClose s pid chan reason detail).1
  | .arenaFree pid capIdx => (capArenaFree s pid capIdx).1
  | .revoke pid capIdx => (capRevoke env s pid capIdx).1
  | .teardown pid => capTableTeardown env s pid
  | .map pid capIdx vaddr flags archFails => (capMap env s pid capIdx vaddr flags archFails).1
  | .unmap pid capIdx vaddr => (capUnmap env s pid capIdx vaddr).1

/-- An environment in which every process has page tables of its own. -/
def sampleEnv : Env where
  procCr3 pid := pid + 1
  kernelImageEnd := 0x200000
  distinct _ _ _ h := Nat.succ.inj h

lemma tables_capInit : Tables (capInit base) where
  kernel := rfl
  pid _ _ := rfl
  inj _ _ _ _ _ h := absurd rfl h
  free _ _ := freshSlots_free
  idle _ _ _ _ _ _ := rfl

lemma not_live_capInit : ¬(capInit base).Live c d entry := by
  simp [State.Live, capInit, zeroChannel]

lemma inactive_capInit (hact : ((capInit base).objects o).active) : False := by
  cases hact

lemma ready_capInit : Ready R (capInit base) where
  tidy :=
    { tables := tables_capInit
      rings := fun _ _ _ => ⟨Nat.zero_le _, rfl⟩
      contents := ⟨fun _ _ _ _ _ h => (by cases h), fun _ _ _ _ h => absurd h not_live_capInit⟩
      stamped := fun _ _ _ _ h => absurd h not_live_capInit
      objects := ⟨Nat.zero_le _, fun _ h => absurd h (Nat.not_lt_zero _), fun _ _ => rfl⟩
      held := fun _ h => (inactive_capInit h.1).elim }
  settled _ _ h := (inactive_capInit h).elim
  kept _ h := (inactive_capInit h.1).elim
  wires :=
    { next := Nat.zero_le _
      nodup := List.nodup_nil
      lt := fun _ h => by cases h
      own := fun _ h => (inactive_capInit h).elim
      inj := fun _ _ h => (inactive_capInit h).elim
      bound := fun _ h => absurd rfl h
      budget := fun _ => Nat.zero_le _ }

lemma quiet_capInit : Quiet E (capInit base) := by
  rintro c - - o ⟨⟨hact, -⟩, -⟩
  cases hact

/-- A message with the words of these slots may be sent. -/
structure SendAllowed (R : Rules) (s : State) (pid chW : ℕ) (slots : List ℕ) : Prop where
  lt : pid < 2 ^ 16
  inside : ∀ slot ∈ slots, slot < capTableEntries
  distinct : slots.Nodup
  twin : R.Exact → NoTwin s pid chW slots
  fill : R.MaySend s

def Call.Allowed (env : Env) (R : Rules) (s : State) : Call → Prop
  | .createMem pid _ _ _ | .arenaAlloc pid _ _ | .mintDev pid _ _ _ | .irqBind pid _ _ =>
    pid < 2 ^ 16
  | .chanCreate pid farPid => pid < 2 ^ 16 ∧ farPid < 2 ^ 16
  | .send pid chW capIdx _ => pid < 2 ^ 16 ∧ chW < capTableEntries ∧
    (capIdx = capNone ∨ capIdx < capTableEntries) ∧ R.MaySend s ∧
    (capIdx ≠ capNone → (capWordValid (s.slotWord pid capIdx) →
        (s.slotWord pid capIdx).names = some (s.slotWord pid capIdx).obj) ∧
      (R.Exact → NoTwin s pid chW [capIdx]))
  | .recv pid chR => pid < 2 ^ 16 ∧ chR < capTableEntries ∧ HeadIntact s pid chR ∧
    TailMayDie env R s pid chR 1
  | .sendMsg pid chW _ _ descs _ _ => chW < capTableEntries ∧
    SendAllowed R s pid chW (descs.map SLSCapDesc.slot)
  | .recvMsg pid chR _ maxCaps => pid < 2 ^ 16 ∧ chR < capTableEntries ∧
    TailMayDie env R s pid chR maxCaps
  | .chanSend pid chan _ _ _ _ caps => SendAllowed R s pid chan (caps.map SLSCapDesc.slot)
  | .chanRecv pid chan _ nSlots => pid < 2 ^ 16 ∧ TailMayDie env R s pid chan (nSlots % 2 ^ 16)
  | .arenaFree pid capIdx => pid < 2 ^ 16 ∧ capIdx < capTableEntries ∧
    ∀ o, s.named (.slot pid capIdx) = some o → (s.objects o).kind = .mem →
      ((s.objects o).without (.slot pid capIdx)).active = false → R.mayDie s o
  | .revoke pid capIdx => capIdx < capTableEntries ∧
    (s.Tracked (s.slotWord pid capIdx).obj → R.mayRevoke (s.slotWord pid capIdx).obj ∧
      ∀ s₁, Drops env R (s.mark (s.slotWord pid capIdx).obj) s₁ →
        R.mayDie s₁ (s.slotWord pid capIdx).obj)
  | .teardown pid => pid < 2 ^ 16 ∧ ∀ ti, s.Owns pid ti → MayTear env R s pid ti
  | .map _ capIdx _ _ _ => capIdx < capTableEntries
  | .mintIrq .. | .mintIo .. | .trampolineCreate .. | .irqNotify .. | .chanClose .. | .unmap .. =>
    True

lemma chanResolve_lt {want : Option CapType}
    (h : chanResolve s pid slot want = .ok r) : slot < capTableEntries := by
  unfold chanResolve at h
  split at h
  · cases h
  · grind

lemma kChanSend_shifts (h : Ready R s) (ha : SendAllowed R s pid chan (caps.map SLSCapDesc.slot)) :
    Shifts env R s (kChanSend s pid chan tag flags payload payloadLen caps).1 := by
  refine guard_chain fun _ => guard_chain fun _ => guard_chain fun _ => guard_chain fun _ => ?_
  split
  · exact .refl
  rename_i c d hres
  refine guard_chain fun _ => ?_
  have hlt : chan < capTableEntries := by
    unfold chanSendResolve at hres
    split at hres
    · exact chanResolve_lt hres
    · exact chanResolve_lt hres
  have hsend : ∀ tflags, Shifts env R s
      (capSendMsg s pid chan payload payloadLen caps tag tflags).1 := fun tflags =>
    capSendMsg_shifts h ha.lt hlt (fun desc hd => ha.inside _ (List.mem_map_of_mem hd)) ha.distinct
      ha.twin ha.fill
  generalize (if flags &&& chFNoReply ≠ 0 then 1 else 0) = tflags
  have hs := hsend tflags
  dsimp only
  split
  all_goals
    rename_i heq
    rwa [heq] at hs

lemma kChanRecv_shifts (h : Ready R s) (hpid : pid < 2 ^ 16)
    (hdie : TailMayDie env R s pid chan (nSlots % 2 ^ 16)) :
    Shifts env R s (kChanRecv env s pid chan bufLen nSlots).1 := by
  unfold kChanRecv
  split
  · exact .refl
  rename_i c d hres
  dsimp only
  split
  · split
    · split
      · exact .refl
      dsimp only
      refine .single (.drop (modChannel_drop (fun ch => ?_) fun ch => ?_))
      · exact ⟨rfl, rfl, rfl, rfl⟩
      · rfl
    · exact .refl
  · refine guard_chain fun _ => ?_
    have hrecv : Shifts env R s (capRecvMsg env s pid chan bufLen (nSlots % 2 ^ 16)).1 :=
      capRecvMsg_shifts h hpid (chanResolve_lt hres) hdie
    split
    all_goals
      rename_i heq
      rwa [heq] at hrecv

lemma kChanClose_shifts : Shifts env R s (kChanClose s pid chan reason detail).1 := by
  unfold kChanClose
  split
  · exact .refl
  refine guard_chain fun _ => ?_
  dsimp only
  refine .single (.drop (modChannel_drop (fun ch => ?_) fun ch => ?_))
  · exact ⟨rfl, rfl, rfl, rfl⟩
  · rfl

lemma ready_of_changes (h : Ready R s)
    (hc : ∀ R' : Rules, R'.exact = R.exact → Ready R' s → Changes env R' s s') :
    Changes env R s s' ∧ Ready R s' := by
  refine ⟨hc R rfl h, ?_⟩
  have h' : Ready { R with mayRevoke := fun _ => False } s := ⟨h.tidy, h.settled, h.kept, h.wires⟩
  have hr := Changes.ready (hc { R with mayRevoke := fun _ => False } rfl h')
    (fun _ ho => ho) h'
  exact ⟨hr.tidy, hr.settled, hr.kept, hr.wires⟩

lemma ready_of_shifts (h : Ready R s) (hs : Shifts env R s s') :
    Changes env R s s' ∧ Ready R s' := ⟨hs.changes, hs.ready h⟩

/-- The calls that move words from one place to another. -/
def Call.isTransfer : Call → Bool
  | .send .. | .recv .. | .sendMsg .. | .recvMsg .. | .chanSend .. | .chanRecv .. => true
  | _ => false

lemma transfer_shifts (h : Ready R s) (hc : call.isTransfer)
    (ha : call.Allowed env R s) : Shifts env R s (step env s call) := by
  cases call with
  | send =>
    obtain ⟨hpid, hchW, hidx, hfill, hsend⟩ := ha
    exact capSend_shifts h hpid hchW hidx (fun hne => (hsend hne).1)
      (fun hx hne => (hsend hne).2 hx) hfill
  | recv => exact capRecv_shifts h ha.1 ha.2.1 ha.2.2.1 ha.2.2.2
  | sendMsg =>
    exact capSendMsg_shifts h ha.2.lt ha.1 (fun desc hd => ha.2.inside _ (List.mem_map_of_mem hd))
      ha.2.distinct ha.2.twin ha.2.fill
  | recvMsg => exact capRecvMsg_shifts h ha.1 ha.2.1 ha.2.2
  | chanSend => exact kChanSend_shifts h ha
  | chanRecv => exact kChanRecv_shifts h ha.1 ha.2
  | _ => cases hc

theorem step_changes (h : Ready R s) (hR : R.Slots)
    (hquiet : R.Exact → Quiet (fun _ => False) s) (ha : call.Allowed env R s) :
    Changes env R s (step env s call) ∧ Ready R (step env s call) := by
  cases call with
  | createMem => exact ready_of_changes h fun R' _ h' => capCreateMem_changes h' ha
  | arenaAlloc => exact ready_of_changes h fun R' _ h' => capArenaAlloc_changes h' ha
  | chanCreate =>
    refine ready_of_changes h fun R' he h' =>
      capChanCreate_changes h' (fun hx => hquiet ?_) ha.1 ha.2
    rwa [Rules.Exact, he] at hx
  | mintIrq => exact ready_of_changes h fun R' _ h' => mintIrq_changes h'
  | mintIo => exact ready_of_changes h fun R' _ h' => mintIo_changes h'
  | mintDev => exact ready_of_changes h fun R' _ h' => mintDev_changes h' ha
  | trampolineCreate => exact ready_of_changes h fun R' _ h' => capTrampolineCreate_changes h'
  | irqBind =>
    refine ready_of_changes h fun R' he h' => kIrqBind_changes h' (fun hx => hquiet ?_) ha
    rwa [Rules.Exact, he] at hx
  | irqNotify => exact ready_of_shifts h (capIrqNotifyLocked_shifts h)
  | send | recv | sendMsg | recvMsg | chanSend | chanRecv =>
    exact ready_of_shifts h (transfer_shifts h rfl ha)
  | chanClose => exact ready_of_shifts h kChanClose_shifts
  | arenaFree => exact ready_of_shifts h (capArenaFree_shifts h ha.1 ha.2.1 ha.2.2)
  | revoke => exact capRevoke_changes h hR ha.1 ha.2
  | teardown pid =>
    cases hfind : capTableFind s pid with
    | none =>
      simp only [step, capTableTeardown, hfind]
      exact ⟨.refl, h⟩
    | some ti =>
      exact ready_of_shifts h (capTableTeardown_spec _ h hR ha.1 hfind (ha.2 ti hfind)).drops.shifts
  | map => exact ready_of_shifts h (capMap_shifts h ha)
  | unmap => exact ready_of_shifts h (capUnmap_shifts h)

end AeroSLS.Cap
