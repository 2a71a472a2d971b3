import AeroSLS.Ipc.Queue

namespace AeroSLS.Ipc

open Function Machine

def procMax : ℕ := 16

def partitionDefault : ℕ := 0

structure Process where
  pid : ℕ
  partitionId : ℕ

/-- A queued message, with the sender's partition and whether the port had an owner when it was
sent. -/
structure Posted where
  msg : IpcMessage
  partition : ℕ
  bound : Bool

/-- A user port: its owner, 0 if it is unbound, the partition recorded with the binding, and
the queue. -/
structure UserPort where
  pid : ℕ
  partition : ℕ
  queue : List Posted

structure State where
  procs : List Process
  nextPid : ℕ
  /-- The queues of the kernel services. -/
  services : ℕ → List IpcMessage
  ports : ℕ → UserPort
  /-- What was received, each message with the partition of its receiver. -/
  deliveries : List (Posted × ℕ)

variable (s : State)

def pidToPartition (pid : ℕ) : ℕ :=
  match s.procs.find? fun pd => pd.pid == pid with
  | some pd => pd.partitionId
  | none => partitionDefault

def isUserPort (port : ℕ) : Bool := 0x2000 ≤ port && port ≤ 0x200F

def State.modPort (port : ℕ) (f : UserPort → UserPort) : State :=
  { s with ports := update s.ports port (f (s.ports port)) }

def ipcUserBind (port pid : ℕ) : State × ℤ :=
  if isUserPort port = false then (s, -1)
  else if (s.ports port).pid ≠ 0 ∧ (s.ports port).pid ≠ pid then (s, -2)
  else (s.modPort port fun p => { p with pid := pid, partition := pidToPartition s pid }, 0)

/-- The port has an owner, and the caller is not of its partition. -/
def denied (port pid : ℕ) : Prop :=
  (s.ports port).pid ≠ 0 ∧ (s.ports port).partition ≠ pidToPartition s pid

instance (port pid : ℕ) : Decidable (denied s port pid) := inferInstanceAs (Decidable (_ ∧ _))

def ipcUserSend (dstPort opcode : ℕ) (payload : List ℕ) (srcPid : ℕ) : State × ℤ :=
  let msg : IpcMessage := ⟨srcPid % 2 ^ 16, dstPort, opcode, payload, 0, 0⟩
  if 0x1001 ≤ dstPort ∧ dstPort ≤ 0x1007 then
    if (s.services dstPort).length ≥ ipcQueueDepth then (s, -2)
    else ({ s with services := update s.services dstPort (s.services dstPort ++ [msg]) }, 0)
  else if isUserPort dstPort then
    if denied s dstPort srcPid then (s, -1)
    else if (s.ports dstPort).queue.length ≥ ipcQueueDepth then (s, -2)
    else
      let posted := ⟨msg, pidToPartition s srcPid, (s.ports dstPort).pid ≠ 0⟩
      (s.modPort dstPort fun p => { p with queue := p.queue ++ [posted] }, 0)
  else (s, -1)

def ipcUserRecv (port callerPid : ℕ) : State × Option IpcMessage :=
  if isUserPort port = false then (s, none)
  else if denied s port callerPid then (s, none)
  else match (s.ports port).queue with
    | [] => (s, none)
    | posted :: rest =>
      ({ s.modPort port (fun p => { p with queue := rest }) with
        deliveries := s.deliveries ++ [(posted, pidToPartition s callerPid)] }, some posted.msg)

inductive Action
  | spawn (partition : ℕ)
  | exit (pid : ℕ)
  | bind (port pid : ℕ)
  | send (dstPort opcode : ℕ) (payload : List ℕ) (srcPid : ℕ)
  | recv (port callerPid : ℕ)

def State.act : Action → State
  | .spawn part =>
    if s.procs.length ≥ procMax then s
    else { s with procs := ⟨s.nextPid, part⟩ :: s.procs, nextPid := s.nextPid + 1 }
  | .exit pid => { s with procs := s.procs.filter fun pd => pd.pid ≠ pid }
  | .bind port pid => (ipcUserBind s port pid).1
  | .send dst op payload pid => (ipcUserSend s dst op payload pid).1
  | .recv port pid => (ipcUserRecv s port pid).1

def boot : State := ⟨[], 100, fun _ => [], fun _ => ⟨0, 0, []⟩, []⟩

/-- Who binds a port is a process of `proc_table`, or nobody (0) if none is running. -/
def State.Trusted : Action → Prop
  | .bind _ pid => pid = 0 ∨ ∃ pd ∈ s.procs, pd.pid = pid
  | _ => True

instance (a : Action) : Decidable (s.Trusted a) := by
  cases a <;> unfold State.Trusted <;> infer_instance

/-- Process ids are handed out once, the partition of a port is that of its owner, and what was
posted to an owned port came from there. -/
structure State.Apart : Prop where
  next : 0 < s.nextPid
  pids : ∀ pd ∈ s.procs, 0 < pd.pid ∧ pd.pid < s.nextPid
  once : ∀ pd ∈ s.procs, ∀ pd' ∈ s.procs, pd.pid = pd'.pid → pd = pd'
  owner : ∀ port, (s.ports port).pid < s.nextPid ∧
    ∀ pd ∈ s.procs, pd.pid = (s.ports port).pid → pd.partitionId = (s.ports port).partition
  queued : ∀ port, ∀ m ∈ (s.ports port).queue, m.bound = true →
    (s.ports port).pid ≠ 0 ∧ m.partition = (s.ports port).partition
  delivered : ∀ d ∈ s.deliveries, d.1.bound = true → d.1.partition = d.2

variable {s} {a : Action}

lemma State.Apart.pidToPartition_eq (h : s.Apart) (hpd : pd ∈ s.procs) :
    pidToPartition s pd.pid = pd.partitionId := by
  unfold pidToPartition
  cases hfind : s.procs.find? (fun x => x.pid == pd.pid) with
  | none =>
    have hne := List.find?_eq_none.mp hfind pd hpd
    simp at hne
  | some x =>
    have hpid : x.pid = pd.pid := by simpa using List.find?_some hfind
    rw [h.once x (List.mem_of_find?_eq_some hfind) pd hpd hpid]

/-- What has to be kept when one port changes. -/
lemma State.Apart.modPort (h : s.Apart) (port : ℕ) (f : UserPort → UserPort)
    (hown : (f (s.ports port)).pid < s.nextPid ∧ ∀ pd ∈ s.procs,
      pd.pid = (f (s.ports port)).pid → pd.partitionId = (f (s.ports port)).partition)
    (hqueue : ∀ m ∈ (f (s.ports port)).queue, m.bound = true →
      (f (s.ports port)).pid ≠ 0 ∧ m.partition = (f (s.ports port)).partition) :
    (s.modPort port f).Apart where
  next := h.next
  pids := h.pids
  once := h.once
  owner p := by
    by_cases hp : p = port
    · subst hp
      simpa only [State.modPort, update_self] using hown
    · simpa only [State.modPort, update_of_ne hp] using h.owner p
  queued p m hm := by
    by_cases hp : p = port
    · subst hp
      simp only [State.modPort, update_self] at hm ⊢
      exact hqueue m hm
    · simp only [State.modPort, update_of_ne hp] at hm ⊢
      exact h.queued p m hm
  delivered := h.delivered

lemma State.Apart.bind (h : s.Apart) (ht : pid = 0 ∨ ∃ pd ∈ s.procs, pd.pid = pid) :
    (ipcUserBind s port pid).1.Apart := by
  unfold ipcUserBind
  split_ifs with huser howner
  · exact h
  · exact h
  · dsimp only
    refine h.modPort port _ ?_ fun m hm hbound => ?_
    · rcases ht with rfl | ⟨pd, hpd, rfl⟩
      · exact ⟨h.next, fun pd hpd hzero => absurd hzero (Nat.ne_of_gt (h.pids pd hpd).1)⟩
      · refine ⟨(h.pids pd hpd).2, fun pd' hpd' hpid => ?_⟩
        rw [h.once pd' hpd' pd hpd hpid]
        exact (h.pidToPartition_eq hpd).symm
    · -- a message posted to an owned port: the same process binds it again
      obtain ⟨hpid, hpart⟩ := h.queued port m hm hbound
      have hsame : (s.ports port).pid = pid := by
        by_contra hne
        exact howner ⟨hpid, hne⟩
      rcases ht with rfl | ⟨pd, hpd, rfl⟩
      · exact absurd hsame hpid
      · refine ⟨hsame ▸ hpid, ?_⟩
        rw [hpart, h.pidToPartition_eq hpd, (h.owner port).2 pd hpd hsame.symm]

lemma State.Apart.send (h : s.Apart) : (ipcUserSend s dst op payload pid).1.Apart := by
  unfold ipcUserSend
  split_ifs with hservice hfull huser hdenied hroom
  · exact h
  · exact ⟨h.next, h.pids, h.once, h.owner, h.queued, h.delivered⟩
  · exact h
  · exact h
  · dsimp only
    refine h.modPort dst _ (h.owner dst) fun m hm hbound => ?_
    rcases List.mem_append.mp hm with hold | hnew
    · exact h.queued dst m hold hbound
    · obtain rfl := List.mem_singleton.mp hnew
      have hpid : (s.ports dst).pid ≠ 0 := by simpa using hbound
      refine ⟨hpid, ?_⟩
      by_contra hne
      exact hdenied ⟨hpid, fun heq => hne heq.symm⟩
  · exact h

lemma State.Apart.recv (h : s.Apart) : (ipcUserRecv s port pid).1.Apart := by
  unfold ipcUserRecv
  split_ifs with huser hdenied
  · exact h
  · exact h
  · split
    · exact h
    · rename_i posted rest hqueue
      have hmem := hqueue ▸ h.queued port
      have hrest := h.modPort port (fun p => { p with queue := rest }) (h.owner port)
        fun m hm => hmem m (List.mem_cons_of_mem _ hm)
      refine ⟨hrest.next, hrest.pids, hrest.once, hrest.owner, hrest.queued, fun d hd hbound => ?_⟩
      rcases List.mem_append.mp hd with hold | hnew
      · exact h.delivered d hold hbound
      · obtain rfl := List.mem_singleton.mp hnew
        obtain ⟨hpid, hpart⟩ := hmem posted (List.mem_cons_self ..) hbound
        by_contra hne
        exact hdenied ⟨hpid, fun heq => hne (hpart.trans heq)⟩

lemma State.Apart.act (h : s.Apart) (ht : s.Trusted a) : (s.act a).Apart := by
  cases a with
  | spawn part =>
    unfold State.act
    split_ifs
    · exact h
    · have hnew : ∀ pd ∈ s.procs, pd.pid ≠ s.nextPid := fun pd hpd => Nat.ne_of_lt (h.pids pd hpd).2
      refine ⟨Nat.succ_pos _, ?_, ?_, fun port => ⟨Nat.lt_succ_of_lt (h.owner port).1, ?_⟩,
        h.queued,
        h.delivered⟩
      · rintro pd (_ | ⟨_, hpd⟩)
        · exact ⟨h.next, Nat.lt_succ_self _⟩
        · exact ⟨(h.pids pd hpd).1, Nat.lt_succ_of_lt (h.pids pd hpd).2⟩
      · rintro pd (_ | ⟨_, hpd⟩) pd' (_ | ⟨_, hpd'⟩) hpid
        · rfl
        · exact absurd hpid.symm (hnew pd' hpd')
        · exact absurd hpid (hnew pd hpd)
        · exact h.once pd hpd pd' hpd' hpid
      · rintro pd (_ | ⟨_, hpd⟩) hpid
        · exact absurd hpid (Nat.ne_of_gt (h.owner port).1)
        · exact (h.owner port).2 pd hpd hpid
  | exit pid =>
    have hsub : ∀ pd ∈ (s.act (.exit pid)).procs, pd ∈ s.procs := fun pd hpd =>
      (List.mem_filter.mp hpd).1
    exact ⟨h.next, fun pd hpd => h.pids pd (hsub pd hpd),
      fun pd hpd pd' hpd' => h.once pd (hsub pd hpd) pd' (hsub pd' hpd'),
      fun port => ⟨(h.owner port).1, fun pd hpd => (h.owner port).2 pd (hsub pd hpd)⟩,
      h.queued, h.delivered⟩
  | bind => exact h.bind ht
  | send => exact h.send
  | recv => exact h.recv

end AeroSLS.Ipc
