import Mathlib.Algebra.Group.Nat.Defs
import Mathlib.Data.Int.Notation
import Mathlib.Tactic.Common

namespace AeroSLS.Consensus

inductive NodeRole
  | follower
  | candidate
  | leader
  deriving DecidableEq, Repr

def electionTimeoutBaseTicks : ℕ := 150
def electionStaggerTicks : ℕ := 25
def leaderHeartbeatTicks : ℕ := 30
def livenessBeatTicks : ℕ := 60
def clusterNodeMax : ℕ := 8
def partitionLeaseMax : ℕ := 256

def ticksSince (now last : ℕ) : ℕ := (now + 2 ^ 64 - last) % 2 ^ 64

/-- The first heartbeat of a fresh leader is due on the next tick. -/
def beatDueAt (now : ℕ) : ℕ :=
  if leaderHeartbeatTicks ≤ now then now - leaderHeartbeatTicks else 0

def consensusElectionTimeout (nodeId : ℕ) : ℕ :=
  electionTimeoutBaseTicks + nodeId % clusterNodeMax * electionStaggerTicks

structure ClusterNode where
  nodeId : ℕ
  currentTerm : ℕ
  votedFor : ℕ
  role : NodeRole
  activeNodesCount : ℕ
  stableQuorumThreshold : ℕ
  lastHeartbeatTick : ℕ
  lastBeatSentTick : ℕ
  lastLivenessSentTick : ℕ
  accumulatedVotes : ℕ
  deriving DecidableEq, Repr

structure ClusterPeer where
  nodeId : ℕ
  active : Bool
  deriving DecidableEq, Repr

/-- An active row of `partition_lease_table`; rows are never deactivated. -/
structure PartitionLease where
  partitionId : ℕ
  term : ℕ
  votedFor : ℕ
  role : NodeRole
  lastHeartbeatTick : ℕ
  lastBeatSentTick : ℕ
  accumulatedVotes : ℕ
  deriving DecidableEq, Repr

structure Node where
  state : ClusterNode
  roster : List ClusterPeer
  leaderId : ℕ
  /-- Bit `id - 1` is set for a peer heard on the wire and not yet registered. -/
  pendingPeerMask : BitVec 64
  peersAutodiscovered : ℕ
  leases : List PartitionLease
  /-- The active rows of `partition_owner_table`: partition and owning node. -/
  owners : List (ℕ × ℕ)
  deriving DecidableEq, Repr

inductive Opcode
  | requestVote
  | voteReply
  | heartbeat
  | partitionRequestVote
  | partitionVoteReply
  | partitionHeartbeat
  | liveness
  deriving DecidableEq, Repr

structure ConsensusMessage where
  term : ℕ := 0
  candidateId : ℕ := 0
  lastLogIndex : ℕ := 0
  voteGranted : ℕ := 0
  partitionId : ℕ := 0
  deriving DecidableEq, Repr

/-- The header fields the consensus handlers read, and the message, which is empty for the bare
beats. -/
structure Packet where
  opcode : Opcode
  nodeSourceId : ℕ
  transactionId : ℕ := 0
  msg : ConsensusMessage := {}
  deriving DecidableEq, Repr

def clusterRecomputeQuorum (n : Node) : Node :=
  let active := 1 + n.roster.countP (·.active)
  { n with state :=
    { n.state with activeNodesCount := active, stableQuorumThreshold := active / 2 + 1 } }

/-- A node before `cluster_init`: the zeroed globals. -/
def Node.unset : Node where
  state := ⟨0, 0, 0, .follower, 0, 0, 0, 0, 0, 0⟩
  roster := []
  leaderId := 0
  pendingPeerMask := 0
  peersAutodiscovered := 0
  leases := []
  owners := []

def clusterInit (n : Node) (localNodeId : ℕ) : Node × ℕ :=
  if localNodeId = 0 then (n, 1)
  else
    (clusterRecomputeQuorum
      { n with
        state := { n.state with
          nodeId := localNodeId, currentTerm := 0, votedFor := 0, role := .follower,
          lastHeartbeatTick := 0, lastBeatSentTick := 0, lastLivenessSentTick := 0,
          accumulatedVotes := 1 }
        leaderId := 0
        roster := []
        pendingPeerMask := 0 }, 0)

def clusterRegisterPeer (n : Node) (nodeId : ℕ) : Node × ℤ :=
  if nodeId = 0 ∨ nodeId = n.state.nodeId then (n, -1)
  else match n.roster.findIdx? (·.nodeId = nodeId) with
    | some k =>
      if (n.roster.getD k ⟨0, false⟩).active then (n, 1)
      else (clusterRecomputeQuorum
        { n with roster := n.roster.modify k ({ · with active := true }) }, 2)
    | none =>
      if clusterNodeMax ≤ n.roster.length then (n, -2)
      else (clusterRecomputeQuorum { n with roster := n.roster ++ [⟨nodeId, true⟩] }, 0)

def clusterNotePeerSeen (n : Node) (nodeId : ℕ) : Node :=
  if nodeId = 0 ∨ 64 < nodeId then n
  else if nodeId = n.state.nodeId then n
  else { n with pendingPeerMask := n.pendingPeerMask ||| (1#64 <<< (nodeId - 1)) }

def drainBit (seen : BitVec 64) (acc : Node × ℕ) (bit : ℕ) : Node × ℕ :=
  if seen.getLsbD bit then
    let r := clusterRegisterPeer acc.1 (bit + 1)
    if r.2 = 0 ∨ r.2 = 2 then
      ({ r.1 with peersAutodiscovered := r.1.peersAutodiscovered + 1 }, acc.2 + 1)
    else (r.1, acc.2)
  else acc

def clusterDrainDiscoveredPeers (n : Node) : Node × ℕ :=
  if n.pendingPeerMask = 0 then (n, 0)
  else (List.range 64).foldl (drainBit n.pendingPeerMask) ({ n with pendingPeerMask := 0 }, 0)

def triggerKernelElectionCampaign (n : Node) (now : ℕ) : Node × List Packet :=
  let term := (n.state.currentTerm + 1) % 2 ^ 32
  ({ n with state := { n.state with
      role := .candidate, currentTerm := term, votedFor := n.state.nodeId,
      lastHeartbeatTick := now, accumulatedVotes := 1 } },
    [{ opcode := .requestVote, nodeSourceId := n.state.nodeId % 2 ^ 16, transactionId := term,
       msg := { term := term, candidateId := n.state.nodeId } }])

def livenessBeat (n : Node) (now : ℕ) : Node × List Packet :=
  if livenessBeatTicks ≤ ticksSince now n.state.lastLivenessSentTick then
    ({ n with state := { n.state with lastLivenessSentTick := now } },
      [{ opcode := .liveness, nodeSourceId := n.state.nodeId % 2 ^ 16,
         transactionId := n.state.currentTerm }])
  else (n, [])

def checkConsensusHeartbeatTick (n : Node) (now : ℕ) : Node × List Packet :=
  if n.state.role = .leader then
    if ticksSince now n.state.lastBeatSentTick < leaderHeartbeatTicks then (n, [])
    else
      ({ n with state := { n.state with lastBeatSentTick := now } },
        [{ opcode := .heartbeat, nodeSourceId := n.state.nodeId % 2 ^ 16,
           transactionId := n.state.currentTerm }])
  else
    let beat := livenessBeat n now
    if consensusElectionTimeout n.state.nodeId < ticksSince now n.state.lastHeartbeatTick then
      let camp := triggerKernelElectionCampaign beat.1 now
      (camp.1, beat.2 ++ camp.2)
    else beat

/-- The `HEARTBEAT` arm of `process_consensus_packet`. -/
def onHeartbeat (n : Node) (packet : Packet) (now : ℕ) : Node :=
  let hbTerm := packet.transactionId
  if hbTerm < n.state.currentTerm then n
  else
    let n := { n with
      leaderId := packet.nodeSourceId, state := { n.state with lastHeartbeatTick := now } }
    if n.state.currentTerm < hbTerm then
      { n with state := { n.state with currentTerm := hbTerm, role := .follower } }
    else if n.state.role = .candidate then
      { n with state := { n.state with role := .follower } }
    else n

/-- A vote is granted for a strictly newer term only, and the reply carries the term held
afterwards. -/
def onRequestVote (n : Node) (msg : ConsensusMessage) (now : ℕ) : Node × List Packet :=
  if n.state.currentTerm < msg.term then
    ({ n with state := { n.state with
        currentTerm := msg.term, role := .follower, votedFor := msg.candidateId,
        lastHeartbeatTick := now } },
      [{ opcode := .voteReply, nodeSourceId := n.state.nodeId % 2 ^ 16,
         msg := { term := msg.term, candidateId := msg.candidateId, voteGranted := 1 } }])
  else
    (n, [{ opcode := .voteReply, nodeSourceId := n.state.nodeId % 2 ^ 16,
           msg := { term := n.state.currentTerm, candidateId := msg.candidateId } }])

def onVoteReply (n : Node) (msg : ConsensusMessage) (now : ℕ) : Node :=
  if msg.candidateId ≠ n.state.nodeId then n
  else if msg.term = n.state.currentTerm ∧ msg.voteGranted ≠ 0 then
    let votes := (n.state.accumulatedVotes + 1) % 2 ^ 32
    if n.state.stableQuorumThreshold ≤ votes then
      { n with
        leaderId := n.state.nodeId
        state := { n.state with
          accumulatedVotes := votes, role := .leader, lastBeatSentTick := beatDueAt now } }
    else { n with state := { n.state with accumulatedVotes := votes } }
  else n

def processConsensusPacket (n : Node) (packet : Packet) (now : ℕ) : Node × List Packet :=
  let n := clusterNotePeerSeen n packet.nodeSourceId
  match packet.opcode with
  | .liveness => (n, [])
  | .heartbeat => (onHeartbeat n packet now, [])
  | .requestVote => onRequestVote n packet.msg now
  | .voteReply => if n.state.role = .candidate then (onVoteReply n packet.msg now, []) else (n, [])
  | _ => (n, [])

def findLeaseRow (n : Node) (partitionId : ℕ) : Option PartitionLease :=
  n.leases.find? (·.partitionId = partitionId)

/-- The write through the row pointer that `find_lease_row` returned. -/
def putLeaseRow (n : Node) (row : PartitionLease) : Node :=
  { n with leases := n.leases.map fun r => if r.partitionId = row.partitionId then row else r }

def freshLease (partitionId : ℕ) : PartitionLease where
  partitionId := partitionId
  term := 0
  votedFor := 0
  role := .follower
  lastHeartbeatTick := 0
  lastBeatSentTick := 0
  accumulatedVotes := 1

def partitionLeaseInit (n : Node) (partitionId : ℕ) : Node × ℕ :=
  match findLeaseRow n partitionId with
  | some _ => (putLeaseRow n (freshLease partitionId), 0)
  | none =>
    if n.leases.length < partitionLeaseMax then
      ({ n with leases := n.leases ++ [freshLease partitionId] }, 0)
    else (n, 1)

/-- Find the row, or create it; `none` when the table is full. -/
def findOrInitLeaseRow (n : Node) (partitionId : ℕ) : Option (Node × PartitionLease) :=
  match findLeaseRow n partitionId with
  | some row => some (n, row)
  | none =>
    let r := partitionLeaseInit n partitionId
    if r.2 ≠ 0 then none
    else (findLeaseRow r.1 partitionId).map fun row => (r.1, row)

def partitionHoldsWriteLease (n : Node) (partitionId : ℕ) : Bool :=
  match findLeaseRow n partitionId with
  | some row => row.role = .leader
  | none => false

def partitionLeaseGetTerm (n : Node) (partitionId : ℕ) : ℕ :=
  match findLeaseRow n partitionId with
  | some row => row.term
  | none => 0

def partitionLeaseTriggerElection (n : Node) (partitionId now : ℕ) : Node × List Packet :=
  match findOrInitLeaseRow n partitionId with
  | none => (n, [])
  | some (n, row) =>
    let term := (row.term + 1) % 2 ^ 32
    (putLeaseRow n { row with
        role := .candidate, term := term, votedFor := n.state.nodeId,
        accumulatedVotes := 1, lastHeartbeatTick := now },
      [{ opcode := .partitionRequestVote, nodeSourceId := n.state.nodeId % 2 ^ 16,
         transactionId := term,
         msg := { term := term, candidateId := n.state.nodeId, partitionId := partitionId } }])

def partitionLeaseStepDown (n : Node) (partitionId : ℕ) : Node × ℕ :=
  match findLeaseRow n partitionId with
  | none => (n, 1)
  | some row =>
    (putLeaseRow n { row with
      role := .follower, votedFor := 0, accumulatedVotes := 1,
      lastHeartbeatTick := 0, lastBeatSentTick := 0 }, 0)

def partitionGetOwnerNode (n : Node) (partitionId : ℕ) : ℕ :=
  match n.owners.find? (·.1 = partitionId) with
  | some row => row.2
  | none => 0

def partitionLeaseHeartbeatTick (n : Node) (partitionId now : ℕ) : Node × List Packet :=
  match findLeaseRow n partitionId with
  | none => (n, [])
  | some row =>
    let leaseOwner := partitionGetOwnerNode n partitionId
    -- the write lease follows ownership
    if leaseOwner ≠ 0 ∧ leaseOwner ≠ n.state.nodeId then
      if row.role = .leader then ((partitionLeaseStepDown n partitionId).1, []) else (n, [])
    else if row.role = .leader then
      if ticksSince now row.lastBeatSentTick < leaderHeartbeatTicks then (n, [])
      else
        (putLeaseRow n { row with lastBeatSentTick := now },
          [{ opcode := .partitionHeartbeat, nodeSourceId := n.state.nodeId % 2 ^ 16,
             transactionId := row.term,
             msg := { term := row.term, candidateId := n.state.nodeId,
                      partitionId := partitionId } }])
    else if consensusElectionTimeout n.state.nodeId < ticksSince now row.lastHeartbeatTick then
      partitionLeaseTriggerElection n partitionId now
    else (n, [])

def onPartitionHeartbeat (row : PartitionLease) (msg : ConsensusMessage) (now : ℕ) :
    PartitionLease :=
  if msg.term < row.term then row
  else if row.term < msg.term then
    { row with lastHeartbeatTick := now, term := msg.term, role := .follower }
  else if row.role = .candidate then { row with lastHeartbeatTick := now, role := .follower }
  else { row with lastHeartbeatTick := now }

def onPartitionRequestVote (nodeId : ℕ) (row : PartitionLease) (msg : ConsensusMessage)
    (now : ℕ) : PartitionLease × List Packet :=
  if row.term < msg.term then
    ({ row with
        term := msg.term, role := .follower, votedFor := msg.candidateId,
        lastHeartbeatTick := now },
      [{ opcode := .partitionVoteReply, nodeSourceId := nodeId % 2 ^ 16,
         msg := { term := msg.term, candidateId := msg.candidateId, voteGranted := 1,
                  partitionId := msg.partitionId } }])
  else
    (row, [{ opcode := .partitionVoteReply, nodeSourceId := nodeId % 2 ^ 16,
             msg := { term := row.term, candidateId := msg.candidateId,
                      partitionId := msg.partitionId } }])

/-- On the row of a candidate. Unlike the cluster-wide arm it resets the vote counter on
winning. -/
def onPartitionVoteReply (n : Node) (row : PartitionLease) (msg : ConsensusMessage) (now : ℕ) :
    PartitionLease :=
  if msg.candidateId ≠ n.state.nodeId then row
  else if msg.term = row.term ∧ msg.voteGranted ≠ 0 then
    let votes := (row.accumulatedVotes + 1) % 2 ^ 32
    if n.state.stableQuorumThreshold ≤ votes then
      { row with role := .leader, accumulatedVotes := 1, lastBeatSentTick := beatDueAt now }
    else { row with accumulatedVotes := votes }
  else row

def processPartitionConsensusPacket (n : Node) (packet : Packet) (now : ℕ) :
    Node × List Packet :=
  let n := clusterNotePeerSeen n packet.nodeSourceId
  match findOrInitLeaseRow n packet.msg.partitionId with
  | none => (n, [])
  | some (n, row) =>
    match packet.opcode with
    | .partitionHeartbeat => (putLeaseRow n (onPartitionHeartbeat row packet.msg now), [])
    | .partitionRequestVote =>
      let r := onPartitionRequestVote n.state.nodeId row packet.msg now
      (putLeaseRow n r.1, r.2)
    | .partitionVoteReply =>
      if row.role = .candidate then (putLeaseRow n (onPartitionVoteReply n row packet.msg now), [])
      else (n, [])
    | _ => (n, [])

def dsppRxDispatch (n : Node) (packet : Packet) (now : ℕ) : Node × List Packet :=
  match packet.opcode with
  | .heartbeat | .liveness | .requestVote | .voteReply => processConsensusPacket n packet now
  | .partitionRequestVote | .partitionVoteReply | .partitionHeartbeat =>
    processPartitionConsensusPacket n packet now

end AeroSLS.Consensus
