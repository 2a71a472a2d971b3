import AeroSLS.Consensus.Roster
import Mathlib.Algebra.GroupWithZero.Nat

namespace AeroSLS.Consensus

variable {ι : Type*} {peers : ι → List ℕ} {r : NodeRole} {p : Packet}

def clusterChannel : Channel where
  view n := ⟨n.state.currentTerm, n.state.role.toBallot, n.state.accumulatedVotes⟩
  request p :=
    if p.opcode = .requestVote then some (p.msg.candidateId, p.msg.term) else none
  grant p :=
    if p.opcode = .voteReply ∧ p.msg.voteGranted ≠ 0 then some (p.msg.candidateId, p.msg.term)
    else none
  fits n
    | .tick _ => n.state.role = .leader ∨ n.state.currentTerm + 1 < 2 ^ 32
    | .campaign _ => n.state.currentTerm + 1 < 2 ^ 32
    | _ => True

instance (n : Node) : (o : Op) → Decidable (clusterChannel.fits n o)
  | .tick _ => inferInstanceAs (Decidable (n.state.role = .leader ∨ _))
  | .campaign _ => inferInstanceAs (Decidable (n.state.currentTerm + 1 < 2 ^ 32))
  | .leaseTick _ _ | .leaseElection _ _ | .leaseStepDown _ | .owner _ | .drain => .isTrue trivial

instance (s : System ι) : (act : Action ι) → Decidable (clusterChannel.Fits s act)
  | .op i o => inferInstanceAs (Decidable (clusterChannel.fits (s.node i) o))
  | .deliver _ _ _ => .isTrue trivial

@[simp] lemma NodeRole.toBallot_eq_leader : r.toBallot = .leader ↔ r = .leader := by
  cases r <;> simp [NodeRole.toBallot]

@[simp] lemma NodeRole.toBallot_eq_candidate : r.toBallot = .candidate ↔ r = .candidate := by
  cases r <;> simp [NodeRole.toBallot]

lemma clusterChannel_quiet (h1 : p.opcode ≠ .requestVote)
    (h2 : p.opcode ≠ .voteReply) : clusterChannel.Quiet p := by
  simp [Channel.Quiet, clusterChannel, h1, h2]

lemma clusterChannel_quiet_of_lease (h : p.opcode.ofLease) : clusterChannel.Quiet p := by
  refine clusterChannel_quiet ?_ ?_ <;> intro he <;> simp [he, Opcode.ofLease] at h

lemma clusterChannel_view_of_state {n : Node} (h : n'.state = n.state) :
    clusterChannel.view n' = clusterChannel.view n := by
  simp [clusterChannel, h]

section Moves

variable (n : Node) (packet : Packet) (now : ℕ)

lemma triggerKernelElectionCampaign_frames :
    ∀ p ∈ (triggerKernelElectionCampaign n now).2, clusterChannel.grant p = none ∧
      ∀ r, clusterChannel.request p = some r →
        r = (n.state.nodeId, (n.state.currentTerm + 1) % 2 ^ 32) := by
  intro p hp
  obtain rfl := List.mem_singleton.mp hp
  simp [clusterChannel]

lemma lt_succ_mod_of_fits (h : t + 1 < 2 ^ 32) : t < (t + 1) % 2 ^ 32 := by
  rw [Nat.mod_eq_of_lt h]
  exact Nat.lt_succ_self t

lemma livenessBeat_quiet : ∀ p ∈ (livenessBeat n now).2, clusterChannel.Quiet p := by
  intro p hp
  unfold livenessBeat at hp
  split_ifs at hp
  · grind [clusterChannel_quiet]
  · cases hp

lemma livenessBeat_state : (livenessBeat n now).1.state =
    { n.state with lastLivenessSentTick := (livenessBeat n now).1.state.lastLivenessSentTick } := by
  unfold livenessBeat
  split_ifs <;> rfl

lemma checkConsensusHeartbeatTick_move :
    clusterChannel.Move (n.state.role = .leader ∨ n.state.currentTerm + 1 < 2 ^ 32) n
      (checkConsensusHeartbeatTick n now).1 none (checkConsensusHeartbeatTick n now).2 := by
  have hstate := livenessBeat_state n now
  have hview : clusterChannel.view (livenessBeat n now).1 = clusterChannel.view n := by
    simp only [clusterChannel]
    rw [hstate]
  unfold checkConsensusHeartbeatTick
  dsimp only
  split_ifs with hlead hrate htimeout
  · exact .idle rfl (by simp)
  · refine .idle rfl fun p hp => ?_
    obtain rfl := List.mem_singleton.mp hp
    exact clusterChannel_quiet nofun nofun
  · have hcur : (livenessBeat n now).1.state.currentTerm = n.state.currentTerm := by rw [hstate]
    have hid : (livenessBeat n now).1.state.nodeId = n.state.nodeId := by rw [hstate]
    refine .campaign _ rfl (fun hfits => lt_succ_mod_of_fits (hfits.resolve_left hlead)) ?_ ?_
    · simp [clusterChannel, triggerKernelElectionCampaign, hcur]
    intro p hp
    rcases List.mem_append.mp hp with hp | hp
    · have hq := livenessBeat_quiet n now p hp
      exact ⟨hq.2, fun r hr => by simp [hq.1] at hr⟩
    · have := triggerKernelElectionCampaign_frames _ now p hp
      rwa [hid, hcur] at this
  · exact .idle hview (livenessBeat_quiet n now)

lemma onHeartbeat_move :
    clusterChannel.Move True n (onHeartbeat n packet now) (some packet) [] := by
  unfold onHeartbeat
  dsimp only
  split_ifs with hstale hnewer hcand
  · exact .idle rfl (by simp)
  · exact .yield (le_of_lt hnewer) rfl (by simp)
  · exact .yield (le_refl _) rfl (by simp)
  · exact .idle rfl (by simp)

lemma onRequestVote_move (hop : packet.opcode = .requestVote) :
    clusterChannel.Move True n (onRequestVote n packet.msg now).1 (some packet)
      (onRequestVote n packet.msg now).2 := by
  unfold onRequestVote
  split_ifs with hnewer
  · exact .grant packet _ packet.msg.candidateId packet.msg.term rfl
      (by simp [clusterChannel, hop]) hnewer rfl rfl rfl (by simp [clusterChannel])
      (by simp [clusterChannel])
  · refine .idle rfl fun p hp => ?_
    obtain rfl := List.mem_singleton.mp hp
    simp [Channel.Quiet, clusterChannel]

lemma onVoteReply_move (hop : packet.opcode = .voteReply) (hcand : n.state.role = .candidate) :
    clusterChannel.Move True n (onVoteReply n packet.msg now) (some packet) [] := by
  unfold onVoteReply
  dsimp only
  split_ifs with hother hcount hquorum
  · exact .idle rfl (by simp)
  · refine .win packet rfl ?_ (by simp [clusterChannel, hcand]) rfl rfl hquorum (by simp)
    simp_all [clusterChannel]
  · refine .count packet rfl ?_ (by simp [clusterChannel, hcand]) rfl (by simp)
    simp_all [clusterChannel]
  · exact .idle rfl (by simp)

lemma processConsensusPacket_move :
    clusterChannel.Move True n (processConsensusPacket n packet now).1 (some packet)
      (processConsensusPacket n packet now).2 := by
  -- noting the sender does not show in the channel
  have hseen : ∀ {n' out}, clusterChannel.Move True (clusterNotePeerSeen n packet.nodeSourceId) n'
      (some packet) out → clusterChannel.Move True n n' (some packet) out := by
    intro n' out h
    have hs := clusterNotePeerSeen_state n packet.nodeSourceId
    exact h.of_start (clusterChannel_view_of_state hs) hs
  apply hseen
  unfold processConsensusPacket
  dsimp only
  cases hop : packet.opcode with
  | heartbeat => exact onHeartbeat_move _ packet now
  | requestVote => exact onRequestVote_move _ packet now hop
  | voteReply =>
    split_ifs with hcand
    · exact onVoteReply_move _ packet now hop hcand
    · exact .idle rfl (by simp)
  | _ => exact .idle rfl (by simp)

lemma clusterChannel_idle_of_lease (hstate : n'.state = n.state)
    (hout : ∀ p ∈ out, p.opcode.ofLease) :
    clusterChannel.Move fits n n' inp out :=
  .idle (clusterChannel_view_of_state hstate) fun p hp =>
    clusterChannel_quiet_of_lease (hout p hp)

end Moves

lemma clusterChannel_sound : clusterChannel.Sound where
  op n o := by
    cases o with
    | tick now => exact checkConsensusHeartbeatTick_move n now
    | campaign now =>
      exact .campaign _ rfl lt_succ_mod_of_fits rfl (triggerKernelElectionCampaign_frames n now)
    | leaseTick p now =>
      exact clusterChannel_idle_of_lease n (partitionLeaseHeartbeatTick_frame n p now).1
        fun q hq => (partitionLeaseHeartbeatTick_frames n p now q hq).1
    | leaseElection p now =>
      exact clusterChannel_idle_of_lease n (partitionLeaseTriggerElection_frame n p now).1
        fun q hq => (partitionLeaseTriggerElection_frames n p now q hq).1
    | leaseStepDown p =>
      exact clusterChannel_idle_of_lease n (partitionLeaseStepDown_frame n p).1 (by simp [Op.run])
    | owner => exact .idle rfl (by simp [Op.run])
    | drain =>
      refine .idle ?_ (by simp [Op.run])
      have h := clusterDrainDiscoveredPeers_election n
      simp only [Node.election, Prod.mk.injEq] at h
      simp [clusterChannel, Op.run, h]
  receive n p now := by
    unfold dsppRxDispatch
    split
    case h_1 | h_2 | h_3 | h_4 => exact processConsensusPacket_move n p now
    all_goals
      exact clusterChannel_idle_of_lease n (processPartitionConsensusPacket_frame n p now).1
        fun q hq => (processPartitionConsensusPacket_frames n p now q hq).1

lemma clusterChannel_fresh_boot : clusterChannel.Fresh m (System.boot m peers) := by
  have hboot : ∀ i, ((System.boot m peers).node i).election = (m.nodeId i, 0, .follower, 1, []) :=
    fun i => clusterBoot_election (m.nonzero i) (peers i)
  simp only [Node.election, Prod.mk.injEq] at hboot
  exact ⟨fun i => (hboot i).1,
    fun i => by simp [clusterChannel, (hboot i).2.2.1, NodeRole.toBallot],
    rfl⟩

section Safety

variable [Fintype ι] [DecidableEq ι] {m : Membership ι} {acts : List (Action ι)}

lemma Channel.Admits.of_complete {ch : Channel}
    (hroster : (System.boot m peers).Always (fun t _ => ∀ i, m.Complete i (t.node i)) acts)
    (hterms : (System.boot m peers).Always ch.Fits acts) :
    (System.boot m peers).Always (ch.Admits (Fintype.card ι / 2 + 1)) acts := by
  refine Machine.Always.imp (I := fun t => ∀ i, (t.node i).RosterInv)
    System.rosterInv_boot (fun t a ht _ => System.rosterInv_step ht) ?_
    (hroster.and hterms)
  intro t act ht ⟨hcomplete, hfits⟩
  refine ⟨hfits, fun k c now p v _ _ _ _ => ?_⟩
  rw [(ht c).threshold_of_complete (hcomplete c)]

def System.OneLeader (s : System ι) : Prop :=
  ∀ i j, i ≠ j → ¬((s.node i).state.role = .leader ∧ (s.node j).state.role = .leader ∧
    (s.node i).state.currentTerm = (s.node j).state.currentTerm)

lemma System.oneLeader_of_admits (h : (System.boot m peers).Always (clusterChannel.Admits Q) acts)
    (hQ : Fintype.card ι < 2 * max Q 2) : ((System.boot m peers).run acts).OneLeader := by
  rintro i j hij ⟨hi, hj, ht⟩
  exact hij (clusterChannel_sound.leader_unique clusterChannel_fresh_boot h hQ
    (by simp [clusterChannel, hi]) (by simp [clusterChannel, hj]) ht)

/-- With complete rosters that never change, no two nodes lead the same term. -/
theorem cluster_leader_unique (m : Membership ι) (peers : ι → List ℕ) (acts : List (Action ι))
    (hroster : (System.boot m peers).Always (fun t _ => ∀ i, m.Complete i (t.node i)) acts)
    (hterms : (System.boot m peers).Always clusterChannel.Fits acts) :
    ((System.boot m peers).run acts).OneLeader :=
  System.oneLeader_of_admits (Channel.Admits.of_complete hroster hterms) (by omega)

end Safety

scoped instance neZero_three : NeZero 3 := ⟨by decide⟩

/-- Three nodes that all know each other. -/
def trioPeers (i : Fin 3) : List ℕ := [1, 2, 3].erase (i + 1)

/-- Node 1 is elected by node 2's vote while node 3 campaigns in the same term. -/
def trioElection : List (Action (Fin 3)) :=
  [.op 0 (.campaign 200), .op 2 (.campaign 200), .deliver 0 1 201, .deliver 2 0 202,
    .deliver 1 1 202, .op 0 (.tick 203)]

theorem cluster_leader_unique_trio :
    (((System.boot (.numbered 3 (by decide)) trioPeers).run trioElection).node 0).state.role
        = .leader ∧
      ((System.boot (.numbered 3 (by decide)) trioPeers).run trioElection).OneLeader :=
  ⟨by decide, cluster_leader_unique _ trioPeers trioElection (by decide) (by decide)⟩

end AeroSLS.Consensus
