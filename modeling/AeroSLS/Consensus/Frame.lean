import AeroSLS.Consensus.Node

namespace AeroSLS.Consensus

variable (n : Node) (nodeId partitionId : ℕ) (packet : Packet) (now : ℕ) (row : PartitionLease)

@[simp] lemma clusterNotePeerSeen_state : (clusterNotePeerSeen n nodeId).state = n.state := by
  unfold clusterNotePeerSeen
  split_ifs <;> rfl

@[simp] lemma clusterNotePeerSeen_roster : (clusterNotePeerSeen n nodeId).roster = n.roster := by
  unfold clusterNotePeerSeen
  split_ifs <;> rfl

@[simp] lemma clusterNotePeerSeen_leases : (clusterNotePeerSeen n nodeId).leases = n.leases := by
  unfold clusterNotePeerSeen
  split_ifs <;> rfl

lemma findOrInitLeaseRow_cases {n : Node} {partitionId : ℕ} {row : PartitionLease}
    (h : findOrInitLeaseRow n partitionId = some (n', row)) :
    (findLeaseRow n partitionId = some row ∧ n' = n) ∨
      (findLeaseRow n partitionId = none ∧ row = freshLease partitionId ∧
        n' = { n with leases := n.leases ++ [freshLease partitionId] }) := by
  cases hf : findLeaseRow n partitionId with
  | some r => grind [findOrInitLeaseRow]
  | none =>
    have happ : findLeaseRow { n with leases := n.leases ++ [freshLease partitionId] } partitionId
        = some (freshLease partitionId) := by
      unfold findLeaseRow at hf ⊢
      simp [hf, freshLease]
    by_cases hroom : n.leases.length < partitionLeaseMax
    · grind [findOrInitLeaseRow, partitionLeaseInit]
    · simp [findOrInitLeaseRow, partitionLeaseInit, hf, hroom] at h

lemma findOrInitLeaseRow_state {n : Node} {partitionId : ℕ} {row : PartitionLease}
    (h : findOrInitLeaseRow n partitionId = some (n', row)) :
    n'.state = n.state ∧ n'.roster = n.roster := by
  rcases findOrInitLeaseRow_cases h with ⟨-, rfl⟩ | ⟨-, -, rfl⟩ <;> exact ⟨rfl, rfl⟩

lemma partitionLeaseTriggerElection_frame :
    (partitionLeaseTriggerElection n partitionId now).1.state = n.state ∧
      (partitionLeaseTriggerElection n partitionId now).1.roster = n.roster := by
  unfold partitionLeaseTriggerElection
  split
  · exact ⟨rfl, rfl⟩
  · next n' row h =>
    have hn := findOrInitLeaseRow_state h
    exact ⟨hn.1, hn.2⟩

lemma partitionLeaseStepDown_frame : (partitionLeaseStepDown n partitionId).1.state = n.state ∧
      (partitionLeaseStepDown n partitionId).1.roster = n.roster := by
  unfold partitionLeaseStepDown
  split <;> exact ⟨rfl, rfl⟩

lemma partitionLeaseHeartbeatTick_frame :
    (partitionLeaseHeartbeatTick n partitionId now).1.state = n.state ∧
      (partitionLeaseHeartbeatTick n partitionId now).1.roster = n.roster := by
  unfold partitionLeaseHeartbeatTick
  split
  · exact ⟨rfl, rfl⟩
  dsimp only
  split_ifs
  · exact partitionLeaseStepDown_frame n partitionId
  · exact ⟨rfl, rfl⟩
  · exact ⟨rfl, rfl⟩
  · exact ⟨rfl, rfl⟩
  · exact partitionLeaseTriggerElection_frame n partitionId now
  · exact ⟨rfl, rfl⟩

lemma processPartitionConsensusPacket_frame :
    (processPartitionConsensusPacket n packet now).1.state = n.state ∧
      (processPartitionConsensusPacket n packet now).1.roster = n.roster := by
  unfold processPartitionConsensusPacket
  dsimp only
  split
  · simp
  next h =>
  have hn := findOrInitLeaseRow_state h
  simp only [clusterNotePeerSeen_state, clusterNotePeerSeen_roster] at hn
  split
  · exact hn
  · exact hn
  · split_ifs <;> exact hn
  · exact hn

def Opcode.ofLease : Opcode → Bool
  | .partitionRequestVote | .partitionVoteReply | .partitionHeartbeat => true
  | _ => false

lemma partitionLeaseTriggerElection_frames :
    ∀ p ∈ (partitionLeaseTriggerElection n partitionId now).2,
      p.opcode.ofLease ∧ p.msg.partitionId = partitionId := by
  intro p hp
  unfold partitionLeaseTriggerElection at hp
  split at hp
  · cases hp
  · obtain rfl := List.mem_singleton.mp hp
    exact ⟨rfl, rfl⟩

lemma partitionLeaseHeartbeatTick_frames : ∀ p ∈ (partitionLeaseHeartbeatTick n partitionId now).2,
      p.opcode.ofLease ∧ p.msg.partitionId = partitionId := by
  intro p hp
  unfold partitionLeaseHeartbeatTick at hp
  split at hp
  · cases hp
  dsimp only at hp
  split_ifs at hp
  · cases hp
  · cases hp
  · cases hp
  · obtain rfl := List.mem_singleton.mp hp
    exact ⟨rfl, rfl⟩
  · exact partitionLeaseTriggerElection_frames n partitionId now p hp
  · cases hp

lemma processPartitionConsensusPacket_frames :
    ∀ p ∈ (processPartitionConsensusPacket n packet now).2,
      p.opcode.ofLease ∧ p.msg.partitionId = packet.msg.partitionId := by
  intro p hp
  unfold processPartitionConsensusPacket onPartitionRequestVote at hp
  dsimp only at hp
  split at hp
  · cases hp
  split at hp
  · cases hp
  · split_ifs at hp
    all_goals
      obtain rfl := List.mem_singleton.mp hp
      exact ⟨rfl, rfl⟩
  · split_ifs at hp <;> cases hp
  · cases hp

lemma checkConsensusHeartbeatTick_frames :
    ∀ p ∈ (checkConsensusHeartbeatTick n now).2, p.opcode.ofLease = false := by
  unfold checkConsensusHeartbeatTick livenessBeat triggerKernelElectionCampaign
  split_ifs <;> simp [Opcode.ofLease]

lemma processConsensusPacket_frames :
    ∀ p ∈ (processConsensusPacket n packet now).2, p.opcode.ofLease = false := by
  unfold processConsensusPacket onRequestVote
  dsimp only
  split
  · simp
  · simp
  · split_ifs <;> simp [Opcode.ofLease]
  · split_ifs <;> simp
  · simp

/-- What the cluster-wide election never writes. -/
def Node.fixedPart (n : Node) : ℕ × ℕ × List ClusterPeer × List PartitionLease :=
  (n.state.nodeId, n.state.stableQuorumThreshold, n.roster, n.leases)

@[simp] lemma clusterNotePeerSeen_fixedPart :
    (clusterNotePeerSeen n nodeId).fixedPart = n.fixedPart := by
  simp [Node.fixedPart]

lemma checkConsensusHeartbeatTick_fixedPart :
    (checkConsensusHeartbeatTick n now).1.fixedPart = n.fixedPart := by
  unfold checkConsensusHeartbeatTick livenessBeat triggerKernelElectionCampaign
  split_ifs <;> rfl

lemma processConsensusPacket_fixedPart :
    (processConsensusPacket n packet now).1.fixedPart = n.fixedPart := by
  rw [← clusterNotePeerSeen_fixedPart n packet.nodeSourceId]
  unfold processConsensusPacket onHeartbeat onRequestVote onVoteReply
  dsimp only
  split
  · rfl
  · split_ifs <;> rfl
  · split_ifs <;> rfl
  · split_ifs <;> rfl
  · rfl

/-- What a roster change leaves alone: the id, the election and the leases. -/
def Node.election (n : Node) : ℕ × ℕ × NodeRole × ℕ × List PartitionLease :=
  (n.state.nodeId, n.state.currentTerm, n.state.role, n.state.accumulatedVotes, n.leases)

lemma clusterRegisterPeer_election : (clusterRegisterPeer n nodeId).1.election = n.election := by
  unfold clusterRegisterPeer
  split
  · rfl
  · split <;> split <;> rfl

/-- The rule for the drain loop: what every registration keeps, the drain keeps. -/
theorem clusterDrainDiscoveredPeers_induction {P : Node → Prop} {n : Node} (h0 : P n)
    (hmask : ∀ n mask, P n → P { n with pendingPeerMask := mask })
    (hcount : ∀ n k, P n → P { n with peersAutodiscovered := k })
    (hreg : ∀ n id, P n → P (clusterRegisterPeer n id).1) :
    P (clusterDrainDiscoveredPeers n).1 := by
  have hbit : ∀ seen acc bit, P acc.1 → P (drainBit seen acc bit).1 := by
    intro seen acc bit hacc
    unfold drainBit
    dsimp only
    split_ifs
    · exact hcount _ _ (hreg _ _ hacc)
    · exact hreg _ _ hacc
    · exact hacc
  have hloop : ∀ (seen : BitVec 64) (bits : List ℕ) (acc : Node × ℕ), P acc.1 →
      P (bits.foldl (drainBit seen) acc).1 := by
    intro seen bits
    induction bits with
    | nil => exact fun acc h => h
    | cons b bs ih => exact fun acc h => ih _ (hbit seen acc b h)
  unfold clusterDrainDiscoveredPeers
  split_ifs
  · exact h0
  · exact hloop _ _ _ (hmask n 0 h0)

lemma clusterDrainDiscoveredPeers_election :
    (clusterDrainDiscoveredPeers n).1.election = n.election := by
  refine clusterDrainDiscoveredPeers_induction (P := fun n' => n'.election = n.election) rfl
    (fun n' mask h => h) (fun n' k h => h) ?_
  intro n' id h
  rw [clusterRegisterPeer_election, h]

end AeroSLS.Consensus
