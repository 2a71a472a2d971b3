import AeroSLS.Consensus.Election

namespace AeroSLS.Consensus

open List PartitionLease

variable {ι : Type*}

lemma findLeaseRow_partitionId (h : findLeaseRow n p = some row) : row.partitionId = p := by
  simpa using find?_some h

lemma find?_putRow (l : List PartitionLease) :
    (l.map fun r => if r.partitionId = row.partitionId then row else r).find? (·.partitionId = q) =
      (l.find? (·.partitionId = q)).map fun r => if q = row.partitionId then row else r := by
  induction l with
  | nil => rfl
  | cons r rs ih => grind

lemma findLeaseRow_putLeaseRow : findLeaseRow (putLeaseRow n row) q =
      (findLeaseRow n q).map fun r => if q = row.partitionId then row else r :=
  find?_putRow n.leases

lemma findLeaseRow_append : findLeaseRow { n with leases := n.leases ++ [row] } q =
      (findLeaseRow n q).or (if row.partitionId = q then some row else none) := by
  by_cases hq : row.partitionId = q <;> simp [findLeaseRow]

lemma findLeaseRow_of_findOrInit
    (h : findOrInitLeaseRow n p = some (n', row)) : findLeaseRow n' p = some row := by
  rcases findOrInitLeaseRow_cases h with ⟨hf, rfl⟩ | ⟨hf, rfl, rfl⟩
  · exact hf
  · simp [findLeaseRow_append, hf, freshLease]

def PartitionLease.voter (row : PartitionLease) : Ballot.Voter :=
  ⟨row.term, row.role.toBallot, row.accumulatedVotes⟩

def leaseChannel (p : ℕ) : Channel where
  view n := ((findLeaseRow n p).getD (freshLease p)).voter
  request q :=
    if q.opcode = .partitionRequestVote ∧ q.msg.partitionId = p then
      some (q.msg.candidateId, q.msg.term)
    else none
  grant q :=
    if q.opcode = .partitionVoteReply ∧ q.msg.partitionId = p ∧ q.msg.voteGranted ≠ 0 then
      some (q.msg.candidateId, q.msg.term)
    else none
  fits n
    | .leaseTick q _ => q = p → partitionHoldsWriteLease n p ∨
        partitionLeaseGetTerm n p + 1 < 2 ^ 32
    | .leaseElection q _ => q = p → partitionLeaseGetTerm n p + 1 < 2 ^ 32
    | _ => True

instance (p : ℕ) (n : Node) : (o : Op) → Decidable ((leaseChannel p).fits n o)
  | .leaseTick q _ => inferInstanceAs (Decidable (q = p → _ ∨ _))
  | .leaseElection q _ => inferInstanceAs (Decidable (q = p → _ < _))
  | .tick _ | .campaign _ | .leaseStepDown _ | .owner _ | .drain => .isTrue trivial

instance (p : ℕ) (s : System ι) : (act : Action ι) → Decidable ((leaseChannel p).Fits s act)
  | .op i o => inferInstanceAs (Decidable ((leaseChannel p).fits (s.node i) o))
  | .deliver _ _ _ => .isTrue trivial

section Moves

variable {p : ℕ} {n : Node} {row : PartitionLease}

lemma leaseChannel_view (h : findLeaseRow n p = some row) :
    (leaseChannel p).view n = row.voter := by
  simp [leaseChannel, h]

lemma leaseChannel_view_of_leases (h : n'.leases = n.leases) :
    (leaseChannel p).view n' = (leaseChannel p).view n := by
  simp [leaseChannel, findLeaseRow, h]

lemma leaseChannel_view_of_findOrInit (h : findOrInitLeaseRow n q = some (n', row)) :
    (leaseChannel p).view n' = (leaseChannel p).view n := by
  rcases findOrInitLeaseRow_cases h with ⟨-, rfl⟩ | ⟨hf, -, rfl⟩
  · rfl
  · grind [leaseChannel, findLeaseRow_append, freshLease]

lemma leaseChannel_view_term : ((leaseChannel p).view n).term = partitionLeaseGetTerm n p := by
  simp only [leaseChannel, partitionLeaseGetTerm]
  cases findLeaseRow n p <;> rfl

lemma leaseChannel_view_put (h : findLeaseRow n q = some row) (hq : row'.partitionId = q) :
    (leaseChannel p).view (putLeaseRow n row') =
      if q = p then row'.voter else (leaseChannel p).view n := by
  subst hq
  by_cases hp : row'.partitionId = p
  · subst hp
    simp [leaseChannel, findLeaseRow_putLeaseRow, h]
  · have hp' : p ≠ row'.partitionId := Ne.symm hp
    simp [leaseChannel, findLeaseRow_putLeaseRow, hp, hp']

lemma leaseChannel_quiet_of_cluster (h : f.opcode.ofLease = false) : (leaseChannel p).Quiet f := by
  have h1 : f.opcode ≠ .partitionRequestVote := by intro he; simp [he, Opcode.ofLease] at h
  have h2 : f.opcode ≠ .partitionVoteReply := by intro he; simp [he, Opcode.ofLease] at h
  simp [Channel.Quiet, leaseChannel, h1, h2]

lemma leaseChannel_quiet_of_partition (h : f.msg.partitionId ≠ p) : (leaseChannel p).Quiet f := by
  simp [Channel.Quiet, leaseChannel, h]

lemma leaseChannel_move_put (hrow : findLeaseRow n q = some row) (hid : row'.partitionId = q)
    (hout : ∀ f ∈ out, f.msg.partitionId = q) (hown : q = p → (leaseChannel p).view n = row.voter →
      (leaseChannel p).view (putLeaseRow n row') = row'.voter →
      (leaseChannel p).Move fits n (putLeaseRow n row') inp out) :
    (leaseChannel p).Move fits n (putLeaseRow n row') inp out := by
  have hput : (leaseChannel p).view (putLeaseRow n row') = _ := leaseChannel_view_put hrow hid
  by_cases hqp : q = p
  · subst hqp
    rw [if_pos rfl] at hput
    exact hown rfl (leaseChannel_view hrow) hput
  · rw [if_neg hqp] at hput
    exact .idle hput fun f hf => leaseChannel_quiet_of_partition (by rw [hout f hf]; exact hqp)

lemma partitionLeaseTriggerElection_move
    (hterm : fits → q = p → partitionLeaseGetTerm n p + 1 < 2 ^ 32) :
    (leaseChannel p).Move fits n (partitionLeaseTriggerElection n q now).1 none
      (partitionLeaseTriggerElection n q now).2 := by
  have hframes := partitionLeaseTriggerElection_frames n q now
  unfold partitionLeaseTriggerElection at hframes ⊢
  split at hframes
  · exact .idle rfl (by simp)
  next n1 row h =>
  have hrow := findLeaseRow_of_findOrInit h
  have hid := findLeaseRow_partitionId hrow
  have hview : (leaseChannel p).view n1 = (leaseChannel p).view n :=
    leaseChannel_view_of_findOrInit h
  refine Channel.Move.of_start ?_ hview (findOrInitLeaseRow_state h).1
  refine leaseChannel_move_put hrow hid (fun f hf => (hframes f hf).2) ?_
  rintro rfl hold hnew
  have hcur : row.term = partitionLeaseGetTerm n q := by
    rw [← leaseChannel_view_term, ← hview, hold]; rfl
  refine .campaign ((row.term + 1) % 2 ^ 32) rfl (fun hfits => ?_) hnew ?_
  · have hfit := hterm hfits rfl
    rw [← hcur] at hfit
    rw [hold]
    exact lt_succ_mod_of_fits hfit
  · simp [leaseChannel]

lemma partitionLeaseStepDown_move :
    (leaseChannel p).Move fits n (partitionLeaseStepDown n q).1 none [] := by
  unfold partitionLeaseStepDown
  split
  · exact .idle rfl (by simp)
  next row hrow =>
  have hid := findLeaseRow_partitionId hrow
  refine leaseChannel_move_put hrow hid (by simp) ?_
  intro _ hold hnew
  exact .yield (by rw [hold, hnew]; exact le_refl _) (by rw [hnew]; rfl) (by simp)

lemma partitionLeaseHeartbeatTick_move (hterm : fits → q = p →
      partitionHoldsWriteLease n p ∨ partitionLeaseGetTerm n p + 1 < 2 ^ 32) :
    (leaseChannel p).Move fits n (partitionLeaseHeartbeatTick n q now).1 none
      (partitionLeaseHeartbeatTick n q now).2 := by
  unfold partitionLeaseHeartbeatTick
  split
  · exact .idle rfl (by simp)
  next row hrow =>
  have hid := findLeaseRow_partitionId hrow
  dsimp only
  split_ifs with howner hlead hlead hrate htimeout
  · exact partitionLeaseStepDown_move
  · exact .idle rfl (by simp)
  · exact .idle rfl (by simp)
  · -- the leader's beat: a clock stamp and a heartbeat frame
    refine leaseChannel_move_put hrow hid (by simp) ?_
    intro _ hold hnew
    refine .idle (by rw [hold, hnew]; rfl) fun f hf => ?_
    obtain rfl := mem_singleton.mp hf
    simp [Channel.Quiet, leaseChannel]
  · grind [partitionHoldsWriteLease, partitionLeaseTriggerElection_move]
  · exact .idle rfl (by simp)

lemma onPartitionHeartbeat_id :
    (onPartitionHeartbeat row msg now).partitionId = row.partitionId := by
  unfold onPartitionHeartbeat
  split_ifs <;> rfl

lemma onPartitionRequestVote_id :
    (onPartitionRequestVote nodeId row msg now).1.partitionId = row.partitionId := by
  unfold onPartitionRequestVote
  split_ifs <;> rfl

lemma onPartitionVoteReply_id :
    (onPartitionVoteReply n row msg now).partitionId = row.partitionId := by
  unfold onPartitionVoteReply
  dsimp only
  split_ifs <;> rfl

section

variable {packet : Packet} (hrow : findLeaseRow n packet.msg.partitionId = some row)
include hrow

lemma onPartitionHeartbeat_move :
    (leaseChannel p).Move True n (putLeaseRow n (onPartitionHeartbeat row packet.msg now))
      (some packet) [] := by
  have hid := findLeaseRow_partitionId hrow
  refine leaseChannel_move_put hrow (by rw [onPartitionHeartbeat_id, hid]) (by simp) ?_
  intro _ hold hnew
  unfold onPartitionHeartbeat at hnew ⊢
  split_ifs at hnew ⊢ with hstale hnewer hcand
  · exact .idle (hnew.trans hold.symm) (by simp)
  · exact .yield (by rw [hold, hnew]; exact le_of_lt hnewer) (by rw [hnew]; rfl) (by simp)
  · exact .yield (by rw [hold, hnew]; exact le_refl _) (by rw [hnew]; rfl) (by simp)
  · exact .idle (hnew.trans hold.symm) (by simp)

lemma onPartitionRequestVote_move (hop : packet.opcode = .partitionRequestVote) :
    (leaseChannel p).Move True n
      (putLeaseRow n (onPartitionRequestVote n.state.nodeId row packet.msg now).1) (some packet)
      (onPartitionRequestVote n.state.nodeId row packet.msg now).2 := by
  have hid := findLeaseRow_partitionId hrow
  refine leaseChannel_move_put hrow (by rw [onPartitionRequestVote_id, hid]) ?_ ?_
  · unfold onPartitionRequestVote
    split_ifs <;> simp
  intro hp hold hnew
  unfold onPartitionRequestVote at hnew ⊢
  split_ifs at hnew ⊢ with hnewer
  · exact .grant packet _ packet.msg.candidateId packet.msg.term rfl
      (by simp [leaseChannel, hop, hp]) (by rw [hold]; exact hnewer) (by rw [hnew]; rfl)
      (by rw [hnew]; rfl) rfl (by simp [leaseChannel, hp]) (by simp [leaseChannel])
  · refine .idle (hnew.trans hold.symm) fun f hf => ?_
    obtain rfl := mem_singleton.mp hf
    simp [Channel.Quiet, leaseChannel]

lemma onPartitionVoteReply_move (hop : packet.opcode = .partitionVoteReply)
    (hcand : row.role = .candidate) :
    (leaseChannel p).Move True n (putLeaseRow n (onPartitionVoteReply n row packet.msg now))
      (some packet) [] := by
  have hid := findLeaseRow_partitionId hrow
  refine leaseChannel_move_put hrow (by rw [onPartitionVoteReply_id, hid]) (by simp) ?_
  intro hp hold hnew
  have hrole : ((leaseChannel p).view n).role = .candidate := by simp [hold, voter, hcand]
  have hgrant : ¬packet.msg.candidateId ≠ n.state.nodeId →
      packet.msg.term = row.term ∧ packet.msg.voteGranted ≠ 0 →
      (leaseChannel p).grant packet = some (n.state.nodeId, ((leaseChannel p).view n).term) := by
    intro hme hcount
    rw [hold]
    simp [leaseChannel, hop, hp, hcount, not_not.mp hme, voter]
  unfold onPartitionVoteReply at hnew ⊢
  dsimp only at hnew ⊢
  split_ifs at hnew ⊢ with hother hcount hquorum
  · exact .idle (hnew.trans hold.symm) (by simp)
  · exact .win packet rfl (hgrant hother hcount) hrole (by rw [hnew, hold]; rfl)
      (by rw [hnew]; rfl) (by rw [hold]; exact hquorum) (by simp)
  · exact .count packet rfl (hgrant hother hcount) hrole (by rw [hnew, hold]; rfl) (by simp)
  · exact .idle (hnew.trans hold.symm) (by simp)

end

lemma processPartitionConsensusPacket_move :
    (leaseChannel p).Move True n (processPartitionConsensusPacket n packet now).1 (some packet)
      (processPartitionConsensusPacket n packet now).2 := by
  have hseen : (leaseChannel p).view (clusterNotePeerSeen n packet.nodeSourceId) =
      (leaseChannel p).view n := leaseChannel_view_of_leases (clusterNotePeerSeen_leases _ _)
  refine Channel.Move.of_start ?_ hseen (clusterNotePeerSeen_state n packet.nodeSourceId)
  unfold processPartitionConsensusPacket
  dsimp only
  split
  · exact .idle rfl (by simp)
  next n1 row h =>
  have hrow := findLeaseRow_of_findOrInit h
  refine Channel.Move.of_start ?_ (leaseChannel_view_of_findOrInit h) (findOrInitLeaseRow_state h).1
  split
  · exact onPartitionHeartbeat_move hrow
  · next hop => exact onPartitionRequestVote_move hrow hop
  · next hop =>
    split_ifs with hcand
    · exact onPartitionVoteReply_move hrow hop hcand
    · exact .idle rfl (by simp)
  · exact .idle rfl (by simp)

end Moves

lemma leaseChannel_sound : (leaseChannel p).Sound where
  op n o := by
    have cluster : ∀ {fits n' out}, n'.fixedPart = n.fixedPart →
        (∀ f ∈ out, f.opcode.ofLease = false) → (leaseChannel p).Move fits n n' none out := by
      intro fits n' out hfixed hout
      simp only [Node.fixedPart, Prod.mk.injEq] at hfixed
      exact .idle (leaseChannel_view_of_leases hfixed.2.2.2) fun f hf =>
        leaseChannel_quiet_of_cluster (hout f hf)
    cases o with
    | tick now =>
      exact cluster (checkConsensusHeartbeatTick_fixedPart n now)
        (checkConsensusHeartbeatTick_frames n now)
    | campaign =>
      exact cluster rfl (by simp [Op.run, triggerKernelElectionCampaign, Opcode.ofLease])
    | leaseTick => exact partitionLeaseHeartbeatTick_move id
    | leaseElection => exact partitionLeaseTriggerElection_move id
    | leaseStepDown => exact partitionLeaseStepDown_move
    | owner => exact .idle rfl (by simp [Op.run])
    | drain =>
      have h := clusterDrainDiscoveredPeers_election n
      simp only [Node.election, Prod.mk.injEq] at h
      exact .idle (leaseChannel_view_of_leases h.2.2.2.2) (by simp [Op.run])
  receive n packet now := by
    have hfixed := processConsensusPacket_fixedPart n packet now
    simp only [Node.fixedPart, Prod.mk.injEq] at hfixed
    have cluster :
        (leaseChannel p).Move True n (processConsensusPacket n packet now).1 (some packet)
        (processConsensusPacket n packet now).2 :=
      .idle (leaseChannel_view_of_leases hfixed.2.2.2) fun f hf =>
        leaseChannel_quiet_of_cluster (processConsensusPacket_frames n packet now f hf)
    unfold dsppRxDispatch
    split
    case h_1 | h_2 | h_3 | h_4 => exact cluster
    all_goals exact processPartitionConsensusPacket_move

lemma leaseChannel_fresh_boot : (leaseChannel p).Fresh m (System.boot m peers) := by
  have hboot : ∀ i, ((System.boot m peers).node i).election = (m.nodeId i, 0, .follower, 1, []) :=
    fun i => clusterBoot_election (m.nonzero i) (peers i)
  simp only [Node.election, Prod.mk.injEq] at hboot
  refine ⟨fun i => (hboot i).1, fun i => ?_, rfl⟩
  simp [leaseChannel, findLeaseRow, (hboot i).2.2.2.2, voter, freshLease, NodeRole.toBallot]

/-- With complete rosters that never change, no two nodes hold the write lease
of a partition in the same lease term. -/
theorem lease_holder_unique [Fintype ι] [DecidableEq ι] (m : Membership ι) (peers : ι → List ℕ)
    (acts : List (Action ι)) (p : ℕ)
    (hroster : (System.boot m peers).Always (fun t _ => ∀ i, m.Complete i (t.node i)) acts)
    (hterms : (System.boot m peers).Always (leaseChannel p).Fits acts) (i j : ι) (hij : i ≠ j) :
    let t := (System.boot m peers).run acts
    ¬(partitionHoldsWriteLease (t.node i) p ∧ partitionHoldsWriteLease (t.node j) p ∧
      partitionLeaseGetTerm (t.node i) p = partitionLeaseGetTerm (t.node j) p) := by
  rintro t ⟨hi, hj, ht⟩
  have hleader : ∀ n, partitionHoldsWriteLease n p → ((leaseChannel p).view n).role = .leader := by
    intro n hn
    unfold partitionHoldsWriteLease at hn
    split at hn
    · next row hrow => simpa [leaseChannel_view hrow, PartitionLease.voter] using hn
    · cases hn
  refine hij (leaseChannel_sound.leader_unique leaseChannel_fresh_boot
    (Channel.Admits.of_complete hroster hterms) (by omega) (hleader _ hi) (hleader _ hj) ?_)
  rwa [leaseChannel_view_term, leaseChannel_view_term]

/-- With any rosters, complete or not: in the cluster-wide election and in that of every lease a
node grants one vote a term, to a node of the cluster and in no later term than its own, and
terms never fall. -/
theorem votes_once [Fintype ι] [DecidableEq ι] (m : Membership ι) (peers : ι → List ℕ)
    (acts : List (Action ι)) (ch : Channel) (hch : ch = clusterChannel ∨ ∃ p, ch = leaseChannel p)
    (hterms : (System.boot m peers).Always ch.Fits acts) :
    let s := (System.boot m peers).run acts
    (∀ (k k' : ℕ) f f' v c c' t, s.wire[k]? = some (f, v) → s.wire[k']? = some (f', v) →
      ch.grant f = some (c, t) → ch.grant f' = some (c', t) → k = k') ∧
    (∀ f v c t, (f, v) ∈ s.wire → ch.grant f = some (c, t) →
      (∃ i, m.nodeId i = c) ∧ t ≤ (ch.view (s.node v)).term) ∧
    ∀ n i, (ch.view (((System.boot m peers).run (acts.take n)).node i)).term ≤
      (ch.view (s.node i)).term := by
  intro s
  obtain ⟨hs, hfresh⟩ : ch.Sound ∧ ch.Fresh m (System.boot m peers) := by
    rcases hch with rfl | ⟨p, rfl⟩
    · exact ⟨clusterChannel_sound, clusterChannel_fresh_boot⟩
    · exact ⟨leaseChannel_sound, leaseChannel_fresh_boot⟩
  obtain ⟨a, ha, hsim⟩ := hs.exists_sim (Q := 0) hfresh
    (hterms.mono fun _ _ hf => ⟨hf, fun _ _ _ _ _ _ _ _ _ => Nat.zero_le _⟩)
  refine ⟨fun k k' f f' v c c' t hk hk' hg hg' => ?_, fun f v c t hmem hg => ?_, fun n i => ?_⟩
  · exact hsim.unique k k' f f' v _ _ hk hk' hg hg' rfl
  · obtain ⟨i, hi, hcast⟩ := hsim.grants f v hmem _ hg
    rw [← hsim.view]
    exact ⟨⟨i, hi⟩, ha.cast_le v t i hcast⟩
  · have hsplit := hterms
    rw [← List.take_append_drop n acts] at hsplit
    have hrun : ((System.boot m peers).run (acts.take n)).run (acts.drop n) = s :=
      (Machine.run_append _).symm.trans (congrArg (System.run _) (List.take_append_drop n acts))
    rw [← hrun]
    refine Machine.run_induction (I := fun t => _ ≤ (ch.view (t.node i)).term) le_rfl ?_
      (Machine.always_append.1 hsplit).2
    exact fun t act hle hf => hle.trans (hs.term_le hf i)

/-- Node 1 takes the lease of partition 7 twice, while node 3 stands for the same terms and for
partition 8. -/
def trioLease : List (Action (Fin 3)) :=
  [.op 0 (.leaseElection 7 200), .op 2 (.leaseElection 7 200), .op 2 (.leaseElection 8 200),
    .deliver 0 1 201, .deliver 3 0 202, .op 0 (.leaseStepDown 7), .op 0 (.leaseElection 7 203),
    .deliver 4 1 204, .deliver 5 0 205, .deliver 1 0 206, .op 0 (.leaseTick 7 207)]

def trioLeased : System (Fin 3) :=
  (System.boot (.numbered 3 (by decide)) trioPeers).run trioLease

theorem lease_holder_unique_trio :
    partitionHoldsWriteLease (trioLeased.node 0) 7 ∧
      partitionLeaseGetTerm (trioLeased.node 0) 7 = 2 ∧
      ¬(partitionHoldsWriteLease (trioLeased.node 0) 7 ∧
        partitionHoldsWriteLease (trioLeased.node 2) 7 ∧
        partitionLeaseGetTerm (trioLeased.node 0) 7 =
          partitionLeaseGetTerm (trioLeased.node 2) 7) :=
  ⟨by decide, by decide, lease_holder_unique _ trioPeers trioLease 7 (by decide) (by decide) 0 2
    (by decide)⟩

theorem votes_once_trio : (trioLeased.wire.filterMap fun f => (leaseChannel 7).grant f.1) =
      [(1, 1), (1, 2)] ∧
    ∀ f v c t, (f, v) ∈ trioLeased.wire → (leaseChannel 7).grant f = some (c, t) →
      (∃ i, (Membership.numbered 3 (by decide)).nodeId i = c) ∧
        t ≤ ((leaseChannel 7).view (trioLeased.node v)).term :=
  ⟨by decide, (votes_once _ trioPeers trioLease (leaseChannel 7) (.inr ⟨7, rfl⟩) (by decide)).2.1⟩

end AeroSLS.Consensus
