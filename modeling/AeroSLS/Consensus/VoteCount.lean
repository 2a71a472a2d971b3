import AeroSLS.Consensus.Lease

namespace AeroSLS.Consensus

open List

variable {S : List ℕ} {f : Packet}

structure Watched where
  node : Node
  received : List Packet
  counted : List ℕ

namespace Channel

variable (ch : Channel)

def Counts (n : Node) (f : Packet) : Prop :=
  (ch.view n).role = .candidate ∧ ch.grant f = some (n.state.nodeId, (ch.view n).term)

instance (n : Node) (f : Packet) : Decidable (ch.Counts n f) :=
  inferInstanceAs (Decidable (_ ∧ _))

/-- The sources counted after the call: a counted grant adds its source, a new or lost campaign
starts over. -/
def countedAfter (w : Watched) (c : Call) : List ℕ :=
  match c.input with
  | some f =>
    if ch.Counts w.node f then f.nodeSourceId :: w.counted
    else if ch.view (c.run w.node).1 = ch.view w.node then w.counted else []
  | none => if ch.view (c.run w.node).1 = ch.view w.node then w.counted else []

def watch (w : Watched) (c : Call) : Watched where
  node := (c.run w.node).1
  received := w.received ++ c.input.toList
  counted := ch.countedAfter w c

/-- The ids known to have voted for the node in its term: its own, and the sources of grants it
received. -/
def voters (w : Watched) : Finset ℕ :=
  insert w.node.state.nodeId
    ((w.received.filter fun f =>
      ch.grant f = some (w.node.state.nodeId, (ch.view w.node).term)).map (·.nodeSourceId)).toFinset

def NewVoter (w : Watched) (c : Call) : Prop :=
  ∀ f ∈ c.input, ch.Counts w.node f →
    f.nodeSourceId ≠ w.node.state.nodeId ∧ f.nodeSourceId ∉ w.counted

instance (w : Watched) (c : Call) : Decidable (ch.NewVoter w c) :=
  inferInstanceAs (Decidable (∀ f ∈ c.input, _ → _ ∧ _))

def WinsByVoters (w : Watched) (c : Call) : Prop :=
  (ch.view w.node).role ≠ .leader → (ch.view (ch.watch w c).node).role = .leader →
    (ch.watch w c).node.state.stableQuorumThreshold ≤ (ch.voters (ch.watch w c)).card

instance (w : Watched) (c : Call) : Decidable (ch.WinsByVoters w c) :=
  inferInstanceAs (Decidable (_ → _ → _))

/-- `S` lists distinct foreign voters of the node's current term. -/
structure Covers (w : Watched) (S : List ℕ) : Prop where
  nodup : S.Nodup
  own : w.node.state.nodeId ∉ S
  heard : ∀ v ∈ S, ∃ f ∈ w.received,
    ch.grant f = some (w.node.state.nodeId, (ch.view w.node).term) ∧ f.nodeSourceId = v

/-- What the vote counter of a candidate stands for. -/
structure Tally (w : Watched) : Prop where
  votes_le : (ch.view w.node).votes ≤ 1 + w.counted.length
  covers : ch.Covers w w.counted

variable {ch} {w : Watched} {c : Call}

lemma Sound.call (hs : ch.Sound) (n : Node) :
    ∃ fits, ch.Move fits n (c.run n).1 c.input (c.run n).2 := by
  cases c with
  | op o => exact ⟨_, hs.op n o⟩
  | receive f now => exact ⟨_, hs.receive n f now⟩

lemma call_nodeId : (c.run n).1.state.nodeId = n.state.nodeId := by
  cases c with
  | op o => exact Op.run_nodeId o
  | receive => exact dsppRxDispatch_identity.1

lemma Covers.cons (h : ch.Covers w S) (hf : c.input = some f)
    (hcounts : ch.Counts w.node f) (hne : f.nodeSourceId ≠ w.node.state.nodeId)
    (hnot : f.nodeSourceId ∉ S)
    (hterm : (ch.view (ch.watch w c).node).term = (ch.view w.node).term) :
    ch.Covers (ch.watch w c) (f.nodeSourceId :: S) := by
  have hid : (ch.watch w c).node.state.nodeId = w.node.state.nodeId := call_nodeId
  refine ⟨nodup_cons.mpr ⟨hnot, h.nodup⟩, ?_, fun v hv => ?_⟩
  · rw [hid]
    simpa using ⟨hne.symm, h.own⟩
  rw [hid, hterm]
  rcases mem_cons.mp hv with rfl | hv
  · exact ⟨f, by simp [watch, hf], hcounts.2, rfl⟩
  · obtain ⟨g, hg, hgrant⟩ := h.heard v hv
    exact ⟨g, mem_append_left _ hg, hgrant⟩

lemma Covers.keep (h : ch.Covers w S)
    (hview : ch.view (ch.watch w c).node = ch.view w.node) : ch.Covers (ch.watch w c) S := by
  have hid : (ch.watch w c).node.state.nodeId = w.node.state.nodeId := call_nodeId
  refine ⟨h.nodup, by rw [hid]; exact h.own, fun v hv => ?_⟩
  obtain ⟨g, hg, hgrant⟩ := h.heard v hv
  rw [hid, hview]
  exact ⟨g, mem_append_left _ hg, hgrant⟩

lemma Covers.card_le (h : ch.Covers w S) : 1 + S.length ≤ (ch.voters w).card := by
  have hsub : insert w.node.state.nodeId S.toFinset ⊆ ch.voters w := by
    refine Finset.insert_subset_insert _ fun v hv => ?_
    obtain ⟨f, hf, hg, rfl⟩ := h.heard v (mem_toFinset.mp hv)
    simp only [mem_toFinset, mem_map, mem_filter, decide_eq_true_eq]
    exact ⟨f, ⟨hf, hg⟩, rfl⟩
  have hcard := Finset.card_le_card hsub
  rw [Finset.card_insert_of_notMem (by simpa using h.own), toFinset_card_of_nodup h.nodup] at hcard
  omega

lemma Tally.extend (h : ch.Tally w) (hf : c.input = some f)
    (hcounts : ch.Counts w.node f) (hnew : ch.NewVoter w c)
    (hterm : (ch.view (ch.watch w c).node).term = (ch.view w.node).term)
    (hvotes : (ch.view (ch.watch w c).node).votes ≤ (ch.view w.node).votes + 1) :
    ch.Tally (ch.watch w c) := by
  have hc : (ch.watch w c).counted = f.nodeSourceId :: w.counted := by
    simp [watch, countedAfter, hf, hcounts]
  obtain ⟨hne, hnot⟩ := hnew f hf hcounts
  have hle := h.votes_le
  exact ⟨by rw [hc, length_cons]; omega, hc ▸ h.covers.cons hf hcounts hne hnot hterm⟩

lemma Tally.keep (h : ch.Tally w) (hc : (ch.watch w c).counted = w.counted)
    (hview : ch.view (ch.watch w c).node = ch.view w.node) : ch.Tally (ch.watch w c) :=
  ⟨by rw [hview, hc]; exact h.votes_le, hc ▸ h.covers.keep hview⟩

lemma counted_cases (c : Call) :
    (∃ f, c.input = some f ∧ ch.Counts w.node f) ∨ (ch.watch w c).counted =
      if ch.view (ch.watch w c).node = ch.view w.node then w.counted else [] := by
  simp only [watch, countedAfter]
  cases c.input with
  | none => exact .inr rfl
  | some f => grind

theorem Sound.watch_step (hs : ch.Sound) (h : (ch.view w.node).role = .candidate → ch.Tally w)
    (hnew : ch.NewVoter w c) :
    ((ch.view (ch.watch w c).node).role = .candidate → ch.Tally (ch.watch w c)) ∧
      ch.WinsByVoters w c := by
  have hn : (ch.watch w c).node = (c.run w.node).1 := rfl
  obtain ⟨fits, hmove⟩ := hs.call w.node
  cases hmove with
  | idle hv hq =>
    rw [← hn] at hv
    refine ⟨fun hrole => ?_, fun hno hwin => absurd (hv ▸ hwin) hno⟩
    have ht := h (hv ▸ hrole)
    rcases counted_cases c with ⟨f, hf, hcounts⟩ | hc
    · exact ht.extend hf hcounts hnew (by rw [hv]) (by rw [hv]; omega)
    · exact ht.keep (by rw [hc, if_pos hv]) hv
  | yield ht hr =>
    rw [← hn] at hr
    exact ⟨fun hrole => by simp [hr] at hrole, fun _ hwin => by simp [hr] at hwin⟩
  | campaign t hi ht hv =>
    rw [← hn] at hv
    refine ⟨fun _ => ?_, fun _ hwin => by simp [hv] at hwin⟩
    rcases counted_cases c with ⟨f, hf, -⟩ | hc
    · simp [hi] at hf
    · split_ifs at hc with hsame
      · exact (h (by rw [← hsame, hv])).keep hc hsame
      · exact ⟨by simpa [hc] using (by rw [hv]), by simp [hc], by simp [hc], by simp [hc]⟩
  | grant f r cid t hp hreq ht hterm hr =>
    rw [← hn] at hr
    exact ⟨fun hrole => by simp [hr] at hrole, fun _ hwin => by simp [hr] at hwin⟩
  | count f hp hg hcand hv =>
    rw [← hn] at hv
    refine ⟨fun _ => ?_, fun _ hwin => by simp [hv, hcand] at hwin⟩
    exact (h hcand).extend hp ⟨hcand, hg⟩ hnew (by rw [hv]) (by rw [hv]; exact Nat.mod_le _ _)
  | win f hp hg hcand hterm hr hQ hq =>
    rw [← hn] at hterm hr
    refine ⟨fun hrole => by simp [hr] at hrole, fun _ _ => ?_⟩
    -- the winning vote is the last of the tally, whatever became of the counter
    have ht := h hcand
    obtain ⟨hne, hnot⟩ := hnew f hp ⟨hcand, hg⟩
    have hthr : (ch.watch w c).node.state.stableQuorumThreshold =
        w.node.state.stableQuorumThreshold := by
      cases c with
      | op => cases hp
      | receive => exact dsppRxDispatch_identity.2
    have hcover := (ht.covers.cons hp ⟨hcand, hg⟩ hne hnot hterm).card_le
    have hvotes := ht.votes_le
    rw [length_cons] at hcover
    omega

end Channel

/-- A node right after boot, with nothing received. -/
def Watched.boot (nodeId : ℕ) (peers : List ℕ) : Watched :=
  ⟨clusterBoot nodeId peers, [], []⟩

lemma Channel.Sound.wins_by_voters {ch : Channel} (hs : ch.Sound) {w : Watched}
    (h0 : (ch.view w.node).role = .follower) {calls : List Call}
    (hnew : Machine.Always ch.watch ch.NewVoter w calls) :
    Machine.Always ch.watch ch.WinsByVoters w calls := by
  refine hnew.imp (I := fun w => (ch.view w.node).role = .candidate → ch.Tally w) ?_ ?_ ?_
  · intro hcand
    simp [h0] at hcand
  · exact fun w c h hc => (hs.watch_step h hc).1
  · exact fun w c h hc => (hs.watch_step h hc).2

/-- A node whose counted grants come from new voters becomes leader only on a threshold of
distinct voters. -/
theorem quorum_counts_distinct_voters (nodeId : ℕ) (hid : nodeId ≠ 0) (peers : List ℕ)
    (calls : List Call) :
    (Machine.Always clusterChannel.watch clusterChannel.NewVoter (.boot nodeId peers) calls →
      Machine.Always clusterChannel.watch clusterChannel.WinsByVoters (.boot nodeId peers) calls) ∧
    ∀ p, Machine.Always (leaseChannel p).watch (leaseChannel p).NewVoter
        (.boot nodeId peers) calls →
      Machine.Always (leaseChannel p).watch (leaseChannel p).WinsByVoters
        (.boot nodeId peers) calls := by
  have hboot := clusterBoot_election hid peers
  simp only [Node.election, Prod.mk.injEq] at hboot
  refine ⟨clusterChannel_sound.wins_by_voters ?_, fun p =>
    leaseChannel_sound.wins_by_voters ?_⟩
  · simp [Watched.boot, clusterChannel, hboot.2.2.1, NodeRole.toBallot]
  · simp [Watched.boot, leaseChannel, findLeaseRow, hboot.2.2.2.2, PartitionLease.voter, freshLease,
      NodeRole.toBallot]

/-- The grant node `source` broadcasts for node 1's first campaign, cluster-wide or for a lease.
-/
def grantFrom (opcode : Opcode) (source partitionId : ℕ) : Packet where
  opcode := opcode
  nodeSourceId := source
  msg := { term := 1, candidateId := 1, voteGranted := 1, partitionId := partitionId }

/-- Node 1 of five campaigns for both and hears nodes 2 and 3 once each. -/
def honestVotes : List Call :=
  [.op (.campaign 200), .op (.leaseElection 7 200),
    .receive (grantFrom .voteReply 2 0) 201, .receive (grantFrom .partitionVoteReply 2 7) 201,
    .receive (grantFrom .voteReply 3 0) 202, .receive (grantFrom .partitionVoteReply 3 7) 202]

theorem quorum_counts_distinct_voters_honest :
    Machine.Always clusterChannel.watch clusterChannel.WinsByVoters
        (.boot 1 [2, 3, 4, 5]) honestVotes ∧
      Machine.Always (leaseChannel 7).watch (leaseChannel 7).WinsByVoters
        (.boot 1 [2, 3, 4, 5]) honestVotes :=
  ⟨(quorum_counts_distinct_voters 1 (by decide) [2, 3, 4, 5] honestVotes).1 (by decide),
    (quorum_counts_distinct_voters 1 (by decide) [2, 3, 4, 5] honestVotes).2 7 (by decide)⟩

/-- The same with node 2's frames delivered twice and node 3 silent. -/
def replayedVotes : List Call :=
  [.op (.campaign 200), .op (.leaseElection 7 200),
    .receive (grantFrom .voteReply 2 0) 201, .receive (grantFrom .partitionVoteReply 2 7) 201,
    .receive (grantFrom .voteReply 2 0) 202, .receive (grantFrom .partitionVoteReply 2 7) 202]

/-- Node 1 leads, and holds the lease, on two voters of the three it needs. -/
theorem replayed_vote_wins : ¬Machine.Always clusterChannel.watch clusterChannel.WinsByVoters
        (.boot 1 [2, 3, 4, 5]) replayedVotes ∧
      ¬Machine.Always (leaseChannel 7).watch (leaseChannel 7).WinsByVoters
        (.boot 1 [2, 3, 4, 5]) replayedVotes := by
  decide

end AeroSLS.Consensus
