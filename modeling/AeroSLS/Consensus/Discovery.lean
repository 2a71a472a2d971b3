import AeroSLS.Consensus.Election
import Mathlib.Data.Fintype.EquivFin

namespace AeroSLS.Consensus

variable {ι : Type*} {e : Fin 4 → ι}

def MajorityAtCount [Fintype ι] (s : System ι) : Action ι → Prop
  | .op _ _ => True
  | .deliver k i _ => ∀ f ∈ s.wire[k]?,
    clusterChannel.grant f.1 = some ((s.node i).state.nodeId, (s.node i).state.currentTerm) →
    (s.node i).state.role = .candidate → Fintype.card ι < 2 * (s.node i).state.stableQuorumThreshold

instance [Fintype ι] (s : System ι) : (act : Action ι) → Decidable (MajorityAtCount s act)
  | .op _ _ => .isTrue trivial
  | .deliver k _ _ => inferInstanceAs (Decidable (∀ f ∈ s.wire[k]?, _ → _ → _))

lemma Channel.Admits.of_majority [Fintype ι] {s : System ι} {act : Action ι}
    (hfits : clusterChannel.Fits s act) (hmaj : MajorityAtCount s act) :
    clusterChannel.Admits (Fintype.card ι / 2 + 1) s act := by
  refine ⟨hfits, ?_⟩
  rintro k i now p v rfl hk hg hc
  have := hmaj (p, v) hk hg (by simpa [clusterChannel] using hc)
  omega

variable [DecidableEq ι]

/-- Two candidates stand in the first term, each with one voter of its own. -/
def twoElections (a b c d : ι) : List (Action ι) :=
  [.op a (.campaign 0), .op c (.campaign 0), .deliver 0 b 0, .deliver 1 d 0, .deliver 2 a 0,
    .deliver 3 c 0]

omit [DecidableEq ι] in
lemma boot_empty_node (m : Membership ι) (i : ι) : (System.boot m fun _ => []).node i =
    { Node.unset with state := ⟨m.nodeId i, 0, 0, .follower, 1, 1, 0, 0, 0, 1⟩ } := by
  simp [System.boot, clusterBoot, clusterInit, m.nonzero i, clusterRecomputeQuorum, Node.unset]

lemma twoElections_split (he : Function.Injective e) :
    ¬((System.boot m fun _ => []).run (twoElections (e 0) (e 1) (e 2) (e 3))).OneLeader := by
  intro hone
  have hw : (System.boot m fun _ => []).wire = [] := rfl
  have hd : (System.boot m fun _ => []).delivered = [] := rfl
  refine hone (e 0) (e 2) (he.ne (by decide)) ?_
  simp [twoElections, System.step, System.after, Op.run, boot_empty_node, hw, hd,
    triggerKernelElectionCampaign, dsppRxDispatch, processConsensusPacket, onRequestVote,
    onVoteReply, Function.update, he.eq_iff, Node.unset]

lemma twoElections_fits (he : Function.Injective e) :
    (System.boot m fun _ => []).Always clusterChannel.Fits
      (twoElections (e 0) (e 1) (e 2) (e 3)) := by
  simp [twoElections, Machine.Always, Channel.Fits, clusterChannel, System.step, System.after,
    boot_empty_node, Function.update, he.eq_iff]

/-- Discovery is safe in all runs exactly on clusters of at most three nodes, and on larger ones
in the runs whose counted grants meet a majority. -/
theorem discovery_leader_unique [Fintype ι] (m : Membership ι) :
    ((∀ acts, (System.boot m fun _ => []).Always clusterChannel.Fits acts →
        ((System.boot m fun _ => []).run acts).OneLeader) ↔ Fintype.card ι ≤ 3) ∧
      ∀ acts, (System.boot m fun _ => []).Always clusterChannel.Fits acts →
        (System.boot m fun _ => []).Always MajorityAtCount acts →
        ((System.boot m fun _ => []).run acts).OneLeader := by
  refine ⟨⟨fun hsafe => ?_, fun hsmall acts hterms => ?_⟩, fun acts hterms hmaj => ?_⟩
  · by_contra hbig
    obtain ⟨e⟩ : Nonempty (Fin 4 ↪ ι) :=
      Function.Embedding.nonempty_of_card_le (by rw [Fintype.card_fin]; omega)
    exact twoElections_split e.injective (hsafe _ (twoElections_fits e.injective))
  · -- a leader has counted at least one vote besides its own
    refine System.oneLeader_of_admits (Q := 0) ?_ (by omega)
    exact hterms.mono fun _ _ hf => ⟨hf, fun _ _ _ _ _ _ _ _ _ => Nat.zero_le _⟩
  · refine System.oneLeader_of_admits (Q := Fintype.card ι / 2 + 1) ?_ (by omega)
    exact (hterms.and hmaj).mono fun _ _ hf => .of_majority hf.1 hf.2

/-- Node 1 drains the three peers it heard before it stands, and wins on three
of four votes. -/
def discoveryMajority : List (Action (Fin 4)) :=
  [.op 1 (.tick 100), .op 2 (.tick 100), .op 3 (.tick 100), .deliver 0 0 101, .deliver 1 0 101,
    .deliver 2 0 101, .op 0 .drain, .op 0 (.tick 300), .deliver 4 1 301, .deliver 4 2 301,
    .deliver 5 0 302, .deliver 6 0 302]

theorem discovery_leader_unique_majority :
    (((System.boot (.numbered 4 (by decide)) fun _ => []).run discoveryMajority).node 0).state.role
        = .leader ∧
      ((System.boot (.numbered 4 (by decide)) fun _ => []).run discoveryMajority).OneLeader :=
  ⟨by decide, (discovery_leader_unique _).2 discoveryMajority (by decide) (by decide)⟩

/-- Four nodes: 1 and 3 time out together, and each wins with one foreign vote against a
threshold of one. -/
def discoverySplit : List (Action (Fin 4)) :=
  [.op 0 (.tick 300), .op 2 (.tick 300), .op 1 .drain, .op 3 .drain,
    .deliver 1 1 301, .deliver 3 3 301, .op 1 .drain, .op 3 .drain, .op 0 .drain, .op 2 .drain,
    .deliver 4 0 302, .deliver 5 2 302]

theorem discovery_split_brain :
    (System.boot (.numbered 4 (by decide)) fun _ => []).Always clusterChannel.Fits discoverySplit ∧
      ¬((System.boot (.numbered 4 (by decide)) fun _ => []).run discoverySplit).OneLeader := by
  refine ⟨by decide, fun h => h 0 2 (by decide) (by decide)⟩

end AeroSLS.Consensus
