import AeroSLS.Consensus.Network

namespace AeroSLS.Consensus

open List

variable {ι : Type*} {n : Node} {m : Membership ι}

structure Node.RosterInv (n : Node) : Prop where
  nodup : (n.roster.map (·.nodeId)).Nodup
  quorum : n.state.stableQuorumThreshold = (1 + n.roster.countP (·.active)) / 2 + 1

lemma Node.RosterInv.recompute (h : (n.roster.map (·.nodeId)).Nodup) :
    (clusterRecomputeQuorum n).RosterInv :=
  ⟨h, rfl⟩

lemma clusterInit_rosterInv (h : nodeId ≠ 0) : (clusterInit n nodeId).1.RosterInv := by
  simp only [clusterInit, h]
  exact .recompute (by simp)

section

variable (h : n.RosterInv)
include h

lemma Node.RosterInv.register : (clusterRegisterPeer n nodeId).1.RosterInv := by
  unfold clusterRegisterPeer
  split
  · exact h
  split
  · next k hk =>
    split
    · exact h
    refine .recompute ?_
    have hmap : (n.roster.modify k ({ · with active := true })).map (·.nodeId)
        = n.roster.map (·.nodeId) := by
      apply ext_getElem?
      intro j
      simp only [getElem?_map, getElem?_modify]
      cases n.roster[j]? with
      | none => rfl
      | some => by_cases hj : k = j <;> simp [hj]
    rw [hmap]
    exact h.nodup
  · next hnone =>
    split
    · exact h
    refine .recompute ?_
    -- a new id is appended only after the whole roster was searched for it
    have hnew : nodeId ∉ n.roster.map (·.nodeId) := by grind
    simpa [nodup_append, h.nodup] using fun a ha => by
      rintro rfl
      exact hnew (mem_map.mpr ⟨a, ha, rfl⟩)

lemma Node.RosterInv.of_fixedPart {n' : Node} (he : n'.fixedPart = n.fixedPart) : n'.RosterInv := by
  simp only [Node.fixedPart, Prod.mk.injEq] at he
  exact ⟨by rw [he.2.2.1]; exact h.nodup, by rw [he.2.1, he.2.2.1]; exact h.quorum⟩

lemma Node.RosterInv.of_frame {n' : Node} (he : n'.state = n.state ∧ n'.roster = n.roster) :
    n'.RosterInv := by
  obtain ⟨hs, hr⟩ := he
  exact ⟨hr ▸ h.nodup, by rw [hs, hr]; exact h.quorum⟩

lemma Node.RosterInv.op (o : Op) : (o.run n).1.RosterInv := by
  cases o with
  | tick now => exact h.of_fixedPart (checkConsensusHeartbeatTick_fixedPart n now)
  | campaign => exact h.of_fixedPart rfl
  | leaseTick p now => exact h.of_frame (partitionLeaseHeartbeatTick_frame n p now)
  | leaseElection p now => exact h.of_frame (partitionLeaseTriggerElection_frame n p now)
  | leaseStepDown p => exact h.of_frame (partitionLeaseStepDown_frame n p)
  | owner => exact h.of_frame ⟨rfl, rfl⟩
  | drain =>
    exact clusterDrainDiscoveredPeers_induction h (fun n _ h => ⟨h.nodup, h.quorum⟩)
      (fun n _ h => ⟨h.nodup, h.quorum⟩) (fun n id h => h.register)

lemma Node.RosterInv.receive (packet : Packet) (now : ℕ) :
    (dsppRxDispatch n packet now).1.RosterInv := by
  have hc := h.of_fixedPart (processConsensusPacket_fixedPart n packet now)
  have hp := h.of_frame (processPartitionConsensusPacket_frame n packet now)
  unfold dsppRxDispatch
  split <;> first | exact hc | exact hp

end

def clusterBoot (nodeId : ℕ) (peers : List ℕ) : Node :=
  peers.foldl (fun n p => (clusterRegisterPeer n p).1) (clusterInit Node.unset nodeId).1

lemma clusterBoot_induction {P : Node → Prop} (h0 : P (clusterInit Node.unset nodeId).1)
    (hreg : ∀ n id, P n → P (clusterRegisterPeer n id).1) : P (clusterBoot nodeId peers) := by
  unfold clusterBoot
  generalize (clusterInit Node.unset nodeId).1 = n at h0
  induction peers generalizing n with
  | nil => exact h0
  | cons p ps ih => exact ih _ (hreg n p h0)

lemma clusterBoot_election (h : nodeId ≠ 0) (peers : List ℕ) :
    (clusterBoot nodeId peers).election = (nodeId, 0, .follower, 1, []) := by
  refine clusterBoot_induction (P := fun n => n.election = (nodeId, 0, .follower, 1, []))
    ?_ fun n id hn => by rw [clusterRegisterPeer_election, hn]
  simp [clusterInit, h, clusterRecomputeQuorum, Node.election, Node.unset]

def System.boot (m : Membership ι) (peers : ι → List ℕ) : System ι where
  node i := clusterBoot (m.nodeId i) (peers i)
  wire := []
  delivered := []

lemma System.rosterInv_step [DecidableEq ι] {s : System ι} (h : ∀ i, (s.node i).RosterInv) :
    ∀ i, ((s.step act).node i).RosterInv := by
  have hafter : ∀ j r d, r.1.RosterInv → ∀ i, ((s.after j r d).node i).RosterInv := by
    intro j r d hr i
    by_cases hij : i = j
    · subst hij; simpa [System.after] using hr
    · simpa [System.after, hij] using h i
  cases act with
  | op j o => exact hafter j _ _ ((h j).op o)
  | deliver k j now =>
    simp only [System.step]
    split
    · exact h
    · split_ifs
      · exact h
      · exact hafter j _ _ ((h j).receive _ now)

lemma System.rosterInv_boot (i : ι) : ((System.boot m peers).node i).RosterInv :=
  clusterBoot_induction (clusterInit_rosterInv (m.nonzero i)) fun _ _ hn => hn.register

def Membership.numbered (size : ℕ) (h : size < 2 ^ 32) : Membership (Fin size) where
  nodeId i := i + 1
  injective i j hij := Fin.ext (Nat.succ.inj hij)
  nonzero i := Nat.succ_ne_zero i
  lt i := by omega

/-- The roster of node `i` is exactly the other nodes, all active. -/
def Membership.Complete (m : Membership ι) (i : ι) (n : Node) : Prop :=
  ∀ id, ⟨id, true⟩ ∈ n.roster ↔ ∃ j, j ≠ i ∧ m.nodeId j = id

lemma Membership.complete_iff : m.Complete i n ↔
    (∀ p ∈ n.roster, p.active → ∃ j, j ≠ i ∧ m.nodeId j = p.nodeId) ∧
      ∀ j, j ≠ i → ⟨m.nodeId j, true⟩ ∈ n.roster := by
  constructor
  · intro h
    refine ⟨fun p hp hact => (h p.nodeId).mp ?_, fun j hj => (h _).mpr ⟨j, hj, rfl⟩⟩
    rwa [← hact]
  rintro ⟨hsub, hall⟩ id
  refine ⟨fun hp => hsub _ hp rfl, ?_⟩
  rintro ⟨j, hj, rfl⟩
  exact hall j hj

instance (m : Membership ι) [Fintype ι] [DecidableEq ι] (i : ι) (n : Node) :
    Decidable (m.Complete i n) :=
  decidable_of_iff _ Membership.complete_iff.symm

lemma Node.RosterInv.threshold_of_complete [Fintype ι] [DecidableEq ι] (h : n.RosterInv)
    (hc : m.Complete i n) :
    n.state.stableQuorumThreshold = Fintype.card ι / 2 + 1 := by
  have hids : ((n.roster.filter (·.active)).map (·.nodeId)).toFinset
      = (Finset.univ.erase i).image m.nodeId := by
    ext id
    simp only [mem_toFinset, mem_map, mem_filter, Finset.mem_image,
      Finset.mem_erase, Finset.mem_univ, and_true]
    rw [← hc id]
    constructor
    · rintro ⟨⟨x, b⟩, ⟨hp, hb⟩, rfl⟩
      obtain rfl : b := hb
      exact hp
    · exact fun hp => ⟨_, ⟨hp, rfl⟩, rfl⟩
  have hnodup : ((n.roster.filter (·.active)).map (·.nodeId)).Nodup :=
    h.nodup.sublist (filter_sublist.map _)
  have hcount : n.roster.countP (·.active) + 1 = Fintype.card ι := by
    rw [countP_eq_length_filter, ← length_map (·.nodeId),
      ← toFinset_card_of_nodup hnodup, hids, Finset.card_image_of_injective _ m.injective,
      Finset.card_erase_of_mem (Finset.mem_univ i), Finset.card_univ]
    exact Nat.sub_add_cancel (Fintype.card_pos_iff.mpr ⟨i⟩)
  rw [h.quorum, Nat.add_comm 1, hcount]

end AeroSLS.Consensus
