import AeroSLS.Consensus.Frame
import AeroSLS.Lib.Ballot
import AeroSLS.Lib.Machine

namespace AeroSLS.Consensus

open List Option

variable {ι : Type*} {fits : Prop} {p : Packet} {v : ι}

/-- The nodes of a cluster carry distinct nonzero 32-bit ids. -/
structure Membership (ι : Type*) where
  nodeId : ι → ℕ
  injective : Function.Injective nodeId
  nonzero : ∀ i, nodeId i ≠ 0
  lt : ∀ i, nodeId i < 2 ^ 32

structure System (ι : Type*) where
  node : ι → Node
  /-- Every frame broadcast so far, with its sender. -/
  wire : List (Packet × ι)
  /-- The deliveries that took place: frame number and receiver. -/
  delivered : List (ℕ × ι)

/-- The calls a node makes on its own; `owner` is any change of the ownership table, which the
leases read. -/
inductive Op
  | tick (now : ℕ)
  | campaign (now : ℕ)
  | leaseTick (partitionId now : ℕ)
  | leaseElection (partitionId now : ℕ)
  | leaseStepDown (partitionId : ℕ)
  | owner (rows : List (ℕ × ℕ))
  | drain

def Op.run (n : Node) : Op → Node × List Packet
  | .tick now => checkConsensusHeartbeatTick n now
  | .campaign now => triggerKernelElectionCampaign n now
  | .leaseTick p now => partitionLeaseHeartbeatTick n p now
  | .leaseElection p now => partitionLeaseTriggerElection n p now
  | .leaseStepDown p => ((partitionLeaseStepDown n p).1, [])
  | .owner rows => ({ n with owners := rows }, [])
  | .drain => ((clusterDrainDiscoveredPeers n).1, [])

/-- Everything a node can be made to do: one of its own calls, or a received frame. -/
inductive Call
  | op (o : Op)
  | receive (packet : Packet) (now : ℕ)

def Call.run (n : Node) : Call → Node × List Packet
  | .op o => o.run n
  | .receive packet now => dsppRxDispatch n packet now

def Call.input : Call → Option Packet
  | .op _ => none
  | .receive packet _ => some packet

inductive Action (ι : Type*)
  | op (i : ι) (o : Op)
  | deliver (k : ℕ) (i : ι) (now : ℕ)

section Step

variable [DecidableEq ι]

def System.after (s : System ι) (i : ι) (r : Node × List Packet) (d : List (ℕ × ι)) : System ι where
  node := Function.update s.node i r.1
  wire := s.wire ++ r.2.map fun p => (p, i)
  delivered := d

def System.step (s : System ι) : Action ι → System ι
  | .op i o => s.after i (o.run (s.node i)) s.delivered
  | .deliver k i now =>
    match s.wire[k]? with
    | none => s
    | some (packet, _) =>
      if (k, i) ∈ s.delivered then s
      else s.after i (dsppRxDispatch (s.node i) packet now) ((k, i) :: s.delivered)

abbrev System.run (s : System ι) (acts : List (Action ι)) : System ι :=
  Machine.run System.step s acts

abbrev System.Always (s : System ι) (P : System ι → Action ι → Prop) (acts : List (Action ι)) :
    Prop :=
  Machine.Always System.step P s acts

end Step

def NodeRole.toBallot : NodeRole → Ballot.Role
  | .follower => .follower
  | .candidate => .candidate
  | .leader => .leader

structure Channel where
  view : Node → Ballot.Voter
  request : Packet → Option (ℕ × ℕ)
  grant : Packet → Option (ℕ × ℕ)
  /-- A campaign the call may start does not wrap the 32-bit term. -/
  fits : Node → Op → Prop

/-- A frame that carries neither a request nor a grant of the channel. -/
def Channel.Quiet (ch : Channel) (p : Packet) : Prop := ch.request p = none ∧ ch.grant p = none

/-- The moves one call may make in a channel, for the frame `inp` it was handed and the frames
`out` it sends. -/
inductive Channel.Move (ch : Channel) (fits : Prop) (n n' : Node) (inp : Option Packet)
    (out : List Packet) : Prop
  | idle (hv : ch.view n' = ch.view n) (hq : ∀ p ∈ out, ch.Quiet p)
  | yield (ht : (ch.view n).term ≤ (ch.view n').term) (hr : (ch.view n').role = .follower)
      (hq : ∀ p ∈ out, ch.Quiet p)
  | campaign (t : ℕ) (hi : inp = none) (ht : fits → (ch.view n).term < t)
      (hv : ch.view n' = ⟨t, .candidate, 1⟩)
      (hq : ∀ p ∈ out, ch.grant p = none ∧ ∀ r, ch.request p = some r → r = (n.state.nodeId, t))
  | grant (p r : Packet) (c t : ℕ) (hp : inp = some p) (hreq : ch.request p = some (c, t))
      (ht : (ch.view n).term < t) (hterm : (ch.view n').term = t)
      (hr : (ch.view n').role = .follower) (ho : out = [r])
      (hg : ch.grant r = some (c, t)) (hrr : ch.request r = none)
  | count (p : Packet) (hp : inp = some p)
      (hg : ch.grant p = some (n.state.nodeId, (ch.view n).term))
      (hc : (ch.view n).role = .candidate)
      (hv : ch.view n' =
        { ch.view n with votes := ((ch.view n).votes + 1) % 2 ^ 32 })
      (hq : ∀ p ∈ out, ch.Quiet p)
  | win (p : Packet) (hp : inp = some p)
      (hg : ch.grant p = some (n.state.nodeId, (ch.view n).term))
      (hc : (ch.view n).role = .candidate)
      (hterm : (ch.view n').term = (ch.view n).term) (hr : (ch.view n').role = .leader)
      (hQ : n.state.stableQuorumThreshold ≤ ((ch.view n).votes + 1) % 2 ^ 32)
      (hq : ∀ p ∈ out, ch.Quiet p)

lemma Channel.Move.of_start {ch : Channel} {n0 n n' : Node} {inp : Option Packet}
    {out : List Packet} (h : ch.Move fits n n' inp out) (hv : ch.view n = ch.view n0)
    (hs : n.state = n0.state) : ch.Move fits n0 n' inp out := by
  cases h with
  | idle he hq => exact .idle (he.trans hv) hq
  | yield ht hr hq => exact .yield (hv ▸ ht) hr hq
  | campaign t hi ht he hq => exact .campaign t hi (hv ▸ ht) he (hs ▸ hq)
  | grant p r c t hp hreq ht hterm hr ho hg hrr =>
    exact .grant p r c t hp hreq (hv ▸ ht) hterm hr ho hg hrr
  | count p hp hg hc he hq => exact .count p hp (hv ▸ hs ▸ hg) (hv ▸ hc) (hv ▸ he) hq
  | win p hp hg hc hterm hr hQ hq =>
    exact .win p hp (hv ▸ hs ▸ hg) (hv ▸ hc) (hv ▸ hterm) hr (hv ▸ hs ▸ hQ) hq

/-- Every call makes one of the moves. -/
structure Channel.Sound (ch : Channel) : Prop where
  op : ∀ n o, ch.Move (ch.fits n o) n (o.run n).1 none (o.run n).2
  receive : ∀ n p now,
    ch.Move True n (dsppRxDispatch n p now).1 (some p) (dsppRxDispatch n p now).2

variable (m : Membership ι) (ch : Channel)

/-- The ballot `a` explains what channel `ch` of the cluster `s` has done. -/
structure Sim (a : Ballot.State ι) (s : System ι) : Prop where
  ids : ∀ i, (s.node i).state.nodeId = m.nodeId i
  view : ∀ i, a.voter i = ch.view (s.node i)
  requests : ∀ p v, (p, v) ∈ s.wire → ∀ r, ch.request p = some r → r.1 = m.nodeId v
  grants : ∀ p v, (p, v) ∈ s.wire → ∀ r, ch.grant p = some r →
    ∃ c, m.nodeId c = r.1 ∧ a.cast v r.2 = some c
  unique : ∀ (k k' : ℕ) p p' v r r', s.wire[k]? = some (p, v) → s.wire[k']? = some (p', v) →
    ch.grant p = some r → ch.grant p' = some r' → r.2 = r'.2 → k = k'
  mail : ∀ (k : ℕ) p v c t, s.wire[k]? = some (p, v) → ch.grant p = some (m.nodeId c, t) →
    (k, c) ∉ s.delivered → (v, c, t) ∈ a.mail

variable {m ch} [DecidableEq ι] {a : Ballot.State ι} {s : System ι} {i : ι} {n' : Node}
  {inp : Option Packet} {out : List Packet} {d : List (ℕ × ι)} {Q : ℕ}

/-- Node `i` is handed the frame `inp`: none, or one it has not received yet. -/
def System.Hands (s : System ι) (i : ι) (inp : Option Packet) (d : List (ℕ × ι)) : Prop :=
  (inp = none ∧ d = s.delivered) ∨
    ∃ k p v, inp = some p ∧ s.wire[k]? = some (p, v) ∧ (k, i) ∉ s.delivered ∧
      d = (k, i) :: s.delivered

omit [DecidableEq ι] in
lemma System.Hands.delivered_sub (h : s.Hands i inp d) {x : ℕ × ι} (hx : x ∉ d) :
    x ∉ s.delivered := by
  rcases h with ⟨-, rfl⟩ | ⟨k, p, v, -, -, -, rfl⟩
  · exact hx
  · exact fun hm => hx (mem_cons_of_mem _ hm)

lemma mem_wire_after (h : (p, v) ∈ (s.after i (n', out) d).wire) :
    (p, v) ∈ s.wire ∨ (p ∈ out ∧ v = i) := by
  rcases mem_append.mp h with h | h
  · exact .inl h
  · grind

lemma getElem_wire_after {k : ℕ} (h : (s.after i (n', out) d).wire[k]? = some (p, v)) :
    s.wire[k]? = some (p, v) ∨ (s.wire.length ≤ k ∧ out[k - s.wire.length]? = some p ∧ v = i) := by
  change (s.wire ++ out.map fun p => (p, i))[k]? = some (p, v) at h
  rcases lt_or_ge k s.wire.length with hk | hk
  · grind
  rw [getElem?_append_right hk, getElem?_map] at h
  obtain ⟨q, hq, he⟩ := map_eq_some_iff.mp h
  obtain ⟨rfl, rfl⟩ := Prod.mk.inj he
  exact .inr ⟨hk, hq, rfl⟩

section

variable (h : Sim m ch a s) (hid : n'.state.nodeId = (s.node i).state.nodeId)
include h hid

lemma Sim.ids_after (j : ι) : ((s.after i (n', out) d).node j).state.nodeId = m.nodeId j := by
  by_cases hj : j = i
  · subst hj; simpa [System.after, hid] using h.ids j
  · simpa [System.after, hj] using h.ids j

/-- A call that sends no grant: the ballot only has to follow the voter. -/
theorem Sim.of_no_grant (hview : a'.voter = Function.update a.voter i (ch.view n'))
    (hcast : ∀ v t c, a.cast v t = some c → a'.cast v t = some c)
    (hout : ∀ p ∈ out, ch.grant p = none ∧ ∀ r, ch.request p = some r → r.1 = m.nodeId i)
    (hmail : ∀ (k : ℕ) p v c t, s.wire[k]? = some (p, v) → ch.grant p = some (m.nodeId c, t) →
      (k, c) ∉ d → (v, c, t) ∈ a'.mail) : Sim m ch a' (s.after i (n', out) d) := by
  have hnew : ∀ {k : ℕ} {p v r}, (s.after i (n', out) d).wire[k]? = some (p, v) →
      ch.grant p = some r → s.wire[k]? = some (p, v) := by
    intro k p v r hk hg
    rcases getElem_wire_after hk with hk | ⟨-, ho, -⟩
    · exact hk
    · grind
  constructor
  · exact h.ids_after hid
  · intro j
    by_cases hj : j = i
    · subst hj; simp [System.after, hview]
    · simpa [System.after, hview, hj] using h.view j
  · intro p v hp r hr
    rcases mem_wire_after hp with hp | ⟨ho, rfl⟩
    · exact h.requests p v hp r hr
    · exact (hout p ho).2 r hr
  · intro p v hp r hr
    rcases mem_wire_after hp with hp | ⟨ho, rfl⟩
    · grind [h.grants]
    · rw [(hout p ho).1] at hr
      cases hr
  · intro k k' p p' v r r' hk hk' hr hr' ht
    exact h.unique k k' p p' v r r' (hnew hk hr) (hnew hk' hr') hr hr' ht
  · intro k p v c t hk hg hd
    exact hmail k p v c t (hnew hk hg) hg hd

theorem Sim.of_grant (ha : Ballot.Inv Q a) {r : Packet} {c : ι} {t : ℕ}
    (ht : (a.voter i).term < t) (hterm : (ch.view n').term = t)
    (hrole : (ch.view n').role = .follower) (hg : ch.grant r = some (m.nodeId c, t))
    (hrr : ch.request r = none) (hd : ∀ x, x ∉ d → x ∉ s.delivered) :
    ∃ a', Ballot.Steps Q a a' ∧ Sim m ch a' (s.after i (n', [r]) d) := by
  refine ⟨_, .single (.grant i c t (ch.view n').votes ht), ?_⟩
  have hnone := ha.cast_none ht
  -- no earlier grant of node `i` is in term `t`
  have hfresh : ∀ p, (p, i) ∈ s.wire → ∀ x, ch.grant p = some x → x.2 ≠ t := by grind [h.grants]
  have hlast : ∀ {k : ℕ} {p : Packet}, s.wire.length ≤ k → [r][k - s.wire.length]? = some p →
      p = r ∧ k = s.wire.length := by
    intro k p hk ho
    have h0 : k - s.wire.length = 0 := by grind
    rw [h0] at ho
    exact ⟨by simpa using ho.symm, by omega⟩
  constructor
  · exact h.ids_after hid
  · intro j
    by_cases hj : j = i
    · subst hj
      simp [System.after, Ballot.State.castVote, Ballot.State.setVoter, ← hterm, ← hrole]
    · simpa [System.after, Ballot.State.castVote, Ballot.State.setVoter, hj] using h.view j
  · intro p v hp x hx
    rcases mem_wire_after hp with hp | ⟨ho, rfl⟩
    · exact h.requests p v hp x hx
    · simp [mem_singleton.mp ho, hrr] at hx
  · intro p v hp x hx
    rcases mem_wire_after hp with hp | ⟨ho, rfl⟩
    · obtain ⟨y, hy, hcast⟩ := h.grants p v hp x hx
      exact ⟨y, hy, ha.cast_kept ht _ hcast⟩
    · rw [mem_singleton.mp ho, hg] at hx
      obtain rfl := some.inj hx
      exact ⟨c, rfl, by simp [Ballot.State.castVote]⟩
  · intro k k' p p' v x x' hk hk' hx hx' he
    rcases getElem_wire_after hk with hw | ⟨hl, ho, hv⟩ <;>
      rcases getElem_wire_after hk' with hw' | ⟨hl', ho', hv'⟩
    · exact h.unique k k' p p' v x x' hw hw' hx hx' he
    · obtain ⟨rfl, -⟩ := hlast hl' ho'
      subst hv'
      rw [hg] at hx'
      obtain rfl := some.inj hx'
      exact absurd he (hfresh p (mem_of_getElem? hw) x hx)
    · obtain ⟨rfl, -⟩ := hlast hl ho
      subst hv
      rw [hg] at hx
      obtain rfl := some.inj hx
      exact absurd he.symm (hfresh p' (mem_of_getElem? hw') x' hx')
    · rw [(hlast hl ho).2, (hlast hl' ho').2]
  · intro k p v y u hk hy hdel
    rcases getElem_wire_after hk with hw | ⟨hl, ho, rfl⟩
    · exact Set.mem_insert_of_mem _ (h.mail k p v y u hw hy (hd _ hdel))
    obtain ⟨rfl, -⟩ := hlast hl ho
    rw [hg] at hy
    obtain ⟨hcy, rfl⟩ := Prod.mk.inj (some.inj hy)
    rw [m.injective hcy]
    exact Set.mem_insert _ _

theorem Sim.after [Fintype ι] (ha : Ballot.Inv Q a) (hcard : Fintype.card ι < 2 ^ 32)
    (hmove : ch.Move fits (s.node i) n' inp out) (hfits : fits) (hin : s.Hands i inp d)
    (hQ : ∀ p, inp = some p →
      ch.grant p = some ((s.node i).state.nodeId, (ch.view (s.node i)).term) →
      (ch.view (s.node i)).role = .candidate → Q ≤ (s.node i).state.stableQuorumThreshold) :
    ∃ a', Ballot.Steps Q a a' ∧ Sim m ch a' (s.after i (n', out) d) := by
  have hv := h.view i
  have hquiet : (∀ p ∈ out, ch.Quiet p) →
      ∀ p ∈ out, ch.grant p = none ∧ ∀ r, ch.request p = some r → r.1 = m.nodeId i := by
    intro hq p hp
    refine ⟨(hq p hp).2, fun r hr => ?_⟩
    simp [(hq p hp).1] at hr
  have hkeep : ∀ (k : ℕ) p v c t, s.wire[k]? = some (p, v) →
      ch.grant p = some (m.nodeId c, t) → (k, c) ∉ d → (v, c, t) ∈ a.mail :=
    fun k p v c t hk hg hd => h.mail k p v c t hk hg (hin.delivered_sub hd)
  -- the letter behind a counted grant, and that no other frame repeats it
  have hletter : ∀ p, inp = some p →
      ch.grant p = some ((s.node i).state.nodeId, (ch.view (s.node i)).term) →
      ∃ v, (v, i, (a.voter i).term) ∈ a.mail ∧
        ∀ (k : ℕ) p' v' c t, s.wire[k]? = some (p', v') → ch.grant p' = some (m.nodeId c, t) →
          (k, c) ∉ d → (v', c, t) ∈ a.mail \ {(v, i, (a.voter i).term)} := by
    intro p hp hg
    rcases hin with ⟨hnone, -⟩ | ⟨k, q, v, hq, hk, hnd, rfl⟩
    · simp [hnone] at hp
    obtain rfl := some.inj (hq.symm.trans hp)
    rw [h.ids i, ← hv] at hg
    refine ⟨v, h.mail k q v i _ hk hg hnd, ?_⟩
    intro k' p' v' c t hk' hg' hd'
    refine ⟨h.mail k' p' v' c t hk' hg' (fun hm => hd' (mem_cons_of_mem _ hm)), ?_⟩
    intro he
    obtain ⟨rfl, rfl, rfl⟩ : v' = v ∧ c = i ∧ t = (a.voter i).term := by simpa using he
    have := h.unique k' k p' q v' _ _ hk' hk hg' hg rfl
    exact hd' (by simp [this])
  cases hmove with
  | idle hvw hq =>
    refine ⟨a, .refl, h.of_no_grant hid ?_ (fun _ _ _ hc => hc) (hquiet hq) hkeep⟩
    rw [hvw, ← hv, Function.update_eq_self]
  | yield ht hr hq =>
    refine ⟨_, .single (.yield i (ch.view n').term (ch.view n').votes (by rw [hv]; exact ht)),
      h.of_no_grant hid ?_ (fun _ _ _ hc => hc) (hquiet hq) hkeep⟩
    simp [Ballot.State.setVoter, ← hr]
  | campaign t _ ht hvw hq =>
    have hta : (a.voter i).term < t := by rw [hv]; exact ht hfits
    refine ⟨_, .single (.campaign i t hta), h.of_no_grant hid ?_ ?_ ?_ hkeep⟩
    · simp [Ballot.State.setVoter, Ballot.State.castVote, hvw]
    · exact fun _ _ _ hc => ha.cast_kept hta _ hc
    · grind [h.ids]
  | grant p r c t hp hreq ht hterm hr ho hg hrr =>
    subst ho
    obtain ⟨k, q, v, hq, hk⟩ : ∃ k q v, inp = some q ∧ s.wire[k]? = some (q, v) := by
      rcases hin with ⟨hnone, -⟩ | ⟨k, q, v, hq, hk, -, -⟩
      · simp [hnone] at hp
      · exact ⟨k, q, v, hq, hk⟩
    obtain rfl := some.inj (hq.symm.trans hp)
    -- the request names its sender, so the vote goes to a node of the cluster
    have hc : c = m.nodeId v := h.requests q v (mem_of_getElem? hk) _ hreq
    subst hc
    exact h.of_grant hid ha (by rw [hv]; exact ht) hterm hr hg hrr
      (fun x hx => hin.delivered_sub hx)
  | count p hp hg hc hvw hq =>
    obtain ⟨v, hmem, hrest⟩ := hletter p hp hg
    have hca : (a.voter i).role = .candidate := by rw [hv]; exact hc
    have hlt := ha.votes_lt_card hca hmem
    refine ⟨_, .single (.count i v hca hmem), h.of_no_grant hid ?_ (fun _ _ _ h => h)
      (hquiet hq) hrest⟩
    rw [hvw, ← hv, Nat.mod_eq_of_lt (by omega)]
    simp [Ballot.State.setVoter]
  | win p hp hg hc hterm hr hthr hq =>
    obtain ⟨v, hmem, hrest⟩ := hletter p hp hg
    have hca : (a.voter i).role = .candidate := by rw [hv]; exact hc
    have hlt := ha.votes_lt_card hca hmem
    have hle := hQ p hp hg hc
    rw [← hv, Nat.mod_eq_of_lt (by omega)] at hthr
    refine ⟨_, .single (.win i v (ch.view n').votes hca hmem (hle.trans hthr)),
      h.of_no_grant hid ?_ (fun _ _ _ h => h) (hquiet hq) hrest⟩
    simp [Ballot.State.setVoter, hv, ← hterm, ← hr]

end

lemma Op.run_nodeId (o : Op) : (o.run n).1.state.nodeId = n.state.nodeId := by
  cases o with
  | tick now => exact congrArg Prod.fst (checkConsensusHeartbeatTick_fixedPart n now)
  | campaign => rfl
  | leaseTick p now => exact congrArg _ (partitionLeaseHeartbeatTick_frame n p now).1
  | leaseElection p now => exact congrArg _ (partitionLeaseTriggerElection_frame n p now).1
  | leaseStepDown p => exact congrArg _ (partitionLeaseStepDown_frame n p).1
  | owner => rfl
  | drain => exact congrArg Prod.fst (clusterDrainDiscoveredPeers_election n)

lemma dsppRxDispatch_identity : (dsppRxDispatch n packet now).1.state.nodeId = n.state.nodeId ∧
      (dsppRxDispatch n packet now).1.state.stableQuorumThreshold =
        n.state.stableQuorumThreshold := by
  have hc := processConsensusPacket_fixedPart n packet now
  simp only [Node.fixedPart, Prod.mk.injEq] at hc
  have hp := (processPartitionConsensusPacket_frame n packet now).1
  unfold dsppRxDispatch
  split
  case h_1 | h_2 | h_3 | h_4 => exact ⟨hc.1, hc.2.1⟩
  all_goals rw [hp]; exact ⟨rfl, rfl⟩

def Channel.Fits (ch : Channel) (s : System ι) : Action ι → Prop
  | .op i o => ch.fits (s.node i) o
  | .deliver _ _ _ => True

/-- An action whose campaigns do not wrap, and whose counted grants find a
threshold of at least `Q`. -/
structure Channel.Admits (ch : Channel) (Q : ℕ) (s : System ι) (act : Action ι) : Prop where
  fits : ch.Fits s act
  quorum : ∀ k i now p v, act = .deliver k i now → s.wire[k]? = some (p, v) →
    ch.grant p = some ((s.node i).state.nodeId, (ch.view (s.node i)).term) →
    (ch.view (s.node i)).role = .candidate → Q ≤ (s.node i).state.stableQuorumThreshold

lemma Sim.step [Fintype ι] (hs : ch.Sound) (h : Sim m ch a s) (ha : Ballot.Inv Q a)
    (hcard : Fintype.card ι < 2 ^ 32) {act : Action ι} (hact : ch.Admits Q s act) :
    ∃ a', Ballot.Steps Q a a' ∧ Sim m ch a' (s.step act) := by
  cases act with
  | op i o =>
    exact h.after (Op.run_nodeId o) ha hcard (hs.op _ o) hact.fits (.inl ⟨rfl, rfl⟩)
      (fun p hp => by cases hp)
  | deliver k i now =>
    simp only [System.step]
    split
    · exact ⟨a, .refl, h⟩
    next p v hk =>
    split_ifs with hd
    · exact ⟨a, .refl, h⟩
    refine h.after dsppRxDispatch_identity.1 ha hcard (hs.receive _ p now) trivial
      (.inr ⟨k, p, v, rfl, hk, hd, rfl⟩) ?_
    intro q hq
    obtain rfl := some.inj hq
    exact hact.quorum k i now p v rfl hk

/-- Nobody stands and nothing was sent. -/
structure Channel.Fresh (ch : Channel) (m : Membership ι) (s : System ι) : Prop where
  ids : ∀ i, (s.node i).state.nodeId = m.nodeId i
  role : ∀ i, (ch.view (s.node i)).role = .follower
  wire : s.wire = []

omit [DecidableEq ι] in
lemma Channel.Fresh.sim (h : ch.Fresh m s) : ∃ a, Ballot.Inv Q a ∧ Sim m ch a s := by
  refine ⟨⟨fun i => ch.view (s.node i), fun _ _ => none, ∅, fun _ => ∅⟩,
    Ballot.inv_start h.role (fun _ _ => rfl) rfl, h.ids, fun _ => rfl, ?_, ?_, ?_, ?_⟩
  all_goals simp [h.wire]

omit [DecidableEq ι] in
lemma Membership.card_lt [Fintype ι] (m : Membership ι) : Fintype.card ι < 2 ^ 32 := by
  have hpred : ∀ i, m.nodeId i - 1 < 2 ^ 32 - 1 := by
    intro i
    have := m.lt i
    omega
  have hinj : Function.Injective fun i => (⟨m.nodeId i - 1, hpred i⟩ : Fin (2 ^ 32 - 1)) := by
    intro i j hij
    have hpos := m.nonzero i
    have hpos' := m.nonzero j
    have heq : m.nodeId i - 1 = m.nodeId j - 1 := congrArg Fin.val hij
    exact m.injective (by omega)
  have := Fintype.card_le_of_injective _ hinj
  rw [Fintype.card_fin] at this
  omega

lemma Channel.Sound.exists_sim [Fintype ι] (hs : ch.Sound) (hfresh : ch.Fresh m s)
    {acts : List (Action ι)} (hacts : s.Always (ch.Admits Q) acts) :
    ∃ a, Ballot.Inv Q a ∧ Sim m ch a (s.run acts) := by
  refine Machine.run_induction (I := fun t => ∃ a, Ballot.Inv Q a ∧ Sim m ch a t)
    hfresh.sim ?_ hacts
  rintro t act ⟨a, ha, hsim⟩ hact
  obtain ⟨a', hsteps, hsim'⟩ := hsim.step hs ha m.card_lt hact
  exact ⟨a', ha.steps hsteps, hsim'⟩

lemma Channel.Sound.leader_unique [Fintype ι] (hs : ch.Sound) (hfresh : ch.Fresh m s)
    {acts : List (Action ι)} (hacts : s.Always (ch.Admits Q) acts)
    (hQ : Fintype.card ι < 2 * max Q 2) {i j : ι}
    (hi : (ch.view ((s.run acts).node i)).role = .leader)
    (hj : (ch.view ((s.run acts).node j)).role = .leader)
    (ht : (ch.view ((s.run acts).node i)).term = (ch.view ((s.run acts).node j)).term) :
    i = j := by
  obtain ⟨a, ha, hsim⟩ := hs.exists_sim hfresh hacts
  rw [← hsim.view] at hi ht
  rw [← hsim.view] at hj ht
  exact ha.leader_unique hQ hi hj ht

omit [DecidableEq ι] in
lemma Channel.Move.term_le (h : ch.Move fits n n' inp out) (hf : fits) :
    (ch.view n).term ≤ (ch.view n').term := by
  cases h with
  | idle hv => rw [hv]
  | yield ht => exact ht
  | campaign t hi ht hv =>
    rw [hv]
    exact (ht hf).le
  | grant p r c t hp hreq ht hterm =>
    rw [hterm]
    exact ht.le
  | count p hp hg hc hv => rw [hv]
  | win p hp hg hc hterm => rw [hterm]

lemma Channel.Sound.term_le (hs : ch.Sound) {act : Action ι} (hf : ch.Fits s act) (i : ι) :
    (ch.view (s.node i)).term ≤ (ch.view ((s.step act).node i)).term := by
  have hafter : ∀ {j r d}, (ch.view (s.node j)).term ≤ (ch.view r.1).term →
      (ch.view (s.node i)).term ≤ (ch.view ((s.after j r d).node i)).term := by
    intro j r d hle
    by_cases hij : i = j
    · subst hij
      simpa [System.after] using hle
    · simp [System.after, hij]
  cases act with
  | op j o => exact hafter ((hs.op _ o).term_le hf)
  | deliver k j now =>
    simp only [System.step]
    split
    · exact le_rfl
    split_ifs
    · exact le_rfl
    · exact hafter ((hs.receive _ _ now).term_le trivial)

end AeroSLS.Consensus
