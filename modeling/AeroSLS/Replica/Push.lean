import AeroSLS.Replica.Band

namespace AeroSLS.Replica

open List

def envReplicaLiveQuery (dir : List DirEntry) (partitionId index seqLow : ℕ) : ℕ :=
  match dir.find? fun e => e.valid && e.partitionId == partitionId && e.index == index with
  | none => 1
  | some e => if e.seq % 2 ^ 32 < seqLow then 2 else 0

/-- An answer on the wire: the node that gave it, the question, and the directory it was
answered from. -/
structure Answer where
  node : ℕ
  partitionId : ℕ
  index : ℕ
  seqLow : ℕ
  dir : List DirEntry

def Answer.status (a : Answer) : ℕ := envReplicaLiveQuery a.dir a.partitionId a.index a.seqLow

/-- `er_confirm_gen` and the last answer. -/
structure Confirm where
  gen : ℕ
  partitionId : ℕ
  index : ℕ
  status : ℕ

def envReplicaConfirmNote (c : Confirm) (a : Answer) : Confirm :=
  ⟨c.gen + 1, a.partitionId, a.index, if a.status = 0 then 0 else 1⟩

/-- A question: the answers that arrive before each look, and those while pacing. -/
structure Try where
  looks : List (List Answer)
  pace : List Answer

def Confirm.fresh (c : Confirm) (gen partitionId index : ℕ) : Bool :=
  c.gen != gen && c.partitionId == partitionId && c.index == index

/-- The wait for an answer to one question. -/
def await (gen partitionId index : ℕ) (c : Confirm) : List (List Answer) → Confirm × Option ℕ
  | [] => (c, none)
  | as :: looks =>
    let c := as.foldl envReplicaConfirmNote c
    if c.fresh gen partitionId index then (c, some c.status)
    else await gen partitionId index c looks

def erConfirmFinalized (partitionId index : ℕ) (c : Confirm) (sawAnswer : Bool) :
    List Try → Confirm × ℕ
  | [] => (c, if sawAnswer then 1 else 2)
  | t :: tries =>
    match await c.gen partitionId index c t.looks with
    | (c, some 0) => (c, 0)
    | (c, r) => erConfirmFinalized partitionId index (t.pace.foldl envReplicaConfirmNote c)
        (sawAnswer || r.isSome) tries

/-- A peer: what arrives while the pages are sent, whether they are acknowledged, and the
questions put to it. -/
structure Visit where
  active : Bool
  nodeId : ℕ
  stream : List Answer
  sent : Bool
  tries : List Try

/-- The peer is sent the record and asked for it. -/
def Visit.asked (local_ : ℕ) (v : Visit) : Bool :=
  v.active && v.nodeId != 0 && v.nodeId != local_ && v.sent

def confirmTries : ℕ := 6

def envReplicaPush (local_ partitionId index : ℕ) (c : Confirm) : List Visit → ℕ
  | [] => 0
  | v :: roster =>
    if v.active = false ∨ v.nodeId = 0 ∨ v.nodeId = local_ then
      envReplicaPush local_ partitionId index c roster
    else
      let c := v.stream.foldl envReplicaConfirmNote c
      if v.sent = false then envReplicaPush local_ partitionId index c roster
      else match erConfirmFinalized partitionId index c false (v.tries.take confirmTries) with
        | (c, 0) => envReplicaPush local_ partitionId index c roster + 1
        | (c, _) => envReplicaPush local_ partitionId index c roster

variable {c : Confirm} {as : List Answer}

lemma exists_of_fresh (h : (as.foldl envReplicaConfirmNote c).fresh g p i = true)
    (hc : c.fresh g p i = false) : ∃ a ∈ as, a.partitionId = p ∧ a.index = i ∧
      (as.foldl envReplicaConfirmNote c).status = if a.status = 0 then 0 else 1 := by
  rcases eq_nil_or_concat' as with rfl | ⟨as, a, rfl⟩
  · rw [foldl_nil, hc] at h
    cases h
  · rw [foldl_append] at h ⊢
    refine ⟨a, by simp, ?_⟩
    simp [Confirm.fresh, envReplicaConfirmNote] at h ⊢
    exact ⟨h.1.2, h.2⟩

lemma exists_of_await {looks : List (List Answer)} (hc : c.fresh g p i = false)
    (h : (await g p i c looks).2 = some 0) :
    ∃ as ∈ looks, ∃ a ∈ as, a.partitionId = p ∧ a.index = i ∧ a.status = 0 := by
  induction looks generalizing c with
  | nil => cases h
  | cons as looks ih =>
    unfold await at h
    dsimp only at h
    split_ifs at h with hfresh
    · obtain ⟨a, ha, hp, hi, hst⟩ := exists_of_fresh hfresh hc
      grind
    · obtain ⟨bs, hbs, h⟩ := ih (by simpa using hfresh) h
      exact ⟨bs, mem_cons_of_mem _ hbs, h⟩

lemma exists_of_confirmed {tries : List Try} {saw : Bool}
    (h : (erConfirmFinalized p i c saw tries).2 = 0) :
    ∃ t ∈ tries, ∃ as ∈ t.looks, ∃ a ∈ as, a.partitionId = p ∧ a.index = i ∧ a.status = 0 := by
  induction tries generalizing c saw with
  | nil => grind [erConfirmFinalized]
  | cons t tries ih =>
    unfold erConfirmFinalized at h
    split at h
    · rename_i heq
      refine ⟨t, by simp, exists_of_await (c := c) (g := c.gen) (by simp [Confirm.fresh]) ?_⟩
      rw [heq]
    · obtain ⟨t', ht', h⟩ := ih h
      exact ⟨t', mem_cons_of_mem _ ht', h⟩

/-- The directory has a valid entry of the identity that is not older. -/
def Holds (dir : List DirEntry) (partitionId index seq : ℕ) : Prop :=
  ∃ e ∈ dir, e.valid = true ∧ e.partitionId = partitionId ∧ e.index = index ∧ seq ≤ e.seq

lemma holds_of_status {a : Answer} {seq : ℕ} (h : a.status = 0) (hlow : a.seqLow = seq) :
    Holds a.dir a.partitionId a.index seq := by
  unfold Answer.status envReplicaLiveQuery at h
  split at h
  · cases h
  · rename_i e he
    refine ⟨e, mem_of_find?_eq_some he, ?_⟩
    split_ifs at h
    grind

lemma push_skips {v : Visit} (roster : List Visit) (h : ¬v.asked l) : ∃ c',
    envReplicaPush l p i c (v :: roster) = envReplicaPush l p i c' roster := by
  rw [envReplicaPush]
  split_ifs
  · exact ⟨_, rfl⟩
  · exact ⟨_, rfl⟩
  · simp_all [Visit.asked]

/-- `n` distinct peers of the roster hold the replica, each in one of its directories. -/
def HeldBy (during : ℕ → List DirEntry → Prop) (roster : List Visit)
    (partitionId index seq n : ℕ) : Prop :=
  ∃ nodes : List ℕ, nodes.Nodup ∧ nodes ⊆ roster.map (·.nodeId) ∧ nodes.length = n ∧
    ∀ m ∈ nodes, ∃ dir, during m dir ∧ Holds dir partitionId index seq

/-- **A confirmed replica exists**, if the sequence fits the question and every "finalised"
that arrives while a peer is asked is that peer's answer to a question of this push;
`during` are the directories the nodes have while it runs. -/
theorem confirmed_peers_hold (during : ℕ → List DirEntry → Prop) (local_ : ℕ) (rec : EnvCkptRecord)
    (partitionId index : ℕ) (c : Confirm) (roster : List Visit) (hseq : rec.sequence < 2 ^ 32)
    (hnodup : ((roster.filter (·.asked local_)).map (·.nodeId)).Nodup)
    (hown : ∀ v ∈ roster.filter (·.asked local_), ∀ t ∈ v.tries.take confirmTries,
      ∀ as ∈ t.looks, ∀ a ∈ as, a.partitionId = partitionId → a.index = index → a.status = 0 →
        a.node = v.nodeId ∧ a.seqLow = rec.sequence % 2 ^ 32 ∧ during a.node a.dir) :
    HeldBy during (roster.filter (·.asked local_)) partitionId index rec.sequence
      (envReplicaPush local_ partitionId index c roster) := by
  induction roster generalizing c with
  | nil => exact ⟨[], nodup_nil, by simp, rfl, by simp⟩
  | cons v roster ih =>
    by_cases hasked : v.asked local_
    · rw [filter_cons_of_pos hasked] at hnodup hown ⊢
      rw [map_cons, nodup_cons] at hnodup
      have ih := fun c => ih c hnodup.2 fun v hv => hown v (mem_cons_of_mem _ hv)
      simp only [Visit.asked, Bool.and_eq_true, bne_iff_ne] at hasked
      rw [envReplicaPush, if_neg (by simp [hasked])]
      dsimp only
      rw [if_neg (by simp [hasked])]
      split
      · rename_i c' heq
        obtain ⟨nodes, hn, hsub, hlen, hall⟩ := ih c'
        obtain ⟨t, ht, as, has, a, ha, hp, hi, hst⟩ := exists_of_confirmed (congrArg Prod.snd heq)
        obtain ⟨hnode, hlow, hd⟩ := hown v (by simp) t ht as has a ha hp hi hst
        refine ⟨v.nodeId :: nodes, nodup_cons.2 ⟨fun hmem => hnodup.1 (hsub hmem), hn⟩,
          cons_subset_cons _ hsub, by simp [hlen], ?_⟩
        rintro n (_ | ⟨_, hmem⟩)
        · rw [Nat.mod_eq_of_lt hseq] at hlow
          exact ⟨a.dir, hnode ▸ hd, hp ▸ hi ▸ holds_of_status hst hlow⟩
        · exact hall n hmem
      · obtain ⟨nodes, hn, hsub, hlen, hall⟩ := ih _
        exact ⟨nodes, hn, fun n hn => mem_cons_of_mem _ (hsub hn), hlen, hall⟩
    · rw [filter_cons_of_neg hasked] at hnodup hown ⊢
      obtain ⟨c', hskip⟩ := push_skips roster hasked
      rw [hskip]
      exact ih c' hnodup hown

def heldEntry : DirEntry := ⟨1, 0, 0, true, 5, 0, 9, ⟨5, []⟩⟩

/-- The answer of node 2, which holds the replica. -/
def heldAnswer : Answer := ⟨2, 1, 0, 5, [heldEntry]⟩

/-- Both peers answer, node 3 that it holds nothing. -/
theorem confirmed_peers_hold_two :
    let roster : List Visit := [⟨true, 2, [], true, [⟨[[heldAnswer]], []⟩]⟩,
      ⟨true, 3, [], true, [⟨[[⟨3, 1, 0, 5, []⟩]], []⟩]⟩, ⟨false, 3, [], false, []⟩]
    envReplicaPush 9 1 0 ⟨0, 0, 0, 0⟩ roster = 1 ∧
      HeldBy (fun n dir => dir = if n = 2 then [heldEntry] else []) (roster.filter (·.asked 9))
        1 0 5 (envReplicaPush 9 1 0 ⟨0, 0, 0, 0⟩ roster) := by
  intro roster
  refine ⟨by decide, confirmed_peers_hold _ 9 ⟨5, []⟩ 1 0 _ roster (by decide) (by decide) ?_⟩
  simp [roster, heldAnswer, Visit.asked, confirmTries, Answer.status, envReplicaLiveQuery]

/-- The answer of node 2 arrives twice and confirms node 3 as well, which holds nothing. -/
theorem confirmed_by_a_copy :
    let roster : List Visit := [⟨true, 2, [], true, [⟨[[heldAnswer]], []⟩]⟩,
      ⟨true, 3, [], true, [⟨[[heldAnswer]], []⟩]⟩]
    ¬HeldBy (fun n dir => dir = if n = 2 then [heldEntry] else []) roster 1 0 5
      (envReplicaPush 9 1 0 ⟨0, 0, 0, 0⟩ roster) := by
  rintro roster ⟨nodes, hnodup, -, hlen, hall⟩
  have hsub : nodes ⊆ [2] := by
    intro n hn
    obtain ⟨dir, rfl, e, he, -⟩ := hall n hn
    grind
  have hle := (subperm_of_subset hnodup hsub).length_le
  rw [hlen] at hle
  exact absurd hle (by decide)

end AeroSLS.Replica
