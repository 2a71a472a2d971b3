import Mathlib.Data.Fintype.Card
import Mathlib.Data.Finset.Card
import Mathlib.Logic.Relation
import Mathlib.Tactic.Common

namespace AeroSLS.Ballot

open Function

inductive Role
  | follower
  | candidate
  | leader
  deriving DecidableEq

structure Voter where
  term : ℕ
  role : Role
  votes : ℕ
  deriving DecidableEq

/-- `mail` holds the grants `(voter, candidate, term)` the candidate has not
read; `cast v t` is the candidate `v` voted for in term `t`; `tally c` is the
set of voters counted in the campaign `c` last started. -/
structure State (ι : Type*) where
  voter : ι → Voter
  cast : ι → ℕ → Option ι
  mail : Set (ι × ι × ℕ)
  tally : ι → Finset ι

variable {ι : Type*} {s : State ι}

/-- Votes bind: a cast vote is never newer than the voter's term, a letter
matches the cast vote, and the votes a candidate has counted are cast for it
and no longer in the mail. -/
structure Inv (Q : ℕ) (s : State ι) : Prop where
  cast_le : ∀ v t c, s.cast v t = some c → t ≤ (s.voter v).term
  mail_cast : ∀ v c t, (v, c, t) ∈ s.mail → s.cast v t = some c
  tally_cast : ∀ c, (s.voter c).role ≠ .follower →
    ∀ v ∈ s.tally c, s.cast v (s.voter c).term = some c
  tally_read : ∀ c, (s.voter c).role ≠ .follower →
    ∀ v ∈ s.tally c, (v, c, (s.voter c).term) ∉ s.mail
  votes_eq : ∀ c, (s.voter c).role = .candidate → (s.voter c).votes = (s.tally c).card
  votes_pos : ∀ c, (s.voter c).role = .candidate → 0 < (s.tally c).card
  elected : ∀ c, (s.voter c).role = .leader → max Q 2 ≤ (s.tally c).card

lemma inv_start (hr : ∀ i, (s.voter i).role = .follower) (hc : ∀ v t, s.cast v t = none)
    (hm : s.mail = ∅) : Inv Q s where
  cast_le v t c h := by simp [hc] at h
  mail_cast v c t h := by simp [hm] at h
  tally_cast c h := absurd (hr c) h
  tally_read c h := absurd (hr c) h
  votes_eq c h := by simp [hr] at h
  votes_pos c h := by simp [hr] at h
  elected c h := by simp [hr] at h

section

variable (h : Inv Q s)
include h

lemma Inv.cast_none (ht : (s.voter v).term < t) : s.cast v t = none := by
  cases hc : s.cast v t with
  | none => rfl
  | some c => exact absurd (h.cast_le v t c hc) (by omega)

lemma Inv.not_mail (ht : (s.voter v).term < t) : (v, c, t) ∉ s.mail := by
  intro hm
  have := h.mail_cast v c t hm
  rw [h.cast_none ht] at this
  cases this

lemma Inv.not_mem_tally (hc : (s.voter c).role = .candidate)
    (hm : (v, c, (s.voter c).term) ∈ s.mail) : v ∉ s.tally c := by
  intro hv
  exact h.tally_read c (by simp [hc]) v hv hm

lemma Inv.tally_disjoint (hcd : c ≠ d) (hc : (s.voter c).role = .leader)
    (hd : (s.voter d).role = .leader)
    (ht : (s.voter c).term = (s.voter d).term) : Disjoint (s.tally c) (s.tally d) := by
  rw [Finset.disjoint_left]
  intro v hv hv'
  have h1 := h.tally_cast c (by simp [hc]) v hv
  have h2 := h.tally_cast d (by simp [hd]) v hv'
  rw [ht, h2] at h1
  exact hcd (Option.some.inj h1).symm

lemma Inv.votes_lt_card [Fintype ι] (hc : (s.voter c).role = .candidate)
    (hm : (v, c, (s.voter c).term) ∈ s.mail) :
    (s.voter c).votes < Fintype.card ι := by
  rw [h.votes_eq c hc]
  exact Finset.card_lt_univ_of_notMem (h.not_mem_tally hc hm)

end

variable [DecidableEq ι]

namespace State

def setVoter (s : State ι) (i : ι) (v : Voter) : State ι :=
  { s with voter := update s.voter i v }

def castVote (s : State ι) (v : ι) (t : ℕ) (c : ι) : State ι :=
  { s with cast := update s.cast v (update (s.cast v) t (some c)) }

end State

/-- The moves of the protocol, for winners with at least `Q` votes. -/
inductive Step (Q : ℕ) : State ι → State ι → Prop
  | campaign {s : State ι} (i : ι) (t : ℕ) (ht : (s.voter i).term < t) :
      Step Q s { (s.setVoter i ⟨t, .candidate, 1⟩).castVote i t i with
        tally := update s.tally i {i} }
  | yield {s : State ι} (i : ι) (t n : ℕ) (ht : (s.voter i).term ≤ t) :
      Step Q s (s.setVoter i ⟨t, .follower, n⟩)
  | grant {s : State ι} (v c : ι) (t n : ℕ) (ht : (s.voter v).term < t) :
      Step Q s { (s.setVoter v ⟨t, .follower, n⟩).castVote v t c with
        mail := insert (v, c, t) s.mail }
  | count {s : State ι} (c v : ι) (hc : (s.voter c).role = .candidate)
      (hm : (v, c, (s.voter c).term) ∈ s.mail) :
      Step Q s { s.setVoter c { s.voter c with votes := (s.voter c).votes + 1 } with
        mail := s.mail \ {(v, c, (s.voter c).term)}
        tally := update s.tally c (insert v (s.tally c)) }
  | win {s : State ι} (c v : ι) (n : ℕ) (hc : (s.voter c).role = .candidate)
      (hm : (v, c, (s.voter c).term) ∈ s.mail) (hQ : Q ≤ (s.voter c).votes + 1) :
      Step Q s { s.setVoter c ⟨(s.voter c).term, .leader, n⟩ with
        mail := s.mail \ {(v, c, (s.voter c).term)}
        tally := update s.tally c (insert v (s.tally c)) }

abbrev Steps (Q : ℕ) : State ι → State ι → Prop := Relation.ReflTransGen (Step Q)

open State (castVote setVoter)

variable (h : Inv Q s)
include h

/-- A vote in an unreached term takes no earlier vote back. -/
theorem Inv.cast_kept (ht : (s.voter i).term < t) (w : Voter) (hu : s.cast v u = some d) :
    ((s.setVoter i w).castVote i t c).cast v u = some d := by
  by_cases hv : v = i
  · subst hv
    have hut : u ≠ t := by rintro rfl; simp [h.cast_none ht] at hu
    simp [castVote, setVoter, hut, hu]
  · simp [castVote, setVoter, hv, hu]

lemma Inv.cast_le_vote {w : Voter} (ht : (s.voter i).term < w.term)
    (hu : ((s.setVoter i w).castVote i w.term c).cast v u = some d) :
    u ≤ ((s.setVoter i w).voter v).term := by
  by_cases hv : v = i
  · subst hv
    by_cases hut : u = w.term
    · simp [setVoter, hut]
    · have := h.cast_le v u d (by simpa [castVote, setVoter, hut] using hu)
      simp only [setVoter, update_self]
      omega
  · have := h.cast_le v u d (by simpa [castVote, setVoter, hv] using hu)
    simpa [setVoter, hv] using this

lemma Inv.campaign (i : ι) (ht : (s.voter i).term < t) :
    Inv Q { (s.setVoter i ⟨t, .candidate, 1⟩).castVote i t i with
      tally := update s.tally i {i} } := by
  constructor
  · intro v u c hu
    exact h.cast_le_vote ht hu
  · intro v c u hm
    exact h.cast_kept ht _ (h.mail_cast v c u hm)
  · intro c hc v hv
    by_cases hci : c = i
    · subst hci
      have hvc : v = c := by simpa using hv
      simp [castVote, setVoter, hvc]
    · simp only [castVote, setVoter, update_of_ne hci] at hc hv ⊢
      exact h.cast_kept ht ⟨t, .candidate, 1⟩ (h.tally_cast c hc v hv)
  · intro c hc v hv
    by_cases hci : c = i
    · subst hci
      have hvc : v = c := by simpa using hv
      simpa [castVote, setVoter, hvc] using h.not_mail ht
    · simp only [castVote, setVoter, update_of_ne hci] at hc hv ⊢
      exact h.tally_read c hc v hv
  · intro c hc
    by_cases hci : c = i
    · subst hci; simp [castVote, setVoter]
    · simp only [castVote, setVoter, update_of_ne hci] at hc ⊢
      exact h.votes_eq c hc
  · intro c hc
    by_cases hci : c = i
    · subst hci; simp
    · simp only [castVote, setVoter, update_of_ne hci] at hc ⊢
      exact h.votes_pos c hc
  · intro c hc
    by_cases hci : c = i
    · subst hci; simp [castVote, setVoter] at hc
    · simp only [castVote, setVoter, update_of_ne hci] at hc ⊢
      exact h.elected c hc

/-- A voter that goes back to follower without a vote keeps every promise: only its term may
grow. -/
theorem Inv.yield (i : ι) (n : ℕ) (ht : (s.voter i).term ≤ t) :
    Inv Q (s.setVoter i ⟨t, .follower, n⟩) := by
  have off : ∀ c, ((s.setVoter i ⟨t, .follower, n⟩).voter c).role ≠ .follower →
      (s.setVoter i ⟨t, .follower, n⟩).voter c = s.voter c := by
    intro c hc
    by_cases hci : c = i
    · subst hci; simp [setVoter] at hc
    · simp [setVoter, hci]
  constructor
  · intro v u c hu
    have := h.cast_le v u c hu
    by_cases hv : v = i
    · subst hv; simp [setVoter]; omega
    · simpa [setVoter, hv] using this
  · exact h.mail_cast
  · intro c hc v hv
    have he := off c hc
    rw [he] at hc ⊢
    exact h.tally_cast c hc v hv
  · intro c hc v hv
    have he := off c hc
    rw [he] at hc ⊢
    exact h.tally_read c hc v hv
  · intro c hc
    have he := off c (by simp [hc])
    rw [he] at hc ⊢
    exact h.votes_eq c hc
  · intro c hc
    rw [off c (by simp [hc])] at hc
    exact h.votes_pos c hc
  · intro c hc
    rw [off c (by simp [hc])] at hc
    exact h.elected c hc

/-- Casting a vote in an unreached term, with its letter posted. -/
theorem Inv.grant (v c : ι) (n : ℕ) (ht : (s.voter v).term < t) :
    Inv Q { (s.setVoter v ⟨t, .follower, n⟩).castVote v t c with
      mail := insert (v, c, t) s.mail } := by
  have hy := h.yield v n (le_of_lt ht)
  constructor
  · intro w u d hu
    exact h.cast_le_vote ht hu
  · intro w d u hm
    rcases hm with hm | hm
    · obtain ⟨rfl, rfl, rfl⟩ : w = v ∧ d = c ∧ u = t := by simpa using hm
      simp [castVote]
    · exact h.cast_kept ht _ (h.mail_cast w d u hm)
  · intro d hd w hw
    exact h.cast_kept ht _ (hy.tally_cast d hd w hw)
  · intro d hd w hw hm
    rcases hm with hm | hm
    · obtain ⟨rfl, rfl, hu⟩ : w = v ∧ d = c ∧
          ((s.setVoter v ⟨t, .follower, n⟩).voter d).term = t := by
        simpa [castVote] using hm
      have := hy.tally_cast d hd w hw
      rw [hu] at this
      simp [setVoter, h.cast_none ht] at this
    · exact hy.tally_read d hd w hw hm
  · exact hy.votes_eq
  · exact hy.votes_pos
  · exact hy.elected

/-- Reading one grant puts a new voter in the tally; `w` is what the candidate
becomes. -/
theorem Inv.read (w : Voter) (hc : (s.voter c).role = .candidate)
    (hm : (v, c, (s.voter c).term) ∈ s.mail) (hterm : w.term = (s.voter c).term)
    (hw : (w.role = .candidate ∧ w.votes = (s.voter c).votes + 1) ∨
      (w.role = .leader ∧ Q ≤ (s.voter c).votes + 1)) : Inv Q { s.setVoter c w with
      mail := s.mail \ {(v, c, (s.voter c).term)}
      tally := update s.tally c (insert v (s.tally c)) } := by
  have hv := h.not_mem_tally hc hm
  have hcard : (insert v (s.tally c)).card = (s.voter c).votes + 1 := by
    rw [Finset.card_insert_of_notMem hv, h.votes_eq c hc]
  have hnf : (s.voter c).role ≠ .follower := by simp [hc]
  constructor
  · intro u t d hu
    have := h.cast_le u t d hu
    by_cases huc : u = c
    · subst huc; simpa [setVoter, hterm] using this
    · simpa [setVoter, huc] using this
  · intro u d t hu
    exact h.mail_cast u d t hu.1
  · intro d hd u hu
    by_cases hdc : d = c
    · subst hdc
      simp only [setVoter, update_self, hterm] at hu ⊢
      rcases Finset.mem_insert.mp hu with rfl | hu
      · exact h.mail_cast u d _ hm
      · exact h.tally_cast d hnf u hu
    · simp only [setVoter, update_of_ne hdc] at hd hu ⊢
      exact h.tally_cast d hd u hu
  · intro d hd u hu hmem
    by_cases hdc : d = c
    · subst hdc
      simp only [setVoter, update_self, hterm] at hu hmem
      rcases Finset.mem_insert.mp hu with rfl | hu
      · exact hmem.2 rfl
      · exact h.tally_read d hnf u hu hmem.1
    · simp only [setVoter, update_of_ne hdc] at hd hu hmem
      exact h.tally_read d hd u hu hmem.1
  · intro d hd
    by_cases hdc : d = c
    · subst hdc
      simp only [setVoter, update_self] at hd ⊢
      rcases hw with hw | hw
      · rw [hcard, hw.2]
      · simp [hw.1] at hd
    · simp only [setVoter, update_of_ne hdc] at hd ⊢
      exact h.votes_eq d hd
  · intro d hd
    by_cases hdc : d = c
    · subst hdc; simp
    · simp only [setVoter, update_of_ne hdc] at hd ⊢
      exact h.votes_pos d hd
  · intro d hd
    by_cases hdc : d = c
    · subst hdc
      simp only [setVoter, update_self] at hd ⊢
      rcases hw with hw | hw
      · simp [hw.1] at hd
      have hpos := h.votes_pos d hc
      have heq := h.votes_eq d hc
      rw [hcard]
      exact max_le hw.2 (by omega)
    · simp only [setVoter, update_of_ne hdc] at hd ⊢
      exact h.elected d hd

lemma Inv.step (hs : Step Q s s') : Inv Q s' := by
  cases hs with
  | campaign i t ht => exact h.campaign i ht
  | yield i t n ht => exact h.yield i n ht
  | grant v c t n ht => exact h.grant v c n ht
  | count c v hc hm => exact h.read _ hc hm rfl (.inl ⟨hc, rfl⟩)
  | win c v n hc hm hQ => exact h.read _ hc hm rfl (.inr ⟨rfl, hQ⟩)

lemma Inv.steps (hs : Steps Q s s') : Inv Q s' := by
  induction hs with
  | refl => exact h
  | tail _ hstep ih => exact ih.step hstep

lemma Inv.leader_unique [Fintype ι] (hQ : Fintype.card ι < 2 * max Q 2)
    (hc : (s.voter c).role = .leader) (hd : (s.voter d).role = .leader)
    (ht : (s.voter c).term = (s.voter d).term) : c = d := by
  by_contra hcd
  have hdisj := h.tally_disjoint hcd hc hd ht
  have hle := Finset.card_le_univ (s.tally c ∪ s.tally d)
  rw [Finset.card_union_of_disjoint hdisj] at hle
  have h1 := h.elected c hc
  have h2 := h.elected d hd
  omega

end AeroSLS.Ballot
