import Mathlib.Data.List.Nodup
import Mathlib.Logic.Function.Basic
import Mathlib.Tactic.Common

namespace AeroSLS.Chain

open Function List

variable {next : ℕ → ℕ} {fin head i : ℕ} {l : List ℕ}

/-- Following `next` from `head` visits `l` and then reaches the end marker. -/
def Visits (next : ℕ → ℕ) (fin : ℕ) : ℕ → List ℕ → Prop
  | head, [] => head = fin
  | head, i :: l => head = i ∧ i ≠ fin ∧ Visits next fin (next i) l

lemma Visits.congr (hn : ∀ i ∈ l, next' i = next i) (h : Visits next fin head l) :
    Visits next' fin head l := by
  induction l generalizing head with
  | nil => exact h
  | cons i l ih =>
    obtain ⟨hi, hne, hl⟩ := h
    refine ⟨hi, hne, ?_⟩
    rw [hn i (mem_cons_self ..)]
    exact ih (fun j hj => hn j (mem_cons_of_mem _ hj)) hl

/-- The free list from `head` holds exactly the cells in `F`, without repetition. -/
def FreeList (next : ℕ → ℕ) (fin head : ℕ) (F : ℕ → Prop) : Prop :=
  ∃ l, Visits next fin head l ∧ l.Nodup ∧ ∀ i, i ∈ l ↔ F i

section

variable (h : FreeList next fin head F)
include h

lemma FreeList.congr (hn : ∀ i, F i → next' i = next i) (hF : ∀ i, F' i ↔ F i) :
    FreeList next' fin head F' := by
  obtain ⟨l, hl, hnd, hmem⟩ := h
  refine ⟨l, hl.congr fun i hi => hn i ((hmem i).1 hi), hnd, fun i => ?_⟩
  rw [hmem i, hF i]

lemma FreeList.head_mem (hne : head ≠ fin) : F head := by
  obtain ⟨l, hl, -, hmem⟩ := h
  cases l with
  | nil => exact absurd hl hne
  | cons =>
    obtain ⟨rfl, -, -⟩ := hl
    exact (hmem head).1 (mem_cons_self ..)

lemma FreeList.head_ne (hi : F i) : head ≠ fin := by
  obtain ⟨l, hl, -, hmem⟩ := h
  cases l with
  | nil => exact absurd ((hmem i).2 hi) not_mem_nil
  | cons =>
    obtain ⟨rfl, hne, -⟩ := hl
    exact hne

lemma FreeList.pop (hne : head ≠ fin) : FreeList next fin (next head) fun i => F i ∧ i ≠ head := by
  obtain ⟨l, hl, hnd, hmem⟩ := h
  rcases l with _ | ⟨j, l⟩
  · exact absurd hl hne
  obtain ⟨rfl, -, hl⟩ := hl
  obtain ⟨hj, hnd⟩ := nodup_cons.1 hnd
  refine ⟨l, hl, hnd, fun i => ?_⟩
  beta_reduce
  rw [← hmem i, mem_cons]
  constructor
  · grind
  · grind

lemma FreeList.push (hi : ¬F i) (hne : i ≠ fin) :
    FreeList (update next i head) fin i fun j => F j ∨ j = i := by
  obtain ⟨l, hl, hnd, hmem⟩ := h
  have hil : i ∉ l := fun h => hi ((hmem i).1 h)
  refine ⟨i :: l, ⟨rfl, hne, ?_⟩, nodup_cons.2 ⟨hil, hnd⟩, fun j => ?_⟩
  · grind [hl.congr]
  · rw [mem_cons, hmem j, or_comm]

end

/-- All cells below `n`, in order. -/
theorem freeList_init (hpos : 0 < n) (hfin : n ≤ fin) :
    FreeList (fun i => if i + 1 < n then i + 1 else fin) fin 0 (· < n) := by
  -- from cell `a` the chain visits `a, a + 1, …, n - 1`
  have key : ∀ k a, a + k = n → 0 < k →
      Visits (fun i => if i + 1 < n then i + 1 else fin) fin a (range' a k) := by
    intro k
    induction k with
    | zero => intro a _ h; omega
    | succ k ih =>
      intro a ha _
      refine ⟨rfl, by omega, ?_⟩
      beta_reduce
      by_cases hk : 0 < k
      · grind
      · obtain rfl : k = 0 := by omega
        rw [if_neg (by omega)]
        rfl
  refine ⟨range' 0 n, key n 0 (by omega) hpos, nodup_range', fun i => ?_⟩
  rw [mem_range'_1]
  omega

end AeroSLS.Chain
