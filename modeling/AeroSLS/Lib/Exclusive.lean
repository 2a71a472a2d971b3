import Mathlib.Data.Set.Defs
import Mathlib.Algebra.Group.Nat.Defs
import Mathlib.Tactic.Common

namespace AeroSLS

variable {ι : Type*}

structure Exclusive (S : Set ι) (refs : ι → ℕ) (Good : ℕ → Prop) : Prop where
  good : ∀ p ∈ S, refs p ≠ 0 → Good (refs p)
  inj : ∀ p ∈ S, ∀ q ∈ S, refs p ≠ 0 → refs p = refs q → p = q

lemma Exclusive.mono (h : Exclusive S refs Good)
    (hsub : ∀ p ∈ S', refs' p ≠ 0 → p ∈ S ∧ refs p = refs' p)
    (hgood : ∀ p ∈ S', refs' p ≠ 0 → Good (refs' p) → Good' (refs' p)) :
    Exclusive S' refs' Good' := by
  constructor
  · grind [h.good]
  · grind [h.inj]

lemma Exclusive.plug (h : Exclusive S refs Good) (hfree : ∀ p ∈ S, refs p ≠ b) (hb : refs' p0 = b)
    (hrest : ∀ p ∈ S, p ≠ p0 → refs' p = refs p) (hgood : Good b) : Exclusive S refs' Good := by
  constructor
  · intro p hp hne
    by_cases hp0 : p = p0
    · rw [hp0, hb]
      exact hgood
    · grind [h.good]
  intro p hp q hq hne heq
  by_cases hp0 : p = p0 <;> by_cases hq0 : q = p0
  · rw [hp0, hq0]
  · grind
  · grind
  · grind [h.inj]

end AeroSLS
