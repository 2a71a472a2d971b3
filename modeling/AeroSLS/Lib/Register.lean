import Mathlib.Data.List.Nodup
import Mathlib.Tactic.Common

namespace AeroSLS.Register

open List

variable {P K : Type*} [DecidableEq K] {key : P → K} {D : K → Prop} {L : List P} {N : P → Prop}
  {p : P}

structure Registers (key : P → K) (D : K → Prop) (L : List P) (N : P → Prop) : Prop where
  mem : ∀ p, D (key p) → (p ∈ L ↔ N p)
  once : ∀ k, D k → L.countP (fun p => key p == k) ≤ 1

lemma Registers.congr (h : Registers key D L N) (hN : ∀ p, D (key p) → (N' p ↔ N p)) :
    Registers key D L N' where
  mem p hp := (h.mem p hp).trans (hN p hp).symm
  once := h.once

lemma not_mem_eraseP_key (hc : L.countP (fun q => key q == k) ≤ 1) (hp : key p = k) :
    p ∉ L.eraseP fun q => key q == k := by
  induction L with
  | nil => simp
  | cons q L ih =>
    rw [countP_cons] at hc
    by_cases hq : key q = k
    · rw [eraseP_cons_of_pos (by simp [hq])]
      intro hmem
      have hpos : 0 < L.countP fun q => key q == k := countP_pos_iff.2 ⟨p, hmem, by simp [hp]⟩
      simp only [hq, beq_self_eq_true, if_true] at hc
      omega
    · grind

lemma mem_eraseP_key (hp : key p ≠ k) : (p ∈ L.eraseP fun q => key q == k) ↔ p ∈ L :=
  mem_eraseP_of_neg (by simp [hp])

lemma eq_of_countP_le_one (hc : L.countP f ≤ 1) (hp : p ∈ L) (hq : q ∈ L)
    (hfp : f p) (hfq : f q) : p = q := by
  induction L with
  | nil => cases hp
  | cons r L ih =>
    rw [countP_cons] at hc
    have hpos : ∀ x ∈ L, f x → 0 < L.countP f := fun x hx hfx => countP_pos_iff.2 ⟨x, hx, hfx⟩
    rcases mem_cons.1 hp with rfl | hp' <;> rcases mem_cons.1 hq with rfl | hq'
    · rfl
    · grind
    · grind
    · exact ih (Nat.le_trans (Nat.le_add_right ..) hc) hp' hq'

lemma Registers.unique (h : Registers key D L N) (hD : D (key p)) (hkey : key q = key p)
    (hp : N p) (hq : N q) : q = p :=
  eq_of_countP_le_one (h.once (key p) hD) ((h.mem q (hkey ▸ hD)).2 hq) ((h.mem p hD).2 hp)
    (by simp [hkey]) (by simp)

lemma Registers.remove (h : Registers key D L N) (k : K) :
    Registers key D (L.eraseP fun q => key q == k) fun p => N p ∧ key p ≠ k where
  mem p hp := by
    by_cases hk : key p = k
    · have hnot := not_mem_eraseP_key (h.once k (hk ▸ hp)) hk
      simp [hk, hnot]
    · rw [mem_eraseP_key hk, h.mem p hp]
      simp [hk]
  once k' hk' := Nat.le_trans (List.Sublist.countP_le eraseP_sublist) (h.once k' hk')

lemma Registers.enter (h : Registers key D L N) (hp : D (key p) → ∀ q ∈ L, key q ≠ key p) :
    Registers key D (p :: L) fun q => N q ∨ q = p where
  mem q hq := by
    rw [mem_cons, h.mem q hq, or_comm]
  once k hk := by
    by_cases hpk : key p = k
    · grind [countP_eq_zero]
    · simpa [hpk] using h.once k hk

end AeroSLS.Register
