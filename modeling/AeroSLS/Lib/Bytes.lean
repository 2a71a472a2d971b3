import Mathlib.Algebra.Group.Nat.Defs
import Mathlib.Tactic.Common
import Mathlib.Tactic.Ring

namespace AeroSLS.Bytes

open List

variable {max : ℕ}

abbrev Buf := ℕ → UInt8

def Buf.zero : Buf := fun _ => 0

def Buf.at (b : Buf) (off : ℕ) : Buf := fun i => b (off + i)

def Buf.copy (dst : Buf) (off : ℕ) (src : Buf) (n : ℕ) : Buf := fun i =>
  if off ≤ i ∧ i < off + n then src (i - off) else dst i

def Buf.fill (dst : Buf) (off : ℕ) (v : UInt8) (n : ℕ) : Buf := dst.copy off (fun _ => v) n

def Buf.ofList (l : List UInt8) : Buf := fun i => l.getD i 0

/-- The two buffers hold the same first `n` bytes. -/
def Buf.Agree (n : ℕ) (b b' : Buf) : Prop := ∀ i < n, b i = b' i

variable {b b' dst : Buf}

lemma Buf.at_apply : b.at off i = b (off + i) := rfl

lemma Buf.copy_inside (h : i < n) : (dst.copy off src n) (off + i) = src i := by
  have hin : off ≤ off + i ∧ off + i < off + n := by omega
  simp [Buf.copy, hin]

lemma Buf.copy_outside (h : i < off ∨ off + n ≤ i) : (dst.copy off src n) i = dst i := by
  have hout : ¬(off ≤ i ∧ i < off + n) := by omega
  simp [Buf.copy, hout]

lemma Buf.copy_agree : Buf.Agree n ((dst.copy off src n).at off) src := by
  intro i hi
  exact Buf.copy_inside hi

lemma Buf.copy_agree_of_disjoint (h : off + n ≤ i ∨ i + m ≤ off) :
    Buf.Agree m ((dst.copy off src n).at i) (dst.at i) := by
  intro j hj
  exact Buf.copy_outside (by omega)

section

variable (h : Buf.Agree n b b')
include h

lemma Buf.Agree.mono (hm : m ≤ n) : Buf.Agree m b b' := by
  intro i hi
  exact h i (by omega)

lemma Buf.Agree.at (hm : off + m ≤ n) : Buf.Agree m (b.at off) (b'.at off) := by
  intro i hi
  exact h (off + i) (by omega)

lemma Buf.Agree.symm : Buf.Agree n b' b := by
  intro i hi
  exact (h i hi).symm

lemma Buf.Agree.trans (h' : Buf.Agree n b' c) : Buf.Agree n b c := by
  intro i hi
  exact (h i hi).trans (h' i hi)

end

def leBytes (v : ℕ) : Buf := fun i => UInt8.ofNat (v / 256 ^ i)

def readLE (b : Buf) : ℕ → ℕ
  | 0 => 0
  | n + 1 => (b 0).toNat + 256 * readLE (b.at 1) n

lemma readLE_congr (h : Buf.Agree n b b') : readLE b n = readLE b' n := by
  induction n generalizing b b' with
  | zero => rfl
  | succ n ih =>
    have hrest : Buf.Agree n (b.at 1) (b'.at 1) := h.at (by omega)
    rw [readLE, readLE, h 0 (by omega), ih hrest]

lemma leBytes_at_one : (leBytes v).at 1 = leBytes (v / 256) := by
  funext i
  rw [Buf.at_apply, leBytes, leBytes, Nat.div_div_eq_div_mul, pow_add, pow_one]

lemma readLE_leBytes : readLE (leBytes v) n = v % 256 ^ n := by
  induction n generalizing v with
  | zero => rw [readLE, pow_zero, Nat.mod_one]
  | succ n ih =>
    have hbyte : (leBytes v 0).toNat = v % 256 := by
      rw [leBytes, pow_zero, Nat.div_one, UInt8.toNat_ofNat']
    rw [readLE, hbyte, leBytes_at_one, ih, pow_succ, Nat.mul_comm (256 ^ n) 256, Nat.mod_mul]

/-- The string at `b`, cut off after `max` bytes. -/
def cstr (b : Buf) : ℕ → List UInt8
  | 0 => []
  | max + 1 => if b 0 = 0 then [] else b 0 :: cstr (b.at 1) max

lemma cstr_length_le (b : Buf) (max : ℕ) : (cstr b max).length ≤ max := by
  induction max generalizing b with
  | zero => exact Nat.le_refl 0
  | succ max ih =>
    rw [cstr]
    split_ifs
    · exact Nat.zero_le _
    · grind

lemma cstr_ne_zero : ∀ c ∈ cstr b max, c ≠ 0 := by
  induction max generalizing b with
  | zero => intro c hc; cases hc
  | succ max ih => grind [cstr]

lemma cstr_congr (h : Buf.Agree w b b') (hend : ∃ j < w, b j = 0) : cstr b max = cstr b' max := by
  induction max generalizing b b' w with
  | zero => rfl
  | succ max ih =>
    obtain ⟨j, hj, hzero⟩ := hend
    have h0 : b 0 = b' 0 := h 0 (by omega)
    rw [cstr, cstr, ← h0]
    split_ifs with hb
    · rfl
    -- the terminator is further on, and the rest of the window still holds it
    have hj0 : j ≠ 0 := by rintro rfl; exact hb hzero
    have hrest : Buf.Agree (w - 1) (b.at 1) (b'.at 1) := h.at (by omega)
    have hzero' : (b.at 1) (j - 1) = 0 := by rwa [Buf.at_apply, show 1 + (j - 1) = j by omega]
    rw [ih hrest ⟨j - 1, by omega, hzero'⟩]

lemma cstr_agree (h : Buf.Agree max b b') : cstr b max = cstr b' max := by
  induction max generalizing b b' with
  | zero => rfl
  | succ max ih =>
    have hrest : Buf.Agree max (b.at 1) (b'.at 1) := h.at (by omega)
    rw [cstr, cstr, h 0 (by omega), ih hrest]

lemma cstr_ofList (hne : ∀ c ∈ l, c ≠ 0) (hlen : l.length ≤ max) : cstr (Buf.ofList l) max = l := by
  induction l generalizing max with
  | nil =>
    cases max with
    | zero => rfl
    | succ => simp [cstr, Buf.ofList]
  | cons c cs ih =>
    obtain ⟨max, rfl⟩ : ∃ k, max = k + 1 := ⟨max - 1, by rw [length_cons] at hlen; omega⟩
    have hat : (Buf.ofList (c :: cs)).at 1 = Buf.ofList cs := by
      funext i
      simp [Buf.at, Buf.ofList, Nat.add_comm 1 i]
    have hc : (Buf.ofList (c :: cs)) 0 = c := rfl
    have hrest := ih (fun d hd => hne d (mem_cons_of_mem _ hd))
      (by rw [length_cons] at hlen; omega : cs.length ≤ max)
    rw [cstr, hc, if_neg (hne c mem_cons_self), hat, hrest]

end AeroSLS.Bytes
