import Mathlib.Algebra.Group.Nat.Defs
import Mathlib.Tactic.Common

namespace AeroSLS.Machine

open List

variable {σ α : Type*} (step : σ → α → σ) {n : ℕ} {a : α}

def run (s : σ) (acts : List α) : σ := acts.foldl step s

@[simp] lemma run_nil (s : σ) : run step s [] = s := rfl

@[simp] lemma run_cons (s : σ) (a : α) (as : List α) :
    run step s (a :: as) = run step (step s a) as := rfl

lemma run_append : run step s (as ++ bs) = run step (run step s as) bs := foldl_append

/-- `P` holds of the state and the action at every step of the run. -/
def Always (P : σ → α → Prop) (s : σ) : List α → Prop
  | [] => True
  | a :: as => P s a ∧ Always P (step s a) as

instance decidableAlways (P : σ → α → Prop) [∀ t a, Decidable (P t a)] :
    (s : σ) → (acts : List α) → Decidable (Always step P s acts)
  | _, [] => .isTrue trivial
  | s, a :: as =>
    have := decidableAlways P (step s a) as
    inferInstanceAs (Decidable (P s a ∧ Always step P (step s a) as))

variable {step} {s : σ} {P P' : σ → α → Prop} {I : σ → Prop} {acts : List α}

lemma run_induction (h0 : I s) (hstep : ∀ t a, I t → P t a → I (step t a))
    (hP : Always step P s acts) : I (run step s acts) := by
  induction acts generalizing s with
  | nil => exact h0
  | cons a as ih => exact ih (hstep s a h0 hP.1) hP.2

lemma foldl_establishes {Q : σ → α → Prop} (hkeep : ∀ t a b, Q t a → Q (step t b) a)
    (hmake : ∀ t, ∀ a ∈ acts, Q (step t a) a) : ∀ a ∈ acts, Q (acts.foldl step s) a := by
  induction acts generalizing s with
  | nil => simp
  | cons b as ih =>
    have hlate : ∀ (as : List α) t a, Q t a → Q (as.foldl step t) a := by
      intro as
      induction as with
      | nil => exact fun _ _ h => h
      | cons b as ih => exact fun t a h => ih _ a (hkeep t a b h)
    intro a ha
    rcases mem_cons.1 ha with rfl | ha
    · exact hlate as _ a (hmake s a (mem_cons_self ..))
    · exact ih (fun t a ha => hmake t a (mem_cons_of_mem _ ha)) a ha

lemma always_append {as bs : List α} :
    Always step P s (as ++ bs) ↔ Always step P s as ∧ Always step P (run step s as) bs := by
  induction as generalizing s with
  | nil => simp [Always]
  | cons a as ih => simp only [cons_append, Always, ih, run_cons, and_assoc]

lemma always_of_forall (h : ∀ a ∈ acts, ∀ t, P t a) : Always step P s acts := by
  induction acts generalizing s with
  | nil => trivial
  | cons a as ih => exact ⟨h a (mem_cons_self ..) s, ih fun b hb => h b (mem_cons_of_mem _ hb)⟩

lemma always_of_prefixes (h : ∀ n, I (run step s (acts.take n)))
    (hback : ∀ t a, I (step t a) → P t a) : Always step P s acts := by
  induction acts generalizing s with
  | nil => trivial
  | cons a as ih => exact ⟨hback s a (h 1), ih fun n => h (n + 1)⟩

lemma Always.mono (himp : ∀ t a, P t a → P' t a) (hP : Always step P s acts) :
    Always step P' s acts := by
  induction acts generalizing s with
  | nil => trivial
  | cons a as ih => exact ⟨himp s a hP.1, ih hP.2⟩

lemma run_take_succ (ha : acts[n]? = some a) :
    run step s (acts.take (n + 1)) = step (run step s (acts.take n)) a := by
  rw [take_add_one, ha, Option.toList_some, run_append, run_cons, run_nil]

lemma Always.getElem? (hP : Always step P s acts) (ha : acts[n]? = some a) :
    P (run step s (acts.take n)) a := by
  induction acts generalizing s n with
  | nil => simp at ha
  | cons b as ih =>
    cases n with
    | zero =>
      obtain rfl : b = a := by simpa using ha
      exact hP.1
    | succ => exact ih hP.2 (by simpa using ha)

lemma Always.take (hP : Always step P s acts) (n : ℕ) : Always step P s (acts.take n) := by
  rw [← take_append_drop n acts, always_append] at hP
  exact hP.1

lemma Always.imp (h0 : I s) (hstep : ∀ t a, I t → P t a → I (step t a))
    (himp : ∀ t a, I t → P t a → P' t a) (hP : Always step P s acts) :
    Always step P' s acts := by
  induction acts generalizing s with
  | nil => trivial
  | cons a as ih => exact ⟨himp s a h0 hP.1, ih (hstep s a h0 hP.1) hP.2⟩

lemma Always.and (hP : Always step P s acts) (hP' : Always step P' s acts) :
    Always step (fun t a => P t a ∧ P' t a) s acts := by
  induction acts generalizing s with
  | nil => trivial
  | cons a as ih => exact ⟨⟨hP.1, hP'.1⟩, ih hP.2 hP'.2⟩

end AeroSLS.Machine
