import Mathlib.Algebra.Group.Nat.Defs
import Mathlib.Order.Defs.Unbundled
import Mathlib.Tactic.Common

namespace AeroSLS.Crash

structure Outcome (σ ε α : Type) where
  trail : List σ
  res : Except ε α
  last : σ

def Prog (σ ε α : Type) := σ → Outcome σ ε α

namespace Prog

variable {σ ε α β : Type}

protected def pure (a : α) : Prog σ ε α := fun s => ⟨[], .ok a, s⟩

protected def bind (m : Prog σ ε α) (f : α → Prog σ ε β) : Prog σ ε β := fun s =>
  match (m s).res with
  | .error e => ⟨(m s).trail, .error e, (m s).last⟩
  | .ok a =>
    let o := f a (m s).last
    ⟨(m s).trail ++ o.trail, o.res, o.last⟩

instance : Monad (Prog σ ε) where
  pure := Prog.pure
  bind := Prog.bind

def fail (e : ε) : Prog σ ε α := fun s => ⟨[], .error e, s⟩

/-- A read that may fail. -/
def attempt (f : σ → Except ε α) : Prog σ ε α := fun s => ⟨[], f s, s⟩

def gets (f : σ → α) : Prog σ ε α := fun s => ⟨[], .ok (f s), s⟩

/-- One write to the device. -/
def write (f : σ → σ) : Prog σ ε Unit := fun s => ⟨[f s], .ok (), f s⟩

def when (c : Prop) [Decidable c] (m : Prog σ ε Unit) : Prog σ ε Unit :=
  if c then m else Pure.pure ()

/-- One program after the other, for each element of the list. -/
def each (f : β → Prog σ ε Unit) : List β → Prog σ ε Unit
  | [] => Prog.pure ()
  | b :: bs => (f b).bind fun _ => each f bs

end Prog

open Prog

variable {σ ε α β : Type} {C : σ → Prop} {Q : α → σ → Prop} {E : ε → σ → Prop} {s : σ}

def wp (C : σ → Prop) (m : Prog σ ε α) (Q : α → σ → Prop) (E : ε → σ → Prop) (s : σ) : Prop :=
  (∀ t ∈ (m s).trail, C t) ∧
    match (m s).res with
    | .ok a => Q a (m s).last
    | .error e => E e (m s).last

@[simp] lemma wp_pure : wp C (Pure.pure a : Prog σ ε α) Q E s ↔ Q a s := by
  simp [wp, Pure.pure, Prog.pure]

@[simp] lemma wp_fail : wp C (fail e : Prog σ ε α) Q E s ↔ E e s := by
  simp [wp, fail]

@[simp] lemma wp_gets : wp C (gets f : Prog σ ε α) Q E s ↔ Q (f s) s := by
  simp [wp, gets]

lemma wp_attempt :
    wp C (attempt f) Q E s ↔ match f s with | .ok a => Q a s | .error e => E e s := by
  simp [wp, attempt]

@[simp] lemma wp_write {f : σ → σ} {Q : Unit → σ → Prop} :
    wp C (write f : Prog σ ε Unit) Q E s ↔ C (f s) ∧ Q () (f s) := by
  simp [wp, write]

@[simp] lemma wp_bind : wp C (m >>= f) Q E s ↔ wp C m (fun a t => wp C (f a) Q E t) E s := by
  unfold wp
  simp only [Bind.bind, Prog.bind]
  cases (m s).res with
  | error => rfl
  | ok a => grind

lemma wp_when [Decidable c] {m : Prog σ ε Unit} {Q : Unit → σ → Prop} :
    wp C (when c m) Q E s ↔ (c → wp C m Q E s) ∧ (¬c → Q () s) := by
  unfold when
  split_ifs with hc
  · simp [hc]
  · simp [hc]

lemma wp_mono (h : wp C m Q E s) (hC : ∀ t, C t → C' t)
    (hQ : ∀ a t, Q a t → Q' a t) (hE : ∀ e t, E e t → E' e t) : wp C' m Q' E' s := by
  refine ⟨fun t ht => hC t (h.1 t ht), ?_⟩
  have hres := h.2
  split at hres
  · exact hQ _ _ hres
  · exact hE _ _ hres

lemma wp_imp (h : wp C m Q E s) (hQ : ∀ a t, Q a t → Q' a t) : wp C m Q' E s :=
  wp_mono h (fun _ => id) hQ fun _ _ h => h

section

variable {m : Prog σ ε α} {f : α → Prog σ ε β}

lemma wp_seqE (h : wp C m Q E s) (hf : ∀ a t, Q a t → wp C (f a) Q' E' t)
    (hE : ∀ e t, E e t → E' e t) : wp C (m >>= f) Q' E' s :=
  wp_bind.2 (wp_mono h (fun _ => id) hf hE)

/-- The rest of a program starts where `m` leaves off. -/
theorem wp_seq (h : wp C m Q E s) (hf : ∀ a t, Q a t → wp C (f a) Q' E t) : wp C (m >>= f) Q' E s :=
  wp_seqE h hf fun _ _ h => h

end

lemma wp_last {m : Prog σ ε α} {P : σ → Prop} (h : wp C m (fun _ t => P t) (fun _ t => P t) s) :
    P (m s).last := by
  have h2 := h.2
  split at h2 <;> exact h2

lemma wp_ok (h : wp C m Q E s) (hok : (m s).res = .ok a) : Q a (m s).last := by
  have h2 := h.2
  rwa [hok] at h2

lemma wp_error (h : wp C m Q E s) (he : (m s).res = .error e) : E e (m s).last := by
  have h2 := h.2
  rwa [he] at h2

lemma wp_each {f : β → Prog σ ε Unit} {I : List β → σ → Prop} {bs : List β}
    (hstep : ∀ b bs t, I (b :: bs) t → wp C (f b) (fun _ t' => I bs t') E t)
    (h : I bs s) : wp C (each f bs) (fun _ t => I [] t) E s := by
  induction bs generalizing s with
  | nil => exact wp_pure.2 h
  | cons b bs ih =>
    exact wp_seq (hstep b bs s h) (fun _ _ h => ih h)

/-- A state with the property is on the way. -/
def Visits (P : σ → Prop) (m : Prog σ ε α) (s : σ) : Prop := ∃ t ∈ (m s).trail, P t

section visits

variable {P : σ → Prop} {m : Prog σ ε α} {f : α → Prog σ ε β}

lemma Visits.bind (h : Visits P m s) : Visits P (m >>= f) s := by
  obtain ⟨t, ht, hP⟩ := h
  refine ⟨t, ?_, hP⟩
  simp only [Bind.bind, Prog.bind]
  cases (m s).res with
  | error => exact ht
  | ok a => exact List.mem_append_left _ ht

end visits

section within

/-- Every state on the way and the last one are related to the first. -/
def Within (R : σ → σ → Prop) (m : Prog σ ε α) : Prop :=
  ∀ s, wp (R s) m (fun _ t => R s t) (fun _ t => R s t) s

lemma within_pure [Std.Refl R] : Within R (Pure.pure a : Prog σ ε α) :=
  fun s => wp_pure.2 (Std.Refl.refl s)

lemma within_fail [Std.Refl R] : Within R (fail e : Prog σ ε α) :=
  fun s => wp_fail.2 (Std.Refl.refl s)

lemma within_gets [Std.Refl R] : Within R (gets f : Prog σ ε α) :=
  fun s => wp_gets.2 (Std.Refl.refl s)

lemma within_attempt [Std.Refl R] : Within R (attempt f) := by
  intro s
  rw [wp_attempt]
  split <;> exact Std.Refl.refl s

lemma within_write (h : ∀ s, R s (f s)) : Within R (write f : Prog σ ε Unit) :=
  fun s => wp_write.2 ⟨h s, h s⟩

lemma Within.bind [IsTrans σ R] (hm : Within R m)
    (hf : ∀ a, Within R (f a)) : Within R (m >>= f) := by
  intro s
  rw [wp_bind]
  apply wp_mono (hm s) (fun _ h => h)
  · intro a t ht
    exact wp_mono (hf a t) (fun _ h => IsTrans.trans _ _ _ ht h)
      (fun _ _ h => IsTrans.trans _ _ _ ht h) fun _ _ h => IsTrans.trans _ _ _ ht h
  · exact fun _ _ h => h

lemma within_when [Std.Refl R] [Decidable c] (h : Within R m) : Within R (when c m) := by
  intro s
  rw [wp_when]
  exact ⟨fun _ => h s, fun _ => Std.Refl.refl s⟩

lemma within_each [IsPreorder σ R] (h : ∀ b ∈ bs, Within R (f b)) : Within R (each f bs) := by
  induction bs with
  | nil => exact within_pure
  | cons b bs ih =>
    exact Within.bind (h b (List.mem_cons_self ..)) fun _ =>
      ih fun c hc => h c (List.mem_cons_of_mem _ hc)

lemma Within.last (h : Within R m) (s : σ) : R s (m s).last := wp_last (h s)

end within

end AeroSLS.Crash
