import Mathlib.Data.List.Forall2
import Mathlib.Data.List.Flatten
import Mathlib.Algebra.Group.Nat.Defs
import Mathlib.Tactic.Common

namespace AeroSLS.Wildcard

open List

variable {α : Type}

inductive Piece (α : Type)
  | many
  | one (ok : α → Prop)

def Piece.Takes : Piece α → List α → Prop
  | .many, _ => True
  | .one ok, s => ∃ a, s = [a] ∧ ok a

/-- The text splits into one part for each piece. -/
def Matches (p : List (Piece α)) (t : List α) : Prop :=
  ∃ parts : List (List α), parts.flatten = t ∧ List.Forall₂ Piece.Takes p parts

/-- The text splits into one part for each piece, and the part of a sequence that comes to stand
at an element of `stop` is that element alone. -/
def Caught (stop : α → Prop) : List (Piece α) → List α → Prop
  | [], t => t = []
  | .one ok :: p, t => ∃ a u, t = a :: u ∧ ok a ∧ Caught stop p u
  | .many :: p, t => ∃ s u, t = s ++ u ∧ (∀ a r, t = a :: r → stop a → s = [a]) ∧ Caught stop p u

variable {stop : α → Prop} {lits : List (Piece α)} {t : List α}
  {star : Option (List (Piece α) × List α)}

lemma matches_cons (hx : x.Takes s) (h : Matches p u) : Matches (x :: p) (s ++ u) := by
  obtain ⟨parts, rfl, hp⟩ := h
  exact ⟨s :: parts, flatten_cons, .cons hx hp⟩

lemma Caught.matches (h : Caught stop p t) : Matches p t := by
  induction p generalizing t with
  | nil => exact ⟨[], h.symm, .nil⟩
  | cons x p ih =>
    cases x with
    | many =>
      obtain ⟨s, u, rfl, -, hp⟩ := h
      exact matches_cons trivial (ih hp)
    | one ok =>
      obtain ⟨a, u, rfl, hok, hp⟩ := h
      exact matches_cons (s := [a]) ⟨a, rfl, hok⟩ (ih hp)

lemma caught_one : Caught stop (.one ok :: p) (a :: t) ↔ ok a ∧ Caught stop p t := by
  constructor
  · rintro ⟨b, u, heq, hok, hp⟩
    obtain ⟨rfl, rfl⟩ := cons.inj heq
    exact ⟨hok, hp⟩
  · rintro ⟨hok, hp⟩
    exact ⟨a, t, rfl, hok, hp⟩

lemma caught_stop (ha : stop a) : Caught stop (.many :: p) (a :: t) ↔ Caught stop p t := by
  constructor
  · rintro ⟨s, u, heq, hs, hp⟩
    obtain rfl := hs a t rfl ha
    obtain rfl := (cons.inj heq).2
    exact hp
  · intro hp
    refine ⟨[a], t, rfl, fun b r heq _ => ?_, hp⟩
    rw [(cons.inj heq).1]

/-- A sequence leaves a suffix of the text to the pieces behind it. -/
lemma Caught.drop_of_many (h : Caught stop (.many :: p) t) :
    ∃ k ≤ t.length, Caught stop p (t.drop k) := by
  obtain ⟨s, u, rfl, -, hp⟩ := h
  exact ⟨s.length, by simp, by rwa [drop_left]⟩

lemma caught_many (ht : ∀ a r, t = a :: r → ¬stop a) :
    Caught stop (.many :: p) t ↔ ∃ k ≤ t.length, Caught stop p (t.drop k) := by
  constructor
  · exact Caught.drop_of_many
  · rintro ⟨k, -, hp⟩
    exact ⟨t.take k, t.drop k, (take_append_drop k t).symm,
      fun a r heq ha => absurd ha (ht a r heq), hp⟩

/-- Pieces that each took one element of `s`: from a later place on they take at least as many.
-/
lemma caught_drop (hlits : Forall₂ (fun x a => x = .many → stop a) lits s)
    (h : Caught stop (lits ++ p) ((s ++ t).drop k)) : ∃ j, Caught stop p (t.drop j) := by
  induction hlits generalizing k with
  | nil => exact ⟨k, h⟩
  | @cons x a lits s hx _ ih =>
    cases k with
    | zero =>
      cases x with
      | many => exact ih (k := 0) ((caught_stop (hx rfl)).1 h)
      | one ok => exact ih (k := 0) (caught_one.1 h).2
    | succ k =>
      rw [cons_append, cons_append, drop_succ_cons] at h
      cases x with
      | many =>
        obtain ⟨j, -, hp⟩ := h.drop_of_many
        rw [drop_drop] at hp
        exact ih hp
      | one ok =>
        obtain ⟨b, u, heq, -, hp⟩ := h
        have hu : (s ++ t).drop (k + 1) = u := by rw [← tail_drop, heq, tail_cons]
        exact ih (hu ▸ hp)

/-- The pieces behind the last one that took any sequence, and the text from where it
stopped. -/
abbrev Place (α : Type) := Option (List (Piece α) × List α)

variable (stop) in
/-- What is left matches, or it would with the last sequence taken longer. -/
def Open (p : List (Piece α)) (t : List α) (star : Place α) : Prop :=
  Caught stop p t ∨
    ∃ ps ts, star = some (ps, ts) ∧ ∃ k, 0 < k ∧ k ≤ ts.length ∧ Caught stop ps (ts.drop k)

variable (stop) in
/-- Since the place to go back to, each piece has taken one element. -/
def Tracks (p : List (Piece α)) (t : List α) (star : Place α) : Prop :=
  ∀ ps ts, star = some (ps, ts) → ∃ lits s, ps = lits ++ p ∧ ts = s ++ t ∧
    Forall₂ (fun x a => x = .many → stop a) lits s

lemma tracks_some : Tracks stop p t (some (p, t)) := by
  intro ps ts h
  obtain ⟨rfl, rfl⟩ := Prod.mk.inj (Option.some.inj h)
  exact ⟨[], [], rfl, rfl, .nil⟩

lemma Tracks.snoc (h : Tracks stop (x :: p) (a :: t) star) (hx : x = .many → stop a) :
    Tracks stop p t star := by
  intro ps ts heq
  obtain ⟨lits, s, rfl, rfl, hlits⟩ := h ps ts heq
  exact ⟨lits ++ [x], s ++ [a], by simp, by simp, rel_append hlits (.cons hx .nil)⟩

lemma Tracks.drop (h : Tracks stop p t (some (ps, ts))) (hp : Caught stop ps (ts.drop k)) :
    ∃ j, Caught stop p (t.drop j) := by
  obtain ⟨lits, s, rfl, rfl, hlits⟩ := h ps ts rfl
  exact caught_drop hlits hp

lemma open_one (hok : ok a) : Open stop (.one ok :: p) (a :: t) star ↔ Open stop p t star := by
  unfold Open
  rw [caught_one, and_iff_right hok]

lemma open_stop (ha : stop a) : Open stop (.many :: p) (a :: t) star ↔ Open stop p t star := by
  unfold Open
  rw [caught_stop ha]

/-- The new place makes the old one needless. -/
theorem open_many (h : Tracks stop (.many :: p) t star) (ht : ∀ a r, t = a :: r → ¬stop a) :
    Open stop (.many :: p) t star ↔ Open stop p t (some (p, t)) := by
  have hnew : Open stop p t (some (p, t)) ↔ ∃ k ≤ t.length, Caught stop p (t.drop k) := by
    constructor
    · rintro (hp | ⟨ps, ts, heq, k, -, hle, hp⟩)
      · exact ⟨0, Nat.zero_le _, hp⟩
      · obtain ⟨rfl, rfl⟩ := Prod.mk.inj (Option.some.inj heq)
        exact ⟨k, hle, hp⟩
    · rintro ⟨k, hle, hp⟩
      cases k with
      | zero => exact .inl hp
      | succ k => exact .inr ⟨p, t, rfl, k + 1, Nat.succ_pos k, hle, hp⟩
  rw [hnew]
  constructor
  · rintro (hp | ⟨ps, ts, rfl, k, -, -, hp⟩)
    · exact (caught_many ht).1 hp
    -- what the old place would leave to this piece is a suffix of the text
    obtain ⟨j, hj⟩ := h.drop hp
    obtain ⟨i, hi, hp⟩ := hj.drop_of_many
    rw [drop_drop] at hp
    refine ⟨min (j + i) t.length, Nat.min_le_right _ _, ?_⟩
    rcases Nat.le_total (j + i) t.length with hle | hge
    · rwa [Nat.min_eq_left hle]
    · rwa [Nat.min_eq_right hge, drop_length, ← drop_of_length_le hge]
  · exact fun hp => .inl ((caught_many ht).2 hp)

lemma open_retry (hp : ¬Caught stop p t) :
    Open stop p t (some (ps, a :: ts)) ↔ Open stop ps ts (some (ps, ts)) := by
  constructor
  · rintro (h | ⟨ps', ts', heq, k, hpos, hle, h⟩)
    · exact absurd h hp
    obtain ⟨rfl, rfl⟩ := Prod.mk.inj (Option.some.inj heq)
    obtain ⟨k, rfl⟩ := Nat.exists_eq_succ_of_ne_zero (Nat.ne_of_gt hpos)
    cases k with
    | zero => exact .inl h
    | succ k => exact .inr ⟨ps, ts, rfl, k + 1, Nat.succ_pos k, Nat.le_of_succ_le_succ hle, h⟩
  · rintro (h | ⟨ps', ts', heq, k, hpos, hle, h⟩)
    · exact .inr ⟨ps, a :: ts, rfl, 1, Nat.one_pos, by simp, h⟩
    · obtain ⟨rfl, rfl⟩ := Prod.mk.inj (Option.some.inj heq)
      exact .inr ⟨ps, a :: ts, rfl, k + 1, Nat.succ_pos k, Nat.succ_le_succ hle, h⟩

lemma open_none : Open stop p t none ↔ Caught stop p t := by
  constructor
  · rintro (h | ⟨ps, ts, heq, -⟩)
    · exact h
    · cases heq
  · exact .inl

lemma open_end (h : Tracks stop p [] star) : Open stop p [] star ↔ Caught stop p [] := by
  constructor
  · rintro (hp | ⟨ps, ts, rfl, k, -, -, hp⟩)
    · exact hp
    · obtain ⟨j, hj⟩ := h.drop hp
      rwa [drop_nil] at hj
  · exact .inl

end AeroSLS.Wildcard
