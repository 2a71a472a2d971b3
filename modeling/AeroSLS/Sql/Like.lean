import AeroSLS.Lib.Wildcard
import AeroSLS.Sql.Predicate

namespace AeroSLS.Sql

open Wildcard List

variable {c : UInt8} {pattern text p : List UInt8} {star : Option (List UInt8 × List UInt8)}

/-- `%` stands for any text, `_` for one character, every other character for itself. -/
def likePiece (c : UInt8) : Piece UInt8 :=
  if c = percent then .many else if c = underscore then .one fun _ => True else .one (· = c)

/-- The text splits into one part for each character of the pattern. -/
def Like (pattern text : List UInt8) : Prop := Matches (pattern.map likePiece) text

lemma likePiece_percent : likePiece percent = .many := rfl

lemma likePiece_one (hc : c ≠ percent) : likePiece c = .one fun a => c = underscore ∨ a = c := by
  unfold likePiece
  rw [if_neg hc]
  split_ifs with hu
  · congr 1
    simp [hu]
  · congr 1
    simp [hu]

/-- The text splits so, and the part of a `%` of the pattern that begins at a `%` of the text is
that one character. -/
def LikeCaught (pattern text : List UInt8) : Prop :=
  Caught (· = percent) (pattern.map likePiece) text

lemma LikeCaught.like (h : LikeCaught pattern text) : Like pattern text := Caught.matches h

lemma likeCaught_nil_text : LikeCaught pattern [] ↔ pattern.all (· = percent) := by
  unfold LikeCaught
  induction pattern with
  | nil => simp [Caught]
  | cons c pattern ih =>
    rw [map_cons]
    by_cases hc : c = percent
    · rw [hc, likePiece_percent, caught_many (by simp)]
      simp [ih]
    · rw [likePiece_one hc]
      simp [hc, Caught]

/-- The text behind `star`, for each place in it the whole pattern and text, and what is left
now. -/
def likeLeft (w : ℕ) (pattern text : List UInt8) : Option (List UInt8 × List UInt8) → ℕ
  | none => (text.length + 1) * w + pattern.length + text.length
  | some (_, ts) => ts.length * w + pattern.length + text.length

lemma likeLoop_isSome
    (hstar : ∀ ps ts, star = some (ps, ts) → text.length ≤ ts.length ∧ ps.length + ts.length ≤ w)
    (hwidth : pattern.length + text.length ≤ w) (hfuel : likeLeft w pattern text star < fuel) :
    (likeLoop fuel pattern text star).isSome := by
  induction fuel generalizing pattern text star with
  | zero => exact absurd hfuel (Nat.not_lt_zero _)
  | succ fuel ih =>
    rcases text with _ | ⟨c, text⟩
    · rfl
    have hretry : (likeRetry (fun pattern text => likeLoop fuel pattern text
        (some (pattern, text))) star).isSome := by
      match star with
      | none => rfl
      | some (ps, ts) =>
        obtain ⟨hlen, hps⟩ := hstar ps ts rfl
        obtain ⟨a, ts, rfl⟩ := exists_cons_of_length_pos (Nat.lt_of_lt_of_le (Nat.succ_pos _) hlen)
        change (likeLoop fuel ps ts (some (ps, ts))).isSome
        simp only [length_cons, likeLeft, Nat.succ_mul] at *
        apply ih
        · grind
        · omega
        · dsimp only
          omega
    rcases pattern with _ | ⟨p, pattern⟩
    · exact hretry
    rw [likeLoop]
    simp only [length_cons] at hwidth hstar
    split_ifs
    · -- both move on
      apply ih
      · grind
      · omega
      · cases star with
        | none =>
          simp only [likeLeft, length_cons, Nat.succ_mul] at hfuel ⊢
          omega
        | some s =>
          simp only [likeLeft, length_cons] at hfuel ⊢
          omega
    · -- a new place to go back to, no earlier than the old one
      apply ih
      · grind
      · simp only [length_cons]
        omega
      · rcases star with _ | s
        · simp only [likeLeft, Nat.succ_mul] at hfuel ⊢
          omega
        have hle := Nat.mul_le_mul_right w (hstar s.1 s.2 rfl).1
        simp only [likeLeft, length_cons] at hfuel ⊢
        omega
    · exact hretry

lemma likeLoop_ends : (likeLoop (likeFuel pattern text) pattern text none).isSome := by
  apply likeLoop_isSome (by simp) le_rfl
  simp only [likeLeft, likeFuel, Nat.add_mul, Nat.mul_add]
  omega

def likeStar (star : Option (List UInt8 × List UInt8)) : Place UInt8 :=
  star.map fun s => (s.1.map likePiece, s.2)

lemma likeLoop_iff (htracks : Tracks (· = percent) (p.map likePiece) t (likeStar star))
    (h : likeLoop fuel p t star = some b) :
    b ↔ Open (· = percent) (p.map likePiece) t (likeStar star) := by
  induction fuel generalizing p t star with
  | zero => cases h
  | succ fuel ih =>
    rcases t with _ | ⟨a, t⟩
    · rw [open_end htracks, ← Option.some.inj h]
      exact likeCaught_nil_text.symm
    have hdead : ¬Caught (· = percent) (p.map likePiece) (a :: t) →
        likeRetry (fun pattern text => likeLoop fuel pattern text (some (pattern, text))) star =
          some b →
        (b ↔ Open (· = percent) (p.map likePiece) (a :: t) (likeStar star)) := by
      intro hno hrun
      match star with
      | none =>
        rw [← Option.some.inj hrun]
        change _ ↔ Open _ _ _ none
        rw [open_none]
        simpa using hno
      | some (ps, []) =>
        -- the place to go back to is not behind the text
        obtain ⟨lits, s, -, hts, -⟩ := htracks _ _ rfl
        simp at hts
      | some (ps, x :: ts) =>
        exact (ih tracks_some hrun).trans (open_retry hno).symm
    rcases p with _ | ⟨c, p⟩
    · exact hdead (by simp [Caught]) h
    rw [likeLoop] at h
    split_ifs at h with hone hmany
    · by_cases hc : c = percent
      · -- a `%` of both: no place to go back to is kept
        subst hc
        have ha : a = percent := hone.elim (fun hu => nomatch hu) Eq.symm
        rw [map_cons, likePiece_percent] at htracks ⊢
        refine (ih (htracks.snoc fun _ => ha) h).trans (Iff.symm ?_)
        exact open_stop ha
      · have hok : c = underscore ∨ a = c := hone.imp_right Eq.symm
        rw [map_cons, likePiece_one hc] at htracks ⊢
        refine (ih (htracks.snoc fun hx => nomatch hx) h).trans (Iff.symm ?_)
        exact open_one hok
    · subst hmany
      have ha : ∀ b r, a :: t = b :: r → ¬b = percent := by
        intro b r heq hb
        rw [← (cons.inj heq).1] at hb
        exact hone (.inr hb.symm)
      rw [map_cons, likePiece_percent] at htracks ⊢
      exact (ih tracks_some h).trans (open_many htracks ha).symm
    · grind [likePiece_one, caught_one]

lemma peLikeMatch_caught : peLikeMatch pattern text = true ↔ LikeCaught pattern text := by
  obtain ⟨b, hb⟩ := Option.isSome_iff_exists.1 likeLoop_ends
  have htracks : Tracks (· = percent) (pattern.map likePiece) text (likeStar none) :=
    fun _ _ h => nomatch h
  have := likeLoop_iff htracks hb
  rw [peLikeMatch, hb, decide_eq_true_iff, Option.some_inj, this]
  exact open_none

/-- The matcher is right just where a text that splits at all splits with each `%` that meets a
`%` standing for it alone. -/
theorem peLikeMatch_decides_iff (pattern text : List UInt8) :
    (peLikeMatch pattern text = true ↔ Like pattern text) ↔
      (Like pattern text → LikeCaught pattern text) := by
  rw [peLikeMatch_caught]
  exact ⟨Iff.mpr, fun h => ⟨LikeCaught.like, h⟩⟩

/-- The pattern `%` does not match the text `%a`. -/
theorem peLikeMatch_percent :
    Like [percent] [percent, 97] ∧ peLikeMatch [percent] [percent, 97] = false :=
  ⟨⟨[[percent, 97]], rfl, .cons trivial .nil⟩, by decide⟩

end AeroSLS.Sql
