import Mathlib.Data.List.Basic
import Mathlib.Data.List.Induction
import Mathlib.Data.List.Nodup

namespace AeroSLS.Grouping

open List

variable {α β κ : Type} [DecidableEq κ]

/-- How elements are put into buckets: the keys, the empty bucket and the addition. -/
structure Folding (α β κ : Type) where
  key : α → κ
  keyOf : β → κ
  new : κ → β
  add : α → β → β
  keyOf_new : ∀ k, keyOf (new k) = k
  keyOf_add : ∀ a b, keyOf (add a b) = keyOf b

variable (F : Folding α β κ)

def insert (a : α) : List β → List β
  | [] => [F.add a (F.new (F.key a))]
  | b :: bs => if F.keyOf b = F.key a then F.add a b :: bs else b :: insert a bs

def bucket (k : κ) (as : List α) : β :=
  (as.filter fun a => F.key a = k).foldl (fun b a => F.add a b) (F.new k)

structure Grouped (as : List α) (bs : List β) : Prop where
  nodup : (bs.map F.keyOf).Nodup
  mem : ∀ k, k ∈ bs.map F.keyOf ↔ ∃ a ∈ as, F.key a = k
  eq : ∀ b ∈ bs, b = bucket F (F.keyOf b) as

lemma bucket_snoc : bucket F k (as ++ [a]) =
      if F.key a = k then F.add a (bucket F k as) else bucket F k as := by
  unfold bucket
  rw [filter_append]
  split_ifs with h
  · grind
  · rw [filter_cons_of_neg (by simpa using h), filter_nil, append_nil]

lemma Grouped.keys_perm (h : Grouped F as bs)
    (h' : Grouped F as' bs') (hperm : as'.Perm as) : (bs'.map F.keyOf).Perm (bs.map F.keyOf) := by
  rw [perm_ext_iff_of_nodup h'.nodup h.nodup]
  intro k
  rw [h.mem, h'.mem]
  constructor
  · grind
  · grind

lemma keyOf_insert (a : α) (bs : List β) : (insert F a bs).map F.keyOf =
      if F.key a ∈ bs.map F.keyOf then bs.map F.keyOf else bs.map F.keyOf ++ [F.key a] := by
  induction bs with
  | nil => simp [insert, F.keyOf_add, F.keyOf_new]
  | cons b bs ih =>
    rw [insert]
    by_cases hb : F.keyOf b = F.key a
    · grind [F.keyOf_add]
    · grind

lemma mem_insert (hnodup : (bs.map F.keyOf).Nodup) (h : b ∈ insert F a bs) :
    (F.keyOf b ≠ F.key a ∧ b ∈ bs) ∨ (∃ b0 ∈ bs, F.keyOf b0 = F.key a ∧ b = F.add a b0) ∨
      (F.key a ∉ bs.map F.keyOf ∧ b = F.add a (F.new (F.key a))) := by
  induction bs with
  | nil => grind [insert]
  | cons b1 bs ih =>
    rw [map_cons, nodup_cons] at hnodup
    rw [insert] at h
    by_cases hb : F.keyOf b1 = F.key a
    · grind
    rw [if_neg hb] at h
    rcases mem_cons.1 h with rfl | hmem
    · exact .inl ⟨hb, mem_cons_self ..⟩
    · grind

lemma Grouped.nil : Grouped F [] [] := ⟨by simp, by simp, by simp⟩

lemma Grouped.snoc (h : Grouped F as bs) (a : α) : Grouped F (as ++ [a]) (insert F a bs) := by
  constructor
  · grind [keyOf_insert, h.nodup]
  · intro k
    rw [keyOf_insert]
    have hsplit : (∃ x ∈ as ++ [a], F.key x = k) ↔ (∃ x ∈ as, F.key x = k) ∨ F.key a = k := by simp
    rw [hsplit, ← h.mem k]
    split_ifs with hin
    · exact ⟨.inl, fun hk => hk.elim id fun heq => heq ▸ hin⟩
    · grind
  · intro b hb
    rw [bucket_snoc]
    rcases mem_insert F h.nodup hb with ⟨hne, hin⟩ | ⟨b0, hin, hkey, rfl⟩ | ⟨hnot, rfl⟩
    · rw [if_neg fun heq => hne heq.symm]
      exact h.eq b hin
    · rw [F.keyOf_add, if_pos hkey.symm, ← h.eq b0 hin]
    · have hempty : bucket F (F.key a) as = F.new (F.key a) := by
        unfold bucket
        rw [filter_eq_nil_iff.2, foldl_nil]
        intro x hx
        have := mt (h.mem (F.key a)).2 hnot
        simp only [decide_eq_true_eq]
        exact fun heq => this ⟨x, hx, heq⟩
      rw [F.keyOf_add, F.keyOf_new, if_pos rfl, hempty]

lemma grouped_foldl : Grouped F as (as.foldl (fun bs a => insert F a bs) []) := by
  induction as using reverseRecOn with
  | nil => exact .nil F
  | append_singleton as a ih =>
    rw [foldl_append]
    exact ih.snoc F a

end AeroSLS.Grouping
