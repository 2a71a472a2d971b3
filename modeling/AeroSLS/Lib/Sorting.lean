import Mathlib.Data.List.Sort

namespace AeroSLS.Sorting

open List

variable {α κ : Type}

/-- The inner loop, on the sorted part read from its end. -/
def insertKey (moves : α → α → Bool) (key : α) : List α → List α
  | [] => [key]
  | a :: as => if moves a key then a :: insertKey moves key as else key :: a :: as

def insertionSort (moves : α → α → Bool) (rows : List α) : List α :=
  (rows.foldl (fun sorted key => insertKey moves key sorted) []).reverse

lemma insertKey_eq :
    insertKey moves key l = l.orderedInsert (fun a b => moves b a = false) key := by
  induction l with
  | nil => rfl
  | cons a as ih => grind [insertKey]

lemma insertionSort_eq (l : List α) : insertionSort moves l =
      (l.reverse.insertionSort fun a b => moves b a = false).reverse := by
  have hfold : ∀ l : List α, l.foldr (insertKey moves) [] =
      l.insertionSort fun a b => moves b a = false := by
    intro l
    induction l with
    | nil => rfl
    | cons a l ih => rw [foldr_cons, ih, insertKey_eq, insertionSort_cons]
  rw [insertionSort, ← hfold, foldr_reverse]

lemma insertionSort_perm (moves : α → α → Bool) : (insertionSort moves l).Perm l := by
  rw [insertionSort_eq]
  exact (reverse_perm _).trans ((perm_insertionSort _ _).trans (reverse_perm _))

lemma insertionSort_of_pairwise (h : l.Pairwise fun a b => moves a b = false) :
    insertionSort moves l = l := by
  rw [insertionSort_eq, List.Pairwise.insertionSort_eq, reverse_reverse]
  exact pairwise_reverse.2 h

section keyed

variable {r : κ → κ → Prop} [Std.Total r] [IsTrans κ r]

lemma insertionSort_pairwise (h : ∀ a ∈ l, ∀ b ∈ l, moves a b = false ↔ r (g a) (g b)) :
    ((insertionSort moves l).map g).Pairwise r := by
  classical
  have hrel : ∀ a ∈ l.reverse, ∀ b ∈ l.reverse, (moves b a = false ↔ r (g b) (g a)) :=
    fun a ha b hb => h b (mem_reverse.1 hb) a (mem_reverse.1 ha)
  have hmap := map_insertionSort (fun a b => moves b a = false) (fun x y => r y x) g l.reverse hrel
  rw [insertionSort_eq, map_reverse, hmap, pairwise_reverse]
  exact pairwise_insertionSort _ _

lemma insertionSort_map_eq [Std.Antisymm r] (hperm : l'.Perm l)
    (h : ∀ a ∈ l, ∀ b ∈ l, moves a b = false ↔ r (g a) (g b)) :
    (insertionSort moves l').map g = (insertionSort moves l).map g := by
  have h' : ∀ a ∈ l', ∀ b ∈ l', moves a b = false ↔ r (g a) (g b) :=
    fun a ha b hb => h a (hperm.mem_iff.1 ha) b (hperm.mem_iff.1 hb)
  have hkeys := ((insertionSort_perm moves).trans
    (hperm.trans (insertionSort_perm moves).symm)).map g
  exact hkeys.eq_of_pairwise' (insertionSort_pairwise h') (insertionSort_pairwise h)

end keyed

end AeroSLS.Sorting
