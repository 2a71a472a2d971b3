import Mathlib.Data.List.Basic
import Mathlib.Data.List.Dedup
import Mathlib.Data.List.Induction
import Mathlib.Data.List.Nodup

namespace AeroSLS.Distinct

open List

variable {α β κ : Type} [DecidableEq κ] (key : α → κ) (view : α → β)

def addNew (kept : List α) (a : α) : List α := if key a ∈ kept.map key then kept else kept ++ [a]

/-- The first element of every key, in order. -/
def distinct (as : List α) : List α := as.foldl (addNew key) []

/-- Elements that look the same have the same key. -/
def Separates (as : List α) : Prop := ∀ a ∈ as, ∀ b ∈ as, view a = view b → key a = key b

lemma distinct_snoc : distinct key (as ++ [a]) = addNew key (distinct key as) a := by
  unfold distinct
  rw [foldl_append]
  rfl

lemma nodup_distinct : ((distinct key as).map key).Nodup := by
  induction as using reverseRecOn with
  | nil => exact nodup_nil
  | append_singleton as a ih =>
    rw [distinct_snoc, addNew]
    split_ifs with h
    · exact ih
    · rw [map_append, map_singleton, ← concat_eq_append]
      exact ih.concat h

lemma distinct_subset : distinct key as ⊆ as := by
  induction as using reverseRecOn with
  | nil => exact List.Subset.refl _
  | append_singleton as a ih => grind [distinct_snoc, addNew]

lemma mem_key_distinct : k ∈ (distinct key as).map key ↔ k ∈ as.map key := by
  induction as using reverseRecOn with
  | nil => rfl
  | append_singleton as a ih => grind [distinct_snoc, addNew]

lemma length_distinct_le : (distinct key as).length ≤ as.length := by
  induction as using reverseRecOn with
  | nil => exact Nat.le_refl _
  | append_singleton as a ih => grind [distinct_snoc, addNew]

lemma mem_view_distinct (hview : ∀ a b, key a = key b → view a = view b) :
    x ∈ (distinct key as).map view ↔ x ∈ as.map view := by
  constructor
  · intro h
    exact map_subset view (distinct_subset key) h
  intro h
  obtain ⟨a, ha, rfl⟩ := mem_map.1 h
  obtain ⟨b, hb, hkey⟩ := mem_map.1 ((mem_key_distinct key).2 (mem_map_of_mem ha))
  rw [← hview b a hkey]
  exact mem_map_of_mem hb

omit [DecidableEq κ] in
lemma nodup_view_iff (hkeys : (as.map key).Nodup) :
    (as.map view).Nodup ↔ Separates key view as := by
  constructor
  · intro h a ha b hb hab
    rw [inj_on_of_nodup_map h ha hb hab]
  intro h
  apply hkeys.of_map.map_on
  intro a ha b hb hab
  exact inj_on_of_nodup_map hkeys ha hb (h a ha b hb hab)

lemma separates_distinct_iff (hview : ∀ a b, key a = key b → view a = view b) :
    Separates key view (distinct key as) ↔ Separates key view as := by
  constructor
  · intro h a ha b hb hab
    obtain ⟨a', ha', hka⟩ := mem_map.1 ((mem_key_distinct key).2 (mem_map_of_mem ha))
    obtain ⟨b', hb', hkb⟩ := mem_map.1 ((mem_key_distinct key).2 (mem_map_of_mem hb))
    rw [← hka, ← hkb]
    apply h a' ha' b' hb'
    rw [hview _ _ hka, hview _ _ hkb, hab]
  · exact fun h a ha b hb => h a (distinct_subset key ha) b (distinct_subset key hb)

/-- Of the elements kept the views are those of `as` that are wanted, each once. -/
lemma distinct_view_iff (hview : ∀ a b, key a = key b → view a = view b) {wanted : β → Prop}
    (hsub : kept ⊆ as) :
    ((distinct key kept).map view).Nodup ∧
        (∀ x, x ∈ (distinct key kept).map view ↔ x ∈ as.map view ∧ wanted x) ↔
      Separates key view kept ∧ (∀ a ∈ kept, wanted (view a)) ∧
        ∀ a ∈ as, wanted (view a) → ∃ b ∈ kept, view b = view a := by
  rw [nodup_view_iff key view (nodup_distinct key), separates_distinct_iff key view hview]
  apply and_congr_right
  intro _
  simp only [mem_view_distinct key view hview, mem_map]
  constructor
  · intro h
    exact ⟨fun a ha => ((h _).1 ⟨a, ha, rfl⟩).2, fun a ha hw => (h _).2 ⟨⟨a, ha, rfl⟩, hw⟩⟩
  · rintro ⟨hwanted, hkept⟩ x
    constructor
    · rintro ⟨a, ha, rfl⟩
      exact ⟨⟨a, hsub ha, rfl⟩, hwanted a ha⟩
    · rintro ⟨⟨a, ha, rfl⟩, hw⟩
      exact hkept a ha hw

lemma foldl_capped (as kept : List α) :
    as.foldl (fun kept a => if kept.length < n ∧ key a ∉ kept.map key then kept ++ [a] else kept)
      (kept.take n) = (as.foldl (addNew key) kept).take n := by
  induction as generalizing kept with
  | nil => rfl
  | cons a as ih =>
    rw [foldl_cons, foldl_cons, ← ih]
    by_cases hlen : kept.length < n
    · rw [take_of_length_le (Nat.le_of_lt hlen), addNew]
      by_cases hmem : key a ∈ kept.map key
      · rw [if_neg (fun h => h.2 hmem), if_pos hmem, take_of_length_le (Nat.le_of_lt hlen)]
      · grind [take_of_length_le]
    rw [if_neg (fun h => by rw [length_take] at h; omega), addNew]
    split_ifs
    · rfl
    · rw [take_append_of_le_length (by omega)]

lemma length_distinct : (distinct key as).length = (as.map key).dedup.length := by
  have hperm : (distinct key as).map key ~ (as.map key).dedup := by
    rw [perm_ext_iff_of_nodup (nodup_distinct key) (nodup_dedup _)]
    intro k
    rw [mem_key_distinct, mem_dedup]
  rw [← length_map key, hperm.length_eq]

/-- Fewer than `n` keys come before the element. -/
def Early (n : ℕ) (as : List α) (a : α) : Prop :=
  ∃ before after, as = before ++ a :: after ∧ (before.map key).dedup.length < n

lemma early_of_length_le (h : as.length ≤ n) (ha : a ∈ as) : Early key n as a := by
  obtain ⟨before, after, rfl⟩ := append_of_mem ha
  refine ⟨before, after, rfl, ?_⟩
  have hle := (dedup_sublist (before.map key)).length_le
  rw [length_append, length_cons] at h
  rw [length_map] at hle
  omega

lemma Early.mem (h : Early key n as a) : a ∈ as := by
  obtain ⟨before, after, rfl, -⟩ := h
  simp

lemma early_of_mem_take (h : a ∈ (distinct key as).take n) : Early key n as a := by
  induction as using reverseRecOn with
  | nil => simp [distinct] at h
  | append_singleton as b ih =>
    have hold : a ∈ (distinct key as).take n → Early key n (as ++ [b]) a := by
      intro ha
      obtain ⟨before, after, rfl, hlt⟩ := ih ha
      exact ⟨before, after ++ [b], by simp, hlt⟩
    rw [distinct_snoc, addNew] at h
    split_ifs at h with hmem
    · exact hold h
    · rw [take_append] at h
      obtain h | h := mem_append.1 h
      · exact hold h
      · have hne : n - (distinct key as).length ≠ 0 := by
          intro h0
          rw [h0] at h
          cases h
        obtain rfl := mem_singleton.1 (mem_of_mem_take h)
        refine ⟨as, [], rfl, ?_⟩
        rw [← length_distinct]
        omega

lemma distinct_prefix_append (bs : List α) : distinct key as <+: distinct key (as ++ bs) := by
  induction bs using reverseRecOn with
  | nil => simp
  | append_singleton bs b ih =>
    rw [← append_assoc, distinct_snoc, addNew]
    split_ifs
    · exact ih
    · exact ih.trans (prefix_append ..)

lemma Early.kept (h : Early key n as a) : ∃ b ∈ (distinct key as).take n, key b = key a := by
  obtain ⟨before, after, rfl, hlt⟩ := h
  rw [← length_distinct] at hlt
  have hmem : key a ∈ (distinct key (before ++ [a])).map key := by
    rw [mem_key_distinct]
    simp
  have hlen : (distinct key (before ++ [a])).length ≤ n := by
    rw [distinct_snoc, addNew]
    split_ifs
    · omega
    · rw [length_append, length_singleton]
      omega
  obtain ⟨b, hb, hkey⟩ := mem_map.1 hmem
  have hpre : distinct key (before ++ [a]) <+: distinct key (before ++ a :: after) := by
    have h : distinct key (before ++ [a]) <+: distinct key (before ++ [a] ++ after) :=
      distinct_prefix_append key after
    rwa [append_assoc, singleton_append] at h
  refine ⟨b, ?_, hkey⟩
  rw [prefix_iff_eq_take.1 hpre] at hb
  exact take_subset_take_left _ hlen hb

end AeroSLS.Distinct
