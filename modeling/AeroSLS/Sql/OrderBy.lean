import AeroSLS.Sql.Rows
import Mathlib.Data.List.Lex

namespace AeroSLS.Sql

open Rowstore Mvcc Sorting List Text

variable {l : List (List ℕ)} {t : FieldType}

/-- The value of a text in the order of its type: numbers as one-element lists, strings as their
bytes. -/
def valueKey (t : FieldType) (s : List UInt8) : List ℕ :=
  match t with
  | .uint64 => (rsParseU64 s).toList
  | .bool => ((rsParseBool s).map UInt8.toNat).toList
  | _ => s.map UInt8.toNat

def sortKey (layout : List Column) (col : ℕ) (row : RowValues) : Option (List ℕ) :=
  if row.isNull col then none else some (valueKey (columnType layout col) (row.text col).1)

/-- The types whose order is settled here; floats are not totally ordered. -/
def Sortable (t : FieldType) : Prop := t = .uint64 ∨ t = .bool ∨ t = .string

lemma rcStrcmp_pos (ha : ∀ x ∈ a, x ≠ 0) :
    0 < rcStrcmp a b ↔ b.map UInt8.toNat < a.map UInt8.toNat := by
  induction a generalizing b with
  | nil => cases b <;> simp [rcStrcmp]
  | cons x a ih =>
    have hx : 0 < x.toNat := by
      have := ha x (mem_cons_self ..)
      rw [ne_eq, UInt8.ext_iff] at this
      exact Nat.pos_of_ne_zero this
    rcases b with _ | ⟨y, b⟩
    · simpa [rcStrcmp] using hx
    have hrest := ih (b := b) fun z hz => ha z (mem_cons_of_mem _ hz)
    rw [rcStrcmp, map_cons, map_cons, cons_lt_cons_iff]
    split_ifs with hxy
    · subst hxy
      simpa using hrest
    · have hne : x.toNat ≠ y.toNat := fun h => hxy (UInt8.ext h)
      have hne' : y.toNat ≠ x.toNat := fun h => hne h.symm
      omega

lemma rcStrcmp_neg : rcStrcmp a b = -rcStrcmp b a := by
  induction a generalizing b with
  | nil => cases b <;> simp [rcStrcmp]
  | cons x a ih =>
    rcases b with _ | ⟨y, b⟩
    · simp [rcStrcmp]
    rw [rcStrcmp, rcStrcmp]
    by_cases hxy : x = y
    · rw [if_pos hxy, if_pos hxy.symm, ih]
    · grind

lemma compareTypedOrEqual_neg (t : FieldType) (a b : List UInt8) :
    compareTypedOrEqual t a b = -compareTypedOrEqual t b a := by
  unfold compareTypedOrEqual compareTexts
  cases t with
  | uint64 =>
    cases rsParseU64 a <;> cases rsParseU64 b <;> simp
  | float =>
    cases rsParseF64 a <;> cases rsParseF64 b <;> simp
  | bool =>
    cases rsParseBool a <;> cases rsParseBool b <;> simp
  | string | blob => exact rcStrcmp_neg

theorem compareTypedOrEqual_pos (ht : Sortable t)
    (ha0 : ∀ x ∈ a, x ≠ 0) (ha : Parses t a) (hb : Parses t b) :
    0 < compareTypedOrEqual t a b ↔ valueKey t b < valueKey t a := by
  obtain rfl | rfl | rfl := ht
  · obtain ⟨x, hx⟩ := Option.isSome_iff_exists.1 ha
    obtain ⟨y, hy⟩ := Option.isSome_iff_exists.1 hb
    unfold compareTypedOrEqual compareTexts valueKey boolInt
    simp only [hx, hy, Option.toList_some, decide_eq_true_eq]
    rw [cons_lt_cons_iff]
    split_ifs <;> simp <;> omega
  · obtain ⟨x, hx⟩ := Option.isSome_iff_exists.1 ha
    obtain ⟨y, hy⟩ := Option.isSome_iff_exists.1 hb
    unfold compareTypedOrEqual compareTexts valueKey
    simp only [hx, hy, Option.toList_some, Option.map_some]
    rw [cons_lt_cons_iff]
    simp
  · exact rcStrcmp_pos ha0

section sorts

variable (layout : List Column) (col : ℕ) (desc : Bool)

def keys (rows : List RowValues) : List (Option (List ℕ)) := rows.map (sortKey layout col)

/-- The requested order of two values. -/
def InOrder (a b : List ℕ) : Prop := if desc then b ≤ a else a ≤ b

/-- The values in the requested order, the NULLs together at one end. -/
def Ordered (ks : List (Option (List ℕ))) : Prop :=
  ∃ (n : ℕ) (vs : List (List ℕ)), vs.Pairwise (InOrder desc) ∧
    (ks = replicate n none ++ vs.map some ∨ ks = vs.map some ++ replicate n none)

/-- Whatever the order the rows come in, the sort returns them all, in order, with the
same sequence of keys. -/
def Sorts (rows : List RowValues) : Prop :=
  ∀ rows', rows'.Perm rows →
    (sortRows layout (some col) desc rows').Perm rows ∧
    Ordered desc (keys layout col (sortRows layout (some col) desc rows')) ∧
    keys layout col (sortRows layout (some col) desc rows') =
      keys layout col (sortRows layout (some col) desc rows)

/-- No NULL is taken for equal to a value: a column of numbers or truth values is NULL in
all rows or in none, and a column of strings is not both NULL and empty. -/
def NullsApart (rows : List RowValues) : Prop :=
  (∀ row ∈ rows, row.isNull col = false) ∨
    match columnType layout col with
    | .string => ∀ row ∈ rows, row.isNull col = false → row.text col ≠ Text.empty
    | _ => ∀ row ∈ rows, row.isNull col = true

end sorts

variable {layout : List Column} {col : ℕ} {desc : Bool} {rows : List RowValues}

def textKey (layout : List Column) (col : ℕ) (row : RowValues) : List ℕ :=
  valueKey (columnType layout col) (row.text col).1

lemma shouldMove_eq_false (ht : Sortable (columnType layout col))
    (ha : Parses (columnType layout col) (a.text col).1)
    (hb : Parses (columnType layout col) (b.text col).1) : shouldMove layout col desc a b = false ↔
      InOrder desc (textKey layout col a) (textKey layout col b) := by
  have hab := compareTypedOrEqual_pos ht (a.text col).2.1 ha hb
  have hba := compareTypedOrEqual_pos ht (b.text col).2.1 hb ha
  have hneg := compareTypedOrEqual_neg (columnType layout col) (a.text col).1 (b.text col).1
  unfold shouldMove compareRowsByColumn InOrder textKey
  cases desc with
  | false =>
    simp only [Bool.false_eq_true, if_false, decide_eq_false_iff_not, hab]
    exact not_lt
  | true => grind

instance : Std.Total (InOrder desc) := by
  cases desc with
  | false => exact ⟨le_total⟩
  | true => exact ⟨fun a b => le_total b a⟩

instance : IsTrans (List ℕ) (InOrder desc) := by
  cases desc with
  | false => exact ⟨fun a b c (hab : a ≤ b) (hbc : b ≤ c) => hab.trans hbc⟩
  | true => exact ⟨fun a b c (hab : b ≤ a) (hbc : c ≤ b) => hbc.trans hab⟩

instance : Std.Antisymm (InOrder desc) := by
  cases desc with
  | false => exact ⟨fun a b (hab : a ≤ b) (hba : b ≤ a) => hab.antisymm hba⟩
  | true => exact ⟨fun a b (hab : b ≤ a) (hba : a ≤ b) => hba.antisymm hab⟩

section parsed

variable (ht : Sortable (columnType layout col))
  (hparse : ∀ row ∈ rows, Parses (columnType layout col) (row.text col).1)
include ht hparse

lemma sortRows_pairwise :
    ((sortRows layout (some col) desc rows).map (textKey layout col)).Pairwise (InOrder desc) :=
  insertionSort_pairwise fun a ha b hb => shouldMove_eq_false ht (hparse a ha) (hparse b hb)

lemma sortRows_keys_eq (hperm : rows'.Perm rows) :
    (sortRows layout (some col) desc rows').map (textKey layout col) =
      (sortRows layout (some col) desc rows).map (textKey layout col) :=
  insertionSort_map_eq hperm fun a ha b hb =>
    shouldMove_eq_false ht (hparse a ha) (hparse b hb)

end parsed

lemma Ordered.values (h : Ordered desc ks) : (ks.filterMap id).Pairwise (InOrder desc) := by
  obtain ⟨n, vs, hvs, rfl | rfl⟩ := h
  · simpa [filterMap_append, filterMap_replicate_of_none] using hvs
  · simpa [filterMap_append, filterMap_replicate_of_none] using hvs

lemma nil_le (l : List ℕ) : [] ≤ l := by
  cases l with
  | nil => exact le_rfl
  | cons a l => exact le_of_lt (nil_lt_cons a l)

lemma split_nil (h : l.Pairwise (· ≤ ·)) :
    ∃ n vs, l = replicate n [] ++ vs ∧ [] ∉ vs ∧ vs.Pairwise (· ≤ ·) := by
  induction l with
  | nil => exact ⟨0, [], rfl, by simp, .nil⟩
  | cons a l ih =>
    obtain ⟨ha, hl⟩ := pairwise_cons.1 h
    rcases a with _ | ⟨x, a⟩
    · obtain ⟨n, vs, rfl, hnot, hvs⟩ := ih hl
      exact ⟨n + 1, vs, rfl, hnot, hvs⟩
    refine ⟨0, (x :: a) :: l, rfl, ?_, h⟩
    intro hmem
    rcases mem_cons.1 hmem with hnil | hmem
    · cases hnil
    · exact absurd (ha [] hmem) (not_le_of_gt (nil_lt_cons x a))

def nullIfEmpty (k : List ℕ) : Option (List ℕ) := if k = [] then none else some k

lemma map_nullIfEmpty {vs : List (List ℕ)} (h : [] ∉ vs) : vs.map nullIfEmpty = vs.map some := by
  apply map_congr_left
  intro k hk
  exact if_neg fun (heq : k = []) => h (heq ▸ hk)

lemma ordered_nullIfEmpty (h : l.Pairwise (InOrder desc)) : Ordered desc (l.map nullIfEmpty) := by
  cases desc with
  | false =>
    obtain ⟨n, vs, rfl, hnot, hvs⟩ := split_nil h
    refine ⟨n, vs, hvs, .inl ?_⟩
    rw [map_append, map_replicate, map_nullIfEmpty hnot]
    rfl
  | true =>
    obtain ⟨n, vs, hl, hnot, hvs⟩ := split_nil (pairwise_reverse.2 h)
    have hrev : l = vs.reverse ++ replicate n [] := by
      rw [← reverse_reverse l, hl, reverse_append, reverse_replicate]
    refine ⟨n, vs.reverse, pairwise_reverse.2 hvs, .inr ?_⟩
    rw [hrev, map_append, map_replicate, map_nullIfEmpty (by simpa using hnot)]
    rfl

theorem sorts_of_key (ht : Sortable (columnType layout col))
    (hparse : ∀ row ∈ rows, Parses (columnType layout col) (row.text col).1)
    (hf : ∀ row ∈ rows, sortKey layout col row = f (textKey layout col row))
    (hord : ∀ l : List (List ℕ), l.Pairwise (InOrder desc) → Ordered desc (l.map f)) :
    Sorts layout col desc rows := by
  have hkeys : ∀ rows', rows'.Perm rows → keys layout col (sortRows layout (some col) desc rows') =
      ((sortRows layout (some col) desc rows').map (textKey layout col)).map f := by
    intro rows' hperm
    rw [map_map]
    apply map_congr_left
    intro row hrow
    exact hf row (hperm.mem_iff.1 ((sortRows_perm _ _ _ rows').mem_iff.1 hrow))
  intro rows' hperm
  refine ⟨(sortRows_perm _ _ _ rows').trans hperm, ?_, ?_⟩
  · grind [sortRows_pairwise]
  · rw [hkeys rows' hperm, hkeys rows (.refl _), sortRows_keys_eq ht hparse hperm]

lemma sorts_of_null (hnull : ∀ row ∈ rows, row.isNull col) : Sorts layout col desc rows := by
  have hkeys : ∀ rows', rows'.Perm rows → keys layout col (sortRows layout (some col) desc rows') =
      replicate rows.length none := by
    intro rows' hperm
    rw [eq_replicate_iff]
    constructor
    · rw [keys, length_map, (sortRows_perm _ _ _ rows').length_eq, hperm.length_eq]
    · intro k hk
      obtain ⟨row, hrow, rfl⟩ := mem_map.1 hk
      exact if_pos (hnull row (hperm.mem_iff.1 ((sortRows_perm _ _ _ rows').mem_iff.1 hrow)))
  intro rows' hperm
  refine ⟨(sortRows_perm _ _ _ rows').trans hperm, ⟨rows.length, [], .nil, .inl ?_⟩, ?_⟩
  · rw [hkeys rows' hperm, map_nil, append_nil]
  · rw [hkeys rows' hperm, hkeys rows (.refl _)]

lemma sorts_of_nullsApart (ht : Sortable (columnType layout col))
    (htyped : ∀ row ∈ rows, TypedRow layout row) (hcol : col < layout.length)
    (h : NullsApart layout col rows) : Sorts layout col desc rows := by
  rcases h with hvalues | hnulls
  · apply sorts_of_key ht (fun row hrow => (htyped row hrow).parses hcol (hvalues row hrow))
    · intro row hrow
      exact if_neg (by rw [hvalues row hrow]; decide)
    · exact fun l hl => ⟨0, l, hl, .inl (nil_append _).symm⟩
  obtain hty | hty | hty := ht
  · rw [hty] at hnulls
    exact sorts_of_null hnulls
  · rw [hty] at hnulls
    exact sorts_of_null hnulls
  · rw [hty] at hnulls
    apply sorts_of_key (.inr (.inr hty)) (fun _ _ => by rw [hty]; trivial)
      _ fun l hl => ordered_nullIfEmpty hl
    intro row hrow
    unfold sortKey textKey nullIfEmpty
    rw [hty]
    by_cases hnull : row.isNull col
    · rw [if_pos hnull, (htyped row hrow).null col hcol hnull]
      rfl
    have hne := hnulls row hrow (by simpa using hnull)
    have hkey : valueKey .string (row.text col).1 ≠ [] := by
      intro hnil
      exact hne (Subtype.ext (map_eq_nil_iff.1 hnil))
    rw [if_neg hnull, if_neg hkey]

/-- Two arrangements that the sort leaves as they are and that swap NULLs with values. -/
theorem not_sorts (before nulls values after : List RowValues)
    (hperm : (before ++ nulls ++ values ++ after).Perm rows) (hn : nulls ≠ []) (hv : values ≠ [])
    (hnull : ∀ row ∈ nulls, row.isNull col)
    (hvalue : ∀ row ∈ values, row.isNull col = false)
    (h1 : (before ++ nulls ++ values ++ after).Pairwise fun a b =>
      shouldMove layout col desc a b = false)
    (h2 : (before ++ values ++ nulls ++ after).Pairwise fun a b =>
      shouldMove layout col desc a b = false) : ¬Sorts layout col desc rows := by
  intro hsorts
  have hperm2 : (before ++ values ++ nulls ++ after).Perm rows := by
    refine List.Perm.trans (List.Perm.append_right _ ?_) hperm
    rw [append_assoc, append_assoc]
    exact List.Perm.append_left _ perm_append_comm
  have hfix1 : sortRows layout (some col) desc (before ++ nulls ++ values ++ after) = _ :=
    insertionSort_of_pairwise h1
  have hfix2 : sortRows layout (some col) desc (before ++ values ++ nulls ++ after) = _ :=
    insertionSort_of_pairwise h2
  have heq := (hsorts _ hperm).2.2.trans (hsorts _ hperm2).2.2.symm
  rw [hfix1, hfix2] at heq
  unfold keys at heq
  simp only [map_append, append_assoc, append_cancel_left_eq] at heq
  obtain ⟨x, nulls, rfl⟩ := exists_cons_of_ne_nil hn
  obtain ⟨y, values, rfl⟩ := exists_cons_of_ne_nil hv
  have hhead := (cons.inj heq).1
  unfold sortKey at hhead
  rw [if_pos (hnull x (mem_cons_self ..)),
    if_neg (by rw [hvalue y (mem_cons_self ..)]; decide)] at hhead
  cases hhead

lemma sortRows_quiet (desc : Bool) (ht : Sortable (columnType layout col))
    (hparse : ∀ row ∈ rows, Parses (columnType layout col) (row.text col).1) :
    (sortRows layout (some col) desc rows).Pairwise fun a b =>
      shouldMove layout col desc a b = false := by
  apply (pairwise_map.1 (sortRows_pairwise ht hparse)).imp_of_mem
  intro a b ha hb hab
  have ha' := (sortRows_perm _ _ _ rows).mem_iff.1 ha
  have hb' := (sortRows_perm _ _ _ rows).mem_iff.1 hb
  exact (shouldMove_eq_false ht (hparse a ha') (hparse b hb')).2 hab

lemma compareTypedOrEqual_empty (ht : t = .uint64 ∨ t = .bool) :
    compareTypedOrEqual t [] s = 0 ∧ compareTypedOrEqual t s [] = 0 := by
  have hfirst : compareTypedOrEqual t [] s = 0 := by
    rcases ht with rfl | rfl <;> rfl
  constructor
  · exact hfirst
  · rw [compareTypedOrEqual_neg, hfirst]
    rfl

/-- Numbers and truth values: no NULL is moved and nothing moves past one. -/
theorem not_sorts_number (ht : columnType layout col = .uint64 ∨ columnType layout col = .bool)
    (htyped : ∀ row ∈ rows, TypedRow layout row) (hcol : col < layout.length) (hx : x ∈ rows)
    (hy : y ∈ rows) (hxnull : x.isNull col)
    (hyvalue : y.isNull col = false) : ¬Sorts layout col desc rows := by
  have hsort : Sortable (columnType layout col) := by
    rcases ht with h | h
    · exact .inl h
    · exact .inr (.inl h)
  -- all NULLs, and the values in order
  let nulls := rows.filter fun row => row.isNull col
  let plain := rows.filter fun row => !row.isNull col
  let values := sortRows layout (some col) desc plain
  have hplain : ∀ row ∈ plain, Parses (columnType layout col) (row.text col).1 := by
    intro row hrow
    obtain ⟨hmem, hval⟩ := mem_filter.1 hrow
    exact (htyped row hmem).parses hcol (by simpa using hval)
  have hvalues : ∀ row ∈ values, row.isNull col = false := by
    intro row hrow
    have := (mem_filter.1 ((sortRows_perm _ _ _ plain).mem_iff.1 hrow)).2
    simpa using this
  have hempty : ∀ row ∈ nulls, row.text col = empty := by
    intro row hrow
    obtain ⟨hmem, hnull⟩ := mem_filter.1 hrow
    exact (htyped row hmem).null col hcol hnull
  have hquiet : ∀ a b, a.text col = empty ∨ b.text col = empty →
      shouldMove layout col desc a b = false := by
    intro a b hab
    have hzero : compareRowsByColumn layout col a b = 0 := by
      unfold compareRowsByColumn
      rcases hab with h | h
      · rw [h]
        exact (compareTypedOrEqual_empty ht).1
      · rw [h]
        exact (compareTypedOrEqual_empty ht).2
    unfold shouldMove
    rw [hzero]
    cases desc <;> rfl
  have hnulls : nulls.Pairwise fun a b => shouldMove layout col desc a b = false :=
    pairwise_of_forall_mem_list fun a ha b _ => hquiet a b (.inl (hempty a ha))
  have hsorted := sortRows_quiet desc hsort hplain
  apply not_sorts [] nulls values []
  · rw [nil_append, append_nil]
    exact ((sortRows_perm _ _ _ plain).append_left nulls).trans (filter_append_perm _ rows)
  · exact ne_nil_of_mem (mem_filter.2 ⟨hx, hxnull⟩)
  · have hmem : y ∈ plain := mem_filter.2 ⟨hy, by simp [hyvalue]⟩
    exact ne_nil_of_mem ((sortRows_perm _ _ _ plain).mem_iff.2 hmem)
  · exact fun row hrow => (mem_filter.1 hrow).2
  · exact hvalues
  · grind
  · grind

/-- The rows with an empty text go to one end, in any order among themselves. -/
theorem quiet_append (desc : Bool) (ht : columnType layout col = .string) (others : List RowValues)
    (hempty : ∀ row ∈ empties, row.text col = empty) :
    (if desc then sortRows layout (some col) desc others ++ empties
      else empties ++ sortRows layout (some col) desc others).Pairwise fun a b =>
        shouldMove layout col desc a b = false := by
  have hsort : Sortable (columnType layout col) := .inr (.inr ht)
  have hparse : ∀ row : RowValues, Parses (columnType layout col) (row.text col).1 := by
    intro row
    rw [ht]
    trivial
  have hkey : ∀ row ∈ empties, textKey layout col row = [] := by
    intro row hrow
    unfold textKey
    rw [hempty row hrow, ht]
    rfl
  have hsorted := sortRows_quiet desc hsort fun row (_ : row ∈ others) => hparse row
  have hsame : empties.Pairwise fun a b => shouldMove layout col desc a b = false := by
    apply pairwise_of_forall_mem_list
    intro a ha b hb
    rw [shouldMove_eq_false hsort (hparse a) (hparse b), hkey a ha, hkey b hb]
    cases desc <;> exact le_rfl
  cases desc with
  | false =>
    apply pairwise_append.2 ⟨hsame, hsorted, ?_⟩
    intro a ha b _
    rw [shouldMove_eq_false hsort (hparse a) (hparse b), hkey a ha]
    exact nil_le _
  | true =>
    apply pairwise_append.2 ⟨hsorted, hsame, ?_⟩
    intro a _ b hb
    rw [shouldMove_eq_false hsort (hparse a) (hparse b), hkey b hb]
    exact nil_le _

lemma not_sorts_string (ht : columnType layout col = .string)
    (htyped : ∀ row ∈ rows, TypedRow layout row) (hcol : col < layout.length) (hx : x ∈ rows)
    (hy : y ∈ rows) (hxnull : x.isNull col)
    (hyvalue : y.isNull col = false) (hyempty : y.text col = empty) :
    ¬Sorts layout col desc rows := by
  let nulls := rows.filter fun row => row.isNull col
  let plain := rows.filter fun row => !row.isNull col
  let values := plain.filter fun row => row.text col = empty
  let others := plain.filter fun row => !decide (row.text col = empty)
  let sorted := sortRows layout (some col) desc others
  have hempty : ∀ row ∈ nulls ++ values, row.text col = empty := by
    intro row hrow
    rcases mem_append.1 hrow with h | h
    · obtain ⟨hmem, hnull⟩ := mem_filter.1 h
      exact (htyped row hmem).null col hcol hnull
    · simpa using (mem_filter.1 h).2
  have hempty' : ∀ row ∈ values ++ nulls, row.text col = empty :=
    fun row hrow => hempty row (perm_append_comm.mem_iff.1 hrow)
  have hn : nulls ≠ [] := ne_nil_of_mem (mem_filter.2 ⟨hx, hxnull⟩)
  have hyplain : y ∈ plain := mem_filter.2 ⟨hy, by simp [hyvalue]⟩
  have hv : values ≠ [] := ne_nil_of_mem (mem_filter.2 ⟨hyplain, by simp [hyempty]⟩)
  have hvalue : ∀ row ∈ values, row.isNull col = false := by grind
  have hperm : (nulls ++ values ++ sorted).Perm rows := by
    rw [append_assoc]
    refine List.Perm.trans (List.Perm.append_left nulls ?_) (filter_append_perm _ rows)
    exact ((sortRows_perm _ _ _ others).append_left values).trans (filter_append_perm _ plain)
  have hnull : ∀ row ∈ nulls, row.isNull col := fun row hrow => (mem_filter.1 hrow).2
  have h1 := quiet_append desc ht others hempty
  have h2 := quiet_append desc ht others hempty'
  cases desc with
  | false =>
    apply not_sorts [] nulls values sorted _ hn hv hnull hvalue
    · simpa using h1
    · simpa using h2
    · simpa using hperm
  | true =>
    apply not_sorts sorted nulls values [] _ hn hv hnull hvalue
    · simpa using h1
    · simpa using h2
    · rw [append_nil, append_assoc]
      exact perm_append_comm.trans hperm

lemma sorts_iff (ht : Sortable (columnType layout col))
    (htyped : ∀ row ∈ rows, TypedRow layout row) (hcol : col < layout.length) :
    Sorts layout col desc rows ↔ NullsApart layout col rows := by
  refine ⟨fun hsorts => ?_, sorts_of_nullsApart ht htyped hcol⟩
  by_contra hmix
  unfold NullsApart at hmix
  rw [not_or] at hmix
  obtain ⟨hnull, hother⟩ := hmix
  simp only [not_forall, Bool.not_eq_false] at hnull
  obtain ⟨x, hx, hxnull⟩ := hnull
  obtain hty | hty | hty := ht
  · rw [hty] at hother
    simp only [not_forall, Bool.not_eq_true] at hother
    obtain ⟨y, hy, hyvalue⟩ := hother
    exact not_sorts_number (.inl hty) htyped hcol hx hy hxnull hyvalue hsorts
  · rw [hty] at hother
    simp only [not_forall, Bool.not_eq_true] at hother
    obtain ⟨y, hy, hyvalue⟩ := hother
    exact not_sorts_number (.inr hty) htyped hcol hx hy hxnull hyvalue hsorts
  · rw [hty] at hother
    simp only [not_forall, not_not] at hother
    obtain ⟨y, hy, hyvalue, hyempty⟩ := hother
    exact not_sorts_string hty htyped hcol hx hy hxnull hyvalue hyempty hsorts

lemma validateSelect_orderBy (h : validateSelect s layout place hint = .ok (some col)) :
    col < layout.length ∧
      validateSelect { s with orderBy := none, limit := none } layout place hint = .ok none := by
  unfold validateSelect at h ⊢
  by_cases hlist : (!s.selectAll && s.columns.any fun item =>
      (findColumnIndex layout item.label).isNone)
  · rw [if_pos hlist] at h
    cases h
  rw [if_neg hlist] at h ⊢
  by_cases hwhere : whereValid s.whereClause layout
  · simp only [if_pos hwhere] at h ⊢
    refine ⟨?_, trivial⟩
    split at h
    · cases h
    split at h
    · cases h
    · rename_i hfind
      cases h
      exact (findIdx?_eq_some_iff_getElem.1 hfind).1
  · grind

variable {c : SqlEnv} {s : SqlSelectStmt} {cursors : CursorTable}

/-- With ORDER BY a SELECT returns its rows sorted and then cut, in order exactly when no NULL
is taken for equal to a value. -/
theorem orderBy_sorts_iff (hgood : c.db.Good) (hcols : tableColumns c s.tableName = some layout)
    (hvalid : validateSelect s layout "table" "" = .ok (some col))
    (ht : Sortable (columnType layout col)) (hcursors : cursors.Ok)
    (hfree : cursors.opened.length < cursorMax) (out : SqlResult) :
    let plain := { s with orderBy := none, limit := none }
    let rows := resultRows (execSelectTable c plain layout cursors out)
    resultRows (execSelectTable c s layout cursors out) =
        applyLimit s.limit (sortRows layout (some col) s.orderDesc rows) ∧
      (Sorts layout col s.orderDesc rows ↔ NullsApart layout col rows) := by
  intro plain rows
  obtain ⟨hcol, hplain⟩ := validateSelect_orderBy hvalid
  have hlen := materialize_length c s layout
  have hrows : rows = (materialize c s layout).1 := by
    change resultRows (execSelectTable c plain layout cursors out) = _
    unfold execSelectTable
    rw [hplain]
    exact resultRows_finishSelect hcursors hfree hlen
  rw [hrows]
  constructor
  · unfold execSelectTable
    rw [hvalid]
    apply resultRows_finishSelect hcursors hfree
    have hsorted : (sortRows layout (some col) s.orderDesc (materialize c s layout).1).length ≤
        cursorMaxRowsetRows := by
      rwa [(sortRows_perm _ _ _ _).length_eq]
    unfold applyLimit
    split
    · exact hsorted
    · exact (length_take_le' _ _).trans hsorted
  · exact sorts_iff ht (fun row hrow => (materialize_typed hgood hcols row hrow).1) hcol

section Sample

set_option maxRecDepth 8000

/-- The rows of a table of numbers, one digit or NULL each. -/
def digitRows (values : List (Option UInt8)) : List (String × RowValues) :=
  values.map fun v => ("t", ⟨if v.isNone then 1 else 0, [.ofBytes v.toList]⟩)

def digits (values : List (Option UInt8)) : SqlEnv :=
  session (filled [uintTable 7 "t"] (digitRows values))

def selectOrdered : SqlSelectStmt :=
  ⟨"t", "", [], true, [], none, none, none, some "v", false, none, none, none⟩

def orderedRows (values : List (Option UInt8)) : List RowValues :=
  resultRows (execSelectTable (digits values) selectOrdered [⟨"v", .uint64, 3⟩] noCursors .empty)

/-- Without NULLs the numbers are sorted. -/
theorem orderBy_sorts_digits :
    orderedRows [some 51, some 49, some 50] = [uintRow [49], uintRow [50], uintRow [51]] ∧
      Sorts [⟨"v", .uint64, 3⟩] 0 false (resultRows (execSelectTable
        (digits [some 51, some 49, some 50]) { selectOrdered with orderBy := none, limit := none }
        [⟨"v", .uint64, 3⟩] noCursors .empty)) := by
  have hdist : DistinctTables (createTables [uintTable 7 "t"]) :=
    distinctTables_of_pairwise (by decide)
  have hcols : tableColumns (digits [some 51, some 49, some 50]) selectOrdered.tableName =
      some [⟨"v", .uint64, 3⟩] := by decide +kernel
  have hvalid : validateSelect selectOrdered [⟨"v", .uint64, 3⟩] "table" "" = .ok (some 0) := by
    decide +kernel
  have hiff := (orderBy_sorts_iff (filled_good hdist) hcols hvalid (.inl rfl) noCursors_ok
    (by decide) .empty).2
  refine ⟨by decide +kernel, hiff.2 (.inl ?_)⟩
  decide +kernel

/-- A NULL keeps the numbers around it from being sorted. -/
theorem orderBy_null_between :
    orderedRows [some 50, none, some 49] = [uintRow [50], ⟨1, [.empty]⟩, uintRow [49]] ∧
      ¬Ordered false (keys [⟨"v", .uint64, 3⟩] 0 (orderedRows [some 50, none, some 49])) := by
  have hrows : orderedRows [some 50, none, some 49] =
      [uintRow [50], ⟨1, [.empty]⟩, uintRow [49]] := by decide +kernel
  refine ⟨hrows, fun hord => ?_⟩
  have hpair := hord.values
  have hkeys : (keys [⟨"v", .uint64, 3⟩] 0 (orderedRows [some 50, none, some 49])).filterMap id =
      [[2], [1]] := by
    rw [hrows]
    decide
  rw [hkeys, pairwise_pair] at hpair
  exact absurd hpair (by decide : ¬([2] : List ℕ) ≤ [1])

end Sample

end AeroSLS.Sql
