import AeroSLS.Sql.Buckets
import AeroSLS.Sql.JoinRows
import AeroSLS.Sql.OrderBy

namespace AeroSLS.Sql

open Rowstore Mvcc List AggCell

section spec

variable (layout : List Column)

def countText (n : ℕ) : Text := .ofBytes (rsU64ToStr n)

/-- `value` is one of the values of the column, and bounds them in the order `r`. -/
def IsExtreme (r : List ℕ → List ℕ → Prop) (col : ℕ) (group : List RowValues)
    (value : Text) : Prop :=
  ∃ row ∈ group, row.isNull col = false ∧ row.text col = value ∧
    ∀ other ∈ group, other.isNull col = false →
      r (textKey layout col row) (textKey layout col other)

/-- An entry over the rows of a group: NULLs are not counted, and no minimum or maximum of what
has a value. -/
def AggItem.Right (a : AggItem) (group : List RowValues) (value : Text) : Prop :=
  match a.fn, a.col with
  | .count, none => value = countText group.length
  | .count, some col => value = countText (group.countP fun row => !row.isNull col)
  | .min, some col => (∃ row ∈ group, row.isNull col = false) →
      IsExtreme layout (· ≤ ·) col group value
  | .max, some col => (∃ row ∈ group, row.isNull col = false) →
      IsExtreme layout (fun x y => y ≤ x) col group value
  | _, _ => True

/-- The NULLs of a group do not show in the entry: a counted column has none; a minimum or
maximum has values only or NULLs only, or is of strings and the empty string that a NULL
is taken for is no new minimum. -/
def AggItem.NullsHidden (a : AggItem) (group : List RowValues) : Prop :=
  match a.fn, a.col with
  | .count, some col => ∀ row ∈ group, row.isNull col = false
  | .min, some col => (∀ row ∈ group, row.isNull col = false) ∨
      (∀ row ∈ group, row.isNull col = true) ∨
      (columnType layout col = .string ∧ ∃ row ∈ group, row.isNull col = false ∧
        row.text col = .empty)
  | .max, some col => (∀ row ∈ group, row.isNull col = false) ∨
      (∀ row ∈ group, row.isNull col = true) ∨
      columnType layout col = .string
  | _, _ => True

/-- The entries spoken about: COUNT, and MIN and MAX of an ordered type. -/
def AggItem.Ok (a : AggItem) : Prop :=
  match a.fn with
  | .none | .count => True
  | .min | .max => ∃ col, a.col = some col ∧ col < layout.length ∧ Sortable (columnType layout col)
  | .sum | .avg => False

end spec

variable {layout : List Column} {group : List RowValues} {a : AggItem}

section extremes

def orderedCell (t : FieldType) (vs : List Text) : AggCell :=
  vs.foldl (fun cell v => cell.addOrdered t v) .zero

lemma orderedCell_snoc : orderedCell t (vs ++ [v]) = (orderedCell t vs).addOrdered t v := by
  rw [orderedCell, foldl_append]
  rfl

lemma addOrdered_hasData (b : AggCell) : (b.addOrdered t v).hasData := by
  unfold addOrdered
  by_cases h : b.hasData
  · rw [if_pos h]
    exact h
  · rw [if_neg h]

structure Extremes (t : FieldType) (vs : List Text) (cell : AggCell) : Prop where
  hasData : cell.hasData = true
  min_mem : cell.minVal ∈ vs
  min_le : ∀ v ∈ vs, valueKey t cell.minVal.1 ≤ valueKey t v.1
  max_mem : cell.maxVal ∈ vs
  le_max : ∀ v ∈ vs, valueKey t v.1 ≤ valueKey t cell.maxVal.1

lemma compareTypedOrEqual_lt (ht : Sortable t) {x y : Text} (hx : Parses t x.1)
    (hy : Parses t y.1) :
    compareTypedOrEqual t x.1 y.1 < 0 ↔ valueKey t x.1 < valueKey t y.1 := by
  rw [← compareTypedOrEqual_pos ht y.2.1 hy hx, compareTypedOrEqual_neg t x.1 y.1]
  omega

lemma Extremes.snoc (ht : Sortable t) {cell : AggCell}
    (hparse : ∀ x ∈ vs ++ [v], Parses t x.1) (h : Extremes t vs cell) :
    Extremes t (vs ++ [v]) (cell.addOrdered t v) := by
  have hv := hparse v (by simp)
  have hmin := compareTypedOrEqual_lt ht hv (hparse _ (mem_append_left _ h.min_mem))
  have hmax := compareTypedOrEqual_pos ht v.2.1 hv (hparse _ (mem_append_left _ h.max_mem))
  unfold addOrdered
  rw [if_pos h.hasData]
  constructor
  · exact h.hasData
  · grind [h.min_mem]
  · dsimp only
    intro x hx
    rw [mem_append, mem_singleton] at hx
    split_ifs with hlt
    · rcases hx with hx | rfl
      · exact (le_of_lt (hmin.1 hlt)).trans (h.min_le x hx)
      · exact le_rfl
    · rcases hx with hx | rfl
      · exact h.min_le x hx
      · exact not_lt.1 fun hbelow => hlt (hmin.2 hbelow)
  · dsimp only
    split_ifs
    · simp
    · exact mem_append_left _ h.max_mem
  · dsimp only
    intro x hx
    rw [mem_append, mem_singleton] at hx
    split_ifs with hlt
    · rcases hx with hx | rfl
      · exact (h.le_max x hx).trans (le_of_lt (hmax.1 hlt))
      · exact le_rfl
    · rcases hx with hx | rfl
      · exact h.le_max x hx
      · exact not_lt.1 fun habove => hlt (hmax.2 habove)

lemma extremes_orderedCell (ht : Sortable t) (hne : vs ≠ [])
    (hparse : ∀ v ∈ vs, Parses t v.1) : Extremes t vs (orderedCell t vs) := by
  induction vs using reverseRecOn with
  | nil => exact absurd rfl hne
  | append_singleton vs v ih =>
    rw [orderedCell_snoc]
    by_cases hvs : vs = []
    · subst hvs
      have hfirst : (orderedCell t []).addOrdered t v = ⟨true, 0, v, v⟩ := rfl
      rw [hfirst]
      exact ⟨rfl, by simp, by simp, by simp, by simp⟩
    · exact (ih hvs fun x hx => hparse x (mem_append_left _ hx)).snoc ht hparse

/-- An empty text that comes first stays: no number or truth value replaces it. -/
theorem orderedCell_empty_first (ht : t = .uint64 ∨ t = .bool) :
    (orderedCell t (.empty :: vs)).minVal = .empty ∧
      (orderedCell t (.empty :: vs)).maxVal = .empty := by
  have hkeep : ∀ (vs : List Text) (cell : AggCell), cell.hasData → cell.minVal = .empty →
      cell.maxVal = .empty →
      (vs.foldl (fun cell v => cell.addOrdered t v) cell).minVal = .empty ∧
        (vs.foldl (fun cell v => cell.addOrdered t v) cell).maxVal = .empty := by
    intro vs
    induction vs with
    | nil => exact fun cell _ hmin hmax => ⟨hmin, hmax⟩
    | cons v vs ih =>
      intro cell hdata hmin hmax
      have hzero : compareTypedOrEqual t v.1 Text.empty.1 = 0 := (compareTypedOrEqual_empty ht).2
      apply ih
      · exact addOrdered_hasData cell
      · simp [addOrdered, hdata, hmin, hzero]
      · simp [addOrdered, hdata, hmax, hzero]
  exact hkeep vs _ rfl rfl rfl

lemma orderedCell_all_empty (h : ∀ v ∈ vs, v = .empty) :
    (orderedCell t vs).minVal = .empty ∧ (orderedCell t vs).maxVal = .empty := by
  induction vs using reverseRecOn with
  | nil => exact ⟨rfl, rfl⟩
  | append_singleton vs v ih =>
    obtain ⟨hmin, hmax⟩ := ih fun x hx => h x (mem_append_left _ hx)
    obtain rfl := h v (by simp)
    rw [orderedCell_snoc]
    unfold addOrdered
    by_cases hdata : (orderedCell t vs).hasData
    · simp only [if_pos hdata, hmin, hmax, ite_self, and_self]
    · simp [if_neg hdata]

end extremes

lemma AggItem.cell_ordered {col : ℕ} (hfn : a.fn = .min ∨ a.fn = .max) (hcol : a.col = some col) :
    a.cell layout group = orderedCell (columnType layout col) (group.map (·.text col)) := by
  unfold AggItem.cell orderedCell
  rw [foldl_map]
  congr 1
  unfold AggItem.add
  rcases hfn with h | h <;> rw [h, hcol]

lemma eq_empty_of_le {v : Text} (h : valueKey .string v.1 ≤ valueKey .string Text.empty.1) :
    v = .empty :=
  Subtype.ext (map_eq_nil_iff.1 (le_antisymm h (nil_le _)))

lemma valueKey_injective {t : FieldType} (ht : Sortable t) (hx : Stored t x)
    (hy : Stored t y) (h : valueKey t x = valueKey t y) : x = y := by
  obtain rfl | rfl | rfl := ht
  · obtain ⟨v, hv, rfl⟩ := hx
    obtain ⟨w, hw, rfl⟩ := hy
    simp only [valueKey, rsParseU64_rsU64ToStr hv, rsParseU64_rsU64ToStr hw, Option.toList_some,
      cons.injEq, and_true] at h
    rw [h]
  · rcases hx with rfl | rfl <;> rcases hy with rfl | rfl
    · rfl
    · exact absurd h (by decide)
    · exact absurd h (by decide)
    · rfl
  · exact map_injective_iff.2 (fun a b hab => UInt8.ext hab) h

lemma IsExtreme.unique (hr : ∀ x y, r x y → r y x → x = y)
    (ht : Sortable (columnType layout col)) (hcol : col < layout.length)
    (htyped : ∀ row ∈ group, TypedRow layout row) (hv : IsExtreme layout r col group v)
    (hw : IsExtreme layout r col group w) : v = w := by
  obtain ⟨x, hx, hxvalue, rfl, hxbound⟩ := hv
  obtain ⟨y, hy, hyvalue, rfl, hybound⟩ := hw
  have hkey := hr _ _ (hxbound y hy hyvalue) (hybound x hx hxvalue)
  exact Subtype.ext (valueKey_injective ht ((htyped x hx).value col hcol hxvalue)
    ((htyped y hy).value col hcol hyvalue) hkey)

lemma IsExtreme.perm (hperm : group'.Perm group)
    (h : IsExtreme layout r col group' v) : IsExtreme layout r col group v := by
  obtain ⟨x, hx, hvalue, heq, hbound⟩ := h
  exact ⟨x, hperm.mem_iff.1 hx, hvalue, heq, fun y hy => hbound y (hperm.mem_iff.2 hy)⟩

lemma parses_text (hcol : col < layout.length) (htyped : TypedRow layout row)
    (h : row.isNull col = false ∨ columnType layout col = .string) :
    Parses (columnType layout col) (row.text col).1 := by
  rcases h with h | h
  · exact htyped.parses hcol h
  · rw [h]
    trivial

section column

variable (hcol : col < layout.length) (htyped : ∀ row ∈ group, TypedRow layout row)
include hcol htyped

lemma extremes_group (ht : Sortable (columnType layout col)) (hne : group ≠ [])
    (h : (∀ row ∈ group, row.isNull col = false) ∨ columnType layout col = .string) :
    Extremes (columnType layout col) (group.map (·.text col))
      (orderedCell (columnType layout col) (group.map (·.text col))) := by
  apply extremes_orderedCell ht
  · exact fun hnil => hne (map_eq_nil_iff.1 hnil)
  · grind [parses_text]

lemma texts_empty (h : ∀ row ∈ group, row.isNull col) :
    ∀ v ∈ group.map (·.text col), v = Text.empty := by
  intro v hv
  obtain ⟨row, hrow, rfl⟩ := mem_map.1 hv
  exact (htyped row hrow).null col hcol (h row hrow)

lemma isExtreme_min (ht : Sortable (columnType layout col))
    (h : (∀ row ∈ group, row.isNull col = false) ∨ (columnType layout col = .string ∧
      ∃ row ∈ group, row.isNull col = false ∧ row.text col = .empty)) (hne : group ≠ []) :
    IsExtreme layout (· ≤ ·) col group
      (orderedCell (columnType layout col) (group.map (·.text col))).minVal := by
  have hext := extremes_group hcol htyped ht hne (h.imp_right And.left)
  have hbound : ∀ other ∈ group, valueKey (columnType layout col)
      (orderedCell (columnType layout col) (group.map (·.text col))).minVal.1 ≤
        textKey layout col other :=
    fun other hother => hext.min_le _ (mem_map_of_mem hother)
  rcases h with hvalues | ⟨hty, row, hrow, hvalue, hempty⟩
  · obtain ⟨row, hrow, heq⟩ := mem_map.1 hext.min_mem
    refine ⟨row, hrow, hvalues row hrow, heq, fun other hother _ => ?_⟩
    unfold textKey
    rw [heq]
    exact hbound other hother
  -- the empty string is the least, so it is the minimum found
  have hleast := hbound row hrow
  unfold textKey at hleast
  rw [hempty, hty] at hleast
  rw [hty, eq_empty_of_le hleast]
  refine ⟨row, hrow, hvalue, hempty, fun other _ _ => ?_⟩
  unfold textKey
  rw [hempty, hty]
  exact nil_le _

lemma isExtreme_max (ht : Sortable (columnType layout col))
    (h : (∀ row ∈ group, row.isNull col = false) ∨ columnType layout col = .string)
    (hvalue : ∃ row ∈ group, row.isNull col = false) :
    IsExtreme layout (fun x y => y ≤ x) col group
      (orderedCell (columnType layout col) (group.map (·.text col))).maxVal := by
  obtain ⟨x, hx, hxvalue⟩ := hvalue
  have hext := extremes_group hcol htyped ht (ne_nil_of_mem hx) h
  have hbound : ∀ other ∈ group, textKey layout col other ≤ valueKey (columnType layout col)
      (orderedCell (columnType layout col) (group.map (·.text col))).maxVal.1 :=
    fun other hother => hext.le_max _ (mem_map_of_mem hother)
  obtain ⟨row, hrow, heq⟩ := mem_map.1 hext.max_mem
  by_cases hnull : row.isNull col = false
  · refine ⟨row, hrow, hnull, heq, fun other hother _ => ?_⟩
    have := hbound other hother
    rwa [← heq] at this
  -- a NULL is the maximum found: then all texts are empty, that of the value too
  have hty : columnType layout col = .string := by grind
  have hempty := (htyped row hrow).null col hcol (by simpa using hnull)
  rw [hempty] at heq
  have hxempty : x.text col = .empty := by
    have hle := hbound x hx
    unfold textKey at hle
    rw [← heq, hty] at hle
    exact eq_empty_of_le hle
  refine ⟨x, hx, hxvalue, hxempty.trans heq, fun other hother _ => ?_⟩
  have := hbound other hother
  rw [← heq] at this
  unfold textKey at this ⊢
  rwa [hxempty]

end column

lemma orderedCell_hasData {t : FieldType} (h : vs ≠ []) : (orderedCell t vs).hasData := by
  induction vs using reverseRecOn with
  | nil => exact absurd rfl h
  | append_singleton =>
    rw [orderedCell_snoc]
    exact addOrdered_hasData _

lemma AggItem.value_min {col : ℕ} (hfn : a.fn = .min) (hcol : a.col = some col) :
    a.value layout key group =
      (orderedCell (columnType layout col) (group.map (·.text col))).minVal := by
  unfold AggItem.value AggItem.format
  rw [hfn, AggItem.cell_ordered (.inl hfn) hcol]
  cases group with
  | nil => rfl
  | cons => exact if_pos (orderedCell_hasData (by simp))

lemma AggItem.value_max {col : ℕ} (hfn : a.fn = .max) (hcol : a.col = some col) :
    a.value layout key group =
      (orderedCell (columnType layout col) (group.map (·.text col))).maxVal := by
  unfold AggItem.value AggItem.format
  rw [hfn, AggItem.cell_ordered (.inr hfn) hcol]
  cases group with
  | nil => rfl
  | cons => exact if_pos (orderedCell_hasData (by simp))

/-- What an entry can be. -/
theorem AggItem.Ok.cases (hok : a.Ok layout) :
    a.fn = .none ∨ (a.fn = .count ∧ a.col = none) ∨ (∃ col, a.fn = .count ∧ a.col = some col) ∨
      ∃ col, (a.fn = .min ∨ a.fn = .max) ∧ a.col = some col ∧ col < layout.length ∧
        Sortable (columnType layout col) := by
  unfold AggItem.Ok at hok
  cases hfn : a.fn with
  | none => exact .inl rfl
  | count =>
    cases hcol : a.col with
    | none => exact .inr (.inl ⟨rfl, rfl⟩)
    | some col => exact .inr (.inr (.inl ⟨col, rfl, rfl⟩))
  | sum | avg => simp [hfn] at hok
  | min => grind
  | max =>
    rw [hfn] at hok
    obtain ⟨col, hcol, hlt, ht⟩ := hok
    exact .inr (.inr (.inr ⟨col, .inr rfl, hcol, hlt, ht⟩))

lemma AggItem.Right.perm (hperm : group'.Perm group) (h : a.Right layout group' v) :
    a.Right layout group v := by
  have hex : ∀ col, (∃ row ∈ group, row.isNull col = false) →
      ∃ row ∈ group', row.isNull col = false :=
    fun col ⟨row, hrow, hvalue⟩ => ⟨row, hperm.mem_iff.2 hrow, hvalue⟩
  unfold AggItem.Right at h ⊢
  revert h
  generalize a.fn = fn
  generalize a.col = col
  intro h
  match fn, col, h with
  | .count, none, h => exact h.trans (by rw [hperm.length_eq])
  | .count, some col, h => exact h.trans (by rw [hperm.countP_eq])
  | .min, some col, h => exact fun hvalue => (h (hex col hvalue)).perm hperm
  | .max, some col, h => exact fun hvalue => (h (hex col hvalue)).perm hperm
  | .none, _, _ | .sum, _, _ | .avg, _, _ | .min, none, _ | .max, none, _ => trivial

lemma AggItem.NullsHidden.perm (hperm : group'.Perm group) (h : a.NullsHidden layout group) :
    a.NullsHidden layout group' := by
  have hall : ∀ {P : RowValues → Prop}, (∀ row ∈ group, P row) → ∀ row ∈ group', P row :=
    fun h row hrow => h row (hperm.mem_iff.1 hrow)
  unfold AggItem.NullsHidden at h ⊢
  revert h
  generalize a.fn = fn
  generalize a.col = col
  intro h
  match fn, col, h with
  | .count, some col, h => exact hall h
  | .min, some col, h =>
    refine h.imp hall (Or.imp hall ?_)
    rintro ⟨hty, row, hrow, hvalue⟩
    exact ⟨hty, row, hperm.mem_iff.2 hrow, hvalue⟩
  | .max, some col, h => exact h.imp hall (Or.imp_left hall)
  | .count, none, _ | .none, _, _ | .sum, _, _ | .avg, _, _ | .min, none, _ | .max,
      none, _ => trivial

lemma stored_ne_nil {t : FieldType} (ht : t = .uint64 ∨ t = .bool) (h : Stored t x) : x ≠ [] := by
  rcases ht with rfl | rfl
  · obtain ⟨v, -, rfl⟩ := h
    exact rsU64ToStr_ne_nil v
  · rcases h with rfl | rfl <;> decide

lemma countText_injective (hn : n < 2 ^ 64) (hm : m < 2 ^ 64)
    (h : countText n = countText m) : n = m := by
  have hval : ∀ k, (countText k).1 = rsU64ToStr k := by
    intro k
    have hlen := rsU64ToStr_length k
    exact Text.ofBytes_val (fun c hc => ne_zero_of_isDigit (rsU64ToStr_digits _ c hc))
      (by unfold recordValLen; omega)
  have htext : rsU64ToStr n = rsU64ToStr m := by rw [← hval n, ← hval m, h]
  have hparse := congrArg rsParseU64 htext
  rw [rsParseU64_rsU64ToStr hn, rsParseU64_rsU64ToStr hm] at hparse
  exact Option.some.inj hparse

lemma AggItem.nullsHidden_of_uniform {col : ℕ} (hfn : a.fn = .min ∨ a.fn = .max)
    (hcol : a.col = some col) (h : (∀ row ∈ group, row.isNull col = false) ∨
      ∀ row ∈ group, row.isNull col) : a.NullsHidden layout group := by
  unfold AggItem.NullsHidden
  rcases hfn with hfn | hfn
  · rw [hfn, hcol]
    exact h.imp_right .inl
  · rw [hfn, hcol]
    exact h.imp_right .inl

section values

variable (hok : a.Ok layout) (htyped : ∀ row ∈ group, TypedRow layout row)
include hok htyped

/-- Where no NULL shows, the fold is the aggregate. -/
theorem right_of_hidden (hidden : a.NullsHidden layout group) (key : Text) :
    a.Right layout group (a.value layout key group) := by
  rcases hok.cases with hfn | ⟨hfn, hcol⟩ | ⟨col, hfn, hcol⟩ | ⟨col, hfn | hfn, hcol, hlt, ht⟩
  · simp [AggItem.Right, hfn]
  · simp only [AggItem.Right, hfn, hcol, AggItem.value, AggItem.format]
    rfl
  · simp only [AggItem.NullsHidden, hfn, hcol] at hidden
    have hcount : (group.countP fun row => !row.isNull col) = group.length :=
      countP_eq_length.2 fun row hrow => by simp [hidden row hrow]
    simp only [AggItem.Right, hfn, hcol, AggItem.value, AggItem.format, hcount]
    rfl
  · simp only [AggItem.NullsHidden, hfn, hcol] at hidden
    simp only [AggItem.Right, hfn, hcol]
    rintro ⟨row, hrow, hvalue⟩
    rw [AggItem.value_min hfn hcol]
    apply isExtreme_min hlt htyped ht _ (ne_nil_of_mem hrow)
    rcases hidden with h | h | h
    · exact .inl h
    · rw [h row hrow] at hvalue
      cases hvalue
    · exact .inr h
  · simp only [AggItem.NullsHidden, hfn, hcol] at hidden
    simp only [AggItem.Right, hfn, hcol]
    rintro ⟨row, hrow, hvalue⟩
    rw [AggItem.value_max hfn hcol]
    apply isExtreme_max hlt htyped ht _ ⟨row, hrow, hvalue⟩
    rcases hidden with h | h | h
    · exact .inl h
    · rw [h row hrow] at hvalue
      cases hvalue
    · exact .inr h

/-- Then the order of the rows does not matter. -/
theorem value_perm (hidden : a.NullsHidden layout group) (hperm : group'.Perm group) :
    a.value layout key group' = a.value layout key group := by
  have htyped' : ∀ row ∈ group', TypedRow layout row :=
    fun row hrow => htyped row (hperm.mem_iff.1 hrow)
  have hright := right_of_hidden hok htyped hidden key
  have hright' := (right_of_hidden hok htyped' (hidden.perm hperm) key).perm hperm
  rcases hok.cases with hfn | ⟨hfn, hcol⟩ | ⟨col, hfn, hcol⟩ | ⟨col, hfn, hcol, hlt, ht⟩
  · simp [AggItem.value, AggItem.format, hfn]
  · simp [AggItem.value, AggItem.format, hfn, hperm.length_eq]
  · simp [AggItem.value, AggItem.format, hfn, hperm.length_eq]
  · by_cases hvalue : ∃ row ∈ group, row.isNull col = false
    · rcases hfn with hfn | hfn
      · simp only [AggItem.Right, hfn, hcol] at hright hright'
        exact (hright' hvalue).unique (fun x y => le_antisymm) ht hlt htyped (hright hvalue)
      · simp only [AggItem.Right, hfn, hcol] at hright hright'
        exact (hright' hvalue).unique (fun x y h h' => le_antisymm h' h) ht hlt htyped
          (hright hvalue)
    -- NULLs only: all texts are empty, and so is the result
    have hnull : ∀ row ∈ group, row.isNull col := by grind
    have hnull' : ∀ row ∈ group', row.isNull col := fun row hrow => hnull row (hperm.mem_iff.1 hrow)
    have hempty := orderedCell_all_empty (t := columnType layout col) (texts_empty hlt htyped hnull)
    have hempty' := orderedCell_all_empty (t := columnType layout col)
      (texts_empty hlt htyped' hnull')
    rcases hfn with hfn | hfn
    · rw [AggItem.value_min hfn hcol, AggItem.value_min hfn hcol, hempty.1, hempty'.1]
    · rw [AggItem.value_max hfn hcol, AggItem.value_max hfn hcol, hempty.2, hempty'.2]

/-- An entry that is right in every order of the rows hides the NULLs. -/
theorem hidden_of_right (hsmall : group.length < 2 ^ 64)
    (hright : ∀ group', group'.Perm group → a.Right layout group (a.value layout key group')) :
    a.NullsHidden layout group := by
  -- a NULL that comes first stays as an empty text
  have hfirst : ∀ {col : ℕ} {x : RowValues}, col < layout.length → x ∈ group → x.isNull col →
      columnType layout col = .uint64 ∨ columnType layout col = .bool →
      ∃ group' : List RowValues, group'.Perm group ∧
        (orderedCell (columnType layout col) (group'.map (·.text col))).minVal = .empty ∧
        (orderedCell (columnType layout col) (group'.map (·.text col))).maxVal = .empty := by
    intro col x hlt hx hnull hty
    refine ⟨x :: group.erase x, (perm_cons_erase hx).symm, ?_⟩
    rw [map_cons, (htyped x hx).null col hlt hnull]
    exact orderedCell_empty_first hty
  -- but no value of these types is
  have hnone : ∀ {r : List ℕ → List ℕ → Prop} {col : ℕ}, col < layout.length →
      columnType layout col = .uint64 ∨ columnType layout col = .bool →
      ¬IsExtreme layout r col group .empty := by
    rintro r col hlt hty ⟨row, hrow, hvalue, hempty, -⟩
    apply stored_ne_nil hty ((htyped row hrow).value col hlt hvalue)
    rw [hempty]
    rfl
  rcases hok.cases with hfn | ⟨hfn, hcol⟩ | ⟨col, hfn, hcol⟩ | ⟨col, hfn, hcol, hlt, ht⟩
  · simp [AggItem.NullsHidden, hfn]
  · simp [AggItem.NullsHidden, hcol]
  · have hcount := hright group (.refl _)
    simp only [AggItem.Right, hfn, hcol, AggItem.value, AggItem.format] at hcount
    have hle := countP_le_length (p := fun row : RowValues => !row.isNull col) (l := group)
    have heq := countText_injective hsmall (by omega) hcount
    simp only [AggItem.NullsHidden, hfn, hcol]
    intro row hrow
    simpa using countP_eq_length.1 heq.symm row hrow
  · by_contra hshown
    have hnull : ∃ x ∈ group, x.isNull col := by
      by_contra hall
      simp only [not_exists, not_and, Bool.not_eq_true] at hall
      exact hshown (AggItem.nullsHidden_of_uniform hfn hcol (.inl hall))
    have hvalue : ∃ y ∈ group, y.isNull col = false := by
      by_contra hall
      simp only [not_exists, not_and, Bool.not_eq_false] at hall
      exact hshown (AggItem.nullsHidden_of_uniform hfn hcol (.inr hall))
    obtain ⟨x, hx, hxnull⟩ := hnull
    have hnumber : columnType layout col = .uint64 ∨ columnType layout col = .bool → False := by
      intro hty
      obtain ⟨group', hperm, hmin, hmax⟩ := hfirst hlt hx hxnull hty
      have hr := hright group' hperm
      rcases hfn with hfn | hfn
      · grind [AggItem.value_min, AggItem.Right]
      · rw [AggItem.value_max hfn hcol, hmax] at hr
        simp only [AggItem.Right, hfn, hcol] at hr
        exact hnone hlt hty (hr hvalue)
    obtain hty | hty | hty := ht
    · exact hnumber (.inl hty)
    · exact hnumber (.inr hty)
    · rcases hfn with hfn | hfn
      · -- the NULL makes the empty string the minimum, and a row must have it
        have hext := extremes_group hlt htyped (.inr (.inr hty)) (ne_nil_of_mem hx) (.inr hty)
        have hle := hext.min_le _ (mem_map_of_mem hx)
        have hr := hright group (.refl _)
        rw [AggItem.value_min hfn hcol] at hr
        simp only [AggItem.Right, hfn, hcol] at hr
        obtain ⟨row, hrow, hrvalue, hreq, -⟩ := hr hvalue
        rw [(htyped x hx).null col hlt hxnull, ← hreq, hty] at hle
        apply hshown
        simp only [AggItem.NullsHidden, hfn, hcol]
        exact .inr (.inr ⟨hty, row, hrow, hrvalue, eq_empty_of_le hle⟩)
      · grind [AggItem.NullsHidden]

end values

end AeroSLS.Sql
