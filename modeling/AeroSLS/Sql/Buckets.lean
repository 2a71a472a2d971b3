import AeroSLS.Lib.Grouping
import AeroSLS.Sql.Group

namespace AeroSLS.Sql

open Rowstore Mvcc Grouping List

variable (layout : List Column) (items : List AggItem) (groupCol : Option ℕ)
  (rows : List RowValues)

def folding : Folding RowValues SqlAggBucket Text where
  key := groupKeyOf groupCol
  keyOf := SqlAggBucket.groupKey
  new := SqlAggBucket.new items
  add := SqlAggBucket.add layout items
  keyOf_new _ := rfl
  keyOf_add _ _ := rfl

def textGroup (groupCol : Option ℕ) (key : Text) (rows : List RowValues) : List RowValues :=
  rows.filter fun row => groupKeyOf groupCol row = key

open SqlAggBucket (add groupKey new)

/-- The buckets without the bound on their number. -/
def allBuckets : List SqlAggBucket :=
  rows.foldl (fun bs row => insert (folding layout items groupCol) row bs) []

/-- The buckets in the end: those of the rows, or the one of a bare aggregate. -/
def finalBuckets : List SqlAggBucket :=
  if rows = [] ∧ groupCol = none then [.new items .empty]
  else allBuckets layout items groupCol rows

lemma grouped_allBuckets :
    Grouped (folding layout items groupCol) rows (allBuckets layout items groupCol rows) :=
  grouped_foldl _

lemma finalBuckets_nodup : ((finalBuckets layout items groupCol rows).map groupKey).Nodup := by
  unfold finalBuckets
  split_ifs
  · simp
  · exact (grouped_allBuckets layout items groupCol rows).nodup

/-- The accumulator of an entry over a group. -/
def AggItem.cell (layout : List Column) (a : AggItem) (group : List RowValues) : AggCell :=
  group.foldl (fun cell row => a.add layout row cell) .zero

def AggItem.value (layout : List Column) (key : Text) (a : AggItem)
    (group : List RowValues) : Text :=
  a.format ⟨key, group.length, []⟩ (a.cell layout group)

def pairOf (key : Text) : Text × RowValues :=
  (key, ⟨0, items.map fun a => a.value layout key (textGroup groupCol key rows)⟩)

def groupPairs : List (Text × RowValues) :=
  (bucketRows layout items groupCol rows).list.map fun b => (b.groupKey, b.format items)

lemma findIdx_modify (bs : List SqlAggBucket) (row : RowValues) :
    (match bs.findIdx? fun b => b.groupKey = groupKeyOf groupCol row with
      | some i => bs.modify i (add layout items row)
      | none => bs ++ [(new items (groupKeyOf groupCol row)).add layout items row]) =
      insert (folding layout items groupCol) row bs := by
  induction bs with
  | nil => rfl
  | cons b bs ih =>
    rw [findIdx?_cons, Grouping.insert, ← ih]
    by_cases hb : b.groupKey = groupKeyOf groupCol row
    · have hb' : (folding layout items groupCol).keyOf b =
          (folding layout items groupCol).key row := hb
      rw [if_pos hb']
      simp [hb]
      rfl
    have hb' : ¬(folding layout items groupCol).keyOf b =
        (folding layout items groupCol).key row := hb
    rw [if_neg hb']
    simp only [hb]
    cases bs.findIdx? fun b => b.groupKey = groupKeyOf groupCol row <;> rfl

variable {layout items groupCol rows}

lemma length_insert_le (F : Folding RowValues SqlAggBucket Text) (row : RowValues)
    (bs : List SqlAggBucket) : bs.length ≤ (insert F row bs).length := by
  have hlen := congrArg length (keyOf_insert F row bs)
  rw [length_map] at hlen
  rw [hlen]
  split_ifs
  · rw [length_map]
  · simp

lemma allBuckets_snoc : allBuckets layout items groupCol (rows ++ [row]) =
      insert (folding layout items groupCol) row (allBuckets layout items groupCol rows) := by
  rw [allBuckets, foldl_append]
  rfl

lemma addRow_eq (hlen : bs.length ≤ sqlMaxGroups) : addRow layout items groupCol ⟨bs, false⟩ row =
      if (insert (folding layout items groupCol) row bs).length ≤ sqlMaxGroups then
        ⟨insert (folding layout items groupCol) row bs, false⟩ else ⟨bs, true⟩ := by
  have hmodify := findIdx_modify layout items groupCol bs row
  unfold addRow
  cases hfind : bs.findIdx? fun b => b.groupKey = groupKeyOf groupCol row with
  | some | none => grind

lemma addRow_overflow (h : bs.overflow) : (addRow layout items groupCol bs row).overflow := by
  unfold addRow
  dsimp only
  split
  · exact h
  · split_ifs
    · rfl
    · exact h

variable (layout items groupCol rows) in
/-- As long as every group finds room, all rows are in. -/
theorem foldl_addRow :
    if (allBuckets layout items groupCol rows).length ≤ sqlMaxGroups then
      rows.foldl (addRow layout items groupCol) ⟨[], false⟩ =
        ⟨allBuckets layout items groupCol rows, false⟩
    else (rows.foldl (addRow layout items groupCol) ⟨[], false⟩).overflow := by
  induction rows using reverseRecOn with
  | nil => exact rfl
  | append_singleton rows row ih =>
    rw [allBuckets_snoc, foldl_append, foldl_cons]
    have hle := length_insert_le (folding layout items groupCol) row
      (allBuckets layout items groupCol rows)
    by_cases hlen : (allBuckets layout items groupCol rows).length ≤ sqlMaxGroups
    · rw [if_pos hlen] at ih
      rw [ih, addRow_eq hlen]
      split_ifs <;> rfl
    · grind [addRow_overflow]

lemma allBuckets_eq_nil : allBuckets layout items groupCol rows = [] ↔ rows = [] := by
  constructor
  · intro hnil
    by_contra hne
    obtain ⟨row, hrow⟩ := exists_mem_of_ne_nil rows hne
    have hmem :=
      ((grouped_allBuckets layout items groupCol rows).mem (groupKeyOf groupCol row)).2
      ⟨row, hrow, rfl⟩
    rw [hnil] at hmem
    cases hmem
  · rintro rfl
    rfl

lemma bucketRows_eq (h : (bucketRows layout items groupCol rows).overflow = false) :
    (bucketRows layout items groupCol rows).list = finalBuckets layout items groupCol rows ∧
      (allBuckets layout items groupCol rows).length ≤ sqlMaxGroups := by
  have hfold := foldl_addRow layout items groupCol rows
  unfold bucketRows at h ⊢
  by_cases hlen : (allBuckets layout items groupCol rows).length ≤ sqlMaxGroups
  · grind [allBuckets_eq_nil, finalBuckets]
  · grind

lemma bucketRows_overflow_perm (hperm : rows'.Perm rows)
    (h : (bucketRows layout items groupCol rows).overflow = false) :
    (bucketRows layout items groupCol rows').overflow = false := by
  have hlen := (bucketRows_eq h).2
  have hkeys := ((grouped_allBuckets layout items groupCol rows).keys_perm _
    (grouped_allBuckets layout items groupCol rows') hperm).length_eq
  rw [length_map, length_map] at hkeys
  have hfold := foldl_addRow layout items groupCol rows'
  rw [if_pos (by omega)] at hfold
  unfold bucketRows
  rw [hfold]
  dsimp only
  split_ifs <;> rfl

lemma foldl_add (group : List RowValues) :
    group.foldl (fun b row => add layout items row b) (.new items key) =
      ⟨key, group.length, items.map fun a => a.cell layout group⟩ := by
  induction group using reverseRecOn with
  | nil => rfl
  | append_singleton group row ih =>
    rw [foldl_append, ih]
    simp only [foldl_cons, foldl_nil, add, length_append, length_singleton]
    congr 1
    rw [zipWith_map_right, zipWith_self]
    apply map_congr_left
    intro a _
    rw [AggItem.cell, AggItem.cell, foldl_append]
    rfl

lemma format_bucket :
    SqlAggBucket.format items ⟨key, group.length, items.map fun a => a.cell layout group⟩ =
      ⟨0, items.map fun a => a.value layout key group⟩ := by
  unfold SqlAggBucket.format
  rw [zipWith_map_right, zipWith_self]
  rfl

lemma bucket_eq : bucket (folding layout items groupCol) key rows =
      ⟨key, (textGroup groupCol key rows).length,
        items.map fun a => a.cell layout (textGroup groupCol key rows)⟩ :=
  foldl_add (textGroup groupCol key rows)

lemma mem_finalBuckets_keys : key ∈ (finalBuckets layout items groupCol rows).map groupKey ↔
      (groupCol = none ∧ key = .empty) ∨ ∃ row ∈ rows, groupKeyOf groupCol row = key := by
  unfold finalBuckets
  split_ifs with h
  · obtain ⟨rfl, rfl⟩ := h
    simp [new]
  have hmem := (grouped_allBuckets layout items groupCol rows).mem key
  refine hmem.trans ⟨.inr, ?_⟩
  rintro (⟨rfl, rfl⟩ | hrow)
  · obtain ⟨row, hrow⟩ := exists_mem_of_ne_nil rows fun hnil => h ⟨hnil, rfl⟩
    exact ⟨row, hrow, rfl⟩
  · exact hrow

lemma finalBuckets_eq (hb : b ∈ finalBuckets layout items groupCol rows) :
    b = ⟨b.groupKey, (textGroup groupCol b.groupKey rows).length,
      items.map fun a => a.cell layout (textGroup groupCol b.groupKey rows)⟩ := by
  unfold finalBuckets at hb
  split_ifs at hb with h
  · obtain ⟨rfl, rfl⟩ := h
    rw [mem_singleton] at hb
    subst hb
    rfl
  · rw [← bucket_eq]
    exact (grouped_allBuckets layout items groupCol rows).eq b hb

lemma groupPairs_eq (h : (bucketRows layout items groupCol rows).overflow = false) :
    groupPairs layout items groupCol rows =
      ((finalBuckets layout items groupCol rows).map groupKey).map
        (pairOf layout items groupCol rows) := by
  unfold groupPairs
  rw [(bucketRows_eq h).1, map_map]
  apply map_congr_left
  intro b hb
  have hbeq := finalBuckets_eq hb
  have hformat : b.format items =
      ⟨0, items.map fun a => a.value layout b.groupKey (textGroup groupCol b.groupKey rows)⟩ := by
    rw [hbeq]
    exact format_bucket
  simp only [Function.comp, pairOf, hformat]

lemma pairOf_text (ha : items[i]? = some a) : (pairOf layout items groupCol rows key).2.text i =
      a.value layout key (textGroup groupCol key rows) := by
  unfold pairOf RowValues.text
  rw [getD_eq_getElem?_getD, getElem?_map, ha]
  rfl

end AeroSLS.Sql
