import AeroSLS.Sql.Extremes

namespace AeroSLS.Sql

open Rowstore Mvcc List SqlAggBucket

variable {row : RowValues} {k : Option Text} {place : String} {col : ℕ}

section spec

variable (layout : List Column) (items : List AggItem) (groupCol : Option ℕ)

def sqlKey (row : RowValues) : Option Text :=
  match groupCol with
  | none => some .empty
  | some col => if row.isNull col then none else some (row.text col)

def groupOf (k : Option Text) (rows : List RowValues) : List RowValues :=
  rows.filter fun row => sqlKey groupCol row = k

def Aggregates (rows : List RowValues) (pairs : List (Text × RowValues)) : Prop :=
  ∃ ks : List (Option Text), ks.Nodup ∧
    (∀ k, k ∈ ks ↔ (groupCol = none ∧ k = some .empty) ∨ ∃ row ∈ rows, sqlKey groupCol row = k) ∧
    List.Forall₂ (fun k pair => pair.1 = k.getD .empty ∧
      ∀ (i : ℕ) (a : AggItem), items[i]? = some a →
        a.Right layout (groupOf groupCol k rows) (pair.2.text i)) ks pairs

/-- Whatever the order the rows are scanned in, the pairs are those of SQL and the same. -/
def AggregatesRight (rows : List RowValues) : Prop :=
  ∀ rows', rows'.Perm rows →
    Aggregates layout items groupCol rows (groupPairs layout items groupCol rows') ∧
    ∀ pair, pair ∈ groupPairs layout items groupCol rows' ↔
      pair ∈ groupPairs layout items groupCol rows

def KeysApart (rows : List RowValues) : Prop :=
  ∀ col, groupCol = some col → ¬((∃ row ∈ rows, row.isNull col = true) ∧
    ∃ row ∈ rows, row.isNull col = false ∧ row.text col = .empty)

def NullsHidden (rows : List RowValues) : Prop :=
  KeysApart groupCol rows ∧ ∀ a ∈ items, ∀ k, a.NullsHidden layout (groupOf groupCol k rows)

end spec

variable {layout : List Column} {items : List AggItem} {groupCol : Option ℕ} {rows : List RowValues}
  {a : AggItem}

section keys

variable (htyped : ∀ row ∈ rows, TypedRow layout row)
  (hcol : ∀ col, groupCol = some col → col < layout.length)

section

include htyped hcol

lemma groupKeyOf_eq (hrow : row ∈ rows) :
    groupKeyOf groupCol row = (sqlKey groupCol row).getD .empty := by
  unfold groupKeyOf sqlKey
  rcases hg : groupCol with _ | col
  · rfl
  dsimp only
  split_ifs with hnull
  · exact (htyped row hrow).null col (hcol col hg) hnull
  · rfl

theorem textGroup_eq (hapart : KeysApart groupCol rows)
    (hk : (groupCol = none ∧ k = some .empty) ∨ ∃ row ∈ rows, sqlKey groupCol row = k) :
    textGroup groupCol (k.getD .empty) rows = groupOf groupCol k rows := by
  apply filter_congr
  intro row hrow
  rw [decide_eq_decide, groupKeyOf_eq htyped hcol hrow]
  refine ⟨fun heq => ?_, fun heq => by rw [heq]⟩
  cases hg : groupCol with
  | none =>
    rcases hk with ⟨-, rfl⟩ | ⟨row', -, rfl⟩
    · rfl
    · rw [hg]
      rfl
  | some col =>
    have hnot := hapart col hg
    obtain ⟨row', hrow', rfl⟩ : ∃ row ∈ rows, sqlKey groupCol row = k := by
      grind
    rw [hg] at heq ⊢
    unfold sqlKey at heq ⊢
    dsimp only at heq ⊢
    by_cases hnull : row.isNull col
    · grind
    by_cases hnull' : row'.isNull col
    · rw [if_neg hnull, if_pos hnull'] at heq
      exact absurd ⟨⟨row', hrow', hnull'⟩, row, hrow, by simpa using hnull, heq⟩ hnot
    · rw [if_neg hnull, if_neg hnull'] at heq ⊢
      exact congrArg some heq

end

def keyAs (groupCol : Option ℕ) (rows : List RowValues) (text : Text) : Option Text :=
  if text = .empty ∧ ∃ row ∈ rows, sqlKey groupCol row = none then none else some text

lemma keyAs_getD : (keyAs groupCol rows text).getD .empty = text := by
  unfold keyAs
  split_ifs with h
  · exact h.1.symm
  · rfl

lemma sqlKey_eq_none :
    sqlKey groupCol row = none ↔ ∃ col, groupCol = some col ∧ row.isNull col := by
  unfold sqlKey
  cases groupCol with
  | none | some => simp

lemma sqlKey_eq_some :
    sqlKey (some col) row = some text ↔ row.isNull col = false ∧ row.text col = text := by
  unfold sqlKey
  cases h : row.isNull col <;> simp [h]

lemma keyAs_sqlKey (hapart : KeysApart groupCol rows) (hrow : row ∈ rows) :
    keyAs groupCol rows ((sqlKey groupCol row).getD .empty) = sqlKey groupCol row := by
  rcases hk : sqlKey groupCol row with _ | text
  · exact if_pos ⟨rfl, row, hrow, hk⟩
  apply if_neg
  rintro ⟨hempty, row', hrow', hk'⟩
  obtain ⟨col, rfl, hnull⟩ := sqlKey_eq_none.1 hk'
  obtain ⟨hvalue, htext⟩ := sqlKey_eq_some.1 hk
  exact hapart col rfl ⟨⟨row', hrow', hnull⟩, row, hrow, hvalue, htext.trans hempty⟩

include htyped hcol in
lemma mem_map_keyAs (items : List AggItem) (hapart : KeysApart groupCol rows) :
    k ∈ ((finalBuckets layout items groupCol rows).map groupKey).map (keyAs groupCol rows) ↔
      (groupCol = none ∧ k = some .empty) ∨ ∃ row ∈ rows, sqlKey groupCol row = k := by
  have hkey : ∀ row ∈ rows, keyAs groupCol rows (groupKeyOf groupCol row) =
      sqlKey groupCol row := by
    intro row hrow
    rw [groupKeyOf_eq htyped hcol hrow, keyAs_sqlKey hapart hrow]
  rw [mem_map]
  constructor
  · rintro ⟨text, htext, rfl⟩
    rcases mem_finalBuckets_keys.1 htext with ⟨rfl, rfl⟩ | ⟨row, hrow, rfl⟩
    · refine .inl ⟨rfl, if_neg ?_⟩
      rintro ⟨-, row, -, hnone⟩
      cases hnone
    · exact .inr ⟨row, hrow, (hkey row hrow).symm⟩
  · rintro (⟨rfl, rfl⟩ | ⟨row, hrow, rfl⟩)
    · refine ⟨.empty, mem_finalBuckets_keys.2 (.inl ⟨rfl, rfl⟩), if_neg ?_⟩
      rintro ⟨-, row, -, hnone⟩
      cases hnone
    · exact ⟨groupKeyOf groupCol row, mem_finalBuckets_keys.2 (.inr ⟨row, hrow, rfl⟩),
        hkey row hrow⟩

end keys

lemma forall₂_exists {α β : Type} {R : α → β → Prop} {as : List α} {bs : List β}
    (h : List.Forall₂ R as bs) {a : α} (ha : a ∈ as) : ∃ b ∈ bs, R a b := by
  induction h with
  | nil => cases ha
  | cons hab _ ih => grind

lemma KeysApart.perm (h : KeysApart groupCol rows) (hperm : rows'.Perm rows) :
    KeysApart groupCol rows' := by
  rintro col hcol ⟨⟨x, hx, hnull⟩, y, hy, hvalue⟩
  exact h col hcol ⟨⟨x, hperm.mem_iff.1 hx, hnull⟩, y, hperm.mem_iff.1 hy, hvalue⟩

lemma nullsHidden_nil (hok : a.Ok layout) : a.NullsHidden layout [] := by
  rcases hok.cases with hfn | ⟨hfn, hcol⟩ | ⟨col, hfn, hcol⟩ | ⟨col, hfn, hcol, -⟩
  · simp [AggItem.NullsHidden, hfn]
  · simp [AggItem.NullsHidden, hcol]
  · simp [AggItem.NullsHidden, hfn, hcol]
  · exact AggItem.nullsHidden_of_uniform hfn hcol (.inl (by simp))

theorem keysApart_of_aggregates (hover : (bucketRows layout items groupCol rows).overflow = false)
    (h : AggregatesRight layout items groupCol rows) : KeysApart groupCol rows := by
  rintro col rfl ⟨⟨x, hx, hxnull⟩, y, hy, hyvalue, hyempty⟩
  obtain ⟨ks, hnodup, hmem, hpairs⟩ := (h rows (.refl _)).1
  -- both keys have a pair of their own, but the texts of the pairs differ
  have htexts : ks.map (fun k => k.getD .empty) =
      (groupPairs layout items (some col) rows).map Prod.fst := by
    have hfst : List.Forall₂ (fun k pair => k.getD .empty = pair.1) ks
        (groupPairs layout items (some col) rows) := hpairs.imp fun _ _ hp => hp.1.symm
    rwa [← forall₂_eq_eq_eq, forall₂_map_left_iff, forall₂_map_right_iff]
  have hfst : (groupPairs layout items (some col) rows).map Prod.fst =
      (finalBuckets layout items (some col) rows).map groupKey := by
    rw [groupPairs_eq hover, map_map]
    exact map_id _
  have hdistinct := finalBuckets_nodup layout items (some col) rows
  rw [← hfst, ← htexts] at hdistinct
  have hnone := (hmem none).2 (.inr ⟨x, hx, sqlKey_eq_none.2 ⟨col, rfl, hxnull⟩⟩)
  have hempty : some Text.empty ∈ ks :=
    (hmem _).2 (.inr ⟨y, hy, sqlKey_eq_some.2 ⟨hyvalue, hyempty⟩⟩)
  have := inj_on_of_nodup_map hdistinct hnone hempty rfl
  cases this

section main

variable (htyped : ∀ row ∈ rows, TypedRow layout row)
  (hcol : ∀ col, groupCol = some col → col < layout.length) (hok : ∀ a ∈ items, a.Ok layout)
  (hover : (bucketRows layout items groupCol rows).overflow = false)
include htyped hcol hok hover

lemma aggregatesRight_of_hidden (hidden : NullsHidden layout items groupCol rows) :
    AggregatesRight layout items groupCol rows := by
  obtain ⟨hapart, hitems⟩ := hidden
  intro rows' hperm
  have hover' := bucketRows_overflow_perm hperm hover
  have hkeys : ∀ {key}, key ∈ (finalBuckets layout items groupCol rows').map groupKey ↔
      key ∈ (finalBuckets layout items groupCol rows).map groupKey := by
    intro key
    rw [mem_finalBuckets_keys, mem_finalBuckets_keys]
    exact or_congr_right (exists_congr fun row => and_congr_left fun _ => hperm.mem_iff)
  -- the rows of a bucket are a group of SQL, so no NULL shows in an entry
  have hgroup : ∀ {key}, key ∈ (finalBuckets layout items groupCol rows).map groupKey →
      textGroup groupCol key rows = groupOf groupCol (keyAs groupCol rows key) rows := by
    intro key hkey
    have hk := (mem_map_keyAs htyped hcol items hapart).1 (mem_map_of_mem hkey)
    rw [← textGroup_eq htyped hcol hapart hk, keyAs_getD]
  have hgroupTyped : ∀ {key}, ∀ row ∈ textGroup groupCol key rows, TypedRow layout row :=
    fun row hrow => htyped row (mem_filter.1 hrow).1
  have hhidden : ∀ {key}, key ∈ (finalBuckets layout items groupCol rows).map groupKey →
      ∀ a ∈ items, a.NullsHidden layout (textGroup groupCol key rows) := by
    intro key hkey a ha
    rw [hgroup hkey]
    exact hitems a ha _
  have hpair : ∀ {key}, key ∈ (finalBuckets layout items groupCol rows).map groupKey →
      pairOf layout items groupCol rows' key = pairOf layout items groupCol rows key := by
    intro key hkey
    unfold pairOf
    congr 2
    apply map_congr_left
    intro a ha
    exact value_perm (hok a ha) hgroupTyped (hhidden hkey a ha) (hperm.filter _)
  constructor
  · refine ⟨((finalBuckets layout items groupCol rows').map groupKey).map
      (keyAs groupCol rows), ?_, ?_, ?_⟩
    · grind [keyAs_getD, finalBuckets_nodup]
    · intro k
      rw [← mem_map_keyAs htyped hcol items hapart, mem_map, mem_map]
      exact exists_congr fun key => and_congr_left fun _ => hkeys
    · rw [groupPairs_eq hover', forall₂_map_left_iff, forall₂_map_right_iff, forall₂_same]
      intro key hkey
      have hkey' := hkeys.1 hkey
      refine ⟨keyAs_getD.symm, fun i a ha => ?_⟩
      have hmem := mem_of_getElem? ha
      rw [hpair hkey', pairOf_text ha, ← hgroup hkey']
      exact right_of_hidden (hok a hmem) hgroupTyped (hhidden hkey' a hmem) key
  · intro pair
    rw [groupPairs_eq hover', groupPairs_eq hover, mem_map, mem_map]
    constructor
    · grind
    · grind

lemma hidden_of_aggregatesRight (hsmall : rows.length < 2 ^ 64)
    (h : AggregatesRight layout items groupCol rows) : NullsHidden layout items groupCol rows := by
  have hapart := keysApart_of_aggregates hover h
  refine ⟨hapart, fun a ha k => ?_⟩
  have hgroupTyped : ∀ row ∈ groupOf groupCol k rows, TypedRow layout row :=
    fun row hrow => htyped row (mem_filter.1 hrow).1
  obtain ⟨i, hi⟩ := mem_iff_getElem?.1 ha
  have hlen : (groupOf groupCol k rows).length < 2 ^ 64 :=
    Nat.lt_of_le_of_lt (length_filter_le _ _) hsmall
  by_cases hk : (groupCol = none ∧ k = some .empty) ∨ ∃ row ∈ rows, sqlKey groupCol row = k
  · apply hidden_of_right (hok a ha) hgroupTyped hlen
    intro group' hperm
    -- an order of all rows in which those of the group come first, in the given order
    have hall := (hperm.append_right _).trans (filter_append_perm _ rows)
    have hgroup : groupOf groupCol k
        (group' ++ rows.filter fun row => !decide (sqlKey groupCol row = k)) = group' := by
      unfold groupOf
      rw [filter_append, filter_eq_self.2, filter_eq_nil_iff.2, append_nil]
      · simp
      · intro row hrow
        exact (mem_filter.1 (hperm.mem_iff.1 hrow)).2
    have htext := textGroup_eq (fun row hrow => htyped row (hall.mem_iff.1 hrow)) hcol
      (hapart.perm hall) (by
        refine hk.imp_right ?_
        rintro ⟨row, hrow, heq⟩
        exact ⟨row, hall.mem_iff.2 hrow, heq⟩)
    obtain ⟨ks, -, hmem, hpairs⟩ := (h _ hall).1
    obtain ⟨pair, hpair, hfst, hright⟩ := forall₂_exists hpairs ((hmem k).2 hk)
    rw [groupPairs_eq (bucketRows_overflow_perm hall hover)] at hpair
    obtain ⟨key, -, rfl⟩ := mem_map.1 hpair
    obtain rfl : key = k.getD .empty := hfst
    have hvalue := hright i a hi
    rwa [pairOf_text hi, htext, hgroup] at hvalue
  · grind [groupOf, filter_eq_nil_iff, nullsHidden_nil]

lemma aggregatesRight_iff (hsmall : rows.length < 2 ^ 64) :
    AggregatesRight layout items groupCol rows ↔ NullsHidden layout items groupCol rows :=
  ⟨hidden_of_aggregatesRight htyped hcol hok hover hsmall,
    aggregatesRight_of_hidden htyped hcol hok hover⟩

end main

lemma resolveItem_ok (h : resolveItem s layout place item = .ok a) :
    (a.fn = .none ∧ a.col = none) ∨ (a.fn = .count ∧ a.col = none) ∨
      ∃ col < layout.length, a.col = some col := by
  unfold resolveItem at h
  split_ifs at h
  · cases h
    exact .inl ⟨rfl, rfl⟩
  · cases h
    exact .inr (.inl ⟨rfl, rfl⟩)
  · split at h
    · cases h
    rename_i col hfind
    split_ifs at h
    cases h
    exact .inr (.inr ⟨col, findColumnIndex_lt hfind, rfl⟩)

lemma resolveItems_ok (h : resolveItems s layout place list = .ok items) :
    ∀ a ∈ items, ∃ item ∈ list, resolveItem s layout place item = .ok a := by
  induction list generalizing items with
  | nil =>
    cases h
    simp
  | cons item list ih => grind [resolveItems]

lemma resolveColumn_ok
    (h : resolveColumn layout name msg = .ok (some col)) : col < layout.length := by
  unfold resolveColumn at h
  split at h
  · cases h
  split at h
  · cases h
  · rename_i hfind
    cases h
    exact findColumnIndex_lt hfind

lemma bind_eq_ok {ε α β : Type} {x : Except ε α} {f : α → Except ε β} {b : β}
    (h : (x >>= f) = .ok b) : ∃ a, x = .ok a ∧ f a = .ok b := by
  cases x with
  | error => cases h
  | ok a => exact ⟨a, rfl, h⟩

lemma resolveGroup_ok {s : SqlSelectStmt} {orderCol : Option ℕ}
    (h : resolveGroup s layout = .ok (groupCol, items, orderCol)) :
    (∀ col, groupCol = some col → col < layout.length) ∧
      ∃ place, resolveItems s layout place s.columns = .ok items := by
  obtain ⟨g, hgroup, h⟩ := bind_eq_ok h
  obtain ⟨as, hitems, h⟩ := bind_eq_ok h
  obtain ⟨o, -, h⟩ := bind_eq_ok h
  split_ifs at h
  cases h
  refine ⟨?_, _, hitems⟩
  rintro col rfl
  exact resolveColumn_ok hgroup

variable {c : SqlEnv} {s : SqlSelectStmt} {truncated : Bool}

lemma groupSource_typed (hgood : c.db.Good) (h : groupSource c s = .ok (layout, rows, truncated)) :
    ∀ row ∈ rows, TypedRow layout row := by
  unfold groupSource at h
  split_ifs at h
  · split at h
    · cases h
    rename_i st hjoin
    split_ifs at h
    cases h
    exact fun row hrow => joinMaterialize_typed hgood hjoin row (mem_filter.1 hrow).1
  · split at h
    · cases h
    rename_i layout' hcols
    cases h
    intro row hrow
    obtain ⟨id, -, hget⟩ := mem_filterMap.1 hrow
    cases hres : rowGet c s.tableName id with
    | error => simp [hres, Except.toOption] at hget
    | ok row' => grind [Except.toOption, rowGet_typed]

lemma groupSource_length (h : groupSource c s = .ok (layout, rows, truncated)) :
    rows.length ≤ cursorMaxRowsetRows := by
  unfold groupSource at h
  split_ifs at h
  · split at h
    · cases h
    rename_i st hjoin
    split_ifs at h
    cases h
    exact (length_filter_le ..).trans (joinMaterialize_length hjoin)
  · split at h
    · cases h
    cases h
    refine (length_filterMap_le ..).trans ?_
    have hlen := materialize_length c s layout
    unfold materialize at hlen
    rwa [length_map] at hlen

variable {orderCol : Option ℕ} {cursors : CursorTable}

/-- A grouping SELECT returns the formatted groups that HAVING keeps.  They are those of
SQL, whatever the order of the rows, exactly when the NULLs are hidden. -/
theorem group_aggregates_iff (hgood : c.db.Good) (hcursors : cursors.Ok)
    (hfree : cursors.opened.length < cursorMax) (hlimit : s.limit = none) (out : SqlResult)
    (hsource : groupSource c s = .ok (layout, rows, truncated))
    (hresolve : resolveGroup s layout = .ok (groupCol, items, orderCol))
    (hitems : ∀ a ∈ items, a.fn ≠ .sum ∧ a.fn ≠ .avg ∧
      ∀ col, a.col = some col → Sortable (columnType layout col))
    (htruncated : (execSelectGroup c s cursors out).2.truncated = false) :
    (execSelectGroup c s cursors out).2.error = .none ∧
      (resultRows (execSelectGroup c s cursors out)).Perm
        (((groupPairs layout items groupCol rows).map Prod.snd).filter
          (whereHolds s.having (groupLayout s layout groupCol items))) ∧
      (AggregatesRight layout items groupCol rows ↔ NullsHidden layout items groupCol rows) := by
  obtain ⟨hcol, place, hresolved⟩ := resolveGroup_ok hresolve
  have hexec : execSelectGroup c s cursors out = finishSelect cursors out
        (applyLimit s.limit (sortRows (groupLayout s layout groupCol items) orderCol s.orderDesc
          ((keptGroups s (groupLayout s layout groupCol items) items
            (bucketRows layout items groupCol rows).list).take cursorMaxRowsetRows)))
        ((groupLayout s layout groupCol items).map (·.name))
        (truncated || (bucketRows layout items groupCol rows).overflow || cursorMaxRowsetRows <
          (keptGroups s (groupLayout s layout groupCol items) items
            (bucketRows layout items groupCol rows).list).length) := by
    unfold execSelectGroup
    rw [hsource]
    dsimp only
    rw [hresolve]
  rw [hexec] at htruncated ⊢
  unfold finishSelect at htruncated
  simp only [Bool.or_eq_false_iff, decide_eq_false_iff_not, Nat.not_lt] at htruncated
  obtain ⟨⟨-, hover⟩, hkept⟩ := htruncated
  have hok : ∀ a ∈ items, a.Ok layout := by
    intro a ha
    obtain ⟨hsum, havg, hty⟩ := hitems a ha
    obtain ⟨item, -, hitem⟩ := resolveItems_ok hresolved a ha
    unfold AggItem.Ok
    rcases resolveItem_ok hitem with ⟨hfn, -⟩ | ⟨hfn, -⟩ | ⟨col, hlt, hcol⟩
    · rw [hfn]
      trivial
    · rw [hfn]
      trivial
    · grind
  refine ⟨rfl, ?_, ?_⟩
  · have hpairs : ((groupPairs layout items groupCol rows).map Prod.snd).filter
          (whereHolds s.having (groupLayout s layout groupCol items)) =
        keptGroups s (groupLayout s layout groupCol items) items
          (bucketRows layout items groupCol rows).list := by
      unfold groupPairs keptGroups
      rw [map_map]
      rfl
    have hsorted := sortRows_perm (groupLayout s layout groupCol items) orderCol s.orderDesc
      (keptGroups s (groupLayout s layout groupCol items) items
        (bucketRows layout items groupCol rows).list)
    rw [hlimit, hpairs, take_of_length_le hkept, resultRows_finishSelect hcursors hfree]
    · exact hsorted
    · exact hsorted.length_eq ▸ hkept
  · have hlen := groupSource_length hsource
    exact aggregatesRight_iff (groupSource_typed hgood hsource) hcol hok hover
      (Nat.lt_of_le_of_lt hlen (by decide))

section Sample

set_option maxRecDepth 8000

/-- A table of strings and numbers, with the rows `(k, v)`; `none` is NULL. -/
def keyedTable : CatalogSlot :=
  tableSlot 7 "t" ⟨[⟨"k", .string, true⟩, ⟨"v", .uint64, true⟩], 2⟩

def keyedLayout : List Column := [⟨"k", .string, 3⟩, ⟨"v", .uint64, 67⟩]

def keyedRow (row : Option (List UInt8) × Option UInt8) : RowValues :=
  ⟨(if row.1.isNone then 1 else 0) ||| (if row.2.isNone then 2 else 0),
    [.ofBytes (row.1.getD []), .ofBytes row.2.toList]⟩

def keyed (rows : List (Option (List UInt8) × Option UInt8)) : SqlEnv :=
  session (filled [keyedTable] (rows.map fun row => ("t", keyedRow row)))

def selectGrouped : SqlSelectStmt :=
  ⟨"t", "", [], false, [.plain "k", ⟨"COUNT(v)", .count, "v"⟩, ⟨"MIN(v)", .min, "v"⟩], some "k",
    none, none, none, false, none, none, none⟩

def groupedItems : List AggItem := [⟨.none, none⟩, ⟨.count, some 1⟩, ⟨.min, some 1⟩]

def groupedRows (rows : List (Option (List UInt8) × Option UInt8)) : List RowValues :=
  resultRows (execSelectGroup (keyed rows) selectGrouped noCursors .empty)

/-- Two groups without NULLs. -/
theorem group_aggregates_plain :
    groupedRows [(some [97], some 53), (some [98], some 55), (some [97], some 52)] =
        [⟨0, [.ofBytes [97], .ofBytes [50], .ofBytes [52]]⟩,
          ⟨0, [.ofBytes [98], .ofBytes [49], .ofBytes [55]]⟩] ∧
      AggregatesRight keyedLayout groupedItems (some 0)
        ([(some [97], some 53), (some [98], some 55), (some [97], some 52)].map keyedRow) := by
  have hdist : DistinctTables (createTables [keyedTable]) := distinctTables_of_pairwise (by decide)
  have hsource : groupSource
      (keyed [(some [97], some 53), (some [98], some 55), (some [97], some 52)]) selectGrouped =
      .ok (keyedLayout,
        [(some [97], some 53), (some [98], some 55), (some [97], some 52)].map keyedRow,
          false) := by
    decide +kernel
  have hresolve : resolveGroup selectGrouped keyedLayout = .ok (some 0, groupedItems, none) := by
    decide +kernel
  have hitems : ∀ a ∈ groupedItems, a.fn ≠ .sum ∧ a.fn ≠ .avg ∧
      ∀ col, a.col = some col → Sortable (columnType keyedLayout col) := by
    intro a ha
    simp only [groupedItems, mem_cons, not_mem_nil, or_false] at ha
    rcases ha with rfl | rfl | rfl
    · exact ⟨by decide, by decide, by simp⟩
    · exact ⟨by decide, by decide, fun col hcol => by cases hcol; exact .inl rfl⟩
    · exact ⟨by decide, by decide, fun col hcol => by cases hcol; exact .inl rfl⟩
  have hiff := (group_aggregates_iff (filled_good hdist) noCursors_ok (by decide) rfl .empty
    hsource hresolve hitems (by decide +kernel)).2.2
  have hvalues : ∀ row ∈ [(some [97], some 53), (some [98], some 55), (some [97], some 52)].map
      keyedRow, row.isNull 1 = false := by decide +kernel
  refine ⟨by decide +kernel, hiff.2 ⟨?_, ?_⟩⟩
  · rintro col hcol ⟨hnull, -⟩
    cases hcol
    revert hnull
    decide +kernel
  intro a ha k
  have hgroup : ∀ row ∈ groupOf (some 0) k
      ([(some [97], some 53), (some [98], some 55), (some [97], some 52)].map keyedRow),
      row.isNull 1 = false := fun row hrow => hvalues row (mem_filter.1 hrow).1
  simp only [groupedItems, mem_cons, not_mem_nil, or_false] at ha
  rcases ha with rfl | rfl | rfl
  · trivial
  · exact hgroup
  · exact .inl hgroup

/-- A NULL is counted, is taken for the key "", and stays as the minimum when it comes
first. -/
theorem group_counts_nulls :
    groupedRows [(none, none), (some [], some 53)] = [⟨0, [.empty, .ofBytes [50], .empty]⟩] ∧
      groupedRows [(some [], some 53), (none, none)] =
        [⟨0, [.empty, .ofBytes [50], .ofBytes [53]]⟩] ∧
      ¬AggregatesRight keyedLayout groupedItems (some 0)
        ([(none, none), (some [], some 53)].map keyedRow) := by
  refine ⟨by decide +kernel, by decide +kernel, fun hright => ?_⟩
  have hsame := (hright ([(some [], some 53), (none, none)].map keyedRow) (List.Perm.swap ..)).2
    (.empty, ⟨0, [.empty, .ofBytes [50], .empty]⟩)
  revert hsame
  decide +kernel

end Sample

end AeroSLS.Sql
