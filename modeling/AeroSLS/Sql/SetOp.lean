import AeroSLS.Lib.Distinct
import AeroSLS.Sql.Delivery

namespace AeroSLS.Sql

open Rowstore Mvcc Distinct List

variable {row : RowValues}

lemma setopRowsEqual_iff : setopRowsEqual a b ↔ cells a = cells b := by
  rw [cells_eq_iff]
  unfold setopRowsEqual
  rw [Bool.and_eq_true, decide_eq_true_eq, all_eq_true]
  apply and_congr_right
  intro _
  apply forall_congr'
  intro i
  rw [mem_range]
  apply imp_congr_right
  unfold cell
  cases a.isNull i <;> cases b.isNull i <;> simp

lemma any_setopRowsEqual_iff (rows : List RowValues) :
    rows.any (setopRowsEqual row) ↔ cells row ∈ rows.map cells := by
  rw [any_eq_true, mem_map]
  apply exists_congr
  intro b
  rw [setopRowsEqual_iff, eq_comm]

lemma addDistinct_take (kept rows : List RowValues) :
    addDistinct (kept.take cursorMaxRowsetRows) rows =
      (rows.foldl (addNew cells) kept).take cursorMaxRowsetRows := by
  rw [← foldl_capped]
  unfold addDistinct
  congr 1
  funext kept row
  congr 1
  rw [Bool.not_eq_true', ← Bool.not_eq_true, any_setopRowsEqual_iff]

def firstRows (rows : List RowValues) : List RowValues :=
  (distinct cells rows).take cursorMaxRowsetRows

lemma addDistinct_nil : addDistinct [] rows = firstRows rows := by
  have h := addDistinct_take [] rows
  rwa [take_nil] at h

lemma addDistinct_append : addDistinct (addDistinct [] left) right = firstRows (left ++ right) := by
  rw [addDistinct_nil, firstRows, addDistinct_take, firstRows, distinct, distinct, foldl_append]

lemma firstRows_eq (h : rows.length ≤ cursorMaxRowsetRows) : firstRows rows = distinct cells rows :=
  take_of_length_le ((length_distinct_le cells).trans h)

lemma firstRows_length : (firstRows rows).length ≤ cursorMaxRowsetRows := length_take_le ..

lemma setopMerge_length : (setopMerge op left right).1.length ≤ cursorMaxRowsetRows := by
  cases op with
  | unionAll => exact length_take_le ..
  | union => exact (congrArg length addDistinct_append).trans_le firstRows_length
  | intersect | except => exact (congrArg length addDistinct_nil).trans_le firstRows_length

/-- What a set operator makes of two lists of rows. -/
def SetAlgebra {α : Type} (op : SqlSetOpKind) (result left right : List α) : Prop :=
  match op with
  | .unionAll => result.Perm (left ++ right)
  | .union => result.Nodup ∧ ∀ x, x ∈ result ↔ x ∈ left ∨ x ∈ right
  | .intersect => result.Nodup ∧ ∀ x, x ∈ result ↔ x ∈ left ∧ x ∈ right
  | .except => result.Nodup ∧ ∀ x, x ∈ result ↔ x ∈ left ∧ x ∉ right

/-- A row at the given positions, as far as it has them. -/
def restrict (positions : List ℕ) (row : RowValues) : List (Option (Option Text)) :=
  positions.map fun i => (cells row)[i]?

def common (left right : List RowValues) : List RowValues :=
  left.filter fun row => right.any (setopRowsEqual row)

def others (left right : List RowValues) : List RowValues :=
  left.filter fun row => !right.any (setopRowsEqual row)

/-- What makes the merge, which compares whole rows and shows them at the left positions, the
operator on the selected columns. -/
def Told (op : SqlSetOpKind) (positions positionsRight : List ℕ) (left right : List RowValues) :
    Prop :=
  let view := restrict positions
  let viewRight := restrict positionsRight
  let early := Early cells cursorMaxRowsetRows (left ++ right)
  match op with
  | .unionAll => (right.map view).Perm (right.map viewRight)
  | .union => (∀ a b, early a → early b → view a = view b → cells a = cells b) ∧
      (∀ b ∈ right, early b → view b ∈ left.map view ∨ view b ∈ right.map viewRight) ∧
      (∀ a ∈ left, ∃ kept, early kept ∧ view kept = view a) ∧
      ∀ b ∈ right, ∃ kept, early kept ∧ view kept = viewRight b
  | .intersect => Separates cells view (common left right) ∧
      (∀ a ∈ common left right, ∃ b ∈ right, viewRight b = view a) ∧
      ∀ a ∈ left, ∀ b ∈ right, view a = viewRight b → ∃ kept ∈ common left right, view kept = view a
  | .except => Separates cells view (others left right) ∧
      (∀ a ∈ others left right, ∀ b ∈ right, view a ≠ viewRight b) ∧
      ∀ a ∈ left, (∀ b ∈ right, view a ≠ viewRight b) →
        ∃ kept ∈ others left right, view kept = view a

section merge

variable {op : SqlSetOpKind} {left right : List RowValues}

lemma restrict_of_cells (h : cells a = cells b) : restrict positions a = restrict positions b := by
  unfold restrict
  rw [h]

lemma union_iff : SetAlgebra .union ((firstRows (left ++ right)).map (restrict positions))
      (left.map (restrict positions)) (right.map (restrict positionsRight)) ↔
      Told .union positions positionsRight left right := by
  have hkeys : ((firstRows (left ++ right)).map cells).Nodup := by grind [firstRows, nodup_distinct]
  have hearly : ∀ a ∈ firstRows (left ++ right),
      a ∈ left ++ right ∧ Early cells cursorMaxRowsetRows (left ++ right) a := fun a ha =>
    ⟨distinct_subset cells (mem_of_mem_take ha), early_of_mem_take cells ha⟩
  have hmem : ∀ x, x ∈ (firstRows (left ++ right)).map (restrict positions) ↔
      ∃ a, Early cells cursorMaxRowsetRows (left ++ right) a ∧ restrict positions a = x := by
    intro x
    rw [mem_map]
    constructor
    · rintro ⟨a, ha, rfl⟩
      exact ⟨a, (hearly a ha).2, rfl⟩
    · rintro ⟨a, ha, rfl⟩
      obtain ⟨b, hb, hcells⟩ := ha.kept
      exact ⟨b, hb, restrict_of_cells hcells⟩
  unfold SetAlgebra Told
  rw [nodup_view_iff cells _ hkeys]
  apply and_congr
  · constructor
    · intro h a b ha hb hab
      obtain ⟨a', ha', hka⟩ := ha.kept
      obtain ⟨b', hb', hkb⟩ := hb.kept
      rw [← hka, ← hkb]
      apply h a' ha' b' hb'
      rw [restrict_of_cells hka, restrict_of_cells hkb, hab]
    · exact fun h a ha b hb => h a b (hearly a ha).2 (hearly b hb).2
  simp only [hmem]
  constructor
  · intro h
    refine ⟨fun b _ hb => (h _).1 ⟨b, hb, rfl⟩, fun a ha => ?_, fun b hb => ?_⟩
    · exact (h _).2 (.inl (mem_map_of_mem ha))
    · exact (h _).2 (.inr (mem_map_of_mem hb))
  · rintro ⟨hshown, hleft, hright⟩ x
    constructor
    · rintro ⟨a, ha, rfl⟩
      obtain hin | hin := mem_append.1 ha.mem
      · exact .inl (mem_map_of_mem hin)
      · exact hshown a hin ha
    · rintro (hx | hx)
      · obtain ⟨a, ha, rfl⟩ := mem_map.1 hx
        exact hleft a ha
      · obtain ⟨b, hb, rfl⟩ := mem_map.1 hx
        exact hright b hb

lemma intersect_iff :
    SetAlgebra .intersect ((distinct cells (common left right)).map (restrict positions))
      (left.map (restrict positions)) (right.map (restrict positionsRight)) ↔
      Told .intersect positions positionsRight left right := by
  refine (distinct_view_iff cells (restrict positions) (fun _ _ => restrict_of_cells)
    (filter_subset_self _)).trans ?_
  simp only [mem_map]
  refine and_congr_right fun _ => and_congr_right fun _ => forall₂_congr fun a _ => ?_
  exact ⟨fun h b hb hab => h ⟨b, hb, hab.symm⟩, fun h ⟨b, hb, hab⟩ => h b hb hab.symm⟩

lemma except_iff :
    SetAlgebra .except ((distinct cells (others left right)).map (restrict positions))
      (left.map (restrict positions)) (right.map (restrict positionsRight)) ↔
      Told .except positions positionsRight left right := by
  have hout : ∀ a, restrict positions a ∉ right.map (restrict positionsRight) ↔
      ∀ b ∈ right, restrict positions a ≠ restrict positionsRight b := by
    intro a
    simp [mem_map, eq_comm]
  refine (distinct_view_iff cells (restrict positions) (fun _ _ => restrict_of_cells)
    (filter_subset_self _)).trans ?_
  simp only [hout]
  rfl

theorem setopMerge_iff (hleft : left.length ≤ cursorMaxRowsetRows)
    (htruncated : (setopMerge op left right).2 = false) :
    SetAlgebra op ((setopMerge op left right).1.map (restrict positions))
      (left.map (restrict positions)) (right.map (restrict positionsRight)) ↔
      Told op positions positionsRight left right := by
  have hsmall : ∀ keep, addDistinct [] (left.filter keep) = distinct cells (left.filter keep) := by
    intro keep
    rw [addDistinct_nil, firstRows_eq ((length_filter_le ..).trans hleft)]
  cases op with
  | unionAll =>
    have hfit : (left ++ right).length ≤ cursorMaxRowsetRows := by
      simpa [setopMerge] using htruncated
    unfold setopMerge SetAlgebra Told
    rw [take_of_length_le hfit, map_append]
    exact perm_append_left_iff _
  | union =>
    unfold setopMerge
    rw [addDistinct_append]
    exact union_iff
  | intersect =>
    unfold setopMerge
    rw [hsmall]
    exact intersect_iff
  | except =>
    unfold setopMerge
    dsimp only
    rw [hsmall]
    exact except_iff

end merge

section run

variable {c : SqlEnv} {s : SqlSelectStmt} {cursors : CursorTable} {op : SqlSetOpKind}
  {text : List UInt8}

lemma resolveSelect_leftBranch (h : resolveSelect c s = .ok s') :
    resolveSelect c s.leftBranch = .ok s'.leftBranch := by
  have hjoin : (s.leftBranch.hasJoin || s.leftBranch.hasAggregates) =
      (s.hasJoin || s.hasAggregates) := rfl
  have hwhere : s.leftBranch.whereClause = s.whereClause := rfl
  unfold resolveSelect at h ⊢
  rw [hjoin, hwhere]
  split_ifs at h ⊢
  · cases h
    rfl
  rcases hres : resolveWhere c s.whereClause with e | p <;> rw [hres] at h
  · cases h
  cases h
  rfl

lemma executeWithin_zero_rows (hbase : base.Ok) (hok : cursors.Ok)
    (herr : (executeWithin c 0 text base).result.error = .none)
    (hkind : (executeWithin c 0 text base).result.kind = .select) :
    ∃ rows, Delivers base (executeWithin c 0 text base) rows ∧
      Delivers cursors (sqlExecuteTx c text cursors) rows := by
  obtain ⟨rows, labels, truncated, hsize, heq⟩ := executeWithin_zero_flat herr hkind
  refine ⟨rows, ?_, ?_⟩
  · rw [executeWithin, heq]
    exact .finish hbase rfl hsize
  · change Delivers cursors (runParsed c (some (executeWithin c 0)) text cursors) rows
    rw [heq]
    exact .finish hok rfl hsize

lemma setOp_run (hok : cursors.Ok) (hfree : cursors.opened.length < cursorMax)
    (hop : s.setOp = some (op, text)) (horder : s.orderBy = none) (hlimit : s.limit = none)
    (hrun : (runSelect c s cursors).result.error = .none) :
    ∃ left right, Delivers cursors (runSelect c s.leftBranch cursors) left ∧
      Delivers cursors (sqlExecuteTx c text cursors) right ∧
      Delivers cursors (runSelect c s cursors) (setopMerge op left right).1 ∧
      ((runSelect c s cursors).result.truncated = false →
        (setopMerge op left right).2 = false) := by
  obtain ⟨ht, s', hres⟩ := dispatchStmt_select_ok hrun
  have hs' := resolveSelect_ok hres
  have hop' : s'.setOp = some (op, text) := by rw [hs', hop]
  have horder' : s'.orderBy = none := by rw [hs', horder]
  have hlimit' : s'.limit = none := by rw [hs', hlimit]
  have hleftrun : runSelect c s.leftBranch cursors =
      execSelectBranch c (some (executeWithin c 0)) s'.leftBranch cursors .empty :=
    dispatchStmt_select ht (resolveSelect_leftBranch hres)
  have hwhole : runSelect c s cursors =
      execSelect c (some (executeWithin c 0)) s' cursors .empty := dispatchStmt_select ht hres
  rw [hwhole] at hrun ⊢
  unfold execSelect at hrun ⊢
  rw [hop'] at hrun ⊢
  rw [← hleftrun] at hrun ⊢
  split_ifs at hrun ⊢
  · cases hrun
  · cases hrun
  · unfold execSelectSetOp at hrun ⊢
    dsimp only at hrun ⊢
    by_cases hleft : (runSelect c s.leftBranch cursors).result.error = .none
    · rw [if_neg (not_not.2 hleft)] at hrun ⊢
      obtain ⟨left, hdel⟩ := execSelectBranch_delivers executeWithin_zero_delivering hok hfree
        (hleftrun ▸ hleft)
      rw [← hleftrun] at hdel
      obtain ⟨base, hbase, hopened, hdrain⟩ := hdel.drain hfree
      rw [hdrain] at hrun ⊢
      split_ifs at hrun ⊢ with hright hkind hcount
      · exact absurd hrun hright
      · cases hrun
      · cases hrun
      · obtain ⟨right, hrdel, htop⟩ := executeWithin_zero_rows hbase hok
          (not_not.1 hright) (not_not.1 hkind)
        obtain ⟨rest, hrest, hropened, hrdrain⟩ := hrdel.drain (hopened ▸ hfree)
        rw [hrdrain] at hrun ⊢
        have hsort : ∀ columns rows, setopSort s' columns rows = some rows := by grind [setopSort]
        have hcut : ∀ rows, applyLimit s'.limit rows = rows := by grind [applyLimit]
        rw [hsort] at hrun ⊢
        dsimp only at hrun ⊢
        rw [hcut] at hrun ⊢
        refine ⟨left, right, hdel, htop, .finish hrest (hropened.trans hopened) ?_, fun htr => ?_⟩
        · exact setopMerge_length
        · simp only [finishSelect, Bool.or_eq_false_iff] at htr
          exact htr.2
    · rw [if_pos hleft] at hrun
      exact absurd hrun hleft

/-- The columns a SELECT returns, with their positions in the rows of its cursor, given
those of its source. -/
def pickColumns (s : SqlSelectStmt) (source : List (String × ℕ)) : List (String × ℕ) :=
  if s.selectAll then source
  else s.columns.map fun item =>
    (item.label, ((source.find? fun col => col.1 = item.label).map (·.2)).getD 0)

def layoutColumns (layout : List Column) : List (String × ℕ) := (layout.map (·.name)).zipIdx

/-- `inner` gives the columns of a text that is run one level down. -/
def sourceColumns (c : SqlEnv) (inner : List UInt8 → List (String × ℕ)) (s : SqlSelectStmt) :
    List (String × ℕ) :=
  match s.cteSource with
  | some text => inner text
  | none =>
    if s.hasAggregates then (s.columns.map (·.label)).zipIdx
    else if s.hasJoin then
      match joinMaterialize c s with
      | .ok st => layoutColumns st.layout
      | .error _ => []
    else
      match tableColumns c s.tableName, viewFind c s.tableName with
      | some layout, _ => layoutColumns layout
      | none, some view => inner view.sqlText
      | none, none => []

def textColumns (columns : SqlSelectStmt → List (String × ℕ)) (c : SqlEnv) (text : List UInt8) :
    List (String × ℕ) :=
  match c.parse text with
  | .ok (.select s) => columns s
  | _ => []

/-- The columns a SELECT returns, with so many levels of nesting left. -/
def columnsWithin (c : SqlEnv) : ℕ → SqlSelectStmt → List (String × ℕ)
  | 0, s => pickColumns s (sourceColumns c (fun _ => []) s)
  | levels + 1, s => pickColumns s (sourceColumns c (textColumns (columnsWithin c levels) c) s)

/-- The positions of the columns a SELECT returns in the rows of its cursor. -/
def selectedPositions (c : SqlEnv) (s : SqlSelectStmt) : List ℕ :=
  (columnsWithin c (sqlExecMaxDepth - 1) s).map (·.2)

def textPositions (c : SqlEnv) (text : List UInt8) : List ℕ :=
  (textColumns (columnsWithin c (sqlExecMaxDepth - 1)) c text).map (·.2)

def Executed.rows (x : Executed) : List RowValues := resultRows (x.cursors, x.result)

/-- The rows of a set operator are those of set algebra exactly when the merge is told by the
selected columns. -/
theorem setOp_algebra_iff {whole : List UInt8} (hok : cursors.Ok)
    (hfree : cursors.opened.length < cursorMax) (hwhole : c.parse whole = .ok (.select s))
    (hop : s.setOp = some (op, text)) (horder : s.orderBy = none) (hlimit : s.limit = none)
    (hrun : (sqlExecuteTx c whole cursors).result.error = .none)
    (htruncated : (sqlExecuteTx c whole cursors).result.truncated = false) :
    SetAlgebra op
        ((sqlExecuteTx c whole cursors).rows.map (restrict (selectedPositions c s.leftBranch)))
        ((runSelect c s.leftBranch cursors).rows.map (restrict (selectedPositions c s.leftBranch)))
        ((sqlExecuteTx c text cursors).rows.map (restrict (textPositions c text))) ↔
      Told op (selectedPositions c s.leftBranch) (textPositions c text)
        (runSelect c s.leftBranch cursors).rows (sqlExecuteTx c text cursors).rows := by
  rw [sqlExecuteTx_select hwhole] at hrun htruncated ⊢
  obtain ⟨left, right, hleft, hright, hresult, hfits⟩ := setOp_run hok hfree hop horder hlimit hrun
  have hl : (runSelect c s.leftBranch cursors).rows = left := hleft.resultRows hfree
  have hr : (sqlExecuteTx c text cursors).rows = right := hright.resultRows hfree
  have hx : (runSelect c s cursors).rows = (setopMerge op left right).1 := hresult.resultRows hfree
  rw [hl, hr, hx]
  exact setopMerge_iff hleft.size (hfits htruncated)

section Sample

set_option maxRecDepth 8000

/-- A table of two numbers. -/
def pairTable : CatalogSlot := tableSlot 7 "t" ⟨[⟨"a", .uint64, true⟩, ⟨"b", .uint64, true⟩], 2⟩

def pairRow (a b : UInt8) : RowValues := ⟨0, [.ofBytes [a], .ofBytes [b]]⟩

def selectPairs (columns : List String) : SqlSelectStmt :=
  ⟨"t", "", [], columns.isEmpty, columns.map .plain, none, none, none, none, false,
    none, none, none⟩

def unionPairs (columns : List String) : SqlEnv :=
  { session (filled [pairTable] [("t", pairRow 49 53), ("t", pairRow 50 53)]) with
    parse := fun text => .ok (.select (if text = [] then selectPairs columns
      else { selectPairs columns with setOp := some (.union, []) })) }

/-- Of all columns the UNION has no duplicates. -/
theorem setOp_algebra_all_columns : SetAlgebra .union
        ((sqlExecuteTx (unionPairs []) [0] noCursors).rows.map (restrict [0, 1]))
        ([pairRow 49 53, pairRow 50 53].map (restrict [0, 1]))
        ([pairRow 49 53, pairRow 50 53].map (restrict [0, 1])) := by
  have hleft : (runSelect (unionPairs []) (selectPairs []) noCursors).rows =
      [pairRow 49 53, pairRow 50 53] := by decide +kernel
  have hright : (sqlExecuteTx (unionPairs []) [] noCursors).rows =
      [pairRow 49 53, pairRow 50 53] := by decide +kernel
  have hpos : selectedPositions (unionPairs []) (selectPairs []) = [0, 1] := by decide +kernel
  have htext : textPositions (unionPairs []) [] = [0, 1] := by decide +kernel
  have hiff := setOp_algebra_iff (c := unionPairs [])
    (s := { selectPairs [] with setOp := some (.union, []) }) noCursors_ok (by decide)
    (rfl : (unionPairs []).parse [0] = _) rfl rfl rfl (by decide +kernel) (by decide +kernel)
  change SetAlgebra .union ((sqlExecuteTx (unionPairs []) [0] noCursors).rows.map
        (restrict (selectedPositions (unionPairs []) (selectPairs []))))
      ((runSelect (unionPairs []) (selectPairs []) noCursors).rows.map
        (restrict (selectedPositions (unionPairs []) (selectPairs [])))) _ ↔
    Told .union (selectedPositions (unionPairs []) (selectPairs [])) _
      (runSelect (unionPairs []) (selectPairs []) noCursors).rows _ at hiff
  rw [htext, hpos, hleft, hright] at hiff
  apply hiff.2
  have hearly : ∀ a ∈ [pairRow 49 53, pairRow 50 53], Early cells cursorMaxRowsetRows
      ([pairRow 49 53, pairRow 50 53] ++ [pairRow 49 53, pairRow 50 53]) a := fun a ha =>
    early_of_length_le cells (by decide) (mem_append_left _ ha)
  refine ⟨fun a b ha hb => ?_, fun b hb _ => .inl (mem_map_of_mem hb),
    fun a ha => ⟨a, hearly a ha, rfl⟩, fun b hb => ⟨b, hearly b hb, rfl⟩⟩
  have htell : Separates cells (restrict [0, 1])
      ([pairRow 49 53, pairRow 50 53] ++ [pairRow 49 53, pairRow 50 53]) := by
    unfold Separates
    decide +kernel
  exact htell a ha.mem b hb.mem

/-- Two rows that differ in an unselected column are both kept. -/
theorem union_keeps_duplicates :
    (sqlExecuteTx (unionPairs ["b"]) [0] noCursors).result.error = .none ∧
      (sqlExecuteTx (unionPairs ["b"]) [0] noCursors).result.truncated = false ∧
      selectedPositions (unionPairs ["b"]) (selectPairs ["b"]) = [1] ∧
      (sqlExecuteTx (unionPairs ["b"]) [0] noCursors).rows.map (restrict [1]) =
        [[some (some (.ofBytes [53]))], [some (some (.ofBytes [53]))]] ∧
      ¬SetAlgebra .union ((sqlExecuteTx (unionPairs ["b"]) [0] noCursors).rows.map (restrict [1]))
        ((runSelect (unionPairs ["b"]) (selectPairs ["b"]) noCursors).rows.map (restrict [1]))
        ((sqlExecuteTx (unionPairs ["b"]) [] noCursors).rows.map (restrict [1])) := by
  have hrows : (sqlExecuteTx (unionPairs ["b"]) [0] noCursors).rows.map (restrict [1]) =
      [[some (some (.ofBytes [53]))], [some (some (.ofBytes [53]))]] := by decide +kernel
  refine ⟨by decide +kernel, by decide +kernel, by decide +kernel, hrows, fun halg => ?_⟩
  have hnodup := halg.1
  rw [hrows] at hnodup
  exact absurd hnodup (by decide)

end Sample

end run

end AeroSLS.Sql
