import AeroSLS.Sql.Select

namespace AeroSLS.Sql

open Rowstore Mvcc Sorting

def buildQualifiedName (table col : String) : String :=
  String.ofList ((table.toList ++ '.' :: col.toList).take (recordKeyLen - 1))

def joinDisplayName (table tableAlias : String) : String :=
  if tableAlias = "" then table else tableAlias

/-- The columns of a table under its display name; there are no page offsets here. -/
def qualify (display : String) (layout : List Column) : List Column :=
  layout.map fun col => ⟨buildQualifiedName display col.name, col.type, 0⟩

/-- The null bits of the first `count` columns, moved to `start`. -/
def maskSegment (mask : BitVec 16) (start count : ℕ) : BitVec 16 :=
  ((mask.setWidth count).setWidth 16) <<< start

/-- `copy_row_segment` twice: the first `n` columns of one row, then the first `m` of the
other. -/
def combineRows (n : ℕ) (left : RowValues) (m : ℕ) (right : RowValues) : RowValues :=
  ⟨maskSegment left.nullMask 0 n ||| maskSegment right.nullMask n m,
    (List.range n).map left.text ++ (List.range m).map right.text⟩

/-- A row of NULLs, which `fill_join_null_pad` puts in place of an unmatched side. -/
def nullRow (n : ℕ) : RowValues := ⟨BitVec.allOnes 16, List.replicate n Text.empty⟩

/-- The rows so far, their columns, the tables they come from by display name, and
whether rows were dropped. -/
structure JoinState where
  rows : List RowValues
  layout : List Column
  chain : List (String × List Column)
  truncated : Bool

/-- The new table's columns, its display name and the positions of the two columns compared. -/
structure JoinPlan where
  layout : List Column
  display : String
  newCol : ℕ
  outerCol : ℕ

variable (c : SqlEnv)

/-- The checks of one JOIN clause, in their order. -/
def resolveJoin (s : SqlSelectStmt) (st : JoinState) (jc : SqlJoinClause) :
    Except (SqlErrorCode × String) JoinPlan :=
  match tableColumns c jc.table with
  | none =>
    if s.cte.any fun cte => jc.table = cte.1 then
      .error (.cteScopeUnsupported, "a CTE cannot be JOIN'd (v1 scope cut)")
    else if (viewFind c jc.table).isSome then
      .error (.viewInJoinUnsupported, "a view cannot be JOIN'd (v1 scope cut)")
    else .error (.tableNotFound, "joined table not found")
  | some layoutNew =>
    let dispNew := joinDisplayName jc.table jc.tableAlias
    if rowstoreMaxColumns < st.layout.length + layoutNew.length then
      .error (.joinTooWide, "joined tables have too many combined columns")
    else
      let resolve (newColName outerQualifier outerColName : String) :
          Except (SqlErrorCode × String) JoinPlan :=
        match findColumnIndex layoutNew newColName with
        | none => .error (.columnNotFound, "ON clause column not found in the joined table")
        | some newCol =>
          match st.chain.find? fun entry => entry.1 = outerQualifier with
          | none => .error (.joinInvalid,
              "ON clause's other side does not resolve to a table already in the FROM/JOIN chain")
          | some outer =>
            match findColumnIndex outer.2 outerColName with
            | none => .error (.columnNotFound,
                "ON clause column not found in the corresponding table")
            | some _ =>
              -- the column is there under its qualified name, so this is always found
              let outerCol := (findColumnIndex st.layout
                (buildQualifiedName outerQualifier outerColName)).getD st.layout.length
              .ok ⟨layoutNew, dispNew, newCol, outerCol⟩
      if jc.onLeftQualifier = dispNew then resolve jc.onLeftCol jc.onRightQualifier jc.onRightCol
      else if jc.onRightQualifier = dispNew then
        resolve jc.onRightCol jc.onLeftQualifier jc.onLeftCol
      else .error (.joinInvalid,
        "ON clause does not reference the newly joined table (use its alias if it has one)")

def probePredicate (column : String) (literal : Text) : Predicate :=
  ⟨[.comparison column .eq literal none], some 0, []⟩

def joinProbe (table : String) (plan : JoinPlan) (row : RowValues) : List ℕ :=
  if row.isNull plan.outerCol then []
  else
    match plan.layout[plan.newCol]? with
    | none => []
    | some col =>
      (mvccFindMatchingRows c table (some (probePredicate col.name (row.text plan.outerCol)))
        plan.layout cursorMaxRowsetRows).1

/-- `join_id_matched` with the ids added to `g_join_matched_ids` while it has room. -/
def recordMatched (matched ids : List ℕ) : List ℕ :=
  ids.foldl (fun matched id =>
    if matched.length < cursorMaxRowsetRows ∧ id ∉ matched then matched ++ [id] else
      matched) matched

def joinRow (type : SqlJoinType) (table : String) (plan : JoinPlan) (width : ℕ) (row : RowValues) :
    List RowValues :=
  match joinProbe c table plan row with
  | [] =>
    if type = .left ∨ type = .full then
      [combineRows width row plan.layout.length (nullRow plan.layout.length)]
    else []
  | ids =>
    ids.filterMap fun id =>
      match rowGet c table id with
      | .ok rowNew => some (combineRows width row plan.layout.length rowNew)
      | .error _ => none

/-- The second pass of RIGHT and FULL: the rows of the new table nothing matched. -/
def joinRightAnti (table : String) (plan : JoinPlan) (width : ℕ) (matched : List ℕ) :
    List RowValues :=
  ((mvccTableScan c.env c.db c.txnId c.uid table).filter fun row => row.1 ∉ matched).map fun row =>
    combineRows width (nullRow width) plan.layout.length row.2

def joinStep (s : SqlSelectStmt) (st : JoinState) (jc : SqlJoinClause) :
    Except (SqlErrorCode × String) JoinState :=
  match resolveJoin c s st jc with
  | .error e => .error e
  | .ok plan =>
    let width := st.layout.length
    let main := st.rows.flatMap (joinRow c jc.type jc.table plan width)
    let anti :=
      if jc.type = .right ∨ jc.type = .full then
        joinRightAnti c jc.table plan width
          (st.rows.foldl (fun matched row =>
            recordMatched matched (joinProbe c jc.table plan row)) [])
      else []
    let next := main ++ anti
    .ok ⟨next.take cursorMaxRowsetRows, st.layout ++ qualify plan.display plan.layout,
      st.chain ++ [(plan.display, plan.layout)], st.truncated || cursorMaxRowsetRows < next.length⟩

def joinFrom (s : SqlSelectStmt) (layout : List Column) : JoinState :=
  let rows := (mvccTableScan c.env c.db c.txnId c.uid s.tableName).map (·.2)
  let display := joinDisplayName s.tableName s.tableAlias
  ⟨rows.take cursorMaxRowsetRows, qualify display layout, [(display, layout)],
    cursorMaxRowsetRows < rows.length⟩

def joinSteps (s : SqlSelectStmt) : JoinState → List SqlJoinClause →
    Except (SqlErrorCode × String) JoinState
  | st, [] => .ok st
  | st, jc :: jcs =>
    match joinStep c s st jc with
    | .error e => .error e
    | .ok st' => joinSteps s st' jcs

def joinMaterialize (s : SqlSelectStmt) : Except (SqlErrorCode × String) JoinState :=
  match tableColumns c s.tableName with
  | none =>
    if (viewFind c s.tableName).isSome then
      .error (.viewInJoinUnsupported, "a view cannot be the FROM source of a JOIN (v1 scope cut)")
    else .error (.tableNotFound, "FROM table not found")
  | some layout => joinSteps c s (joinFrom c s layout) s.joins

def execSelectJoin (s : SqlSelectStmt) (cursors : CursorTable) (out : SqlResult) :
    CursorTable × SqlResult :=
  match joinMaterialize c s with
  | .error (code, msg) => (cursors, out.fail code msg)
  | .ok st =>
    match validateSelect s st.layout "the joined result (use table.column or alias.column)"
        " (use table.column or alias.column)" with
    | .error (code, msg) => (cursors, out.fail code msg)
    | .ok orderCol =>
      let kept := st.rows.filter (whereHolds s.whereClause st.layout)
      let rows := applyLimit s.limit (sortRows st.layout orderCol s.orderDesc kept)
      finishSelect cursors out rows (selectLabels s st.layout) st.truncated

end AeroSLS.Sql
