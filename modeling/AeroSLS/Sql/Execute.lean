import AeroSLS.Sql.Dml
import AeroSLS.Sql.Subquery

namespace AeroSLS.Sql

open Rowstore Mvcc Sorting

/-- What a statement leaves behind. -/
structure Executed where
  db : Db
  cursors : CursorTable
  result : SqlResult

/-- How a text is run one level down; there is none at the deepest level. -/
abbrev Nested := Option (List UInt8 → CursorTable → Executed)

def nestingTooDeep (out : SqlResult) : SqlResult :=
  out.fail .nestingTooDeep "SQL statement nesting too deep (max 1 level of nested SELECT)"

def drainCursor (cursors : CursorTable) (id : ℕ) : CursorTable × List RowValues :=
  let fetched := cursors.fetchRows id cursorMaxRowsetRows
  (fetched.1.close id, fetched.2)

/-- Two rows are equal when all their columns are; two NULLs are. -/
def setopRowsEqual (a b : RowValues) : Bool :=
  a.count = b.count && (List.range a.count).all fun i =>
    a.isNull i = b.isNull i && (a.isNull i || a.text i = b.text i)

/-- Append the rows that are not there yet, as long as there is room. -/
def addDistinct (merged rows : List RowValues) : List RowValues :=
  rows.foldl (fun merged row =>
    if merged.length < cursorMaxRowsetRows ∧ !merged.any (setopRowsEqual row) then merged ++ [row]
    else merged) merged

/-- The merged rows, and whether rows were dropped: only UNION ALL reports that. -/
def setopMerge (op : SqlSetOpKind) (left right : List RowValues) : List RowValues × Bool :=
  match op with
  | .unionAll =>
    ((left ++ right).take cursorMaxRowsetRows, cursorMaxRowsetRows < left.length + right.length)
  | .union => (addDistinct (addDistinct [] left) right, false)
  | .intersect => (addDistinct [] (left.filter fun row => right.any (setopRowsEqual row)), false)
  | .except => (addDistinct [] (left.filter fun row => !right.any (setopRowsEqual row)), false)

/-- The merged rows are sorted by their texts, whatever the type of the column. -/
def setopMoves (col : ℕ) (desc : Bool) (row key : RowValues) : Bool :=
  let cmp := rcStrcmp (row.text col).1 (key.text col).1
  if desc then cmp < 0 else 0 < cmp

def setopSort (s : SqlSelectStmt) (columns : List String) (rows : List RowValues) :
    Option (List RowValues) :=
  match s.orderBy with
  | none => some rows
  | some name =>
    (columns.findIdx? fun column => column = name).map fun col =>
      insertionSort (setopMoves col s.orderDesc) rows

/-- The statement's left branch: ORDER BY and LIMIT apply to the merged rows only. -/
def SqlSelectStmt.leftBranch (s : SqlSelectStmt) : SqlSelectStmt :=
  { s with setOp := none, orderBy := none, limit := none }

def execSelectSetOp (nested : Nested) (op : SqlSetOpKind) (text : List UInt8) (s : SqlSelectStmt)
    (left : Executed) (out : SqlResult) : Executed :=
  if left.result.error ≠ .none then left
  else
    let drained := drainCursor left.cursors left.result.cursorId
    match nested with
    | none => ⟨left.db, drained.1, nestingTooDeep out⟩
    | some run =>
      let right := run text drained.1
      if right.result.error ≠ .none then right
      else if right.result.kind ≠ .select then
        ⟨right.db, right.cursors.close right.result.cursorId, out.fail .internal
          "internal error: set operator's right branch did not re-parse as a SELECT"⟩
      else if right.result.columns.length ≠ left.result.columns.length then
        ⟨right.db, right.cursors.close right.result.cursorId, out.fail .columnCountMismatch
          "the two sides of a set operator must select the same number of columns"⟩
      else
        let rest := drainCursor right.cursors right.result.cursorId
        let merged := setopMerge op drained.2 rest.2
        match setopSort s left.result.columns merged.1 with
        | none =>
          ⟨right.db, rest.1, out.fail .columnNotFound ("ORDER BY column not found in the set " ++
            "operator's result (column names follow the left branch)")⟩
        | some sorted =>
          let r := finishSelect rest.1 out (applyLimit s.limit sorted) left.result.columns
            (left.result.truncated || right.result.truncated || merged.2)
          ⟨right.db, r.1, r.2⟩

variable (c : SqlEnv)

/-- `exec_select_view` and `exec_select_cte`, which differ in their messages only. -/
def execSelectNested (nested : Nested) (text : List UInt8) (place notSelect : String)
    (s : SqlSelectStmt) (cursors : CursorTable) (out : SqlResult) : Executed :=
  match nested with
  | none => ⟨c.db, cursors, nestingTooDeep out⟩
  | some run =>
    let inner := run text cursors
    if inner.result.error ≠ .none then inner
    else if inner.result.kind ≠ .select then
      ⟨inner.db, inner.cursors.close inner.result.cursorId, out.fail .internal notSelect⟩
    else
      let drained := drainCursor inner.cursors inner.result.cursorId
      let r := execSelectRows s place inner.result.columns drained.2 inner.result.truncated
        drained.1 out
      ⟨inner.db, r.1, r.2⟩

def execSelectView (nested : Nested) (view : SLSViewDef) (s : SqlSelectStmt)
    (cursors : CursorTable) (out : SqlResult) : Executed :=
  execSelectNested c nested view.sqlText "view"
    "internal error: view definition did not re-parse as a SELECT" s cursors out

def execSelectCte (nested : Nested) (text : List UInt8) (s : SqlSelectStmt)
    (cursors : CursorTable) (out : SqlResult) : Executed :=
  execSelectNested c nested text "CTE" "internal error: CTE body did not re-parse as a SELECT" s
    cursors out

def sqlCorrelatedMaxOuterRows : ℕ := 64

/-- The candidate rows for which the WHERE clause, resolved for the row, holds. -/
def correlatedRows (table : String) (layout : List Column) (pred : Predicate) :
    List ℕ → Except (SqlErrorCode × String) (List RowValues)
  | [] => .ok []
  | id :: ids =>
    match rowGet c table id with
    | .error _ => correlatedRows table layout pred ids
    | .ok row =>
      match resolvePredicateSubqueries c (some (layout, row)) pred with
      | .error e => .error e
      | .ok resolved =>
        match correlatedRows table layout pred ids with
        | .error e => .error e
        | .ok rows => .ok (if predicateEval layout row resolved then row :: rows else rows)

def execSelectCorrelated (s : SqlSelectStmt) (pred : Predicate) (cursors : CursorTable)
    (out : SqlResult) : CursorTable × SqlResult :=
  match tableColumns c s.tableName with
  | none => (cursors, out.fail .tableNotFound "table not found")
  | some layout =>
    match validateSelect s layout "table" "" with
    | .error (code, msg) => (cursors, out.fail code msg)
    | .ok orderCol =>
      let found := mvccFindMatchingRows c s.tableName none layout sqlCorrelatedMaxOuterRows
      match correlatedRows c s.tableName layout pred found.1 with
      | .error (code, msg) => (cursors, out.fail code msg)
      | .ok rows =>
        finishSelect cursors out (applyLimit s.limit (sortRows layout orderCol s.orderDesc rows))
          (selectLabels s layout) (sqlCorrelatedMaxOuterRows < found.2)

def SqlSelectStmt.correlated (s : SqlSelectStmt) : Option Predicate :=
  s.whereClause.filter (·.hasCorrelatedSubquery)

def SqlSelectStmt.cteSource (s : SqlSelectStmt) : Option (List UInt8) :=
  (s.cte.filter fun cte => s.tableName = cte.1).map (·.2)

def correlatedUnsupported (out : SqlResult) : SqlResult :=
  out.fail .correlatedSubqueryUnsupported ("a correlated subquery cannot be combined with JOIN, " ++
    "aggregates, a set operator, or a CTE (v1 scope cut) -- only a plain SELECT ... FROM " ++
    "<table> WHERE ... is supported")

def cteUnsupported (out : SqlResult) : SqlResult :=
  out.fail .cteScopeUnsupported ("a CTE cannot be combined with JOIN, aggregates, or a set " ++
    "operator (v1 scope cut) -- only a plain SELECT ... FROM <cte-name> [WHERE/ORDER BY/LIMIT] " ++
    "is supported")

/-- The result of a SELECT that runs nothing one level down. -/
def Executed.same (r : CursorTable × SqlResult) : Executed := ⟨c.db, r.1, r.2⟩

/-- `exec_select` of a statement without a set operator. -/
def execSelectBranch (nested : Nested) (s : SqlSelectStmt) (cursors : CursorTable)
    (out : SqlResult) : Executed :=
  match s.correlated, s.cteSource with
  | some pred, _ =>
    if s.hasJoin || s.hasAggregates || s.cte.isSome then
      ⟨c.db, cursors, correlatedUnsupported out⟩
    else .same c (execSelectCorrelated c s pred cursors out)
  | none, some text =>
    if s.hasJoin || s.hasAggregates then ⟨c.db, cursors, cteUnsupported out⟩
    else execSelectCte c nested text s cursors out
  | none, none =>
    if s.hasAggregates then .same c (execSelectGroup c s cursors out)
    else if s.hasJoin then .same c (execSelectJoin c s cursors out)
    else
      match tableColumns c s.tableName with
      | some layout => .same c (execSelectTable c s layout cursors out)
      | none =>
        match viewFind c s.tableName with
        | some view => execSelectView c nested view s cursors out
        | none => ⟨c.db, cursors, out.fail .tableNotFound "table not found"⟩

def execSelect (nested : Nested) (s : SqlSelectStmt) (cursors : CursorTable) (out : SqlResult) :
    Executed :=
  match s.setOp with
  | none => execSelectBranch c nested s cursors out
  | some (op, text) =>
    if s.correlated.isSome then ⟨c.db, cursors, correlatedUnsupported out⟩
    else if s.cteSource.isSome then ⟨c.db, cursors, cteUnsupported out⟩
    else
      execSelectSetOp nested op text s
        (execSelectBranch c nested s.leftBranch cursors .empty) out

/-- A WHERE clause whose subqueries are replaced by their values. -/
def resolveWhere : Option Predicate → Except (SqlErrorCode × String) (Option Predicate)
  | none => .ok none
  | some p => (resolvePredicateSubqueries c none p).map some

/-- The subqueries of a JOIN or an aggregate query stay as they are. -/
def resolveSelect (s : SqlSelectStmt) : Except (SqlErrorCode × String) SqlSelectStmt :=
  if s.hasJoin || s.hasAggregates then .ok s
  else (resolveWhere c s.whereClause).map fun p => { s with whereClause := p }

def resolveStatement : SqlStatement → Except (SqlErrorCode × String) SqlStatement
  | .select s => (resolveSelect c s).map .select
  | .insert s => .ok (.insert s)
  | .update s =>
    if s.whereClause.any (·.hasCorrelatedSubquery) then .error (.correlatedSubqueryUnsupported,
      "a correlated subquery is not supported in UPDATE ... WHERE (v1 scope cut -- SELECT only)")
    else (resolveWhere c s.whereClause).map fun p => .update { s with whereClause := p }
  | .delete s =>
    if s.whereClause.any (·.hasCorrelatedSubquery) then .error (.correlatedSubqueryUnsupported,
      "a correlated subquery is not supported in DELETE ... WHERE (v1 scope cut -- SELECT only)")
    else (resolveWhere c s.whereClause).map fun p => .delete { s with whereClause := p }

def execStatement (nested : Nested) (stmt : SqlStatement) (cursors : CursorTable)
    (out : SqlResult) : Executed :=
  match stmt with
  | .select s => execSelect c nested s cursors out
  | .insert s => let r := execInsert c s out; ⟨r.1, cursors, r.2⟩
  | .update s => let r := execUpdate c s out; ⟨r.1, cursors, r.2⟩
  | .delete s => let r := execDelete c s out; ⟨r.1, cursors, r.2⟩

def dispatchStmt (nested : Nested) (stmt : SqlStatement) (cursors : CursorTable) : Executed :=
  let out : SqlResult := { SqlResult.empty with kind := stmt.kind }
  match mvFindTxn c.db c.txnId with
  | none => ⟨c.db, cursors, out.fail .txnNotActive "transaction is not active"⟩
  | some _ =>
    match resolveStatement c stmt with
    | .error (code, msg) => ⟨c.db, cursors, out.fail code msg⟩
    | .ok stmt => execStatement c nested stmt cursors out

def runParsed (nested : Nested) (text : List UInt8) (cursors : CursorTable) : Executed :=
  match c.parse text with
  | .error msg =>
    ⟨c.db, cursors, SqlResult.fail { SqlResult.empty with kind := .invalid } .parse msg⟩
  | .ok stmt => dispatchStmt c nested stmt cursors

/-- `sql_execute_tx` with so many levels of nesting left. -/
def executeWithin : ℕ → List UInt8 → CursorTable → Executed
  | 0 => runParsed c none
  | levels + 1 => runParsed c (some (executeWithin levels))

def sqlExecMaxDepth : ℕ := 2

def sqlExecuteTx (text : List UInt8) (cursors : CursorTable) : Executed :=
  executeWithin c (sqlExecMaxDepth - 1) text cursors

end AeroSLS.Sql
