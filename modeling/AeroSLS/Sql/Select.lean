import AeroSLS.Sql.Planner

namespace AeroSLS.Sql

open Rowstore Mvcc Sorting

variable (c : SqlEnv)

def selectLabels (s : SqlSelectStmt) (layout : List Column) : List String :=
  if s.selectAll then layout.map (·.name) else s.columns.map (·.label)

/-- The checks before any row is read, in their order. `place` and `hint` are what the messages
differ in. -/
def validateSelect (s : SqlSelectStmt) (layout : List Column) (place hint : String) :
    Except (SqlErrorCode × String) (Option ℕ) :=
  if !s.selectAll && s.columns.any fun item => (findColumnIndex layout item.label).isNone then
    .error (.columnNotFound, "SELECT column not found in " ++ place)
  else
    let checkWhere (orderCol : Option ℕ) : Except (SqlErrorCode × String) (Option ℕ) :=
      if whereValid s.whereClause layout then .ok orderCol
      else .error (.columnNotFound, "WHERE clause references an unknown column" ++ hint)
    match s.orderBy with
    | none => checkWhere none
    | some name =>
      match findColumnIndex layout name with
      | none => .error (.columnNotFound, "ORDER BY column not found in " ++ place)
      | some col => checkWhere (some col)

def sortRows (layout : List Column) (orderCol : Option ℕ) (desc : Bool) (rows : List RowValues) :
    List RowValues :=
  match orderCol with
  | none => rows
  | some col => insertionSort (shouldMove layout col desc) rows

def finishSelect (cursors : CursorTable) (out : SqlResult) (rows : List RowValues)
    (columns : List String) (truncated : Bool) : CursorTable × SqlResult :=
  let opened := cursors.openRowset rows
  (opened.1, { out with
    error := .none, cursorId := opened.2, rowCount := rows.length, truncated, columns })

/-- The rows a SELECT materialises, before they are sorted and cut, and whether there
were more. -/
def materialize (s : SqlSelectStmt) (layout : List Column) : List RowValues × Bool :=
  let found := mvccFindMatchingRows c s.tableName s.whereClause layout cursorMaxRowsetRows
  (found.1.map (fetchRow c s.tableName), cursorMaxRowsetRows < found.2)

def execSelectTable (s : SqlSelectStmt) (layout : List Column) (cursors : CursorTable)
    (out : SqlResult) : CursorTable × SqlResult :=
  match validateSelect s layout "table" "" with
  | .error (code, msg) => (cursors, out.fail code msg)
  | .ok orderCol =>
    let source := materialize c s layout
    let rows := applyLimit s.limit (sortRows layout orderCol s.orderDesc source.1)
    finishSelect cursors out rows (selectLabels s layout) source.2

/-- The outer clauses over the rows of the inner SELECT, all of whose columns count as strings.
-/
def execSelectRows (s : SqlSelectStmt) (place : String) (names : List String)
    (rows : List RowValues)
    (truncated : Bool) (cursors : CursorTable) (out : SqlResult) : CursorTable × SqlResult :=
  let layout := names.map fun name => (⟨name, .string, 0⟩ : Column)
  match validateSelect s layout place "" with
  | .error (code, msg) => (cursors, out.fail code msg)
  | .ok orderCol =>
    let kept := rows.filter (whereHolds s.whereClause layout)
    let rows := applyLimit s.limit (sortRows layout orderCol s.orderDesc kept)
    finishSelect cursors out rows (selectLabels s layout) truncated

end AeroSLS.Sql
