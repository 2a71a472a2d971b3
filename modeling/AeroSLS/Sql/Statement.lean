import AeroSLS.Sql.Predicate

namespace AeroSLS.Sql

open Rowstore Mvcc

def sqlErrMsgLen : ℕ := 128
def recordKeyLen : ℕ := 64
def cursorMax : ℕ := 8
def cursorMaxRowsetRows : ℕ := 256

inductive SqlAggFunc
  | none
  | count
  | sum
  | avg
  | min
  | max
  deriving DecidableEq

inductive SqlJoinType
  | inner
  | left
  | right
  | full
  deriving DecidableEq

inductive SqlSetOpKind
  | union
  | unionAll
  | intersect
  | except
  deriving DecidableEq

structure SqlJoinClause where
  type : SqlJoinType
  table : String
  tableAlias : String
  onLeftQualifier : String
  onLeftCol : String
  onRightQualifier : String
  onRightCol : String
  deriving DecidableEq

/-- An entry of the SELECT list: its label, and the aggregate it stands for. -/
structure SelectItem where
  label : String
  aggFn : SqlAggFunc
  aggArg : String
  deriving DecidableEq

def SelectItem.plain (label : String) : SelectItem := ⟨label, .none, ""⟩

structure SqlSelectStmt where
  tableName : String
  tableAlias : String
  joins : List SqlJoinClause
  selectAll : Bool
  columns : List SelectItem
  groupBy : Option String
  having : Option Predicate
  whereClause : Option Predicate
  orderBy : Option String
  orderDesc : Bool
  limit : Option ℕ
  setOp : Option (SqlSetOpKind × List UInt8)
  cte : Option (String × List UInt8)
  deriving DecidableEq

namespace SqlSelectStmt

def hasAggregates (s : SqlSelectStmt) : Bool :=
  !s.selectAll && s.columns.any fun item => item.aggFn ≠ .none

def hasJoin (s : SqlSelectStmt) : Bool := s.joins ≠ []

end SqlSelectStmt

/-- The tuples of a VALUES list; `none` is NULL. -/
structure SqlInsertStmt where
  tableName : String
  columns : List String
  row : List (Option Text)
  extraRows : List (List (Option Text))
  deriving DecidableEq

inductive SetValue
  | literal (text : Text)
  | null
  | arith (op1 : ArithOperand) (arith : ArithOp) (op2 : ArithOperand)
  deriving DecidableEq

structure SqlUpdateStmt where
  tableName : String
  sets : List (String × SetValue)
  whereClause : Option Predicate
  deriving DecidableEq

structure SqlDeleteStmt where
  tableName : String
  whereClause : Option Predicate
  deriving DecidableEq

/-- Data definition statements do not run in a transaction and are left out. -/
inductive SqlStatement
  | select (s : SqlSelectStmt)
  | insert (s : SqlInsertStmt)
  | update (s : SqlUpdateStmt)
  | delete (s : SqlDeleteStmt)
  deriving DecidableEq

inductive SqlStmtKind
  | select
  | insert
  | update
  | delete
  | invalid
  deriving DecidableEq

def SqlStatement.kind : SqlStatement → SqlStmtKind
  | .select _ => .select
  | .insert _ => .insert
  | .update _ => .update
  | .delete _ => .delete

inductive SqlErrorCode
  | none
  | parse
  | tableNotFound
  | permissionDenied
  | columnNotFound
  | columnCountMismatch
  | valueInvalid
  | rowNotFound
  | joinInvalid
  | joinTooWide
  | writeConflict
  | txnUnavailable
  | txnNotActive
  | constraintViolation
  | groupByColumnInvalid
  | nestingTooDeep
  | viewInJoinUnsupported
  | dmlThroughViewUnsupported
  | cteScopeUnsupported
  | correlatedSubqueryUnsupported
  | internal
  deriving DecidableEq

structure SqlResult where
  kind : SqlStmtKind
  error : SqlErrorCode
  errorMsg : String
  cursorId : ℕ
  rowCount : ℕ
  truncated : Bool
  columns : List String
  affectedRows : ℕ
  insertedId : ℕ
  deriving DecidableEq

/-- The zeroed result a statement starts from. -/
def SqlResult.empty : SqlResult := ⟨.select, .none, "", 0, 0, false, [], 0, 0⟩

/-- An error's code and its text, cut to the message buffer. -/
def SqlResult.fail (out : SqlResult) (code : SqlErrorCode) (msg : String) : SqlResult :=
  { out with error := code, errorMsg := String.ofList (msg.toList.take (sqlErrMsgLen - 1)) }

/-- An open cursor; a legacy cursor takes a slot of the same pool. -/
structure SLSCursor where
  cursorId : ℕ
  isRowset : Bool
  resultRows : List RowValues
  resultPos : ℕ
  deriving DecidableEq

/-- The open cursors; which of the slots one is in is never observed. -/
structure CursorTable where
  opened : List SLSCursor
  nextId : ℕ
  deriving DecidableEq

namespace CursorTable

variable (t : CursorTable)

/-- The new cursor's id, 0 when the pool is full. -/
def openRowset (rows : List RowValues) : CursorTable × ℕ :=
  if cursorMax ≤ t.opened.length then (t, 0)
  else
    (⟨t.opened ++ [⟨t.nextId, true, rows.take cursorMaxRowsetRows, 0⟩], t.nextId + 1⟩, t.nextId)

def fetchRows (id max : ℕ) : CursorTable × List RowValues :=
  match t.opened.findIdx? fun c => c.cursorId = id with
  | none => (t, [])
  | some i =>
    match t.opened[i]? with
    | none => (t, [])
    | some c =>
      if !c.isRowset then (t, [])
      else
        let rows := (c.resultRows.drop c.resultPos).take max
        ({ t with opened := t.opened.set i { c with resultPos := c.resultPos + rows.length } },
          rows)

def close (id : ℕ) : CursorTable :=
  { t with opened := t.opened.eraseP fun c => c.cursorId = id }

end CursorTable

end AeroSLS.Sql
