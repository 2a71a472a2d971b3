import AeroSLS.Lib.Sorting
import AeroSLS.Sql.Statement

namespace AeroSLS.Sql

open Rowstore Mvcc

structure SLSViewDef where
  name : String
  sqlText : List UInt8
  deriving DecidableEq

/-- What the B-trees answer: the index on a column, and the row ids under a key if the list is
complete. -/
structure RowIndexes where
  findForColumn : ℕ → ℕ → Option String
  lookupChecked : ℕ → String → Text → List RowId × Bool

def RowIndexes.none : RowIndexes := ⟨fun _ _ => .none, fun _ _ _ => ([], true)⟩

/-- The database, the registered views, the parser, and the transaction and user of the
statement. -/
structure SqlEnv where
  env : Env
  db : Db
  indexes : RowIndexes
  views : List SLSViewDef
  parse : List UInt8 → Except String SqlStatement
  txnId : ℕ
  uid : ℕ

variable (c : SqlEnv)

def viewFind (name : String) : Option SLSViewDef := c.views.find? fun v => v.name = name

def tableColumns (name : String) : Option (List Column) :=
  (lookupTable c.db.store name).map fun t => t.2.2.layout.columns

/-- The version that a physical row belongs to, if the transaction sees it. -/
def mvccResolvePhysical (name : String) (id : RowId) : Option (ℕ × RowValues) :=
  match mvFindTxn c.db c.txnId, lookupTable c.db.store name with
  | some t, some _ =>
    match c.db.versions.find? fun v => v.physicalId = id with
    | none => none
    | some v =>
      if v.active && mvVisible v t then
        match rowstoreRowGet c.env c.db.store c.uid name v.physicalId with
        | .ok values => some (v.logicalId, values)
        | .error _ => none
      else none
  | _, _ => none

def tryIndexAssistedEq (table : String) (pred : Option Predicate) (layout : List Column) (max : ℕ) :
    Option (List ℕ) :=
  match pred.bind fun p => p.root.bind fun root => (p.nodes[root]?).map fun n => (p, n) with
  | some (p, .comparison column .eq literal _) =>
    match findColumnIndex layout column, lookupTable c.db.store table with
    | some col, some (_, slot, _) =>
      match c.indexes.findForColumn slot.objectId col with
      | none => none
      | some index =>
        match c.indexes.lookupChecked c.uid index literal with
        | (_, false) => none
        | (found, true) =>
          let rows := (found.filterMap (mvccResolvePhysical c table)).filter fun row =>
            predicateEval layout row.2 p
          some ((rows.map (·.1)).take max)
    | _, _ => none
  | _ => none

def whereHolds (pred : Option Predicate) (layout : List Column) (row : RowValues) : Bool :=
  match pred with
  | none => true
  | some p => predicateEval layout row p

def mvccFindMatchingRows (table : String) (pred : Option Predicate) (layout : List Column)
    (max : ℕ) : List ℕ × ℕ :=
  match tryIndexAssistedEq c table pred layout max with
  | some ids => (ids, ids.length)
  | none =>
    let rows := (mvccTableScan c.env c.db c.txnId c.uid table).filter fun row =>
      whereHolds pred layout row.2
    ((rows.map (·.1)).take max, rows.length)

def rowGet (table : String) (id : ℕ) : Except MvccError RowValues :=
  mvccRowGet c.env c.db c.txnId c.uid table id

/-- A row that cannot be read is materialised as zeros. -/
def zeroRow : RowValues := ⟨0, []⟩

def fetchRow (table : String) (id : ℕ) : RowValues :=
  match rowGet c table id with
  | .ok row => row
  | .error _ => zeroRow

/-- The leaves below `idx` name columns of the layout; so many levels are followed. -/
def columnsValid (p : Predicate) (layout : List Column) : ℕ → ℕ → Bool
  | 0, _ => false
  | fuel + 1, idx =>
    match p.nodes[idx]? with
    | none => false
    | some (.comparison column _ _ _) => (findColumnIndex layout column).isSome
    | some (.arith op1 arith op2 _ _) =>
      (match op1 with
        | .column name => (findColumnIndex layout name).isSome
        | .number _ => true) &&
      (match arith, op2 with
        | .none, _ => true
        | _, .column name => (findColumnIndex layout name).isSome
        | _, .number _ => true)
    | some (.and left right) => columnsValid p layout fuel left && columnsValid p layout fuel right
    | some (.or left right) => columnsValid p layout fuel left && columnsValid p layout fuel right

def predicateColumnsValid (p : Predicate) (layout : List Column) : Bool :=
  match p.root with
  | none => false
  | some root => columnsValid p layout p.nodes.length root

def whereValid (pred : Option Predicate) (layout : List Column) : Bool :=
  match pred with
  | none => true
  | some p => predicateColumnsValid p layout

def compareTypedOrEqual (t : FieldType) (a b : List UInt8) : ℤ := (compareTexts t a b).getD 0

def compareRowsByColumn (layout : List Column) (col : ℕ) (a b : RowValues) : ℤ :=
  compareTypedOrEqual (columnType layout col) (a.text col).1 (b.text col).1

/-- Whether the row at `j` moves up to make room for the key. -/
def shouldMove (layout : List Column) (col : ℕ) (desc : Bool) (row key : RowValues) : Bool :=
  let cmp := compareRowsByColumn layout col row key
  if desc then cmp < 0 else 0 < cmp

def applyLimit (limit : Option ℕ) (rows : List RowValues) : List RowValues :=
  match limit with
  | none => rows
  | some n => rows.take n

end AeroSLS.Sql
