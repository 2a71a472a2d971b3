import AeroSLS.Sql.Join

namespace AeroSLS.Sql

open Rowstore Mvcc Sorting

def sqlMaxGroups : ℕ := 64

/-- The digits of the fraction without trailing zeros. -/
def fractionDigits (fp : ℕ) : List UInt8 :=
  (((List.range 6).map fun k => digitByte (fp / 10 ^ (5 - k) % 10)).reverse.dropWhile
    (· = 48)).reverse

def seFmtF64 (v : Float) : List UInt8 :=
  let neg : Bool := v < 0
  let v := if neg then -v else v
  let ip := v.toUInt64
  let fp := ((v - ip.toFloat) * 1000000 + 0.5).toUInt64.toNat
  let rounded := if 1000000 ≤ fp then (ip + 1, fp - 1000000) else (ip, fp)
  (if neg then [45] else []) ++ rsU64ToStr rounded.1.toNat ++
    if 0 < rounded.2 then 46 :: fractionDigits rounded.2 else []

/-- An entry of the SELECT list with its argument column; a plain column and `COUNT(*)`
have none. -/
structure AggItem where
  fn : SqlAggFunc
  col : Option ℕ
  deriving DecidableEq

/-- The check of one entry; `place` ends the messages. -/
def resolveItem (s : SqlSelectStmt) (layout : List Column) (place : String) (item : SelectItem) :
    Except (SqlErrorCode × String) AggItem :=
  if item.aggFn = .none then
    if s.groupBy = some item.label then .ok ⟨.none, none⟩
    else .error (.groupByColumnInvalid,
      "SELECT column must be the GROUP BY column or an aggregate function")
  else if item.aggFn = .count ∧ item.aggArg = "*" then .ok ⟨.count, none⟩
  else
    match findColumnIndex layout item.aggArg with
    | none => .error (.columnNotFound, "aggregate function argument column not found in " ++ place)
    | some col =>
      if (item.aggFn = .sum ∨ item.aggFn = .avg) ∧ columnType layout col ≠ .uint64 ∧
          columnType layout col ≠ .float then
        .error (.valueInvalid, "SUM/AVG requires a UINT64 or FLOAT argument column")
      else .ok ⟨item.aggFn, some col⟩

def resolveItems (s : SqlSelectStmt) (layout : List Column) (place : String) :
    List SelectItem → Except (SqlErrorCode × String) (List AggItem)
  | [] => .ok []
  | item :: rest =>
    match resolveItem s layout place item with
    | .error e => .error e
    | .ok a =>
      match resolveItems s layout place rest with
      | .error e => .error e
      | .ok as => .ok (a :: as)

def AggItem.type (layout : List Column) (groupCol : Option ℕ) (a : AggItem) : FieldType :=
  match a.fn with
  | .none => columnType layout (groupCol.getD 0)
  | .count => .uint64
  | .sum | .avg => .float
  | .min | .max => columnType layout (a.col.getD 0)

def groupLayout (s : SqlSelectStmt) (layout : List Column) (groupCol : Option ℕ)
    (items : List AggItem) : List Column :=
  List.zipWith (fun item a => ⟨item.label, a.type layout groupCol, 0⟩) s.columns items

/-- The accumulator of one entry of the SELECT list. -/
structure AggCell where
  hasData : Bool
  sum : Float
  minVal : Text
  maxVal : Text

def AggCell.zero : AggCell := ⟨false, 0, .empty, .empty⟩

structure SqlAggBucket where
  groupKey : Text
  count : ℕ
  cells : List AggCell

def SqlAggBucket.new (items : List AggItem) (key : Text) : SqlAggBucket :=
  ⟨key, 0, items.map fun _ => .zero⟩

/-- One value into MIN and MAX; both are kept for either. -/
def AggCell.addOrdered (t : FieldType) (value : Text) (b : AggCell) : AggCell :=
  if b.hasData then
    { b with
      minVal := if compareTypedOrEqual t value.1 b.minVal.1 < 0 then value else b.minVal
      maxVal := if 0 < compareTypedOrEqual t value.1 b.maxVal.1 then value else b.maxVal }
  else { b with hasData := true, minVal := value, maxVal := value }

def AggCell.addSum (value : Text) (b : AggCell) : AggCell :=
  match rsParseF64 value.1 with
  | none => b
  | some v => { b with hasData := true, sum := b.sum + v }

def AggItem.add (layout : List Column) (row : RowValues) (a : AggItem) (b : AggCell) : AggCell :=
  match a.fn, a.col with
  | .min, some col | .max, some col => b.addOrdered (columnType layout col) (row.text col)
  | .sum, some col | .avg, some col => b.addSum (row.text col)
  | _, _ => b

def SqlAggBucket.add (layout : List Column) (items : List AggItem) (row : RowValues)
    (b : SqlAggBucket) : SqlAggBucket :=
  { b with count := b.count + 1, cells := List.zipWith (AggItem.add layout row) items b.cells }

def groupKeyOf (groupCol : Option ℕ) (row : RowValues) : Text :=
  match groupCol with
  | none => .empty
  | some col => row.text col

/-- The buckets in order of their first row, and whether a group found no room. -/
structure Buckets where
  list : List SqlAggBucket
  overflow : Bool

def addRow (layout : List Column) (items : List AggItem) (groupCol : Option ℕ) (bs : Buckets)
    (row : RowValues) : Buckets :=
  let key := groupKeyOf groupCol row
  match bs.list.findIdx? fun b => b.groupKey = key with
  | some i => { bs with list := bs.list.modify i (SqlAggBucket.add layout items row) }
  | none =>
    if sqlMaxGroups ≤ bs.list.length then { bs with overflow := true }
    else { bs with list := bs.list ++ [(SqlAggBucket.new items key).add layout items row] }

def bucketRows (layout : List Column) (items : List AggItem) (groupCol : Option ℕ)
    (rows : List RowValues) : Buckets :=
  let bs := rows.foldl (addRow layout items groupCol) ⟨[], false⟩
  if bs.list = [] ∧ groupCol = none then { bs with list := [.new items .empty] } else bs

def AggItem.format (b : SqlAggBucket) (a : AggItem) (cell : AggCell) : Text :=
  match a.fn with
  | .none => b.groupKey
  | .count => .ofBytes (rsU64ToStr b.count)
  | .sum => .ofBytes (seFmtF64 (if cell.hasData then cell.sum else 0))
  | .avg => .ofBytes
      (seFmtF64 (if cell.hasData ∧ 0 < b.count then cell.sum / b.count.toFloat else 0))
  | .min => if cell.hasData then cell.minVal else .empty
  | .max => if cell.hasData then cell.maxVal else .empty

def SqlAggBucket.format (items : List AggItem) (b : SqlAggBucket) : RowValues :=
  ⟨0, List.zipWith (AggItem.format b) items b.cells⟩

variable (c : SqlEnv)

/-- The columns and rows that are grouped, WHERE applied, and whether rows were dropped. A
join's WHERE is checked here. -/
def groupSource (s : SqlSelectStmt) :
    Except (SqlErrorCode × String) (List Column × List RowValues × Bool) :=
  if s.hasJoin then
    match joinMaterialize c s with
    | .error e => .error e
    | .ok st =>
      if whereValid s.whereClause st.layout then
        .ok (st.layout, st.rows.filter (whereHolds s.whereClause st.layout), st.truncated)
      else .error (.columnNotFound,
        "WHERE clause references an unknown column (use table.column or alias.column)")
  else
    match tableColumns c s.tableName with
    | none => .error (.tableNotFound, "table not found")
    | some layout =>
      let found := mvccFindMatchingRows c s.tableName s.whereClause layout cursorMaxRowsetRows
      .ok (layout, found.1.filterMap fun id => (rowGet c s.tableName id).toOption,
        cursorMaxRowsetRows < found.2)

/-- A column that a clause names, if it has one. -/
def resolveColumn (layout : List Column) (name : Option String) (msg : String) :
    Except (SqlErrorCode × String) (Option ℕ) :=
  match name with
  | none => .ok none
  | some name =>
    match findColumnIndex layout name with
    | none => .error (.columnNotFound, msg)
    | some col => .ok (some col)

def resolveGroup (s : SqlSelectStmt) (layout : List Column) :
    Except (SqlErrorCode × String) (Option ℕ × List AggItem × Option ℕ) := do
  let place :=
    if s.hasJoin then "the joined result (use table.column or alias.column)" else "table"
  let groupCol ← resolveColumn layout s.groupBy ("GROUP BY column not found in " ++ place)
  let items ← resolveItems s layout place s.columns
  let result := groupLayout s layout groupCol items
  let orderCol ← resolveColumn result s.orderBy
    ("ORDER BY column not found in the grouped result " ++
      "(use the exact SELECT list label, e.g. COUNT(*))")
  if !whereValid s.having result then
    .error (.columnNotFound, "HAVING clause references a column/aggregate not in the SELECT list")
  else if !s.hasJoin && !whereValid s.whereClause layout then
    .error (.columnNotFound, "WHERE clause references an unknown column")
  else .ok (groupCol, items, orderCol)

def keptGroups (s : SqlSelectStmt) (result : List Column) (items : List AggItem)
    (list : List SqlAggBucket) : List RowValues :=
  (list.map (·.format items)).filter (whereHolds s.having result)

def execSelectGroup (s : SqlSelectStmt) (cursors : CursorTable) (out : SqlResult) :
    CursorTable × SqlResult :=
  match groupSource c s with
  | .error (code, msg) => (cursors, out.fail code msg)
  | .ok (layout, source, truncated) =>
    match resolveGroup s layout with
    | .error (code, msg) => (cursors, out.fail code msg)
    | .ok (groupCol, items, orderCol) =>
      let result := groupLayout s layout groupCol items
      let bs := bucketRows layout items groupCol source
      let kept := keptGroups s result items bs.list
      let rows := applyLimit s.limit
        (sortRows result orderCol s.orderDesc (kept.take cursorMaxRowsetRows))
      finishSelect cursors out rows (result.map (·.name))
        (truncated || bs.overflow || cursorMaxRowsetRows < kept.length)

end AeroSLS.Sql
