import AeroSLS.Sql.Group

namespace AeroSLS.Sql

open Rowstore Mvcc

def mapMvccErr : MvccError → SqlErrorCode
  | .ok => .none
  | .tableNotFound => .tableNotFound
  | .permissionDenied => .permissionDenied
  | .rowNotVisible => .rowNotFound
  | .writeConflict => .writeConflict
  | .txnNotActive => .txnNotActive
  | .txnTableFull => .txnUnavailable
  | .valuesInvalid => .valueInvalid
  | .versionPoolFull => .internal
  | .constraintUnique | .constraintNotNull | .constraintRange | .constraintReference
  | .constraintReferenced | .cascadeFailed => .constraintViolation

def rejectRow (out : SqlResult) (rc : MvccError) (violation rejected : String) (affected : ℕ) :
    SqlResult :=
  { out.fail (mapMvccErr rc)
      (if mapMvccErr rc = .constraintViolation then violation else rejected) with
    affectedRows := affected }

variable (c : SqlEnv)

/-- The table a statement writes to; `phrase` names the statement for a view. -/
def writeTarget (table phrase : String) : Except (SqlErrorCode × String) (List Column) :=
  match tableColumns c table with
  | some layout => .ok layout
  | none =>
    if (viewFind c table).isSome then
      .error (.dmlThroughViewUnsupported,
        "cannot " ++ phrase ++ " a view (views are read-only in v1)")
    else .error (.tableNotFound, "table not found")

def columnIndices (layout : List Column) (names : List String) (msg : String) :
    Except (SqlErrorCode × String) (List ℕ) :=
  match names.mapM (findColumnIndex layout) with
  | some cols => .ok cols
  | none => .error (.columnNotFound, msg)

def insertColumn (v : RowValues) (entry : ℕ × Option Text) : RowValues :=
  match entry.2 with
  | none => Mvcc.RowValues.setNull v entry.1
  | some text => { v with values := v.values.set entry.1 text }

def buildInsertRowValues (layout : List Column) (cols : List ℕ) (tuple : List (Option Text)) :
    RowValues :=
  let named := (cols.zip tuple).foldl insertColumn ⟨0, List.replicate layout.length Text.empty⟩
  (List.range layout.length).foldl (fun v col =>
    if col ∈ cols then v else { v with nullMask := v.nullMask ||| (1#16 <<< col) }) named

def insertRows (table : String) (layout : List Column) (cols : List ℕ) (out : SqlResult) :
    List (List (Option Text)) → Db → ℕ → ℕ → Db × SqlResult
  | [], db, inserted, last =>
    (db, { out with error := .none, affectedRows := inserted, insertedId := last })
  | tuple :: tuples, db, inserted, last =>
    match mvccRowInsert c.env db c.txnId c.uid table (buildInsertRowValues layout cols tuple) with
    | (db, .ok, id) => insertRows table layout cols out tuples db (inserted + 1) (id.getD last)
    | (db, rc, _) =>
      (db, rejectRow out rc "INSERT violates a UNIQUE, NOT NULL, RANGE, or REFERENCE constraint"
        "INSERT rejected by the row store" inserted)

def execInsert (s : SqlInsertStmt) (out : SqlResult) : Db × SqlResult :=
  match writeTarget c s.tableName "INSERT into" with
  | .error (code, msg) => (c.db, out.fail code msg)
  | .ok layout =>
    if layout.length < s.columns.length then
      (c.db, out.fail .columnCountMismatch "INSERT names more columns than the table has")
    else
      match columnIndices layout s.columns "INSERT column not found in table" with
      | .error (code, msg) => (c.db, out.fail code msg)
      | .ok cols => insertRows c s.tableName layout cols out (s.row :: s.extraRows) c.db 0 0

def operandValid (layout : List Column) : ArithOperand → Bool
  | .column name => (findColumnIndex layout name).isSome
  | .number _ => true

def SetValue.valid (layout : List Column) : SetValue → Bool
  | .arith op1 op op2 => operandValid layout op1 && (op = .none || operandValid layout op2)
  | _ => true

/-- The text a SET value comes to, from the row before the statement. -/
def SetValue.text (layout : List Column) (row : RowValues) : SetValue → Option Text
  | .literal text => some text
  | .null => some Text.empty
  | .arith op1 op op2 =>
    (predicateEvalArith layout row op1 op op2).map fun x => Text.ofBytes (seFmtF64 x)

/-- One assignment; anything but NULL clears the null bit. -/
def assignColumn (v : RowValues) (col : ℕ) (value : SetValue) (text : Text) : RowValues :=
  ⟨if value = .null then v.nullMask ||| (1#16 <<< col) else v.nullMask &&& ~~~(1#16 <<< col),
    v.values.set col text⟩

def assignRow (layout : List Column) (sets : List (ℕ × SetValue)) (row : RowValues) :
    Option RowValues :=
  match sets.mapM fun entry => entry.2.text layout row with
  | none => none
  | some texts =>
    some ((sets.zip texts).foldl (fun v entry => assignColumn v entry.1.1 entry.1.2 entry.2) row)

/-- The loop over the matching rows; one that cannot be read any more is passed over. -/
def updateRows (table : String) (layout : List Column) (sets : List (ℕ × SetValue))
    (out : SqlResult) (truncated : Bool) : List ℕ → Db → ℕ → Db × SqlResult
  | [], db, affected => (db, { out with error := .none, affectedRows := affected, truncated })
  | id :: ids, db, affected =>
    match mvccRowGet c.env db c.txnId c.uid table id with
    | .error _ => updateRows table layout sets out truncated ids db affected
    | .ok row =>
      match assignRow layout sets row with
      | none =>
        (db, { out.fail .valueInvalid ("SET arithmetic expression could not be evaluated for a " ++
          "matched row (non-numeric operand or division by zero)") with affectedRows := 0 })
      | some values =>
        match mvccRowUpdate c.env db c.txnId c.uid table id values with
        | (db, .ok) => updateRows table layout sets out truncated ids db (affected + 1)
        | (db, .writeConflict) =>
          (db, { out.fail .writeConflict
            "a row this UPDATE would affect was concurrently modified by another transaction" with
            affectedRows := 0 })
        | (db, rc) =>
          (db, rejectRow out rc
            "UPDATE violates a UNIQUE, NOT NULL, RANGE, or REFERENCE constraint"
            "UPDATE rejected by the row store" 0)

def execUpdate (s : SqlUpdateStmt) (out : SqlResult) : Db × SqlResult :=
  match writeTarget c s.tableName "UPDATE" with
  | .error (code, msg) => (c.db, out.fail code msg)
  | .ok layout =>
    match columnIndices layout (s.sets.map (·.1)) "SET column not found in table" with
    | .error (code, msg) => (c.db, out.fail code msg)
    | .ok cols =>
      if s.sets.any fun set => !set.2.valid layout then
        (c.db, out.fail .columnNotFound "SET arithmetic expression references an unknown column")
      else if !whereValid s.whereClause layout then
        (c.db, out.fail .columnNotFound "WHERE clause references an unknown column")
      else
        let found := mvccFindMatchingRows c s.tableName s.whereClause layout cursorMaxRowsetRows
        updateRows c s.tableName layout (cols.zip (s.sets.map (·.2))) out
          (cursorMaxRowsetRows < found.2) found.1 c.db 0

def deleteRows (table : String) (out : SqlResult) (truncated : Bool) :
    List ℕ → Db → ℕ → Db × SqlResult
  | [], db, affected => (db, { out with error := .none, affectedRows := affected, truncated })
  | id :: ids, db, affected =>
    match mvccRowDelete c.env db c.txnId c.uid table id with
    | (db, .ok) => deleteRows table out truncated ids db (affected + 1)
    | (db, .writeConflict) =>
      (db, { out.fail .writeConflict
        "a row this DELETE would affect was concurrently modified by another transaction" with
        affectedRows := 0 })
    | (db, rc) =>
      (db, rejectRow out rc
        "DELETE violates a REFERENCE constraint (row is still referenced by another table)"
        "DELETE rejected by the row store" 0)

def execDelete (s : SqlDeleteStmt) (out : SqlResult) : Db × SqlResult :=
  match writeTarget c s.tableName "DELETE from" with
  | .error (code, msg) => (c.db, out.fail code msg)
  | .ok layout =>
    if !whereValid s.whereClause layout then
      (c.db, out.fail .columnNotFound "WHERE clause references an unknown column")
    else
      let found := mvccFindMatchingRows c s.tableName s.whereClause layout cursorMaxRowsetRows
      deleteRows c s.tableName out (cursorMaxRowsetRows < found.2) found.1 c.db 0

end AeroSLS.Sql
