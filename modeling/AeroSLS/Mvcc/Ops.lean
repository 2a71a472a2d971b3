import AeroSLS.Mvcc.Db

namespace AeroSLS.Mvcc

open Rowstore

def rowConstraintMax : ℕ := 64
def rowCascadeMaxRows : ℕ := 64
def rowCascadeMaxDepth : ℕ := 8

inductive RowConstraintResult
  | ok
  | tableNotFound
  | columnNotFound
  | poolFull
  | refTableNotFound
  | refColumnNotFound
  | typeMismatch
  | rangeInvalid
  | violationUnique
  | violationNotNull
  | violationRange
  | violationReference
  | violationReferenced
  | cascadeFailed
  deriving DecidableEq

def mapConstraintViolation : RowConstraintResult → MvccError
  | .violationUnique => .constraintUnique
  | .violationNotNull => .constraintNotNull
  | .violationRange => .constraintRange
  | .violationReference => .constraintReference
  | .violationReferenced => .constraintReferenced
  | .cascadeFailed => .cascadeFailed
  | _ => .ok

variable (env : Env) (db : Db)

/-- The sign of the byte-wise comparison of two strings. -/
def rcStrcmp : List UInt8 → List UInt8 → ℤ
  | [], [] => 0
  | [], b :: _ => -(b.toNat : ℤ)
  | a :: _, [] => a.toNat
  | a :: as, b :: bs => if a = b then rcStrcmp as bs else (a.toNat : ℤ) - b.toNat

def rcInRange (type : FieldType) (value lo hi : Text) : Option Bool :=
  match type with
  | .uint64 =>
    match rsParseU64 value.1, rsParseU64 lo.1, rsParseU64 hi.1 with
    | some v, some a, some b => some (a ≤ v && v ≤ b)
    | _, _, _ => none
  | .float =>
    match rsParseF64 value.1, rsParseF64 lo.1, rsParseF64 hi.1 with
    | some v, some a, some b => some (decide (a ≤ v) && decide (v ≤ b))
    | _, _, _ => none
  | _ => some (0 ≤ rcStrcmp value.1 lo.1 && rcStrcmp value.1 hi.1 ≤ 0)

def rcFindColumnIndex (layout : RowTableLayout) (name : String) : Option ℕ :=
  layout.columns.findIdx? fun c => c.name = name

/-- Put a definition into the first free slot. -/
def rcPlace (c : RowConstraintDef) : List RowConstraintDef → List RowConstraintDef
  | [] => [c]
  | d :: ds => if d.active then d :: rcPlace c ds else c :: ds

def rcAdd (kind : RowConstraintKind) (table column : String) (lo hi : Text)
    (refTable refColumn : String) (action : RowOnDeleteAction) : Db × RowConstraintResult :=
  match lookupTable db.store table with
  | none => (db, .tableNotFound)
  | some (_, slot, h) =>
    match rcFindColumnIndex h.layout column with
    | none => (db, .columnNotFound)
    | some col =>
      let type := (h.layout.columns[col]?).map (·.type)
      let add (refObjectId refCol : ℕ) : Db × RowConstraintResult :=
        ({ db with constraints := rcPlace ⟨true, kind, slot.objectId, table, col, lo, hi,
            refObjectId, refTable, refCol, action⟩ db.constraints }, .ok)
      if rowConstraintMax ≤ db.constraints.length ∧ db.constraints.all (·.active) then
        (db, .poolFull)
      else match kind with
        | .reference =>
          match lookupTable db.store refTable with
          | none => (db, .refTableNotFound)
          | some (_, refSlot, refH) =>
            match rcFindColumnIndex refH.layout refColumn with
            | none => (db, .refColumnNotFound)
            | some refCol =>
              if (refH.layout.columns[refCol]?).map (·.type) ≠ type then (db, .typeMismatch)
              else add refSlot.objectId refCol
        | .range =>
          if (type.bind fun t => rcInRange t (Text.ofBytes [48]) lo hi) = none
          then (db, .rangeInvalid) else add 0 0
        | _ => add 0 0

def RowValues.matches (col : ℕ) (candidate : Text) (v : RowValues) : Bool :=
  !v.isNull col && v.text col = candidate

def checkWriteOne (txnId uid : ℕ) (values : RowValues) (exclude : ℕ) (c : RowConstraintDef) :
    RowConstraintResult :=
  let val := values.text c.columnIndex
  let isNull := values.isNull c.columnIndex
  match c.kind with
  | .notNull => if isNull then .violationNotNull else .ok
  | .range =>
    if isNull then .ok
    else
      let type := ((lookupTable db.store c.tableName).bind fun t =>
        (t.2.2.layout.columns[c.columnIndex]?).map (·.type)).getD .string
      if rcInRange type val c.literalMin c.literalMax = some true then .ok else .violationRange
  | .unique =>
    if isNull then .ok
    else if (mvccTableScan env db txnId uid c.tableName).any fun row =>
        row.1 ≠ exclude && RowValues.matches c.columnIndex val row.2
      then .violationUnique else .ok
  | .reference =>
    if isNull then .ok
    else if (mvccTableScan env db txnId uid c.refTableName).any fun row =>
        RowValues.matches c.refColumnIndex val row.2
      then .ok else .violationReference

def checkWriteAll (txnId uid tableObjectId : ℕ) (values : RowValues) (exclude : ℕ) :
    List RowConstraintDef → RowConstraintResult
  | [] => .ok
  | c :: cs =>
    if !c.active || c.tableObjectId ≠ tableObjectId || values.count ≤ c.columnIndex then
      checkWriteAll txnId uid tableObjectId values exclude cs
    else match checkWriteOne env db txnId uid values exclude c with
      | .ok => checkWriteAll txnId uid tableObjectId values exclude cs
      | violation => violation

def rowConstraintCheckWrite (txnId uid tableObjectId : ℕ) (values : RowValues) (exclude : ℕ) :
    RowConstraintResult :=
  checkWriteAll env db txnId uid tableObjectId values exclude db.constraints

def RowConstraintDef.refersTo (tableObjectId : ℕ) (c : RowConstraintDef) : Bool :=
  c.active && c.kind = .reference && c.refTableObjectId = tableObjectId

def checkParentUpdateAll (txnId uid tableObjectId : ℕ) (old values : RowValues) :
    List RowConstraintDef → RowConstraintResult
  | [] => .ok
  | c :: cs =>
    let col := c.refColumnIndex
    if !c.refersTo tableObjectId || old.count ≤ col || values.count ≤ col || old.isNull col ||
        (!values.isNull col && old.text col = values.text col) then
      checkParentUpdateAll txnId uid tableObjectId old values cs
    else if (mvccTableScan env db txnId uid c.tableName).any fun row =>
        RowValues.matches c.columnIndex (old.text col) row.2
      then .violationReferenced
    else checkParentUpdateAll txnId uid tableObjectId old values cs

def rowConstraintCheckParentUpdate (txnId uid : ℕ) (name : String) (tableObjectId : ℕ)
    (physicalId : RowId) (values : RowValues) : RowConstraintResult :=
  if db.constraints.any (·.refersTo tableObjectId) then
    match rowstoreRowGet env db.store uid name physicalId with
    | .error _ => .ok
    | .ok old => checkParentUpdateAll env db txnId uid tableObjectId old values db.constraints
  else .ok

/-- The shared end of insert and update: the physical row and its version. -/
def addVersion (txnId uid : ℕ) (name : String) (values : RowValues) (logicalId tableObjectId : ℕ) :
    Db × MvccError :=
  match rowstoreRowInsert env db.store uid name values with
  | (store, rc, none) => ({ db with store := store }, mapRowstoreErr rc)
  | (store, _, some phys) =>
    if mvccMaxVersions ≤ db.versions.length then
      ({ db with store := (rowstoreRowDelete env store uid name phys).1 }, .versionPoolFull)
    else
      ({ db with
          store := store
          versions := db.versions ++
            [⟨true, logicalId, tableObjectId, phys, 0, false, txnId, 0, false, 0⟩] }, .ok)

/-- The new row's logical id on success. -/
def mvccRowInsert (txnId uid : ℕ) (name : String) (values : RowValues) :
    Db × MvccError × Option ℕ :=
  match mvFindTxn db txnId with
  | none => (db, .txnNotActive, none)
  | some _ =>
    match lookupTable db.store name with
    | none => (db, .tableNotFound, none)
    | some (_, slot, _) =>
      match rowConstraintCheckWrite env db txnId uid slot.objectId values 0 with
      | .ok =>
        match addVersion env db txnId uid name values db.nextLogicalId slot.objectId with
        | (db', .ok) => ({ db' with nextLogicalId := db'.nextLogicalId + 1 }, .ok,
            some db.nextLogicalId)
        | (db', err) => (db', err, none)
      | violation => (db, mapConstraintViolation violation, none)

def MvccVersion.supersede (txnId : ℕ) (v : MvccVersion) : MvccVersion := { v with xmaxTxn := txnId }

def mvccRowUpdate (txnId uid : ℕ) (name : String) (id : ℕ) (values : RowValues) : Db × MvccError :=
  match mvFindTxn db txnId with
  | none => (db, .txnNotActive)
  | some t =>
    match mvFindVisibleVersion db id t with
    | none => (db, .rowNotVisible)
    | some i =>
      match db.versions[i]? with
      | none => (db, .rowNotVisible)
      | some old =>
        if old.xmaxTxn ≠ 0 ∧ old.xmaxTxn ≠ txnId then (db, .writeConflict)
        else match rowConstraintCheckWrite env db txnId uid old.tableObjectId values id with
          | .ok =>
            match rowConstraintCheckParentUpdate env db txnId uid name old.tableObjectId
                old.physicalId values with
            | .ok =>
              match addVersion env db txnId uid name values id old.tableObjectId with
              | (db', .ok) =>
                ({ db' with versions := db'.versions.modify i (·.supersede txnId) }, .ok)
              | (db', err) => (db', err)
            | violation => (db, mapConstraintViolation violation)
          | violation => (db, mapConstraintViolation violation)

def RowValues.setNull (v : RowValues) (col : ℕ) : RowValues :=
  ⟨v.nullMask ||| (1#16 <<< col), v.values.set col Text.empty⟩

section Delete

variable (txnId uid : ℕ)

/-- Delete the collected children; one that is already gone is no failure. -/
def cascadeRows (del : Db → String → ℕ → Db × MvccError) (name : String) :
    List ℕ → Db → Db × RowConstraintResult
  | [], db => (db, .ok)
  | id :: ids, db =>
    match del db name id with
    | (db, .ok) => cascadeRows del name ids db
    | (db, .rowNotVisible) => cascadeRows del name ids db
    | (db, _) => (db, .cascadeFailed)

/-- Clear the referring column of the collected children. -/
def setNullRows (name : String) (col : ℕ) : List ℕ → Db → Db × RowConstraintResult
  | [], db => (db, .ok)
  | id :: ids, db =>
    match mvccRowGet env db txnId uid name id with
    | .error .rowNotVisible => setNullRows name col ids db
    | .error _ => (db, .cascadeFailed)
    | .ok values =>
      match mvccRowUpdate env db txnId uid name id (RowValues.setNull values col) with
      | (db, .ok) => setNullRows name col ids db
      | (db, _) => (db, .cascadeFailed)

def checkDeleteOne (del : Option (Db → String → ℕ → Db × MvccError)) (refVal : Text)
    (c : RowConstraintDef) (db : Db) : Db × RowConstraintResult :=
  let rows := (mvccTableScan env db txnId uid c.tableName).filter fun row =>
    RowValues.matches c.columnIndex refVal row.2
  let children := rows.map (·.1)
  match c.onDeleteAction with
  | .restrict => (db, if children = [] then .ok else .violationReferenced)
  | .cascade =>
    if rowCascadeMaxRows < children.length then (db, .cascadeFailed)
    else if children = [] then (db, .ok)
    else match del with
      | none => (db, .cascadeFailed)
      | some del => cascadeRows del c.tableName children db
  | .setNull =>
    if rowCascadeMaxRows < children.length then (db, .cascadeFailed)
    else setNullRows env txnId uid c.tableName c.columnIndex children db

def checkDeleteAll (del : Option (Db → String → ℕ → Db × MvccError)) (tableObjectId : ℕ)
    (values : RowValues) : List RowConstraintDef → Db → Db × RowConstraintResult
  | [], db => (db, .ok)
  | c :: cs, db =>
    let col := c.refColumnIndex
    if !c.refersTo tableObjectId || values.count ≤ col || values.isNull col then
      checkDeleteAll del tableObjectId values cs db
    else match checkDeleteOne env txnId uid del (values.text col) c db with
      | (db, .ok) => checkDeleteAll del tableObjectId values cs db
      | failed => failed

def rowConstraintCheckDelete (del : Option (Db → String → ℕ → Db × MvccError)) (name : String)
    (tableObjectId : ℕ) (physicalId : RowId) : Db × RowConstraintResult :=
  if db.constraints.any (·.refersTo tableObjectId) then
    match rowstoreRowGet env db.store uid name physicalId with
    | .error _ => (db, .ok)
    | .ok values => checkDeleteAll env txnId uid del tableObjectId values db.constraints db
  else (db, .ok)

def deleteWith (del : Option (Db → String → ℕ → Db × MvccError)) (db : Db) (name : String)
    (id : ℕ) : Db × MvccError :=
  match mvFindTxn db txnId with
  | none => (db, .txnNotActive)
  | some t =>
    if !env.access uid name .write then (db, .permissionDenied)
    else match mvFindVisibleVersion db id t with
      | none => (db, .rowNotVisible)
      | some i =>
        match db.versions[i]? with
        | none => (db, .rowNotVisible)
        | some v =>
          if v.xmaxTxn ≠ 0 ∧ v.xmaxTxn ≠ txnId then (db, .writeConflict)
          else match rowConstraintCheckDelete env db txnId uid del name v.tableObjectId
              v.physicalId with
            | (db, .ok) => ({ db with versions := db.versions.modify i (·.supersede txnId) }, .ok)
            | (db, violation) => (db, mapConstraintViolation violation)

/-- Delete with so many cascade levels left. -/
def deleteWithin : ℕ → Db → String → ℕ → Db × MvccError
  | 0 => deleteWith env txnId uid none
  | levels + 1 => deleteWith env txnId uid (some (deleteWithin levels))

def mvccRowDelete (name : String) (id : ℕ) : Db × MvccError :=
  deleteWithin env txnId uid rowCascadeMaxDepth db name id

end Delete

end AeroSLS.Mvcc
