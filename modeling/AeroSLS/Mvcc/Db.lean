import AeroSLS.Rowstore.Store

namespace AeroSLS.Mvcc

open Rowstore

def mvccMaxTxns : ℕ := 64
def mvccMaxVersions : ℕ := 4096

inductive MvccError
  | ok
  | tableNotFound
  | permissionDenied
  | rowNotVisible
  | writeConflict
  | txnNotActive
  | txnTableFull
  | versionPoolFull
  | valuesInvalid
  | constraintUnique
  | constraintNotNull
  | constraintRange
  | constraintReference
  | constraintReferenced
  | cascadeFailed
  deriving DecidableEq

structure MvccTxn where
  txnId : ℕ
  snapshotSeq : ℕ
  deriving DecidableEq

structure MvccVersion where
  active : Bool
  logicalId : ℕ
  tableObjectId : ℕ
  physicalId : RowId
  xmin : ℕ
  xminCommitted : Bool
  xminTxn : ℕ
  xmax : ℕ
  xmaxCommitted : Bool
  xmaxTxn : ℕ
  deriving DecidableEq

inductive RowConstraintKind
  | unique
  | notNull
  | range
  | reference
  deriving DecidableEq

inductive RowOnDeleteAction
  | restrict
  | cascade
  | setNull
  deriving DecidableEq

structure RowConstraintDef where
  active : Bool
  kind : RowConstraintKind
  tableObjectId : ℕ
  tableName : String
  columnIndex : ℕ
  literalMin : Text
  literalMax : Text
  refTableObjectId : ℕ
  refTableName : String
  refColumnIndex : ℕ
  onDeleteAction : RowOnDeleteAction
  deriving DecidableEq

structure Db where
  store : Store
  txns : List MvccTxn
  versions : List MvccVersion
  nextTxnId : ℕ
  nextLogicalId : ℕ
  commitSeq : ℕ
  constraints : List RowConstraintDef

def mvccInit (store : Store) (constraints : List RowConstraintDef) : Db :=
  ⟨store, [], [], 1, 1, 1, constraints⟩

variable (env : Env) (db : Db)

def mvFindTxn (txnId : ℕ) : Option MvccTxn :=
  if txnId = 0 then none else db.txns.find? fun t => t.txnId = txnId

def mapRowstoreErr : ℕ → MvccError
  | 0 => .ok
  | 1 => .tableNotFound
  | 2 => .permissionDenied
  | 3 => .rowNotVisible
  | 4 => .valuesInvalid
  | 5 => .valuesInvalid
  | 6 => .versionPoolFull
  | _ => .valuesInvalid

def mvVisible (v : MvccVersion) (t : MvccTxn) : Bool :=
  let createdVisible := (v.xminCommitted && v.xmin ≤ t.snapshotSeq) || v.xminTxn = t.txnId
  let hidden := (v.xmaxCommitted && v.xmax ≤ t.snapshotSeq) ||
    (v.xmaxTxn ≠ 0 && v.xmaxTxn = t.txnId)
  createdVisible && !hidden

def mvFindVisibleVersion (logicalId : ℕ) (t : MvccTxn) : Option ℕ :=
  db.versions.findIdx? fun v => v.active && v.logicalId = logicalId && mvVisible v t

/-- The new transaction's id, 0 when the table is full. -/
def mvccBegin : Db × ℕ :=
  if mvccMaxTxns ≤ db.txns.length then (db, 0)
  else
    ({ db with
        txns := db.txns ++ [⟨db.nextTxnId, db.commitSeq - 1⟩]
        nextTxnId := db.nextTxnId + 1 },
      db.nextTxnId)

namespace MvccVersion

def commitXmin (txnId seq : ℕ) (v : MvccVersion) : MvccVersion :=
  if v.xminTxn = txnId ∧ v.xminCommitted = false
    then { v with xmin := seq, xminCommitted := true } else v

def commitXmax (txnId seq : ℕ) (v : MvccVersion) : MvccVersion :=
  if v.xmaxTxn = txnId ∧ v.xmaxCommitted = false
    then { v with xmax := seq, xmaxCommitted := true } else v

def commit (txnId seq : ℕ) (v : MvccVersion) : MvccVersion :=
  if v.active then (v.commitXmin txnId seq).commitXmax txnId seq else v

def ownedBy (txnId : ℕ) (v : MvccVersion) : Bool := v.xminTxn = txnId && !v.xminCommitted

/-- What a rollback leaves of a version in use. -/
def rollback (txnId : ℕ) (v : MvccVersion) : MvccVersion :=
  let v := if v.ownedBy txnId then { v with active := false } else v
  if v.xmaxTxn = txnId ∧ v.xmaxCommitted = false then { v with xmaxTxn := 0 } else v

end MvccVersion

def mvccCommit (txnId : ℕ) : Db × MvccError :=
  match mvFindTxn db txnId with
  | none => (db, .txnNotActive)
  | some _ =>
    ({ db with
        versions := db.versions.map (·.commit txnId db.commitSeq)
        txns := db.txns.filter fun t => t.txnId ≠ txnId
        commitSeq := db.commitSeq + 1 },
      .ok)

/-- Remove a never-committed version's row; whether that worked is not looked at. -/
def rollbackRow (s : Store) (uid : ℕ) (v : MvccVersion) : Store :=
  match s.slots.find? fun t => t.objectId = v.tableObjectId && t.active with
  | none => s
  | some t => (rowstoreRowDelete env s uid t.name v.physicalId).1

/-- The loop of `mvcc_rollback` over the version pool. -/
def rollbackVersions (txnId uid : ℕ) : List MvccVersion → Store → Store × List MvccVersion
  | [], s => (s, [])
  | v :: vs, s =>
    if v.active then
      let rest :=
        rollbackVersions txnId uid vs (if v.ownedBy txnId then rollbackRow env s uid v else s)
      (rest.1, v.rollback txnId :: rest.2)
    else
      let rest := rollbackVersions txnId uid vs s
      (rest.1, v :: rest.2)

def mvccRollback (txnId uid : ℕ) : Db × MvccError :=
  match mvFindTxn db txnId with
  | none => (db, .txnNotActive)
  | some _ =>
    let rolled := rollbackVersions env txnId uid db.versions db.store
    ({ db with
        store := rolled.1
        versions := rolled.2
        txns := db.txns.filter fun t => t.txnId ≠ txnId },
      .ok)

def mvccRowGet (txnId uid : ℕ) (name : String) (id : ℕ) : Except MvccError RowValues :=
  match mvFindTxn db txnId with
  | none => .error .txnNotActive
  | some t =>
    match (mvFindVisibleVersion db id t).bind fun i => db.versions[i]? with
    | none => .error .rowNotVisible
    | some v =>
      match rowstoreRowGet env db.store uid name v.physicalId with
      | .ok values => .ok values
      | .error rc => .error (mapRowstoreErr rc)

/-- The rows the scan callback is called with, in order. -/
def mvccTableScan (txnId uid : ℕ) (name : String) : List (ℕ × RowValues) :=
  match mvFindTxn db txnId, lookupTable db.store name with
  | some t, some (_, slot, _) =>
    if env.access uid name .read then
      db.versions.filterMap fun v =>
        if v.active && v.tableObjectId = slot.objectId && mvVisible v t then
          match rowstoreRowGet env db.store uid name v.physicalId with
          | .ok values => some (v.logicalId, values)
          | .error _ => none
        else none
    else []
  | _, _ => []

def mvBootstrapRow (tableObjectId : ℕ) (db : Db) (id : RowId) : Db :=
  if mvccMaxVersions ≤ db.versions.length then db
  else
    { db with
      versions := db.versions ++
        [⟨true, db.nextLogicalId, tableObjectId, id, 0, true, 0, 0, false, 0⟩]
      nextLogicalId := db.nextLogicalId + 1 }

def mvBootstrapTable (db : Db) (tableObjectId : ℕ) (name : String) : Db :=
  (rowstoreTableScan env db.store 0 name).foldl (fun db row =>
    mvBootstrapRow tableObjectId db row.1) db

def mvccBootstrapFromRowstore : Db :=
  db.store.slots.foldl (fun db slot =>
    if slot.active && slot.header.isSome then mvBootstrapTable env db slot.objectId slot.name
    else db) db

def mvccNotifyTableDropped (tableObjectId : ℕ) : Db :=
  { db with
    versions := db.versions.map fun v =>
      if v.active && v.tableObjectId = tableObjectId then { v with active := false } else v }

def mvccRebuildVersionsForTable (tableObjectId : ℕ) (name : String) : Db :=
  mvBootstrapTable env (mvccNotifyTableDropped db tableObjectId) tableObjectId name

end AeroSLS.Mvcc
