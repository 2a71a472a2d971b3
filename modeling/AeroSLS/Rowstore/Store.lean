import AeroSLS.Rowstore.Row

namespace AeroSLS.Rowstore

open Bytes

def partitionMax : ℕ := 256
def rowstoreMaxPages : ℕ := 262144
def rowstoreInvalidPage : ℕ := 0xFFFFFFFF
def rowstorePagesPerPartition : ℕ := rowstoreMaxPages / partitionMax
def rowstoreRcNotDurable : ℕ := 7

structure RowId where
  pageId : ℕ
  slotIndex : ℕ
  deriving DecidableEq

structure RowTableHeader where
  layout : RowTableLayout
  rowCount : ℕ
  pageCount : ℕ
  firstPageId : ℕ
  lastPageId : ℕ
  rowsInLastPage : ℕ
  deriving DecidableEq

structure CatalogSlot where
  objectId : ℕ
  name : String
  active : Bool
  partitionId : ℕ
  schema : ObjectSchema
  header : Option RowTableHeader
  deriving DecidableEq

inductive Perm
  | read
  | write
  deriving DecidableEq

/-- What a call asks the rest of the kernel; uid 0 is the kernel itself. -/
structure Env where
  access : ℕ → String → Perm → Bool
  kernel : ∀ name perm, access 0 name perm = true
  grant : ℕ → Bool
  durable : ℕ → Bool

structure Store where
  slots : List CatalogSlot
  page : ℕ → Buf
  disk : ℕ → Buf
  cursor : ℕ → ℕ
  nextFreePageId : ℕ

namespace Store

def setHeader (s : Store) (idx : ℕ) (h : RowTableHeader) : Store :=
  { s with slots := s.slots.modify idx ({ · with header := some h }) }

def setPage (s : Store) (id : ℕ) (page : Buf) : Store :=
  { s with page := Function.update s.page id page }

/-- The row store after a restart: the pages are those of the disk. The headers, cursors and the
high-water mark stay as they are in memory: their own writes are not modelled. -/
def reload (s : Store) : Store := { s with page := s.disk }

end Store

variable (env : Env) (s : Store)

/-- A page without rows and without a successor. -/
def emptyPage : Buf := Buf.zero.copy 0 (leBytes rowstoreInvalidPage) 4

/-- The store after the write, and whether the page missed the disk. -/
def rowstoreFlushPage (id : ℕ) : Store × Bool :=
  if env.durable id then ({ s with disk := Function.update s.disk id (s.page id) }, false)
  else (s, true)

def rowstoreAllocPage (partitionId : ℕ) : Option (Store × ℕ) :=
  let id := s.cursor partitionId
  if partitionMax ≤ partitionId then none
  else if (partitionId + 1) * rowstorePagesPerPartition ≤ id then none
  else if env.grant id then
    some ({ s.setPage id emptyPage with
      cursor := Function.update s.cursor partitionId (id + 1)
      nextFreePageId := max s.nextFreePageId (id + 1) }, id)
  else none

def findActiveTable (name : String) : Option ℕ :=
  s.slots.findIdx? fun t => t.active && t.header.isSome && t.name = name

def lookupTable (name : String) : Option (ℕ × CatalogSlot × RowTableHeader) :=
  (findActiveTable s name).bind fun idx =>
    (s.slots[idx]?).bind fun slot => slot.header.map fun h => (idx, slot, h)

/-- `rowstore_init` under a catalog: no tables, and each partition's cursor at the
start of its range. -/
def rowstoreInit (slots : List CatalogSlot) (disk : ℕ → Buf) : Store :=
  ⟨slots.map ({ · with header := none }), disk, disk, (· * rowstorePagesPerPartition), 0⟩

def rowstoreCreateTable (name : String) : Store × ℕ :=
  match s.slots.findIdx? fun t => t.active && t.name = name with
  | none => (s, 1)
  | some idx =>
    match s.slots[idx]? with
    | none => (s, 1)
    | some slot =>
      if slot.header.isSome then (s, 1)
      else match computeLayout slot.schema with
        | none => (s, 1)
        | some layout =>
          (s.setHeader idx ⟨layout, 0, 0, rowstoreInvalidPage, rowstoreInvalidPage, 0⟩, 0)

def slotOffset (layout : RowTableLayout) (slot : ℕ) : ℕ := 4 + slot * layout.rowWidth

/-- A new page if the table has none or its last one is full. The flag tells whether its link
missed the disk. -/
def growTable (partitionId : ℕ) (h : RowTableHeader) : Option (Store × RowTableHeader × Bool) :=
  if h.firstPageId = rowstoreInvalidPage ∨ h.layout.rowsPerPage ≤ h.rowsInLastPage then
    match rowstoreAllocPage env s partitionId with
    | none => none
    | some (s, newPage) =>
      let grown := { h with
        lastPageId := newPage, rowsInLastPage := 0, pageCount := h.pageCount + 1 }
      if h.firstPageId = rowstoreInvalidPage then
        some (s, { grown with firstPageId := newPage }, false)
      else
        let prev := (s.page h.lastPageId).copy 0 (leBytes newPage) 4
        let flushed := rowstoreFlushPage env (s.setPage h.lastPageId prev) h.lastPageId
        some (flushed.1, grown, flushed.2)
  else some (s, h, false)

def placeRow (h : RowTableHeader) (row : Buf) : Store × RowTableHeader × RowId × Bool :=
  let slot := h.rowsInLastPage
  let page := (s.page h.lastPageId).copy (slotOffset h.layout slot) row h.layout.rowWidth
  let flushed := rowstoreFlushPage env (s.setPage h.lastPageId page) h.lastPageId
  (flushed.1, { h with rowsInLastPage := slot + 1, rowCount := h.rowCount + 1 },
    ⟨h.lastPageId, slot⟩, flushed.2)

/-- What `rowstore_row_insert` and `rowstore_add_column` share; `none` when no page is to be
had. -/
def appendRow (partitionId : ℕ) (h : RowTableHeader) (row : Buf) :
    Option (Store × RowTableHeader × RowId × Bool) :=
  match growTable env s partitionId h with
  | none => none
  | some (s, h, linkLost) =>
    let placed := placeRow env s h row
    some (placed.1, placed.2.1, placed.2.2.1, linkLost || placed.2.2.2)

/-- Return code, and the new row's id on success (codes 0 and 7). -/
def rowstoreRowInsert (uid : ℕ) (name : String) (values : RowValues) :
    Store × ℕ × Option RowId :=
  match lookupTable s name with
  | none => (s, 1, none)
  | some (idx, slot, h) =>
    if !env.access uid name .write then (s, 2, none)
    else if values.count ≠ h.layout.columnCount then (s, 4, none)
    else match serializeRow h.layout values with
      | none => (s, 5, none)
      | some row =>
        match appendRow env s slot.partitionId h row with
        | none => (s, 6, none)
        | some (s', h', id, undurable) =>
          (s'.setHeader idx h', if undurable then rowstoreRcNotDurable else 0, some id)

/-- The bytes of a row, if the id is in range and the slot is in use. -/
def liveSlot (h : RowTableHeader) (id : RowId) : Option Buf :=
  if s.nextFreePageId ≤ id.pageId then none
  else if h.layout.rowsPerPage ≤ id.slotIndex then none
  else if rowstoreMaxPages ≤ id.pageId then none
  else
    let slot := (s.page id.pageId).at (slotOffset h.layout id.slotIndex)
    if slot 0 = 0 then none else some slot

def rowstoreRowGet (uid : ℕ) (name : String) (id : RowId) : Except ℕ RowValues :=
  match lookupTable s name with
  | none => .error 1
  | some (_, _, h) =>
    if !env.access uid name .read then .error 2
    else match liveSlot s h id with
      | none => .error 3
      | some slot => .ok (deserializeRow h.layout slot)

/-- Tombstone the row; the slot is not reused. -/
def rowstoreRowDelete (uid : ℕ) (name : String) (id : RowId) : Store × ℕ :=
  match lookupTable s name with
  | none => (s, 1)
  | some (idx, _, h) =>
    if !env.access uid name .write then (s, 2)
    else match liveSlot s h id with
      | none => (s, 3)
      | some _ =>
        let page := (s.page id.pageId).fill (slotOffset h.layout id.slotIndex) 0 1
        let flushed := rowstoreFlushPage env (s.setPage id.pageId page) id.pageId
        (flushed.1.setHeader idx { h with rowCount := h.rowCount - 1 },
          if flushed.2 then rowstoreRcNotDurable else 0)

/-- The used slots of one page, in order. -/
def scanPage (layout : RowTableLayout) (page : Buf) (pageId limit : ℕ) : List (RowId × RowValues) :=
  (List.range limit).filterMap fun slot =>
    let row := page.at (slotOffset layout slot)
    if row 0 = 0 then none else some (⟨pageId, slot⟩, deserializeRow layout row)

/-- The page loop; the fuel exceeds the length of any chain without a cycle. -/
def scanChain (h : RowTableHeader) : ℕ → ℕ → List (RowId × RowValues)
  | 0, _ => []
  | fuel + 1, pageId =>
    if pageId = rowstoreInvalidPage ∨ rowstoreMaxPages ≤ pageId then []
    else
      let page := s.page pageId
      let limit := if pageId = h.lastPageId then h.rowsInLastPage else h.layout.rowsPerPage
      scanPage h.layout page pageId limit ++ scanChain h fuel (readLE page 4)

def rowstoreTableScan (uid : ℕ) (name : String) : List (RowId × RowValues) :=
  match lookupTable s name with
  | none => []
  | some (_, _, h) =>
    if !env.access uid name .read then []
    else scanChain s h (rowstoreMaxPages + 1) h.firstPageId

end AeroSLS.Rowstore
