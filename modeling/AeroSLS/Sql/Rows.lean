import AeroSLS.Mvcc.Run
import AeroSLS.Sql.Select

namespace AeroSLS.Sql

open Rowstore Mvcc Bytes List Text

variable {t : CursorTable} {id : RowId} {col : ℕ}

namespace CursorTable

/-- The ids handed out so far belong to older cursors. -/
structure Ok (t : CursorTable) : Prop where
  pos : 0 < t.nextId
  older : ∀ c ∈ t.opened, c.cursorId < t.nextId

/-- What is delivered from a new cursor: at most a full row set. -/
theorem fetchRows_openRowset (h : t.Ok) (hfree : t.opened.length < cursorMax)
    (rows : List RowValues) :
    ((t.openRowset rows).1.fetchRows (t.openRowset rows).2 cursorMaxRowsetRows).2 =
      rows.take cursorMaxRowsetRows := by
  have hfind :
      (t.opened ++ [(⟨t.nextId, true, rows.take cursorMaxRowsetRows, 0⟩ : SLSCursor)]).findIdx?
      (fun c => c.cursorId = t.nextId) = some t.opened.length := by
    have hnone : t.opened.findIdx? (fun c => c.cursorId = t.nextId) = none := by
      rw [findIdx?_eq_none_iff]
      intro c hc
      have := h.older c hc
      simp only [decide_eq_false_iff_not]
      omega
    rw [findIdx?_append, hnone]
    simp
  unfold openRowset fetchRows
  rw [if_neg (by omega)]
  rw [hfind]
  simp [take_take]

end CursorTable

def resultRows (r : CursorTable × SqlResult) : List RowValues :=
  (r.1.fetchRows r.2.cursorId cursorMaxRowsetRows).2

lemma resultRows_finishSelect (h : t.Ok) (hfree : t.opened.length < cursorMax)
    (hrows : rows.length ≤ cursorMaxRowsetRows) :
    resultRows (finishSelect t out rows columns truncated) = rows := by
  have hfetch := CursorTable.fetchRows_openRowset h hfree rows
  rwa [take_of_length_le hrows] at hfetch

lemma findColumnIndex_lt (h : findColumnIndex layout name = some col) : col < layout.length :=
  (findIdx?_eq_some_iff_getElem.1 h).1

/-- A column as SQL reads it: NULL is `none`. -/
def cell (row : RowValues) (i : ℕ) : Option Text :=
  if row.isNull i then none else some (row.text i)

def cells (row : RowValues) : List (Option Text) := (range row.count).map (cell row)

lemma cells_eq_iff :
    cells a = cells b ↔ a.count = b.count ∧ ∀ i < a.count, cell a i = cell b i := by
  constructor
  · intro h
    have hlen := congrArg length h
    simp only [cells, length_map, length_range] at hlen
    refine ⟨hlen, fun i hi => ?_⟩
    have hget := congrArg (·[i]?) h
    simpa [cells, hi, ← hlen] using hget
  · grind [cells, map_congr_left]

/-- The texts that stored values are rendered as. -/
def Stored : FieldType → List UInt8 → Prop
  | .uint64, s => ∃ v < 2 ^ 64, s = rsU64ToStr v
  | .float, s => ∃ v, s = rsF64ToStr v
  | .bool, s => s = trueText ∨ s = falseText
  | .string, _ => True
  | .blob, _ => True

def Parses : FieldType → List UInt8 → Prop
  | .uint64, s => (rsParseU64 s).isSome
  | .float, s => (rsParseF64 s).isSome
  | .bool, s => (rsParseBool s).isSome
  | .string, _ => True
  | .blob, _ => True

lemma Stored.parses {t : FieldType} (h : Stored t s) : Parses t s := by
  cases t with
  | uint64 =>
    obtain ⟨v, hv, rfl⟩ := h
    change (rsParseU64 (rsU64ToStr v)).isSome
    rw [rsParseU64_rsU64ToStr hv]
    rfl
  | float =>
    obtain ⟨v, rfl⟩ := h
    exact rsParseF64_rsF64ToStr
  | bool => rcases h with rfl | rfl <;> exact Eq.refl true
  | string | blob => trivial

structure TypedRow (layout : List Column) (row : RowValues) : Prop where
  count : row.count = layout.length
  null : ∀ col < layout.length, row.isNull col = true → row.text col = Text.empty
  value : ∀ col < layout.length, row.isNull col = false →
    Stored (columnType layout col) (row.text col).1

lemma TypedRow.parses (h : TypedRow layout row)
    (hcol : col < layout.length) (hvalue : row.isNull col = false) :
    Parses (columnType layout col) (row.text col).1 := (h.value col hcol hvalue).parses

lemma readLE_lt (b : Buf) : readLE b n < 256 ^ n := by
  induction n generalizing b with
  | zero => exact Nat.one_pos
  | succ n ih =>
    have hbyte := (b 0).toNat_lt
    have hrest := ih (b.at 1)
    rw [readLE]
    omega

lemma stored_readCell (t : FieldType) : Stored t (ofBytes (readCell t src).render).1 := by
  cases t with
  | uint64 =>
    have hlen := rsU64ToStr_length (readLE src 8)
    have hval : (ofBytes (rsU64ToStr (readLE src 8))).1 = rsU64ToStr (readLE src 8) :=
      ofBytes_val (fun c hc => ne_zero_of_isDigit (rsU64ToStr_digits _ c hc))
        (by unfold recordValLen; omega)
    exact ⟨readLE src 8, readLE_lt src, hval⟩
  | float =>
    have htext := rsF64ToStr_text (Float.ofBits (UInt64.ofNat (readLE src 8)))
    exact ⟨_, ofBytes_val htext.1 htext.2⟩
  | bool =>
    change (ofBytes (if src 0 = 0 then falseText else trueText)).1 = trueText ∨
      (ofBytes (if src 0 = 0 then falseText else trueText)).1 = falseText
    split_ifs
    · exact .inr (by decide)
    · exact .inl (by decide)
  | string | blob => trivial

lemma deserializeColumns_length : (deserializeColumns mask row cols c).length = cols.length := by
  induction cols generalizing c with
  | nil => rfl
  | cons col cols ih => rw [deserializeColumns, length_cons, ih, length_cons]

lemma deserializeColumns_get (mask : BitVec 16) (row : Buf) (cols : List Column) (c i : ℕ) :
    (deserializeColumns mask row cols c)[i]? = (cols[i]?).map fun col =>
      if mask.getLsbD (c + i) then empty
      else ofBytes (readCell col.type (row.at col.offset)).render := by
  induction cols generalizing c i with
  | nil => rfl
  | cons col cols ih =>
    cases i with
    | zero => rfl
    | succ i => grind [deserializeColumns]

lemma deserializeRow_typed : TypedRow layout.columns (deserializeRow layout row) := by
  have htext : ∀ col (h : col < layout.columns.length), (deserializeRow layout row).text col =
        if (deserializeRow layout row).isNull col then empty
        else ofBytes (readCell (columnType layout.columns col)
          (row.at layout.columns[col].offset)).render := by
    intro col h
    have hget := deserializeColumns_get (BitVec.ofNat 16 (readLE (row.at 1) 2)) row
      layout.columns 0 col
    rw [getElem?_eq_getElem h, Nat.zero_add] at hget
    unfold RowValues.text columnType
    rw [getElem?_eq_getElem h]
    change ((deserializeColumns _ row layout.columns 0)[col]?).getD _ = _
    rw [hget]
    rfl
  constructor
  · exact deserializeColumns_length
  · grind
  · grind [stored_readCell]

variable {c : SqlEnv} {table : String} {layout : List Column} {pred : Option Predicate} {k max : ℕ}
  {row : RowValues}

lemma rowstoreRowGet_typed (h : rowstoreRowGet c.env c.db.store uid table id = .ok row)
    (hcols : tableColumns c table = some layout) : TypedRow layout row := by
  unfold rowstoreRowGet at h
  unfold tableColumns at hcols
  cases hl : lookupTable c.db.store table with
  | none => simp [hl] at hcols
  | some entry => grind [deserializeRow_typed]

theorem rowGet_of_visible (hgood : c.db.Good) {t : MvccTxn} (ht : mvFindTxn c.db c.txnId = some t)
    {v : MvccVersion} (hv : v ∈ c.db.versions) (hact : v.active)
    (hvis : mvVisible v t)
    (hget : rowstoreRowGet c.env c.db.store c.uid table v.physicalId = .ok row) :
    rowGet c table v.logicalId = .ok row := by
  obtain ⟨used, hinv⟩ := hgood
  obtain ⟨m, hm⟩ := mem_iff_getElem?.1 hv
  have hmem := (mem_txns_of_find ht).1
  have hfind : mvFindVisibleVersion c.db v.logicalId t = some m := by
    unfold mvFindVisibleVersion
    obtain ⟨hlt, heq⟩ := List.getElem?_eq_some_iff.1 hm
    rw [findIdx?_eq_some_iff_getElem]
    refine ⟨hlt, by simp [heq, hact, hvis], fun j hj => ?_⟩
    simp only [Bool.and_eq_true, decide_eq_true_eq, not_and]
    intro hw
    by_contra hwvis
    have hj' := getElem?_eq_getElem (Nat.lt_trans hj hlt)
    have := hinv.visible_slot_unique hmem hj' hm hw.1 hact (by simpa using hwvis) hvis hw.2
    omega
  unfold rowGet mvccRowGet
  rw [ht]
  dsimp only
  rw [hfind, Option.bind_some, hm]
  dsimp only
  rw [hget]

lemma rowGet_of_scan (hgood : c.db.Good)
    (h : (k, row) ∈ mvccTableScan c.env c.db c.txnId c.uid table) :
    rowGet c table k = .ok row := by
  unfold mvccTableScan at h
  split at h
  · rename_i t _ slot _ ht hl
    split_ifs at h
    · obtain ⟨v, hv, hrow⟩ := mem_filterMap.1 h
      split_ifs at hrow with hsel
      split at hrow
      · grind [rowGet_of_visible]
      · cases hrow
    · cases h
  · cases h

lemma rowGet_of_resolve (hgood : c.db.Good)
    (h : mvccResolvePhysical c table id = some (k, row)) : rowGet c table k = .ok row := by
  unfold mvccResolvePhysical at h
  split at h
  · rename_i t _ ht _
    split at h
    · cases h
    rename_i v hfind
    split_ifs at h with hsel
    split at h
    · rename_i hget
      rw [Bool.and_eq_true] at hsel
      cases h
      exact rowGet_of_visible hgood ht (mem_of_find?_eq_some hfind) hsel.1 hsel.2 hget
    · cases h
  · cases h

/-- Every id the planner returns can be read and meets the predicate. -/
theorem rowGet_of_found (hgood : c.db.Good)
    (h : k ∈ (mvccFindMatchingRows c table pred layout max).1) :
    ∃ row, rowGet c table k = .ok row ∧ whereHolds pred layout row := by
  unfold mvccFindMatchingRows at h
  split at h
  · rename_i ids hids
    unfold tryIndexAssistedEq at hids
    split at hids
    · rename_i p _ _ _ hroot
      obtain ⟨p', hp, hnode⟩ := Option.bind_eq_some_iff.1 hroot
      obtain ⟨root, -, hn⟩ := Option.bind_eq_some_iff.1 hnode
      obtain ⟨n, -, heq⟩ := Option.map_eq_some_iff.1 hn
      cases heq
      split at hids
      · split at hids
        · cases hids
        split at hids
        · cases hids
        cases hids
        have hmem := mem_of_mem_take h
        simp only [mem_map, mem_filter, mem_filterMap] at hmem
        obtain ⟨⟨k', row⟩, ⟨⟨id, -, hres⟩, heval⟩, rfl⟩ := hmem
        refine ⟨row, rowGet_of_resolve hgood hres, ?_⟩
        rwa [hp]
      · cases hids
    · cases hids
  · have hmem := mem_of_mem_take h
    simp only [mem_map, mem_filter] at hmem
    obtain ⟨⟨k', row⟩, ⟨hscan, hwhere⟩, rfl⟩ := hmem
    exact ⟨row, rowGet_of_scan hgood hscan, hwhere⟩

lemma rowGet_typed (h : rowGet c table k = .ok row) (hcols : tableColumns c table = some layout) :
    TypedRow layout row := by
  unfold rowGet mvccRowGet at h
  split at h
  · cases h
  · grind [rowstoreRowGet_typed]

lemma sortRows_perm (layout : List Column) (orderCol : Option ℕ) (desc : Bool)
    (rows : List RowValues) : (sortRows layout orderCol desc rows).Perm rows := by
  cases orderCol with
  | none => exact .refl _
  | some => exact Sorting.insertionSort_perm _

lemma length_cut_le :
    (applyLimit limit (sortRows layout orderCol desc rows)).length ≤ rows.length := by
  rw [← (sortRows_perm layout orderCol desc rows).length_eq]
  unfold applyLimit
  split
  · exact le_rfl
  · exact length_take_le' ..

lemma mvccFindMatchingRows_length :
    (mvccFindMatchingRows c table pred layout max).1.length ≤ max := by
  unfold mvccFindMatchingRows
  split
  · rename_i ids hids
    unfold tryIndexAssistedEq at hids
    split at hids
    · grind
    · cases hids
  · exact length_take_le _ _

lemma materialize_length (c : SqlEnv) (s : SqlSelectStmt) (layout : List Column) :
    (materialize c s layout).1.length ≤ cursorMaxRowsetRows := by
  unfold materialize
  rw [length_map]
  exact mvccFindMatchingRows_length

lemma materialize_typed (hgood : c.db.Good) (hcols : tableColumns c s.tableName = some layout) :
    ∀ row ∈ (materialize c s layout).1,
      TypedRow layout row ∧ whereHolds s.whereClause layout row := by
  intro row hrow
  obtain ⟨k, hk, rfl⟩ := mem_map.1 hrow
  obtain ⟨row, hget, hwhere⟩ := rowGet_of_found hgood hk
  have hfetch : fetchRow c s.tableName k = row := by
    unfold fetchRow
    rw [hget]
  rw [hfetch]
  exact ⟨rowGet_typed hget hcols, hwhere⟩

/-- The first transaction inserts the rows and commits, the second is left open. -/
def fillCalls (rows : List (String × RowValues)) : List Call :=
  [.begin] ++ (rows.map fun r => .insert 1 9 r.1 r.2) ++ [.commit 1, .begin]

def filled (slots : List CatalogSlot) (rows : List (String × RowValues)) : Db :=
  Machine.run Db.step (boot openEnv (createTables slots) []) ((fillCalls rows).map (openEnv, ·))

lemma filled_good (hdist : DistinctTables (createTables slots)) : (filled slots rows).Good := by
  have hboot : (boot openEnv (createTables slots) []).Good :=
    ⟨_, boot_inv (createTables_heap slots) hdist []⟩
  apply Machine.run_induction hboot fun _ _ hgood hlegal => Db.Good.step hgood hlegal
  apply Machine.always_of_forall
  intro a ha db
  obtain ⟨call, hcall, rfl⟩ := mem_map.1 ha
  simp only [fillCalls, mem_append, mem_map, mem_cons, not_mem_nil, or_false] at hcall
  rcases hcall with (rfl | ⟨row, -, rfl⟩) | rfl | rfl <;> trivial

/-- The second transaction, over a database without indexes and views. -/
def session (db : Db) : SqlEnv := ⟨openEnv, db, .none, [], fun _ => .error "", 2, 9⟩

def noCursors : CursorTable := ⟨[], 1⟩

lemma noCursors_ok : noCursors.Ok := ⟨Nat.one_pos, by simp [noCursors]⟩

end AeroSLS.Sql
