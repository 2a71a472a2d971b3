import AeroSLS.Mvcc.Restart
import AeroSLS.Rowstore.AddColumn

namespace AeroSLS.Mvcc

open Rowstore Version Machine List Function MvccVersion

variable {msg : String} {s : Store}

inductive SqlErrorCode
  | none
  | tableNotFound
  | permissionDenied
  | ddlFailed
  | internal
  deriving DecidableEq

def execAlterTable (env : Env) (db : Db) (uid : ℕ) (name column : String) (type : FieldType) :
    Db × SqlErrorCode × String :=
  let r := rowstoreAddColumn env db.store uid name column type
  let db := { db with store := r.1 }
  match if r.2 = rowstoreRcNotDurable then 0 else r.2 with
  | 0 =>
    match db.store.slots.find? fun t => t.active && t.name = name with
    | some t => (mvccRebuildVersionsForTable env db t.objectId name, .none, "")
    | none => (db, .none, "")
  | 1 => (db, .tableNotFound, "ALTER TABLE: table not found or not a row-set table")
  | 2 => (db, .permissionDenied, "ALTER TABLE: permission denied")
  | 3 => (db, .ddlFailed, "ALTER TABLE: column name already exists")
  | 4 => (db, .ddlFailed, "ALTER TABLE: column/schema capacity exhausted")
  | 6 => (db, .ddlFailed, "ALTER TABLE: page pool exhausted during migration")
  | 7 => (db, .ddlFailed, "ALTER TABLE: too many existing rows to migrate in one call")
  | _ => (db, .internal, "ALTER TABLE: unexpected error")

/-- The store was changed under one table only; that table may have other rows
and columns now. -/
structure Replaced (s s' : Store) (used used' : ℕ → List RowId) (idx : ℕ) : Prop where
  heap : Heap s' used'
  tables : SameTables s s'
  used_eq : ∀ i, i ≠ idx → used' i = used i
  frame : ∀ i, i ≠ idx → ∀ id ∈ used i, s'.row i id = s.row i id

lemma Replaced.refl (hs : Heap s used) (idx : ℕ) :
    Replaced s s used used idx := ⟨hs, rfl, fun _ _ => rfl, fun _ _ _ _ => rfl⟩

lemma replaced_of_columnAdded
    {type : FieldType} (ha : ColumnAdded s s' used idx h h' schema ids column type)
    (htab : IsTable s idx slot h) : Replaced s s' used (update used idx ids) idx :=
  ⟨ha.heap, ha.sameTables htab, fun _ hi => update_of_ne hi .., ha.frame⟩

def MvccVersion.dropFrom (tableObjectId : ℕ) (v : MvccVersion) : MvccVersion :=
  if v.active && v.tableObjectId = tableObjectId then { v with active := false } else v

section Drop

variable {db : Db} {s' : Store} {used used' : ℕ → List RowId} {idx : ℕ} {slot : CatalogSlot}
  {hdr : RowTableHeader} {v : MvccVersion}

lemma dropFrom_active (hact : (v.dropFrom o).active) :
    v.dropFrom o = v ∧ v.active ∧ v.tableObjectId ≠ o := by
  unfold dropFrom at hact ⊢
  split_ifs at hact ⊢ with hdrop
  simp only [Bool.and_eq_true, decide_eq_true_eq, not_and] at hdrop
  exact ⟨rfl, hact, hdrop hact⟩

lemma dropFrom_of_ne (hne : v.tableObjectId ≠ o) : v.dropFrom o = v := by
  simp [dropFrom, hne]

section

variable (h : db.Inv used) (hrep : Replaced db.store s' used used' idx)
  (ho : tableIndex db.store o = some idx)
include h hrep ho

/-- After a drop the rows of the table have no history and the others keep theirs, also under a
changed table. -/
theorem history_drop :
    Db.history (mvccNotifyTableDropped { db with store := s' } o) k = db.history k ∨
      Db.history (mvccNotifyTableDropped { db with store := s' } o) k = [] := by
  have hversions : (mvccNotifyTableDropped { db with store := s' } o).versions =
      db.versions.map (·.dropFrom o) := rfl
  have hcell : ∀ v ∈ db.versions, v.active → v.tableObjectId ≠ o → v.cell s' = v.cell db.store := by
    intro v hv hact hne
    obtain ⟨j, hj, hused, -⟩ := h.placed v hv hact
    have hji : j ≠ idx := by
      rintro rfl
      exact hne (tableIndex_inj hj ho)
    rw [cell, cell, row, row, hrep.tables.tableIndex,
      hj, Option.bind_some, Option.bind_some, hrep.frame j hji _ hused]
  rw [Db.history, hversions, filter_map, map_map]
  by_cases hall : ∀ v ∈ db.versions, v.belongs k → v.tableObjectId ≠ o
  · left
    have hfilter : db.versions.filter ((·.belongs k) ∘ (·.dropFrom o)) =
        db.versions.filter (·.belongs k) := by
      apply filter_congr
      intro v hv
      by_cases hne : v.tableObjectId = o
      · have hnot : v.belongs k ≠ true := fun hb => hall v hv hb hne
        cases hact : v.active <;> simp_all [belongs, dropFrom]
      · rw [comp_apply, dropFrom_of_ne hne]
    rw [hfilter]
    apply map_congr_left
    intro v hv
    obtain ⟨hmem, hb⟩ := mem_filter.mp hv
    have hne := hall v hmem hb
    simp only [belongs, Bool.and_eq_true] at hb
    rw [comp_apply, dropFrom_of_ne hne]
    exact hcell v hmem hb.1 hne
  · right
    push Not at hall
    obtain ⟨w, hw, hwb, hwo⟩ := hall
    rw [map_eq_nil_iff, filter_eq_nil_iff]
    intro v hv hb
    simp only [comp_apply, belongs, Bool.and_eq_true, decide_eq_true_eq] at hb hwb
    obtain ⟨heq, hact, hne⟩ := dropFrom_active hb.1
    rw [heq] at hb
    exact hne ((h.same_table v hv w hw hact hwb.1 (hb.2.trans hwb.2.symm)).trans hwo)

lemma dropped_inv : (mvccNotifyTableDropped { db with store := s' } o).Inv used' := by
  have hkept : List.Forall₂ Kept db.versions (db.versions.map (·.dropFrom o)) := by
    rw [forall₂_map_right_iff, forall₂_same]
    intro v _ hact
    obtain ⟨heq, hvact, -⟩ := dropFrom_active hact
    rw [heq]
    exact ⟨hvact, rfl, rfl, rfl⟩
  have hmem : ∀ w ∈ db.versions.map (·.dropFrom o), w.active →
      w ∈ db.versions ∧ w.tableObjectId ≠ o := by
    intro w hw hact
    obtain ⟨v, hv, rfl⟩ := mem_map.mp hw
    obtain ⟨heq, -, hne⟩ := dropFrom_active hact
    rw [heq]
    exact ⟨hv, hne⟩
  have hstamps : ∀ k, stamps (Db.history (mvccNotifyTableDropped { db with store := s' } o) k) ⊆
      stamps (db.history k) := by
    intro k
    rcases history_drop h hrep ho with heq | heq
    · rw [heq]
      exact List.Subset.refl _
    · rw [heq]
      exact nil_subset _
  refine h.carried hkept hrep.heap (hrep.tables.distinct h.distinct) (fun w hw hact => ?_)
    (List.Sublist.refl _) rfl rfl (fun w hw hact => ?_) ⟨fun k => ?_,
      fun k t ht => h.pool.pending k t (hstamps k ht), fun k c hc =>
        h.pool.committed k c (hstamps k hc),
      h.pool.snap_lt, h.pool.zero, h.pool.seq_pos⟩
  · obtain ⟨hwmem, hne⟩ := hmem w hw hact
    obtain ⟨j, hj, hused, hsome⟩ := h.placed w hwmem hact
    have hji : j ≠ idx := by
      rintro rfl
      exact hne (tableIndex_inj hj ho)
    refine ⟨j, hrep.tables.tableIndex.trans hj, ?_, ?_⟩
    · rw [hrep.used_eq j hji]
      exact hused
    · show (s'.row j w.physicalId).isSome
      rwa [hrep.frame j hji _ hused]
  · have hst := h.stamped w (hmem w hw hact).1 hact
    exact ⟨hst.xmin_done, hst.xmax_done, hst.xmin_lt, hst.xmax_lt⟩
  · show Sound db.snap (Db.history _ k)
    rcases history_drop h hrep ho with heq | heq
    · rw [heq]
      exact h.pool.sound k
    · rw [heq]
      trivial

end

theorem rebuild_spec (h : db.Inv used) (hrep : Replaced db.store s' used used' idx)
    (hl : lookupTable s' name = some (idx, slot, hdr)) :
    (mvccRebuildVersionsForTable env { db with store := s' } slot.objectId name).Inv used' ∧
      (mvccRebuildVersionsForTable env { db with store := s' } slot.objectId name).currentIds
        slot.objectId = (liveIds s' used' idx).take (mvccMaxVersions - db.versions.length) := by
  have hindex := (lookupTable_isTable hl).1.index (hrep.tables.distinct h.distinct)
  have ho := hrep.tables.tableIndex ▸ hindex
  have hdrop := dropped_inv h hrep ho
  have hrows : (rowstoreTableScan env s' 0 name).map (fun row => (slot.objectId, row.1)) =
      (liveIds s' used' idx).map fun id => (slot.objectId, id) := by
    rw [rowstoreTableScan_live hrep.heap hl (env.kernel name .read), map_map]
    rfl
  have hunclaimed : ∀ row ∈ (liveIds s' used' idx).map fun id => (slot.objectId, id),
      (mvccNotifyTableDropped { db with store := s' } slot.objectId).Unclaimed used'
        row.1 row.2 := by
    intro row hrow
    obtain ⟨id, hid, rfl⟩ := mem_map.mp hrow
    obtain ⟨hused, hsome⟩ := mem_liveIds.mp hid
    refine ⟨⟨idx, hindex, hused, hsome⟩, fun v hv hact heq => ?_⟩
    -- a version still in use belongs to another table
    obtain ⟨w, -, rfl⟩ := mem_map.mp hv
    obtain ⟨j, hj, hjused, -⟩ := hdrop.placed _ hv hact
    obtain ⟨hsame, -, hne⟩ := dropFrom_active hact
    change tableIndex s' (w.dropFrom slot.objectId).tableObjectId = some j at hj
    change (w.dropFrom slot.objectId).physicalId = id at heq
    change (w.dropFrom slot.objectId).physicalId ∈ used' j at hjused
    rw [heq] at hjused
    rw [hsame, hrep.heap.table_unique hjused hused] at hj
    exact hne (tableIndex_inj hj hindex)
  have hnodup : (((liveIds s' used' idx).map fun id => (slot.objectId, id)).map (·.2)).Nodup := by
    rw [map_map]
    exact (liveIds_nodup hrep.heap).map fun _ _ heq => heq
  rw [mvccRebuildVersionsForTable, mvBootstrapTable_eq]
  change (bootRows ((rowstoreTableScan env s' 0 name).map fun row => (slot.objectId, row.1)) _).Inv
    used' ∧
    (bootRows ((rowstoreTableScan env s' 0 name).map fun row =>
      (slot.objectId, row.1)) _).currentIds
      slot.objectId = _
  rw [hrows]
  refine ⟨bootRows_inv hdrop hnodup hunclaimed, ?_⟩
  have hnone : (mvccNotifyTableDropped { db with store := s' } slot.objectId).currentIds
      slot.objectId = [] := by
    rw [eq_nil_iff_forall_not_mem]
    intro id hid
    obtain ⟨v, hv, hcur, hvo, -⟩ := mem_currentIds.mp hid
    obtain ⟨w, -, rfl⟩ := mem_map.mp hv
    obtain ⟨hsame, -, hne⟩ := dropFrom_active (current_iff.mp hcur).1
    change (w.dropFrom slot.objectId).tableObjectId = slot.objectId at hvo
    rw [hsame] at hvo
    exact hne hvo
  have hlen : (mvccNotifyTableDropped { db with store := s' } slot.objectId).versions.length =
      db.versions.length := length_map ..
  rw [currentIds_bootRows, hnone, hlen, ← map_take]
  have hself : ∀ l : List RowId, ((l.map fun id => (slot.objectId, id)).filter
      (·.1 = slot.objectId)).map (·.2) = l := by
    intro l
    rw [filter_eq_self.mpr (by simp)]
    simp [comp_def]
  exact hself _

end Drop

/-- The store under the table was replaced and its pool rebuilt; the column is there unless
there were too many rows. -/
structure Altered (db db' : Db) (used used' : ℕ → List RowId) (idx : ℕ) (slot : CatalogSlot)
    (hdr hdr' : RowTableHeader) (column : String) (type : FieldType) : Prop where
  inv : db'.Inv used'
  laidOut : LaidOut db'.store
  table : ∃ slot', IsTable db'.store idx slot' hdr' ∧ slot'.objectId = slot.objectId ∧
    slot'.name = slot.name
  txns : db'.txns = db.txns
  current : db'.currentIds slot.objectId =
    (liveIds db'.store used' idx).take (mvccMaxVersions - db.versions.length)
  rows : (used' = used ∧ db'.store = db.store ∧
      rowstoreAddColumnMaxRows < (liveIds db.store used idx).length) ∨
    (liveIds db'.store used' idx).map (fun id => cells hdr'.layout (rowValue db'.store idx id)) =
      (liveIds db.store used idx).map fun id =>
        cells hdr.layout (rowValue db.store idx id) ++ [nullCell column type]

section Alter

variable {env : Env} {db db' : Db} {used : ℕ → List RowId} {idx uid : ℕ} {slot : CatalogSlot}
  {hdr : RowTableHeader} {name column : String} {type : FieldType}

lemma altered_of_replaced (h : db.Inv used) (hrep : Replaced db.store s' used used' idx)
    (htab : IsTable s' idx slot' hdr') (hid : slot'.objectId = slot.objectId)
    (hname : slot'.name = slot.name) (hout : LaidOut s') (hrows : (used' = used ∧ s' = db.store ∧
        rowstoreAddColumnMaxRows < (liveIds db.store used idx).length) ∨
      (liveIds s' used' idx).map (fun id => cells hdr'.layout (rowValue s' idx id)) =
        (liveIds db.store used idx).map fun id =>
          cells hdr.layout (rowValue db.store idx id) ++ [nullCell column type]) :
    Altered db (mvccRebuildVersionsForTable env { db with store := s' } slot.objectId slot.name)
      used used' idx slot hdr hdr' column type := by
  have hl := htab.lookup (hrep.tables.distinct h.distinct)
  rw [hname] at hl
  obtain ⟨hinv, hcur⟩ := rebuild_spec h hrep hl
  rw [hid] at hinv hcur
  have hstore : (mvccRebuildVersionsForTable env { db with store := s' } slot.objectId
      slot.name).store = s' := by
    rw [mvccRebuildVersionsForTable, mvBootstrapTable_eq, bootRows_store]
    rfl
  have htxns : (mvccRebuildVersionsForTable env { db with store := s' } slot.objectId
      slot.name).txns = db.txns := by
    rw [mvccRebuildVersionsForTable, mvBootstrapTable_eq]
    obtain ⟨next, heq⟩ := bootRows_eq
      (mvccNotifyTableDropped { db with store := s' } slot.objectId)
    rw [heq]
    rfl
  exact ⟨hinv, hstore.symm ▸ hout, ⟨slot', hstore.symm ▸ htab, hid, hname⟩, htxns,
    hstore.symm ▸ hcur,
    hstore.symm ▸ hrows⟩

lemma execAlterTable_spec (h : db.Inv used) (hout : LaidOut db.store)
    (hl : lookupTable db.store name = some (idx, slot, hdr))
    (halter : execAlterTable env db uid name column type = (db', .none, msg)) :
    ∃ used' hdr', Altered db db' used used' idx slot hdr hdr' column type := by
  obtain ⟨htab, rfl⟩ := lookupTable_isTable hl
  obtain ⟨⟨s', rc⟩, hr⟩ : ∃ q, rowstoreAddColumn env db.store uid slot.name column type = q :=
    ⟨_, rfl⟩
  simp only [execAlterTable, hr] at halter
  have hrc : rc = 0 ∨ rc = 7 := by
    by_contra hne
    push Not at hne
    rw [if_neg (show ¬ rc = rowstoreRcNotDurable from hne.2)] at halter
    split at halter
    · exact hne.1 rfl
    all_goals cases halter
  have hzero : (if rc = rowstoreRcNotDurable then 0 else rc) = 0 := by
    rcases hrc with rfl | rfl <;> rfl
  rw [hzero] at halter
  have hspec := rowstoreAddColumn_spec h.heap hout hl hr hrc
  -- the search by name ends at the table
  have hrebuild : ∀ {used' : ℕ → List RowId} {slot' : CatalogSlot} {hdr' : RowTableHeader},
      Replaced db.store s' used used' idx → IsTable s' idx slot' hdr' → slot'.name = slot.name →
      slot'.objectId = slot.objectId →
      db' = mvccRebuildVersionsForTable env { db with store := s' } slot.objectId slot.name := by
    intro used' slot' hdr' hrep htab' hname hid
    have hfind : (s'.slots.find? fun t => t.active && t.name = slot.name) = some slot' := by
      refine find?_of_unique htab'.1 (by simp [htab'.2.1, hname]) fun j u hu hp => ?_
      simp only [Bool.and_eq_true, decide_eq_true_eq] at hp
      exact hrep.tables.distinct h.distinct j idx u slot' hu htab'.1 hp.1 htab'.2.1
        (.inr (hp.2.trans hname.symm))
    rw [hfind] at halter
    simp only [hid, Prod.mk.injEq] at halter
    exact halter.1.symm
  rcases hspec with ⟨rfl, hmany⟩ | ⟨hdr', schema, ids, hadd⟩
  · have hrep : Replaced db.store db.store used used idx := .refl h.heap idx
    rw [hrebuild hrep htab rfl rfl]
    exact ⟨used, hdr, altered_of_replaced h hrep htab rfl rfl hout (.inl ⟨rfl, rfl, hmany⟩)⟩
  have hrep := replaced_of_columnAdded hadd htab
  rw [hrebuild hrep (hadd.isTable htab) rfl rfl]
  refine ⟨_, hdr', altered_of_replaced h hrep (hadd.isTable htab) rfl rfl (hadd.laidOut htab hout)
    (.inr ?_)⟩
  rw [hadd.liveIds_eq]
  exact hadd.rows

lemma lookupTable_of_alter
    (halter : execAlterTable env db uid name column type = (db', .none, msg)) :
    ∃ idx slot hdr, lookupTable db.store name = some (idx, slot, hdr) := by
  cases hl : lookupTable db.store name with
  | some q => exact ⟨q.1, q.2.1, q.2.2, rfl⟩
  | none =>
    have hr : rowstoreAddColumn env db.store uid name column type = (db.store, 1) := by
      rw [rowstoreAddColumn, hl]
    simp [execAlterTable, hr, rowstoreRcNotDurable] at halter

end Alter

/-- A state that a history of calls and successful statements leads to. -/
inductive Reached : Db → Prop
  | boot {env : Env} {s : Store} {used : ℕ → List RowId} (cs : List RowConstraintDef) :
      Heap s used → DistinctTables s → LaidOut s → Reached (boot env s cs)
  | step {db : Db} {a : Act} : Reached db → db.Legal a → Reached (db.step a)
  | alter {env : Env} {db db' : Db} {uid : ℕ} {name column : String} {type : FieldType}
      {msg : String} :
      Reached db → execAlterTable env db uid name column type = (db', .none, msg) → Reached db'

lemma Reached.good (h : Reached db) : db.Good ∧ LaidOut db.store := by
  induction h with
  | boot cs hs hd => exact ⟨⟨_, boot_inv hs hd cs⟩, by rwa [boot_store]⟩
  | step _ hlegal ih =>
    obtain ⟨⟨used, hinv⟩, hout⟩ := ih
    obtain ⟨es, hs⟩ := (hinv.stepped hlegal).1
    exact ⟨hs.good, hs.catalog.laidOut hout⟩
  | alter _ halter ih =>
    obtain ⟨⟨used, hinv⟩, hout⟩ := ih
    obtain ⟨idx, slot, hdr, hl⟩ := lookupTable_of_alter halter
    obtain ⟨used', hdr', ha⟩ := execAlterTable_spec hinv hout hl halter
    exact ⟨⟨used', ha.inv⟩, ha.laidOut⟩

lemma take_perm_iff {α β : Type} {l l' : List α} (f : α → β) (hl : l.Nodup) (hl' : l'.Nodup)
    (hsub : l ⊆ l') (n : ℕ) : (l'.length ≤ n → (((l'.take n).map f).Perm (l.map f) ↔ l' ⊆ l)) ∧
      (l' ⊆ l → (((l'.take n).map f).Perm (l.map f) ↔ l'.length ≤ n)) := by
  constructor
  · grind [take_of_length_le, perm_comm, map_perm_iff]
  intro hsub'
  constructor
  · intro hperm
    have hlen : (l'.take n).length = l.length := by simpa using hperm.length_eq
    have hle := (subperm_of_subset hl' hsub').length_le
    rw [length_take] at hlen
    omega
  · grind [take_of_length_le, map_perm_iff]

def RowsCurrent (env : Env) (db : Db) (uid : ℕ) (name : String) (tableObjectId : ℕ) : Prop :=
  ∀ row ∈ rowstoreTableScan env db.store uid name, ∃ v ∈ db.versions, v.current = true ∧
    v.tableObjectId = tableObjectId ∧ v.physicalId = row.1

/-- The pool has room for a new version of every row. -/
def RowsFit (env : Env) (db : Db) (uid : ℕ) (name : String) : Prop :=
  (rowstoreTableScan env db.store uid name).length ≤ mvccMaxVersions - db.versions.length

lemma begin_ne_zero (h : db'.Inv used)
    (htxns : db'.txns = db.txns) (hb1 : mvccBegin db = (db1, t1)) (ht1 : t1 ≠ 0)
    (hb2 : mvccBegin db' = (db2, t2)) : t2 ≠ 0 := by
  unfold mvccBegin at hb1 hb2
  rw [htxns] at hb2
  split_ifs at hb1 hb2
  · exact absurd (congrArg Prod.snd hb1).symm ht1
  · grind [h.next_pos]

/-- After a successful ADD COLUMN a new transaction sees the rows a transaction
begun just before saw, with the old columns as they were and NULL in the new one,
when every live physical row of the table was current and the pool had room for
the rows again; and if one of the two conditions holds, only then. -/
theorem alter_keeps_rows_iff {db db' db₁ db₂ : Db} (hreached : Reached db) {env₁ : Env}
    {uid₁ : ℕ} {name column : String} {type : FieldType} {msg : String}
    (halter : execAlterTable env₁ db uid₁ name column type = (db', .none, msg)) {t₁ t₂ : ℕ}
    (hb₁ : mvccBegin db = (db₁, t₁)) (ht₁ : t₁ ≠ 0) (hb₂ : mvccBegin db' = (db₂, t₂)) {env : Env}
    {uid i j : ℕ} {slot slot' : CatalogSlot} {hdr hdr' : RowTableHeader}
    (hl : lookupTable db.store name = some (i, slot, hdr))
    (hl' : lookupTable db'.store name = some (j, slot', hdr'))
    (hacc : env.access uid name .read = true) :
    (RowsFit env db uid name →
      (((mvccTableScan env db₂ t₂ uid name).map fun row => cells hdr'.layout row.2).Perm
        ((mvccTableScan env db₁ t₁ uid name).map fun row =>
          cells hdr.layout row.2 ++ [nullCell column type]) ↔
        RowsCurrent env db uid name slot.objectId)) ∧
    (RowsCurrent env db uid name slot.objectId →
      (((mvccTableScan env db₂ t₂ uid name).map fun row => cells hdr'.layout row.2).Perm
        ((mvccTableScan env db₁ t₁ uid name).map fun row =>
          cells hdr.layout row.2 ++ [nullCell column type]) ↔
        RowsFit env db uid name)) := by
  obtain ⟨⟨used, h⟩, hout⟩ := hreached.good
  obtain ⟨used', hdr₂, ha⟩ := execAlterTable_spec h hout hl halter
  obtain ⟨slot₂, htab₂, hid, hname⟩ := ha.table
  -- the table after the statement is the one of the specification
  have hl₂ := htab₂.lookup ha.inv.distinct
  rw [hname, (lookupTable_isTable hl).2, hl'] at hl₂
  obtain ⟨rfl, rfl, rfl⟩ : j = i ∧ slot' = slot₂ ∧ hdr' = hdr₂ := by simpa using hl₂
  have ht₂ := begin_ne_zero ha.inv ha.txns hb₁ ht₁ hb₂
  have hcomp : ∀ {γ : Type} (l : List (ℕ × RowValues)) (g : RowValues → γ),
      l.map (fun row => g row.2) = (l.map (·.2)).map g := fun l g => by rw [map_map]; rfl
  rw [hcomp _ (cells hdr'.layout), hcomp _ (fun v => cells hdr.layout v ++ [nullCell column type]),
    ha.inv.begin_values hb₂ ht₂ hl' hacc, h.begin_values hb₁ ht₁ hl hacc, hid, ha.current, map_map,
    map_map]
  have hcur : RowsCurrent env db uid name slot.objectId ↔
      liveIds db.store used j ⊆ db.currentIds slot.objectId := (h.liveIds_subset_iff hl hacc).symm
  have hfit : RowsFit env db uid name ↔
      (liveIds db.store used j).length ≤ mvccMaxVersions - db.versions.length := by
    rw [RowsFit, rowstoreTableScan_live h.heap hl hacc, length_map]
  have hperm := take_perm_iff (fun id => cells hdr.layout (rowValue db.store j id) ++
    [nullCell column type]) h.currentIds_nodup (liveIds_nodup h.heap)
    (h.currentIds_subset hl) (mvccMaxVersions - db.versions.length)
  rw [hcur, hfit]
  rcases ha.rows with ⟨rfl, hstore, hmany⟩ | hrows
  · -- too many rows: they do not fit either, and some of them are lost
    have hnofit : ¬ (liveIds db.store used' j).length ≤ mvccMaxVersions - db.versions.length := by
      simp only [rowstoreAddColumnMaxRows, mvccMaxVersions] at hmany ⊢
      omega
    refine ⟨fun hroom => absurd hroom hnofit, fun hsub => iff_of_false (fun hp => hnofit ?_) hnofit⟩
    have hlen := hp.length_eq
    have hle := (subperm_of_subset (liveIds_nodup h.heap) hsub).length_le
    rw [length_map, length_map, length_take] at hlen
    omega
  · rw [map_take] at hperm ⊢
    have hmap : (liveIds db'.store used' j).map (cells hdr'.layout ∘ rowValue db'.store j) =
        (liveIds db.store used j).map fun id =>
          cells hdr.layout (rowValue db.store j id) ++ [nullCell column type] := hrows
    rwa [hmap]

/-- After any history of calls and successful statements each version in use has a row of its
own in its table, and no scan shows a logical row twice. -/
theorem versions_own_rows {db : Db} (hreached : Reached db) :
    (∀ v ∈ db.versions, v.active = true → ∃ i slot hdr,
        lookupTable db.store slot.name = some (i, slot, hdr) ∧ slot.objectId = v.tableObjectId ∧
        ∀ env uid, env.access uid slot.name .read = true →
          ∃ row, rowstoreRowGet env db.store uid slot.name v.physicalId = .ok row) ∧
      (db.versions.Pairwise fun v w =>
        v.active = true → w.active = true → v.physicalId ≠ w.physicalId) ∧
      ∀ env t uid name, ((mvccTableScan env db t uid name).map (·.1)).Nodup := by
  obtain ⟨⟨used, h⟩, -⟩ := hreached.good
  refine ⟨fun v hv hact => ?_, h.physical, fun env t uid name => ?_⟩
  · obtain ⟨i, hindex, -⟩ := h.placed v hv hact
    obtain ⟨slot, hdr, htab, hid⟩ := isTable_of_index hindex
    have hl := htab.lookup h.distinct
    exact ⟨i, slot, hdr, hl, hid, fun env uid hacc => ⟨_, h.rowGet_eq hv hact hl hid.symm hacc⟩⟩
  · cases ht : mvFindTxn db t with
    | none => simp [mvccTableScan, ht]
    | some x =>
      obtain ⟨hmem, rfl⟩ := mem_txns_of_find ht
      cases hl : lookupTable db.store name with
      | none => simp [mvccTableScan, ht, hl]
      | some r =>
        by_cases hacc : env.access uid name .read
        · exact h.scan_nodup hmem hl hacc
        · simp [mvccTableScan, ht, hl, hacc]

section Sample

set_option maxRecDepth 8000

/-- A table with one number column and the other schema slots free. -/
def roomyTable : CatalogSlot :=
  tableSlot 7 "t" ⟨(replicate schemaMaxFields ⟨"", .string, false⟩).set 0 ⟨"v", .uint64, true⟩, 1⟩

def roomyDb : Db := boot openEnv (createTables [roomyTable]) []

lemma roomyDb_reached : Reached roomyDb := by
  have hdist : DistinctTables (createTables [roomyTable]) := distinctTables_of_pairwise (by decide)
  have hfilled : ∀ t ∈ [roomyTable], t.schema.Filled := by decide
  exact .boot [] (createTables_heap [roomyTable]) hdist
    (rowstoreCreateTable_laidOut (rowstoreInit_laidOut hfilled) "t")

/-- The database after the calls, and after the statement behind them. -/
def ranCalls (calls : List Call) : Db := run Db.step roomyDb (calls.map (openEnv, ·))

def thenAltered (calls : List Call) : Db × SqlErrorCode × String :=
  execAlterTable openEnv (ranCalls calls) 9 "t" "w" .uint64

/-- Rows that were inserted and committed survive with one more column. -/
theorem insertTwo_alter : ∃ i j slot slot' hdr hdr',
    lookupTable (ranCalls insertTwo).store "t" = some (i, slot, hdr) ∧
    lookupTable (thenAltered insertTwo).1.store "t" = some (j, slot', hdr') ∧
    ((mvccTableScan openEnv (mvccBegin (thenAltered insertTwo).1).1 2 9 "t").map fun row =>
      cells hdr'.layout row.2).Perm
    ((mvccTableScan openEnv (mvccBegin (ranCalls insertTwo)).1 2 9 "t").map fun row =>
      cells hdr.layout row.2 ++ [nullCell "w" .uint64]) := by
  have halter : (thenAltered insertTwo).2 = (.none, "") := by decide
  have hsome : (lookupTable (ranCalls insertTwo).store "t").isSome = true := by decide
  have hsome' : (lookupTable (thenAltered insertTwo).1.store "t").isSome = true := by decide
  have hfit : RowsFit openEnv (ranCalls insertTwo) 9 "t" := by
    unfold RowsFit
    decide
  have hcurrent : RowsCurrent openEnv (ranCalls insertTwo) 9 "t" 7 := by
    unfold RowsCurrent
    decide
  have hobj : (lookupTable (ranCalls insertTwo).store "t").map (·.2.1.objectId) = some 7 := by
    decide
  obtain ⟨⟨i, slot, hdr⟩, hl⟩ := Option.isSome_iff_exists.mp hsome
  obtain ⟨⟨j, slot', hdr'⟩, hl'⟩ := Option.isSome_iff_exists.mp hsome'
  rw [hl] at hobj
  have hid : slot.objectId = 7 := Option.some.inj hobj
  have hreached : Reached (ranCalls insertTwo) :=
    run_induction roomyDb_reached (fun _ _ hr hl => hr.step hl) (by decide)
  refine ⟨i, j, slot, slot', hdr, hdr', hl, hl', ?_⟩
  exact ((alter_keeps_rows_iff hreached (Prod.ext rfl halter) (Prod.ext rfl (by decide)) (by decide)
    (Prod.ext rfl (by decide)) hl hl' rfl).1 hfit).mpr (hid ▸ hcurrent)

/-- A replaced row comes back next to its successor. -/
theorem replaceRow_alter : Always Db.step Db.Legal roomyDb (replaceRow.map (openEnv, ·)) ∧
    (thenAltered replaceRow).2 = (.none, "") ∧
    (mvccTableScan openEnv (mvccBegin (ranCalls replaceRow)).1 3 9 "t").map (·.2) = [uintRow [54]] ∧
    (mvccTableScan openEnv (mvccBegin (thenAltered replaceRow).1).1 3 9 "t").map (·.2) =
      [⟨2, [Text.ofBytes [53], Text.empty]⟩, ⟨2, [Text.ofBytes [54], Text.empty]⟩] := by
  refine ⟨?_, ?_, ?_, ?_⟩
  · decide
  · decide
  · decide
  · decide

theorem insertTwo_own_rows : (thenAltered insertTwo).1.versions.Pairwise fun v w =>
    v.active = true → w.active = true → v.physicalId ≠ w.physicalId := by
  have halter : (thenAltered insertTwo).2 = (.none, "") := by decide
  have hreached : Reached (ranCalls insertTwo) :=
    run_induction roomyDb_reached (fun _ _ hr hl => hr.step hl) (by decide)
  exact (versions_own_rows (hreached.alter (Prod.ext rfl halter))).2.1

end Sample

end AeroSLS.Mvcc
