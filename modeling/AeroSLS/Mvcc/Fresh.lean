import AeroSLS.Mvcc.Boot

namespace AeroSLS.Mvcc

open Rowstore Version List MvccVersion

variable {v : MvccVersion}

/-- Committed, and neither replaced nor deleted by a committed transaction. -/
def MvccVersion.current (v : MvccVersion) : Bool := v.active && v.xminCommitted && !v.xmaxCommitted

lemma MvccVersion.current_iff : v.current ↔
    v.active ∧ v.xminCommitted ∧ v.xmaxCommitted = false := by
  simp [current, and_assoc]

def Db.currentVersions (db : Db) (tableObjectId : ℕ) : List MvccVersion :=
  db.versions.filter fun v => v.current && v.tableObjectId = tableObjectId

lemma mem_currentVersions {db : Db} {o : ℕ} :
    v ∈ db.currentVersions o ↔ v ∈ db.versions ∧ v.current ∧ v.tableObjectId = o := by
  simp [Db.currentVersions]

section Begin

variable {db : Db}

lemma begin_eq (hb : mvccBegin db = (db', t)) (ht : t ≠ 0) : t = db.nextTxnId ∧
    db'.store = db.store ∧ db'.versions = db.versions ∧ ⟨t, db.commitSeq - 1⟩ ∈ db'.txns := by
  unfold mvccBegin at hb
  split_ifs at hb
  · exact absurd (congrArg Prod.snd hb).symm ht
  · grind

lemma begin_inv (h : db.Inv used) (hb : mvccBegin db = (db', t)) (ht : t ≠ 0) : db'.Inv used := by
  rcases mvccBegin_spec h with hfull | ⟨-, hinv, -⟩
  · grind
  · rwa [hb] at hinv

lemma visible_new_iff (h : db.Inv used) (hv : v ∈ db.versions) (hact : v.active) :
    mvVisible v ⟨db.nextTxnId, db.commitSeq - 1⟩ = v.current := by
  have hst := h.stamped v hv hact
  have hcell := mem_history.mpr ⟨v, hv, hact, rfl, rfl⟩
  have hxmin : v.xminCommitted → v.xmin ≤ db.commitSeq - 1 := by
    intro hc
    have hmem := start_mem_stamps hcell
    rw [cell, start, if_pos hc] at hmem
    have := h.pool.committed _ _ hmem
    change v.xmin < db.commitSeq at this
    omega
  have hxmax : v.xmaxCommitted → v.xmax ≤ db.commitSeq - 1 := by
    intro hc
    have hstop : (v.cell db.store).stop = some (.committed v.xmax) := by rw [cell, stop, if_pos hc]
    have := h.pool.committed _ _ (stop_mem_stamps hcell hstop)
    change v.xmax < db.commitSeq at this
    omega
  have hne : v.xminTxn ≠ db.nextTxnId := Nat.ne_of_lt hst.xmin_lt
  have hne' : v.xmaxTxn ≠ db.nextTxnId := Nat.ne_of_lt hst.xmax_lt
  cases hmin : v.xminCommitted <;> cases hmax : v.xmaxCommitted <;>
    simp_all [mvVisible, current]

/-- A transaction begun now scans the current versions. -/
theorem Db.Inv.begin_scan (h : db.Inv used) (hb : mvccBegin db = (db', t)) (ht : t ≠ 0)
    (hl : lookupTable db.store name = some (i, slot, hd)) (hacc : env.access uid name .read) :
    mvccTableScan env db' t uid name =
      (db.currentVersions slot.objectId).map fun v =>
        (v.logicalId, rowValue db.store i v.physicalId) := by
  obtain ⟨ht', hstore, hversions, hmem⟩ := begin_eq hb ht
  rw [(begin_inv h hb ht).scan_eq hmem (hstore ▸ hl) hacc, hversions, hstore]
  have hfilter : (db.versions.filter fun v => v.active && v.tableObjectId = slot.objectId &&
      mvVisible v ⟨t, db.commitSeq - 1⟩) =
      db.versions.filter fun v => v.current && v.tableObjectId = slot.objectId := by
    apply filter_congr
    intro v hv
    cases hact : v.active with
    | false => simp [current, hact]
    | true => rw [ht', visible_new_iff h hv hact, Bool.true_and, Bool.and_comm]
  rw [hfilter]
  apply map_congr_left
  intro v hv
  have hindex := (lookupTable_isTable hl).1.index h.distinct
  simp only [mem_filter, Bool.and_eq_true, decide_eq_true_eq] at hv
  simp [cell, row, hv.2.2, hindex, rowValue]

end Begin

def Db.currentIds (db : Db) (tableObjectId : ℕ) : List RowId :=
  (db.currentVersions tableObjectId).map (·.physicalId)

section Physical

variable {db : Db} {o : ℕ} {id : RowId}

lemma mem_currentIds : id ∈ db.currentIds o ↔
    ∃ v ∈ db.versions, v.current ∧ v.tableObjectId = o ∧ v.physicalId = id := by
  simp only [Db.currentIds, mem_map, mem_currentVersions, and_assoc]

lemma Db.Inv.begin_values (h : db.Inv used) {t : ℕ} (hb : mvccBegin db = (db', t)) (ht : t ≠ 0)
    (hl : lookupTable db.store name = some (i, slot, hd))
    (hacc : env.access uid name .read) : (mvccTableScan env db' t uid name).map (·.2) =
      (db.currentIds slot.objectId).map (rowValue db.store i) := by
  rw [h.begin_scan hb ht hl hacc, Db.currentIds, map_map, map_map]
  rfl

lemma Db.Inv.currentIds_nodup (h : db.Inv used) : (db.currentIds o).Nodup := by
  rw [Db.currentIds, nodup_iff_pairwise_ne, pairwise_map]
  refine (h.physical.sublist filter_sublist).imp_of_mem fun {v w} hv hw hvw => ?_
  have hv' := current_iff.mp (mem_currentVersions.mp hv).2.1
  have hw' := current_iff.mp (mem_currentVersions.mp hw).2.1
  exact hvw hv'.1 hw'.1

section

variable (h : db.Inv used) (hl : lookupTable db.store name = some (i, slot, hd))
include h hl

lemma Db.Inv.currentIds_subset : db.currentIds slot.objectId ⊆ liveIds db.store used i := by
  intro id hid
  obtain ⟨v, hv, hcur, ho, rfl⟩ := mem_currentIds.mp hid
  obtain ⟨j, hj, hused, hsome⟩ := h.placed v hv (current_iff.mp hcur).1
  rw [ho, (lookupTable_isTable hl).1.index h.distinct] at hj
  obtain rfl := Option.some.inj hj
  exact mem_liveIds.mpr ⟨hused, hsome⟩

lemma Db.Inv.liveIds_subset_iff (hacc : env.access uid name .read) :
    liveIds db.store used i ⊆ db.currentIds slot.objectId ↔
      ∀ row ∈ rowstoreTableScan env db.store uid name, ∃ v ∈ db.versions, v.current ∧
        v.tableObjectId = slot.objectId ∧ v.physicalId = row.1 := by
  rw [rowstoreTableScan_live h.heap hl hacc]
  constructor
  · grind [mem_currentIds.mp]
  · intro hall id hid
    exact mem_currentIds.mpr (hall _ (mem_map.mpr ⟨id, hid, rfl⟩))

end

theorem currentIds_bootRows : (bootRows rows db).currentIds o = db.currentIds o ++
      ((rows.take (mvccMaxVersions - db.versions.length)).filter (·.1 = o)).map (·.2) := by
  have hnumber : ∀ (k : ℕ) (rows : List (ℕ × RowId)),
      ((numberRows k rows).filter fun v => v.current && v.tableObjectId = o).map (·.physicalId) =
        (rows.filter (·.1 = o)).map (·.2) := by
    intro k rows
    induction rows generalizing k with
    | nil => rfl
    | cons row rows ih =>
      have hcur : (bootVersion k row.1 row.2).current := rfl
      have htable : (bootVersion k row.1 row.2).tableObjectId = row.1 := rfl
      have hphys : (bootVersion k row.1 row.2).physicalId = row.2 := rfl
      rw [numberRows, filter_cons, filter_cons, hcur, htable, Bool.true_and]
      split_ifs
      · rw [map_cons, map_cons, hphys, ih]
      · exact ih (k + 1)
  obtain ⟨next, heq⟩ := bootRows_eq db
  rw [heq, Db.currentIds, Db.currentVersions, filter_append, map_append, hnumber]
  rfl

end Physical

lemma map_perm_iff {α β : Type} {l l' : List α} (f : α → β) (hl : l.Nodup) (hl' : l'.Nodup)
    (hsub : l ⊆ l') : (l.map f).Perm (l'.map f) ↔ l' ⊆ l := by
  constructor
  · intro hperm
    have hlen : l'.length ≤ l.length := by simpa using hperm.length_eq.ge
    exact ((subperm_of_subset hl hsub).perm_of_length_le hlen).symm.subset
  · intro hsub'
    exact ((subperm_of_subset hl hsub).antisymm (subperm_of_subset hl' hsub')).map f

end AeroSLS.Mvcc
