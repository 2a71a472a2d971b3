import AeroSLS.Mvcc.Fresh
import AeroSLS.Mvcc.Isolation
import AeroSLS.Rowstore.Disk

namespace AeroSLS.Mvcc

open Rowstore Version Machine List

variable {del : Option (Db → String → ℕ → Db × MvccError)} {hdr : RowTableHeader}
  {slot : CatalogSlot} {cs : List RowConstraintDef} {i : ℕ}

/-- A property of the row store that its two writing calls keep. -/
structure Stable (env : Env) (P : Store → Prop) : Prop where
  insert : ∀ s uid name values, P s → P (rowstoreRowInsert env s uid name values).1
  delete : ∀ s uid name id, P s → P (rowstoreRowDelete env s uid name id).1

section Stable

variable {env : Env} {P : Store → Prop} {db : Db} {txn uid : ℕ} {name : String}

section

variable (hP : Stable env P) (h : P db.store)
include hP h

lemma addVersion_stable : P (addVersion env db txn uid name values k o).1.store := by
  have hins := hP.insert db.store uid name values h
  unfold addVersion
  split
  · next heq =>
    rwa [heq] at hins
  · grind [hP.delete]

lemma mvccRowInsert_stable : P (mvccRowInsert env db txn uid name values).1.store := by
  unfold mvccRowInsert
  split
  · exact h
  split
  · exact h
  next slot _ _ =>
  have hadd : P (addVersion env db txn uid name values db.nextLogicalId slot.objectId).1.store :=
    addVersion_stable hP h
  split
  · grind
  · exact h

lemma mvccRowUpdate_stable : P (mvccRowUpdate env db txn uid name k values).1.store := by
  unfold mvccRowUpdate
  split
  · exact h
  split
  · exact h
  split
  · exact h
  next old _ =>
  have hadd : P (addVersion env db txn uid name values k old.tableObjectId).1.store :=
    addVersion_stable hP h
  split_ifs
  · exact h
  · grind

end

lemma cascadeRows_stable {del : Db → String → ℕ → Db × MvccError}
    (hdel : ∀ db name id, P db.store → P (del db name id).1.store) (h : P db.store) :
    P (cascadeRows del name ids db).1.store := by
  induction ids generalizing db with
  | nil => exact h
  | cons id ids ih => grind [cascadeRows]

section

variable (hP : Stable env P)
include hP

lemma setNullRows_stable (h : P db.store) :
    P (setNullRows env txn uid name col ids db).1.store := by
  induction ids generalizing db with
  | nil => exact h
  | cons id ids ih =>
    rw [setNullRows]
    split
    · exact ih h
    · exact h
    · next values _ =>
      have hone : P (mvccRowUpdate env db txn uid name id (RowValues.setNull values col)).1.store :=
        mvccRowUpdate_stable hP h
      split
      · grind
      · next heq =>
        rwa [heq] at hone

section

variable (hdel : ∀ d ∈ del, ∀ db name id, P db.store → P (d db name id).1.store)
include hdel

lemma checkDeleteAll_stable {o : ℕ} {values : RowValues} (h : P db.store) :
    P (checkDeleteAll env txn uid del o values cs db).1.store := by
  have hone : ∀ c db refVal, P db.store →
      P (checkDeleteOne env txn uid del refVal c db).1.store := by
    intro c db refVal h
    unfold checkDeleteOne
    cases c.onDeleteAction with
    | restrict => exact h
    | cascade =>
      simp only
      split_ifs
      · exact h
      · exact h
      · cases del with
        | none => exact h
        | some d => exact cascadeRows_stable (hdel d rfl) h
    | setNull => grind [setNullRows_stable]
  induction cs generalizing db with
  | nil => exact h
  | cons c cs ih => grind [checkDeleteAll]

lemma deleteWith_stable (id : ℕ) (h : P db.store) :
    P (deleteWith env txn uid del db name id).1.store := by
  have hcheck : ∀ o phys, P (rowConstraintCheckDelete env db txn uid del name o phys).1.store := by
    intro o phys
    unfold rowConstraintCheckDelete
    split_ifs
    · split
      · exact h
      · exact checkDeleteAll_stable hP hdel h
    · exact h
  unfold deleteWith
  split
  · exact h
  split_ifs
  · exact h
  split
  · exact h
  · split
    · exact h
    · grind

end

lemma deleteWithin_stable (id : ℕ) (h : P db.store) :
    P (deleteWithin env txn uid levels db name id).1.store := by
  induction levels generalizing db name id with
  | zero => exact deleteWith_stable hP (fun d hd => by cases hd) id h
  | succ =>
    refine deleteWith_stable hP (fun d hd => ?_) id h
    rwa [← Option.some.inj hd]

lemma rollbackVersions_stable (h : P s) : P (rollbackVersions env txn uid vs s).1 := by
  have hrow : ∀ v s, P s → P (rollbackRow env s uid v) := by grind [rollbackRow, hP.delete]
  induction vs generalizing s with
  | nil => exact h
  | cons v vs ih => grind [rollbackVersions]

end

lemma step_stable (hP : Stable a.1 P) (h : P db.store) : P (db.step a).store := by
  obtain ⟨env, c⟩ := a
  cases c with
  | begin =>
    show P (mvccBegin db).1.store
    unfold mvccBegin
    split_ifs <;> exact h
  | insert => exact mvccRowInsert_stable hP h
  | update => exact mvccRowUpdate_stable hP h
  | delete txn uid name k => exact deleteWithin_stable hP k h
  | commit txn =>
    show P (mvccCommit db txn).1.store
    unfold mvccCommit
    split <;> exact h
  | rollback txn uid =>
    show P (mvccRollback env db txn uid).1.store
    unfold mvccRollback
    split
    · exact h
    · exact rollbackVersions_stable hP h

end Stable

section Bootstrap

variable {env : Env} {s : Store} {used : ℕ → List RowId}

/-- The live rows of all tables, in the order a boot visits them. -/
def bootable (env : Env) (s : Store) : List (ℕ × RowId) := s.slots.flatMap (slotRows env s)

lemma mem_bootable (hs : Heap s used) (hd : DistinctTables s) (htab : IsTable s i slot hdr)
    {id : RowId} :
    (slot.objectId, id) ∈ bootable env s ↔ id ∈ liveIds s used i := by
  rw [bootable, mem_flatMap]
  constructor
  · rintro ⟨slot', hslot', hmem⟩
    obtain ⟨j, hj⟩ := mem_iff_getElem?.mp hslot'
    obtain ⟨-, hobj, hindex, hid, hsome⟩ := mem_slotRows hs hd hj hmem
    rw [← hobj, htab.index hd] at hindex
    obtain rfl := Option.some.inj hindex
    exact mem_liveIds.mpr ⟨hid, hsome⟩
  · intro hid
    refine ⟨slot, mem_of_getElem? htab.1, ?_⟩
    have hact : (slot.active && slot.header.isSome) := by rw [htab.2.1, htab.2.2]; rfl
    rw [slotRows, if_pos hact, rowstoreTableScan_live hs (htab.lookup hd) (env.kernel _ _), map_map]
    exact mem_map.mpr ⟨id, hid, rfl⟩

lemma mem_boot_currentIds (hs : Heap s used) (hd : DistinctTables s)
    (hfit : (bootable env s).length ≤ mvccMaxVersions) (htab : IsTable s i slot hdr) {id : RowId} :
    id ∈ (boot env s cs).currentIds slot.objectId ↔ id ∈ liveIds s used i := by
  have hall : (bootable env s).take (mvccMaxVersions - (mvccInit s cs).versions.length) =
      bootable env s := take_of_length_le hfit
  rw [boot_eq, ← mem_bootable hs hd htab]
  change id ∈ (bootRows (bootable env s) (mvccInit s cs)).currentIds slot.objectId ↔ _
  rw [currentIds_bootRows, hall]
  simp only [Db.currentIds, Db.currentVersions, mvccInit, filter_nil, map_nil, nil_append,
    mem_map, mem_filter, decide_eq_true_eq]
  constructor
  · rintro ⟨row, ⟨hrow, ho⟩, rfl⟩
    rwa [← ho]
  · simp

end Bootstrap

/-- The state after a restart: the pages as they are on the disk, the version pool
rebuilt from them. -/
def restart (env : Env) (db : Db) (cs : List RowConstraintDef) : Db := boot env db.store.reload cs

lemma boot_store : (boot env s cs).store = s := by
  rw [boot_eq, bootRows_store]
  rfl

/-- Every page write of the call reaches the disk. -/
def Landing (a : Act) : Prop := ∀ p, a.1.durable p = true

lemma run_onDisk (hdb : db.store.OnDisk)
    (hlands : Always Db.step (fun _ a => Landing a) db acts) : (run Db.step db acts).store.OnDisk :=
  run_induction (I := fun db : Db => db.store.OnDisk) hdb
    (fun _ _ h hl => step_stable
      ⟨fun _ _ _ _ h => rowstoreRowInsert_onDisk hl h, fun _ _ _ id h =>
        rowstoreRowDelete_onDisk hl h id⟩
      h) hlands

/-- For a state with all pages on the disk. -/
theorem Db.Inv.restart_iff {db db1 db2 : Db} {used : ℕ → List RowId} (h : db.Inv used)
    (hdisk : db.store.OnDisk) {env1 : Env}
    (hfit : (bootable env1 db.store.reload).length ≤ mvccMaxVersions) {t1 t2 : ℕ}
    (hb1 : mvccBegin db = (db1, t1)) (ht1 : t1 ≠ 0)
    (hb2 : mvccBegin (restart env1 db cs) = (db2, t2)) {env : Env} {uid : ℕ} {name : String}
    (hl : lookupTable db.store name = some (i, slot, hdr)) (hacc : env.access uid name .read) :
    ((mvccTableScan env db1 t1 uid name).map (·.2)).Perm
        ((mvccTableScan env db2 t2 uid name).map (·.2)) ↔
      ∀ row ∈ rowstoreTableScan env db.store uid name, ∃ v ∈ db.versions, v.current ∧
        v.tableObjectId = slot.objectId ∧ v.physicalId = row.1 := by
  obtain ⟨hheap, hrows⟩ := hdisk.reload h.heap
  obtain ⟨htab, -⟩ := lookupTable_isTable hl
  have hdist := h.distinct
  have hl' : lookupTable (restart env1 db cs).store name = some (i, slot, hdr) := by
    rwa [restart, boot_store]
  have hboot : (restart env1 db cs).Inv used := boot_inv hheap hdist cs
  have ht2 : t2 ≠ 0 := by
    have htxns : (restart env1 db cs).txns = [] := boot_txns
    rcases mvccBegin_spec hboot with hfull | ⟨hid, -, -⟩
    · grind [mvccBegin]
    · rw [hb2] at hid
      have := hboot.next_pos.1
      omega
  have hscan2 := hboot.begin_values hb2 ht2 hl' hacc
  -- the rows themselves are the same, and all of them are current
  have hvalues : ∀ id ∈ used i, rowValue (restart env1 db cs).store i id =
      rowValue db.store i id := by
    grind [rowValue, restart, boot_store]
  have hlive : liveIds db.store.reload used i = liveIds db.store used i :=
    filter_congr fun id hid => by rw [hrows i id hid]
  have hperm : ((restart env1 db cs).currentIds slot.objectId).Perm (liveIds db.store used i) := by
    rw [perm_ext_iff_of_nodup hboot.currentIds_nodup (liveIds_nodup h.heap), ← hlive]
    exact fun id => mem_boot_currentIds hheap hdist hfit htab
  rw [h.begin_values hb1 ht1 hl hacc, hscan2, map_congr_left fun id hid =>
      hvalues id (mem_liveIds.mp (hperm.mem_iff.mp hid)).1, (hperm.map _).congr_right,
    map_perm_iff _ h.currentIds_nodup (liveIds_nodup h.heap) (h.currentIds_subset hl)]
  exact h.liveIds_subset_iff hl hacc

/-- After a restart the first transaction sees, as a multiset of values, what a
transaction begun just before saw, if and only if every live physical row of the
table belonged to a committed version that no committed transaction had replaced
or deleted.  The history may be any whose page writes all reached the disk. -/
theorem restart_preserves_rows_iff {env₀ : Env} {s : Store} {used : ℕ → List RowId}
    (hs : Heap s used) (hd : DistinctTables s) (hdisk : s.OnDisk) (cs : List RowConstraintDef)
    (acts : List Act) (hlegal : Always Db.step Db.Legal (boot env₀ s cs) acts)
    (hlands : Always Db.step (fun _ a => Landing a) (boot env₀ s cs) acts) {db db₁ db₂ : Db}
    (hrun : run Db.step (boot env₀ s cs) acts = db) {env₁ : Env}
    (hfit : (bootable env₁ db.store.reload).length ≤ mvccMaxVersions) {t₁ t₂ : ℕ}
    (hb₁ : mvccBegin db = (db₁, t₁)) (ht₁ : t₁ ≠ 0)
    (hb₂ : mvccBegin (restart env₁ db cs) = (db₂, t₂)) (env : Env) {uid i : ℕ} {name : String}
    {slot : CatalogSlot} {hdr : RowTableHeader}
    (hl : lookupTable db.store name = some (i, slot, hdr))
    (hacc : env.access uid name .read = true) :
    ((mvccTableScan env db₁ t₁ uid name).map (·.2)).Perm
        ((mvccTableScan env db₂ t₂ uid name).map (·.2)) ↔
      ∀ row ∈ rowstoreTableScan env db.store uid name, ∃ v ∈ db.versions, v.current = true ∧
        v.tableObjectId = slot.objectId ∧ v.physicalId = row.1 := by
  have hgood : (boot env₀ s cs).Good := ⟨used, boot_inv hs hd cs⟩
  obtain ⟨used', h⟩ := hgood.after hlegal acts.length
  rw [Db.after_of_le le_rfl, hrun] at h
  have hdisk' : db.store.OnDisk := by
    rw [← hrun]
    exact run_onDisk (boot_store.symm ▸ hdisk) hlands
  exact h.restart_iff hdisk' hfit hb₁ ht₁ hb₂ hl hacc

section Sample

set_option maxRecDepth 8000

lemma openEnv_lands (calls : List Call) :
    Always Db.step (fun _ a => Landing a) db (calls.map (openEnv, ·)) := by
  apply always_of_forall
  intro a ha _
  obtain ⟨c, -, rfl⟩ := mem_map.mp ha
  exact fun _ => rfl

def insertTwo : List Call :=
  [.begin, .insert 1 9 "t" (uintRow [53]), .insert 1 9 "t" (uintRow [54]), .commit 1]

/-- Rows that were inserted and committed come back. -/
theorem insertTwo_restart :
    ((mvccTableScan openEnv (mvccBegin (run Db.step oneTable (insertTwo.map (openEnv, ·)))).1 2 9
        "t").map (·.2)).Perm
      ((mvccTableScan openEnv (mvccBegin (restart openEnv (run Db.step oneTable
        (insertTwo.map (openEnv, ·))) [])).1 1 9 "t").map (·.2)) := by
  have hsome : (lookupTable (run Db.step oneTable (insertTwo.map (openEnv, ·))).store
      "t").isSome = true := by decide
  have hlegal : Always Db.step Db.Legal oneTable (insertTwo.map (openEnv, ·)) := by decide
  have hdist : DistinctTables (createTables [uintTable 7 "t"]) :=
    distinctTables_of_pairwise (by decide)
  have hfit : (bootable openEnv (run Db.step oneTable
      (insertTwo.map (openEnv, ·))).store.reload).length ≤ mvccMaxVersions := by decide
  have hcurrent : ∀ row ∈ rowstoreTableScan openEnv (run Db.step oneTable
      (insertTwo.map (openEnv, ·))).store 9 "t", ∃ v ∈ (run Db.step oneTable
      (insertTwo.map (openEnv, ·))).versions, v.current = true ∧ v.tableObjectId = 7 ∧
        v.physicalId = row.1 := by decide
  obtain ⟨⟨i, slot, hdr⟩, hl⟩ := Option.isSome_iff_exists.mp hsome
  have hid : slot.objectId = 7 := by
    have hobj : (lookupTable (run Db.step oneTable (insertTwo.map (openEnv, ·))).store "t").map
        (·.2.1.objectId) = some 7 := by decide
    rw [hl] at hobj
    exact Option.some.inj hobj
  refine (restart_preserves_rows_iff (createTables_heap _) hdist (fun _ _ _ => rfl) [] _ hlegal
    (openEnv_lands insertTwo) rfl hfit (Prod.ext rfl ?_) (by decide) (Prod.ext rfl ?_) openEnv hl
    rfl).mpr ?_
  · decide
  · decide
  · rw [hid]
    exact hcurrent

def replaceRow : List Call :=
  [.begin, .insert 1 9 "t" (uintRow [53]), .commit 1, .begin, .update 2 9 "t" 1 (uintRow [54]),
    .commit 2]

/-- A replaced row comes back next to its successor. -/
theorem replaceRow_restart : Always Db.step Db.Legal oneTable (replaceRow.map (openEnv, ·)) ∧
    (mvccTableScan openEnv (mvccBegin (run Db.step oneTable (replaceRow.map (openEnv, ·)))).1 3 9
        "t").map (·.2) = [uintRow [54]] ∧
    (mvccTableScan openEnv (mvccBegin (restart openEnv (run Db.step oneTable
        (replaceRow.map (openEnv, ·))) [])).1 1 9 "t").map (·.2) = [uintRow [53],
          uintRow [54]] := by
  decide

end Sample

end AeroSLS.Mvcc
