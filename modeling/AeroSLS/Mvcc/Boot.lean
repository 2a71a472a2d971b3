import AeroSLS.Mvcc.Scan

namespace AeroSLS.Mvcc

open Rowstore Version List

variable {row : ℕ × RowId} {slot : CatalogSlot} {i : ℕ}

/-- The version `mv_bootstrap_cb` makes. -/
def bootVersion (k tableObjectId : ℕ) (id : RowId) : MvccVersion :=
  ⟨true, k, tableObjectId, id, 0, true, 0, 0, false, 0⟩

section Row

variable {db : Db} {used : ℕ → List RowId} {tableObjectId : ℕ} {id : RowId}

def Db.Unclaimed (db : Db) (used : ℕ → List RowId) (tableObjectId : ℕ) (id : RowId) : Prop :=
  (∃ i, tableIndex db.store tableObjectId = some i ∧ id ∈ used i ∧ (db.store.row i id).isSome) ∧
    ∀ v ∈ db.versions, v.active = true → v.physicalId ≠ id

lemma mvBootstrapRow_full (h : mvccMaxVersions ≤ db.versions.length) :
    mvBootstrapRow tableObjectId db id = db := if_pos h

lemma mvBootstrapRow_room (h : db.versions.length < mvccMaxVersions) :
    mvBootstrapRow tableObjectId db id = { db with
      versions := db.versions ++ [bootVersion db.nextLogicalId tableObjectId id]
      nextLogicalId := db.nextLogicalId + 1 } := if_neg (Nat.not_le_of_lt h)

lemma mvBootstrapRow_store : (mvBootstrapRow tableObjectId db id).store = db.store := by
  unfold mvBootstrapRow
  split_ifs <;> rfl

/-- The histories after one more row: a new one, the others as before. -/
theorem history_boot (h : db.Inv used) : Db.history { db with
      versions := db.versions ++ [bootVersion db.nextLogicalId tableObjectId id]
      nextLogicalId := db.nextLogicalId + 1 } k =
    if k = db.nextLogicalId then
      [(bootVersion db.nextLogicalId tableObjectId id).cell db.store] else db.history k := by
  rw [Db.history, filter_append]
  split_ifs with hk
  · subst hk
    have hnone : db.versions.filter (·.belongs db.nextLogicalId) = [] := by
      rw [filter_eq_nil_iff]
      intro v hv hb
      simp only [MvccVersion.belongs, Bool.and_eq_true, decide_eq_true_eq] at hb
      have := (h.logical v hv hb.1).2
      omega
    rw [hnone, filter_cons_of_pos (by simp [MvccVersion.belongs, bootVersion])]
    rfl
  · grind [MvccVersion.belongs, bootVersion, Db.history]

lemma mvBootstrapRow_inv (h : db.Inv used) (hid : db.Unclaimed used tableObjectId id) :
    (mvBootstrapRow tableObjectId db id).Inv used := by
  rcases Nat.lt_or_ge db.versions.length mvccMaxVersions with hroom | hfull
  · rw [mvBootstrapRow_room hroom]
    have hsplit : ∀ w ∈ db.versions ++ [bootVersion db.nextLogicalId tableObjectId id],
        w ∈ db.versions ∨ w = bootVersion db.nextLogicalId tableObjectId id := by
      simp
    have hzero : 0 ∉ db.live := fun hmem => lt_irrefl _ (h.live_lt hmem).1
    have hlog := h.logical
    refine ⟨h.heap, h.distinct, ?_, ?_, ?_, h.txn_ids, h.txn_range, ?_, ?_, ?_, ?_⟩
    · intro w hw hact
      rcases hsplit w hw with hold | rfl
      · exact h.placed w hold hact
      · exact hid.1
    · rw [pairwise_append]
      refine ⟨h.physical, pairwise_singleton .., fun v hv w hw hact _ => ?_⟩
      rw [mem_singleton.mp hw]
      exact hid.2 v hv hact
    · intro w hw hact
      rcases hsplit w hw with hold | rfl
      · have hst := h.stamped w hold hact
        exact ⟨hst.xmin_done, hst.xmax_done, hst.xmin_lt, hst.xmax_lt⟩
      · exact ⟨fun _ => hzero, fun hc => absurd hc Bool.false_ne_true, h.next_pos.1, h.next_pos.1⟩
    · intro w hw hact
      rcases hsplit w hw with hold | rfl
      · grind
      · exact ⟨h.next_pos.2, Nat.lt_succ_self _⟩
    · exact ⟨h.next_pos.1, Nat.succ_pos _⟩
    · intro v hv w hw hvact hwact heq
      rcases hsplit v hv with hvold | rfl <;> rcases hsplit w hw with hwold | rfl
      · exact h.same_table v hvold w hwold hvact hwact heq
      · grind [bootVersion]
      · grind [bootVersion]
      · rfl
    · have hcell : (bootVersion db.nextLogicalId tableObjectId id).cell db.store =
          ⟨((bootVersion db.nextLogicalId tableObjectId id).cell db.store).val,
            .committed 0, none⟩ := rfl
      refine ⟨fun k => ?_, fun k t ht => ?_, fun k c hc => ?_, h.pool.snap_lt, h.pool.zero,
        h.pool.seq_pos⟩
      · show Sound db.snap (Db.history _ k)
        rw [history_boot h]
        split_ifs
        · rw [hcell]
          simp [Sound]
        · exact h.pool.sound k
      · change .pending t ∈ stamps (Db.history _ k) at ht
        rw [history_boot h] at ht
        split_ifs at ht
        · rw [hcell] at ht
          simp [stamps] at ht
        · exact h.pool.pending k t ht
      · change .committed c ∈ stamps (Db.history _ k) at hc
        rw [history_boot h] at hc
        split_ifs at hc
        · rw [hcell] at hc
          obtain rfl : c = 0 := by simpa [stamps] using hc
          exact h.pool.seq_pos
        · exact h.pool.committed k c hc
  · rw [mvBootstrapRow_full hfull]
    exact h

end Row

section Rows

variable {env : Env} {db : Db} {used : ℕ → List RowId}

/-- `mv_bootstrap_cb` on rows of several tables, one after the other. -/
def bootRows (rows : List (ℕ × RowId)) (db : Db) : Db :=
  rows.foldl (fun db row => mvBootstrapRow row.1 db row.2) db

@[simp] lemma bootRows_cons (row : ℕ × RowId) (rows : List (ℕ × RowId)) (db : Db) :
    bootRows (row :: rows) db = bootRows rows (mvBootstrapRow row.1 db row.2) := rfl

lemma bootRows_store : (bootRows rows db).store = db.store := by
  induction rows generalizing db with
  | nil => rfl
  | cons row rows ih => rw [bootRows_cons, ih, mvBootstrapRow_store]

/-- Versions with consecutive row ids. -/
def numberRows : ℕ → List (ℕ × RowId) → List MvccVersion
  | _, [] => []
  | k, row :: rows => bootVersion k row.1 row.2 :: numberRows (k + 1) rows

/-- The whole effect: numbered versions at the end, as many as fit. -/
theorem bootRows_eq (db : Db) : ∃ next, bootRows rows db = { db with
      versions := db.versions ++
        numberRows db.nextLogicalId (rows.take (mvccMaxVersions - db.versions.length))
      nextLogicalId := next } := by
  induction rows generalizing db with
  | nil => exact ⟨db.nextLogicalId, by simp [bootRows, numberRows]⟩
  | cons row rows ih =>
    rw [bootRows_cons]
    rcases Nat.lt_or_ge db.versions.length mvccMaxVersions with hroom | hfull
    · rw [mvBootstrapRow_room hroom]
      obtain ⟨next, hnext⟩ := ih { db with
        versions := db.versions ++ [bootVersion db.nextLogicalId row.1 row.2]
        nextLogicalId := db.nextLogicalId + 1 }
      refine ⟨next, hnext.trans ?_⟩
      have hleft : mvccMaxVersions - db.versions.length =
          (mvccMaxVersions - (db.versions.length + 1)) + 1 := by omega
      simp [hleft, numberRows]
    · rw [mvBootstrapRow_full hfull]
      obtain ⟨next, hnext⟩ := ih db
      refine ⟨next, hnext.trans ?_⟩
      rw [Nat.sub_eq_zero_of_le hfull, take_zero, take_zero]

lemma unclaimed_boot {tableObjectId : ℕ} {id : RowId}
    (hid : db.Unclaimed used tableObjectId id) (hne : row.2 ≠ id) :
    (mvBootstrapRow row.1 db row.2).Unclaimed used tableObjectId id := by
  obtain ⟨hplaced, hfree⟩ := hid
  refine ⟨by rw [mvBootstrapRow_store]; exact hplaced, fun v hv hact => ?_⟩
  rcases Nat.lt_or_ge db.versions.length mvccMaxVersions with hroom | hfull
  · rw [mvBootstrapRow_room hroom] at hv
    rcases mem_append.mp hv with hold | hnew
    · exact hfree v hold hact
    · rw [mem_singleton.mp hnew]
      exact hne
  · rw [mvBootstrapRow_full hfull] at hv
    exact hfree v hv hact

lemma bootRows_inv (h : db.Inv used) (hnodup : (rows.map (·.2)).Nodup)
    (hrows : ∀ row ∈ rows, db.Unclaimed used row.1 row.2) : (bootRows rows db).Inv used := by
  induction rows generalizing db with
  | nil => exact h
  | cons row rows ih =>
    rw [map_cons, nodup_cons] at hnodup
    refine ih (mvBootstrapRow_inv h (hrows row (mem_cons_self ..))) hnodup.2 fun row' hrow' => ?_
    refine unclaimed_boot (hrows row' (mem_cons_of_mem _ hrow')) fun heq => hnodup.1 ?_
    rw [heq]
    exact mem_map_of_mem hrow'

end Rows

section Boot

variable {env : Env} {s : Store} {used : ℕ → List RowId}

def slotRows (env : Env) (s : Store) (slot : CatalogSlot) : List (ℕ × RowId) :=
  if slot.active && slot.header.isSome then
    (rowstoreTableScan env s 0 slot.name).map fun row => (slot.objectId, row.1)
  else []

lemma mvBootstrapTable_eq : mvBootstrapTable env db tableObjectId name =
      bootRows ((rowstoreTableScan env db.store 0 name).map fun row =>
        (tableObjectId, row.1)) db := by
  rw [mvBootstrapTable, bootRows, foldl_map]

lemma mvccBootstrapFromRowstore_eq :
    mvccBootstrapFromRowstore env db =
      bootRows (db.store.slots.flatMap (slotRows env db.store)) db := by
  have hfold : ∀ (slots : List CatalogSlot) (db' : Db), db'.store = db.store →
      slots.foldl (fun db slot => if slot.active && slot.header.isSome then
        mvBootstrapTable env db slot.objectId slot.name else db) db' =
      bootRows (slots.flatMap (slotRows env db.store)) db' := by
    intro slots
    induction slots with
    | nil => exact fun _ _ => rfl
    | cons slot slots ih =>
      intro db' hstore
      have happend : bootRows ((slot :: slots).flatMap (slotRows env db.store)) db' =
          bootRows (slots.flatMap (slotRows env db.store))
            (bootRows (slotRows env db.store slot) db') := by
        rw [flatMap_cons, bootRows, foldl_append]
        rfl
      rw [foldl_cons, happend]
      by_cases hslot : (slot.active && slot.header.isSome)
      · grind [slotRows, mvBootstrapTable_eq, bootRows_store]
      · grind [slotRows]
  exact hfold db.store.slots db rfl

section

variable (hs : Heap s used) (hd : DistinctTables s)
include hs hd

theorem mem_slotRows (hslot : s.slots[i]? = some slot) (hrow : row ∈ slotRows env s slot) :
    slot.active ∧ row.1 = slot.objectId ∧ tableIndex s slot.objectId = some i ∧
      row.2 ∈ used i ∧ (s.row i row.2).isSome := by
  unfold slotRows at hrow
  split_ifs at hrow with hact
  · rw [Bool.and_eq_true] at hact
    obtain ⟨hd', hh⟩ := Option.isSome_iff_exists.mp hact.2
    have htab : IsTable s i slot hd' := ⟨hslot, hact.1, hh⟩
    obtain ⟨r, hr, rfl⟩ := mem_map.mp hrow
    rcases hacc : env.access 0 slot.name .read with _ | _
    · simp [rowstoreTableScan, htab.lookup hd, hacc] at hr
    rw [rowstoreTableScan_live hs (htab.lookup hd) hacc] at hr
    obtain ⟨id, hid, rfl⟩ := mem_map.mp hr
    obtain ⟨hused, hsome⟩ := mem_liveIds.mp hid
    exact ⟨hact.1, rfl, htab.index hd, hused, hsome⟩
  · cases hrow

lemma slotRows_nodup (hslot : s.slots[i]? = some slot) :
    ((slotRows env s slot).map (·.2)).Nodup := by
  unfold slotRows
  split_ifs with hact
  · rw [Bool.and_eq_true] at hact
    obtain ⟨hd', hh⟩ := Option.isSome_iff_exists.mp hact.2
    have htab : IsTable s i slot hd' := ⟨hslot, hact.1, hh⟩
    rw [map_map]
    cases hacc : env.access 0 slot.name .read with
    | false => simp [rowstoreTableScan, htab.lookup hd, hacc]
    | true =>
      rw [rowstoreTableScan_live hs (htab.lookup hd) hacc, map_map]
      exact (liveIds_nodup hs).map fun _ _ heq => heq
  · exact nodup_nil

lemma bootable_nodup : ((s.slots.flatMap (slotRows env s)).map (·.2)).Nodup := by
  rw [map_flatMap, nodup_flatMap]
  refine ⟨fun slot hslot => ?_, ?_⟩
  · obtain ⟨i, hi⟩ := mem_iff_getElem?.mp hslot
    exact slotRows_nodup hs hd hi
  rw [pairwise_iff_getElem]
  intro i j hi hj hij id hmem hmem'
  obtain ⟨row, hrow, rfl⟩ := mem_map.mp hmem
  obtain ⟨row', hrow', heq⟩ := mem_map.mp hmem'
  obtain ⟨-, -, -, hid, -⟩ := mem_slotRows hs hd (getElem?_eq_getElem hi) hrow
  obtain ⟨-, -, -, hid', -⟩ := mem_slotRows hs hd (getElem?_eq_getElem hj) hrow'
  rw [heq] at hid'
  exact absurd (hs.table_unique hid hid') (Nat.ne_of_lt hij)

lemma mvccInit_inv : (mvccInit s cs).Inv used := by
  refine ⟨hs, hd, ?_, .nil, ?_, .nil, ?_, ?_, ⟨Nat.one_pos, Nat.one_pos⟩, ?_, ?_⟩
  on_goal 6 =>
    refine ⟨fun _ => trivial, ?_, ?_, ?_, ?_, Nat.one_pos⟩
    · exact fun k t ht => absurd ht not_mem_nil
    · exact fun k c hc => absurd hc not_mem_nil
    · rintro t ⟨x, hx, -⟩
      cases hx
    · rintro ⟨x, hx, -⟩
      cases hx
  -- the pool is empty
  all_goals exact fun v hv => by cases hv

end

/-- The state after a boot over a row store. -/
def boot (env : Env) (s : Store) (cs : List RowConstraintDef) : Db :=
  mvccBootstrapFromRowstore env (mvccInit s cs)

lemma boot_eq : boot env s cs = bootRows (s.slots.flatMap (slotRows env s)) (mvccInit s cs) :=
  mvccBootstrapFromRowstore_eq

lemma boot_inv (hs : Heap s used) (hd : DistinctTables s) (cs : List RowConstraintDef) :
    (boot env s cs).Inv used := by
  rw [boot_eq]
  refine bootRows_inv (mvccInit_inv hs hd) (bootable_nodup hs hd) fun row hrow => ?_
  obtain ⟨slot, hslot, hmem⟩ := mem_flatMap.mp hrow
  obtain ⟨i, hi⟩ := mem_iff_getElem?.mp hslot
  obtain ⟨-, hobj, hindex, hid, hsome⟩ := mem_slotRows hs hd hi hmem
  refine ⟨⟨i, ?_, hid, hsome⟩, fun v hv => by cases hv⟩
  rwa [hobj]

end Boot

end AeroSLS.Mvcc
