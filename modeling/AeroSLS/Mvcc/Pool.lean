import AeroSLS.Lib.Snapshot
import AeroSLS.Mvcc.Ops
import AeroSLS.Rowstore.Table
import Mathlib.Data.List.Pairwise

namespace AeroSLS.Mvcc

open Rowstore Version List Db

variable {db' : Db} {s : Store} {w : MvccVersion}

/-- A logical row: the table it belongs to and its values. -/
abbrev Row := ℕ × RowValues

namespace MvccVersion

def row (s : Store) (v : MvccVersion) : Option RowValues :=
  (tableIndex s v.tableObjectId).bind fun i => s.row i v.physicalId

def start (v : MvccVersion) : Stamp :=
  if v.xminCommitted then .committed v.xmin else .pending v.xminTxn

def stop (v : MvccVersion) : Option Stamp :=
  if v.xmaxCommitted then some (.committed v.xmax)
  else if v.xmaxTxn = 0 then none else some (.pending v.xmaxTxn)

def cell (s : Store) (v : MvccVersion) : Cell Row :=
  ⟨(v.tableObjectId, (v.row s).getD ⟨0, []⟩), v.start, v.stop⟩

/-- In use, and of the given logical row. -/
def belongs (k : ℕ) (v : MvccVersion) : Bool := v.active && v.logicalId = k

end MvccVersion

namespace Db

variable (db : Db)

def history (k : ℕ) : History Row := (db.versions.filter (·.belongs k)).map (·.cell db.store)

def live : Set ℕ := { t | ∃ x ∈ db.txns, x.txnId = t }

def snap (t : ℕ) : ℕ := ((db.txns.find? fun x => x.txnId = t).map (·.snapshotSeq)).getD 0

def pool : Pool ℕ Row := ⟨db.history, db.live, db.snap, db.commitSeq⟩

/-- What the visibility fields of a version may hold. -/
structure Stamped (v : MvccVersion) : Prop where
  xmin_done : v.xminCommitted = true → v.xminTxn ∉ db.live
  xmax_done : v.xmaxCommitted = true → v.xmaxTxn ≠ 0 ∧ v.xmaxTxn ∉ db.live
  xmin_lt : v.xminTxn < db.nextTxnId
  xmax_lt : v.xmaxTxn < db.nextTxnId

/-- A version in use owns a live row of its table. -/
def Placed (used : ℕ → List RowId) (v : MvccVersion) : Prop :=
  ∃ i, tableIndex db.store v.tableObjectId = some i ∧ v.physicalId ∈ used i ∧
    (db.store.row i v.physicalId).isSome

structure Inv (used : ℕ → List RowId) : Prop where
  heap : Heap db.store used
  distinct : DistinctTables db.store
  placed : ∀ v ∈ db.versions, v.active = true → db.Placed used v
  physical : db.versions.Pairwise fun v w =>
    v.active = true → w.active = true → v.physicalId ≠ w.physicalId
  stamped : ∀ v ∈ db.versions, v.active = true → db.Stamped v
  txn_ids : db.txns.Pairwise fun x y => x.txnId ≠ y.txnId
  txn_range : ∀ x ∈ db.txns, 0 < x.txnId ∧ x.txnId < db.nextTxnId
  logical : ∀ v ∈ db.versions, v.active = true → 0 < v.logicalId ∧ v.logicalId < db.nextLogicalId
  next_pos : 0 < db.nextTxnId ∧ 0 < db.nextLogicalId
  same_table : ∀ v ∈ db.versions, ∀ w ∈ db.versions, v.active = true → w.active = true →
    v.logicalId = w.logicalId → v.tableObjectId = w.tableObjectId
  pool : db.pool.Inv

end Db

section Reading

variable {db : Db} {used : ℕ → List RowId} {t : MvccTxn} {v : MvccVersion}

lemma mem_txns_of_find {txnId : ℕ} (h : mvFindTxn db txnId = some t) :
    t ∈ db.txns ∧ t.txnId = txnId := by
  unfold mvFindTxn at h
  split_ifs at h
  exact ⟨mem_of_find?_eq_some h, by simpa using find?_some h⟩

lemma find_unique {l : List MvccTxn} (hl : l.Pairwise fun x y => x.txnId ≠ y.txnId) (ht : t ∈ l) :
    l.find? (fun x => x.txnId = t.txnId) = some t := by
  induction l with
  | nil => cases ht
  | cons x l ih => grind [pairwise_cons]

section

variable (h : db.Inv used) (ht : t ∈ db.txns)
include h ht

lemma Db.Inv.snap_eq : db.snap t.txnId = t.snapshotSeq := by
  rw [snap, find_unique h.txn_ids ht, Option.map_some, Option.getD_some]

lemma Db.Inv.find_txn : mvFindTxn db t.txnId = some t := by
  have hpos := (h.txn_range t ht).1
  rw [mvFindTxn, if_neg (by omega), find_unique h.txn_ids ht]

theorem Db.Inv.visible_eq (hv : v ∈ db.versions) (hact : v.active) :
    mvVisible v t = (v.cell s).visible ⟨t.txnId, t.snapshotSeq⟩ := by
  have hst := h.stamped v hv hact
  have hlive : t.txnId ∈ db.live := ⟨t, ht, rfl⟩
  have hcreated : ((v.xminCommitted && decide (v.xmin ≤ t.snapshotSeq)) ||
      decide (v.xminTxn = t.txnId)) = v.start.seen ⟨t.txnId, t.snapshotSeq⟩ := by
    cases hc : v.xminCommitted with
    | false => simp [MvccVersion.start, hc, Stamp.seen]
    | true => grind [MvccVersion.start, Stamp.seen, hst.xmin_done]
  have hhidden : ((v.xmaxCommitted && decide (v.xmax ≤ t.snapshotSeq)) ||
      (decide (v.xmaxTxn ≠ 0) && decide (v.xmaxTxn = t.txnId))) =
        (v.cell s).stopped ⟨t.txnId, t.snapshotSeq⟩ := by
    cases hc : v.xmaxCommitted with
    | false => grind [MvccVersion.cell, MvccVersion.stop, Cell.stopped, Stamp.seen]
    | true => grind [MvccVersion.cell, MvccVersion.stop, Cell.stopped, Stamp.seen, hst.xmax_done]
  rw [mvVisible, hcreated, hhidden]
  rfl

end

end Reading

section Lifecycle

variable {db : Db} {used : ℕ → List RowId}

lemma Db.Inv.live_lt (h : db.Inv used) {t : ℕ} (ht : t ∈ db.live) : 0 < t ∧ t < db.nextTxnId := by
  obtain ⟨x, hx, rfl⟩ := ht
  exact h.txn_range x hx

/-- A begin fails and changes nothing, or opens a transaction on the latest state. -/
theorem mvccBegin_spec (h : db.Inv used) : (mvccBegin db = (db, 0)) ∨
      ((mvccBegin db).2 = db.nextTxnId ∧ (mvccBegin db).1.Inv used ∧
        db.pool.Step (mvccBegin db).1.pool (.begin db.nextTxnId)) := by
  unfold mvccBegin
  split_ifs with hfull
  · exact .inl rfl
  right
  have hnew : db.nextTxnId ∉ db.live := fun hmem => by
    have := (h.live_lt hmem).2
    omega
  have hstep : db.pool.Step (pool { db with
      txns := db.txns ++ [⟨db.nextTxnId, db.commitSeq - 1⟩], nextTxnId := db.nextTxnId + 1 })
      (.begin db.nextTxnId) := by
    have hfind : ∀ u, u ∈ db.live →
        (db.txns ++ [(⟨db.nextTxnId, db.commitSeq - 1⟩ : MvccTxn)]).find?
          (fun x => x.txnId = u) = db.txns.find? fun x => x.txnId = u := by
      rintro u ⟨x, hx, rfl⟩
      rw [find?_append, find_unique h.txn_ids hx, Option.some_or]
    refine .begin _ (by have := h.next_pos.1; omega) hnew rfl ?_ ?_ ?_ rfl
    · ext u
      simp only [pool, live, mem_append, mem_singleton, Set.mem_ofPred_eq, Set.mem_insert_iff]
      constructor
      · grind
      · grind
    · have hnone : db.txns.find? (fun x => x.txnId = db.nextTxnId) = none := by
        rw [find?_eq_none]
        intro x hx
        simpa using fun heq => hnew ⟨x, hx, heq⟩
      simp [pool, snap, hnone]
    · intro u hu
      show snap _ u = db.snap u
      rw [snap, hfind u hu, snap]
  refine ⟨rfl, ⟨h.heap, h.distinct, h.placed, h.physical, fun v hv hact => ?_, ?_, ?_, h.logical,
    ⟨Nat.succ_pos _, h.next_pos.2⟩, h.same_table, h.pool.step hstep⟩, hstep⟩
  · have hst := h.stamped v hv hact
    have hold : ∀ u, u < db.nextTxnId → u ∉ db.live → u ∉ live { db with
          txns := db.txns ++ [⟨db.nextTxnId, db.commitSeq - 1⟩], nextTxnId :=
            db.nextTxnId + 1 } := by
      rintro u hu hnot ⟨x, hx, rfl⟩
      rcases mem_append.mp hx with hx | hx
      · exact hnot ⟨x, hx, rfl⟩
      · rw [mem_singleton.mp hx] at hu
        exact lt_irrefl _ hu
    exact ⟨fun hc => hold _ hst.xmin_lt (hst.xmin_done hc),
      fun hc => ⟨(hst.xmax_done hc).1, hold _ hst.xmax_lt (hst.xmax_done hc).2⟩,
      Nat.lt_succ_of_lt hst.xmin_lt, Nat.lt_succ_of_lt hst.xmax_lt⟩
  · rw [pairwise_append]
    refine ⟨h.txn_ids, pairwise_singleton .., fun x hx y hy => ?_⟩
    rw [mem_singleton.mp hy]
    exact fun heq => hnew ⟨x, hx, heq⟩
  · intro x hx
    rcases mem_append.mp hx with hx | hx
    · have := h.txn_range x hx
      exact ⟨this.1, Nat.lt_succ_of_lt this.2⟩
    · rw [mem_singleton.mp hx]
      exact ⟨h.next_pos.1, Nat.lt_succ_self _⟩

/-- `w` is what became of the version `v`: gone, or the same row at the same place. -/
def Kept (v w : MvccVersion) : Prop :=
  w.active = true → v.active = true ∧ w.logicalId = v.logicalId ∧
    w.tableObjectId = v.tableObjectId ∧ w.physicalId = v.physicalId

lemma exists_of_forall₂ {α β : Type} {R : α → β → Prop} {l : List α} {l' : List β}
    (h : List.Forall₂ R l l') {b : β} (hb : b ∈ l') : ∃ a ∈ l, R a b := by
  induction h with
  | nil => cases hb
  | @cons a b0 l l' hab _ ih => grind

lemma exists_kept {l l' : List MvccVersion} (h : List.Forall₂ Kept l l')
    (hw : w ∈ l') (hact : w.active) : ∃ v ∈ l, v.active ∧
      w.logicalId = v.logicalId ∧ w.tableObjectId = v.tableObjectId ∧
      w.physicalId = v.physicalId := by
  obtain ⟨v, hv, hvw⟩ := exists_of_forall₂ h hw
  exact ⟨v, hv, hvw hact⟩

lemma physical_kept {l l' : List MvccVersion} (h : List.Forall₂ Kept l l')
    (hl : l.Pairwise fun v w => v.active → w.active → v.physicalId ≠ w.physicalId) :
    l'.Pairwise fun v w => v.active → w.active → v.physicalId ≠ w.physicalId := by
  induction h with
  | nil => exact .nil
  | @cons v w l l' hvw hrest ih =>
    rw [pairwise_cons] at hl ⊢
    refine ⟨fun w' hw' hact hact' => ?_, ih hl.2⟩
    obtain ⟨v', hv', hv'act, -, -, hphys'⟩ := exists_kept hrest hw' hact'
    obtain ⟨hvact, -, -, hphys⟩ := hvw hact
    rw [hphys, hphys']
    exact hl.1 v' hv' hvact hv'act

/-- After a call that adds no version and closes transactions at most, on a store with the same
rows in use. -/
theorem Db.Inv.carried (h : db.Inv used) {used' : ℕ → List RowId}
    (hv : List.Forall₂ Kept db.versions db'.versions) (hheap : Heap db'.store used')
    (hdist : DistinctTables db'.store)
    (hplaced : ∀ w ∈ db'.versions, w.active → db'.Placed used' w)
    (htxns : db'.txns.Sublist db.txns) (hnext : db'.nextTxnId = db.nextTxnId)
    (hlogical : db'.nextLogicalId = db.nextLogicalId)
    (hstamped : ∀ w ∈ db'.versions, w.active → db'.Stamped w) (hpool : db'.pool.Inv) :
    db'.Inv used' where
  heap := hheap
  distinct := hdist
  placed := hplaced
  physical := physical_kept hv h.physical
  stamped := hstamped
  txn_ids := h.txn_ids.sublist htxns
  txn_range x hx := hnext ▸ h.txn_range x (htxns.subset hx)
  logical w hw hact := by
    obtain ⟨v, hvmem, hvact, hlog, -⟩ := exists_kept hv hw hact
    rw [hlog, hlogical]
    exact h.logical v hvmem hvact
  next_pos := hnext ▸ hlogical ▸ h.next_pos
  same_table w hw w' hw' hact hact' hlog := by
    grind [exists_kept, h.same_table]
  pool := hpool

open MvccVersion (belongs row)

lemma Db.Inv.kept (h : db.Inv used) (hv : List.Forall₂ Kept db.versions db'.versions)
    (hheap : Heap db'.store used) (hcat : SameCatalog db.store db'.store)
    (hrow : ∀ w ∈ db'.versions, w.active → w.row db'.store = w.row db.store)
    (htxns : db'.txns.Sublist db.txns) (hnext : db'.nextTxnId = db.nextTxnId)
    (hlogical : db'.nextLogicalId = db.nextLogicalId)
    (hstamped : ∀ w ∈ db'.versions, w.active → db'.Stamped w) (hpool : db'.pool.Inv) :
    db'.Inv used := by
  refine h.carried hv hheap (hcat.distinct h.distinct) (fun w hw hact => ?_) htxns hnext hlogical
    hstamped hpool
  obtain ⟨v, hvmem, hvact, -, htable, hphys⟩ := exists_kept hv hw hact
  obtain ⟨i, hi, hid, hsome⟩ := h.placed v hvmem hvact
  have hrow' := hrow w hw hact
  rw [row, row, hcat.tableIndex, htable, hi, Option.bind_some, Option.bind_some] at hrow'
  refine ⟨i, by rw [hcat.tableIndex, htable, hi], hphys ▸ hid, ?_⟩
  rwa [hrow', hphys]

lemma live_filter {txnId : ℕ} (h : db'.txns = db.txns.filter fun t => t.txnId ≠ txnId) :
    db'.live = db.live \ {txnId} := by
  ext u
  simp only [live, h, mem_filter, decide_eq_true_eq, Set.mem_ofPred_eq, Set.mem_sdiff,
    Set.mem_singleton_iff]
  constructor
  · grind
  · grind

lemma Db.Inv.snap_filter (h : db.Inv used) {txnId : ℕ}
    (htxns : db'.txns = db.txns.filter fun t => t.txnId ≠ txnId) {u : ℕ} (hu : u ∈ db'.live) :
    db'.snap u = db.snap u := by
  obtain ⟨x, hx, rfl⟩ := hu
  have hx' := hx
  rw [htxns] at hx'
  have hids : db'.txns.Pairwise fun x y => x.txnId ≠ y.txnId := by
    rw [htxns]
    exact h.txn_ids.filter _
  rw [h.snap_eq (mem_filter.mp hx').1, snap, find_unique hids hx, Option.map_some, Option.getD_some]

lemma Db.Stamped.close {v : MvccVersion} (h : db.Stamped v) {txnId : ℕ}
    (hlive : db'.live = db.live \ {txnId}) (hnext : db'.nextTxnId = db.nextTxnId) :
      db'.Stamped v where
  xmin_done hc := by
    rw [hlive]
    exact fun hmem => h.xmin_done hc hmem.1
  xmax_done hc := by
    grind [h.xmax_done]
  xmin_lt := hnext ▸ h.xmin_lt
  xmax_lt := hnext ▸ h.xmax_lt

section Commit

variable (txnId seq : ℕ) (v : MvccVersion)

lemma commit_frame : (v.commit txnId seq).active = v.active ∧
    (v.commit txnId seq).logicalId = v.logicalId ∧
    (v.commit txnId seq).tableObjectId = v.tableObjectId ∧
    (v.commit txnId seq).physicalId = v.physicalId ∧
    (v.commit txnId seq).xminTxn = v.xminTxn ∧ (v.commit txnId seq).xmaxTxn = v.xmaxTxn := by
  unfold MvccVersion.commit MvccVersion.commitXmax MvccVersion.commitXmin
  split_ifs <;> exact ⟨rfl, rfl, rfl, rfl, rfl, rfl⟩

variable {txnId seq v}

lemma Db.Stamped.commit (h : db.Stamped v) (hlive : db'.live = db.live \ {txnId})
    (hnext : db'.nextTxnId = db.nextTxnId) (ht : txnId ≠ 0) : db'.Stamped (v.commit txnId seq) := by
  obtain ⟨-, -, -, -, hmin, hmax⟩ := commit_frame txnId seq v
  have hclosed := h.close hlive hnext
  have hgone : txnId ∉ db'.live := by
    rw [hlive]
    exact fun hmem => hmem.2 rfl
  refine ⟨fun hc => ?_, fun hc => ?_, hmin ▸ hclosed.xmin_lt, hmax ▸ hclosed.xmax_lt⟩
  · grind [MvccVersion.commit, MvccVersion.commitXmax, MvccVersion.commitXmin, hclosed.xmin_done]
  · grind [MvccVersion.commit, MvccVersion.commitXmax, MvccVersion.commitXmin, hclosed.xmax_done]

lemma commit_cell (hact : v.active) (ht : txnId ≠ 0) :
    (v.commit txnId seq).cell s = (v.cell s).commit txnId seq := by
  obtain ⟨-, -, htable, hphys, -, -⟩ := commit_frame txnId seq v
  have hrow : (v.commit txnId seq).row s = v.row s := by rw [row, row, htable, hphys]
  have hstart : (v.commit txnId seq).start = v.start.commit txnId seq := by
    grind [MvccVersion.commit, MvccVersion.commitXmin, MvccVersion.start, Stamp.commit,
      MvccVersion.commitXmax]
  have hstop : (v.commit txnId seq).stop = v.stop.map (·.commit txnId seq) := by
    rw [MvccVersion.commit]
    have hxmin : (v.commitXmin txnId seq).xmaxTxn = v.xmaxTxn ∧
        (v.commitXmin txnId seq).xmaxCommitted = v.xmaxCommitted ∧
        (v.commitXmin txnId seq).xmax = v.xmax := by
      unfold MvccVersion.commitXmin
      split_ifs <;> exact ⟨rfl, rfl, rfl⟩
    obtain ⟨htxn, hdone, hmax⟩ := hxmin
    rw [MvccVersion.commitXmax]
    cases hc : v.xmaxCommitted <;> by_cases heq : v.xmaxTxn = txnId <;>
      by_cases hz : v.xmaxTxn = 0 <;>
      simp_all [MvccVersion.stop, Stamp.commit]
  simp only [MvccVersion.cell, Cell.commit, htable, hrow, hstart, hstop]

end Commit

lemma mvccCommit_none {txnId : ℕ} (h : mvFindTxn db txnId = none) :
    mvccCommit db txnId = (db, .txnNotActive) := by
  rw [mvccCommit, h]

/-- The committed database keeps the invariant and takes the pool's commit step. -/
theorem mvccCommit_spec (h : db.Inv used) {txnId : ℕ} {t : MvccTxn}
    (ht : mvFindTxn db txnId = some t) :
    (mvccCommit db txnId).2 = .ok ∧ (mvccCommit db txnId).1.Inv used ∧
      db.pool.Step (mvccCommit db txnId).1.pool (.commit txnId) := by
  obtain ⟨hmem, rfl⟩ := mem_txns_of_find ht
  have hpos := (h.txn_range t hmem).1
  rw [mvccCommit, ht]
  have hstep : db.pool.Step (pool { db with
      versions := db.versions.map (·.commit t.txnId db.commitSeq)
      txns := db.txns.filter fun x => x.txnId ≠ t.txnId
      commitSeq := db.commitSeq + 1 }) (.commit t.txnId) := by
    refine .commit _ ⟨t, hmem, rfl⟩ (fun k => ?_) (live_filter rfl)
      (fun u hu => h.snap_filter rfl hu) rfl
    have hbelongs : (fun v : MvccVersion => v.belongs k) ∘
        MvccVersion.commit t.txnId db.commitSeq = fun v => v.belongs k := by
      funext v
      obtain ⟨hact, hlog, -⟩ := commit_frame t.txnId db.commitSeq v
      rw [Function.comp_apply, belongs, belongs, hact, hlog]
    show ((db.versions.map _).filter _).map _ = Version.commit t.txnId db.commitSeq (db.history k)
    rw [filter_map, hbelongs, map_map, history, Version.commit, map_map]
    apply map_congr_left
    intro v hv
    have hact : v.active := by
      have := (mem_filter.mp hv).2
      rw [belongs, Bool.and_eq_true] at this
      exact this.1
    exact commit_cell hact (by omega)
  refine ⟨rfl, h.kept ?_ h.heap (.refl _) (fun _ _ _ => rfl) filter_sublist rfl rfl
    (fun w hw hact => ?_) (h.pool.step hstep), hstep⟩
  · rw [forall₂_map_right_iff, forall₂_same]
    intro v _
    obtain ⟨hact, hlog, htable, hphys, -⟩ := commit_frame t.txnId db.commitSeq v
    exact fun hw => ⟨hact ▸ hw, hlog, htable, hphys⟩
  · obtain ⟨v, hv, rfl⟩ := mem_map.mp hw
    exact (h.stamped v hv ((commit_frame _ _ v).1 ▸ hact)).commit (live_filter rfl) rfl (by omega)

section Rollback

variable {env : Env} {txnId uid : ℕ} {v : MvccVersion}

/-- The physical side of taking back `vs`: only their own rows may go. -/
structure RowsRemoved (txnId : ℕ) (used : ℕ → List RowId) (vs : List MvccVersion) (s s' : Store) :
    Prop where
  heap : Heap s' used
  catalog : SameCatalog s s'
  frame : ∀ i, ∀ id ∈ used i,
    (∀ v ∈ vs, v.active = true → v.ownedBy txnId = true → v.physicalId ≠ id) →
      s'.row i id = s.row i id

lemma rollbackRow_spec (hs : Heap s used) (hd : DistinctTables s) {i : ℕ}
    (hi : tableIndex s v.tableObjectId = some i) (hid : v.physicalId ∈ used i) :
    Heap (rollbackRow env s uid v) used ∧ SameCatalog s (rollbackRow env s uid v) ∧
      ∀ j, ∀ id ∈ used j, v.physicalId ≠ id → (rollbackRow env s uid v).row j id = s.row j id := by
  obtain ⟨t, h, htab, hoid⟩ := isTable_of_index hi
  obtain ⟨hslot, hact, hh⟩ := htab
  -- the search by object id ends at the version's own table
  have hfind : (s.slots.find? fun u => u.objectId = v.tableObjectId && u.active) = some t := by
    refine find?_of_unique hslot (by simp [hoid, hact]) fun j u hu hp => ?_
    simp only [Bool.and_eq_true, decide_eq_true_eq] at hp
    exact hd j i u t hu hslot hp.2 hact (.inl (hp.1.trans hoid.symm))
  have hlook := IsTable.lookup ⟨hslot, hact, hh⟩ hd
  obtain ⟨s', rc, hr⟩ : ∃ s' rc, rowstoreRowDelete env s uid t.name v.physicalId = (s', rc) :=
    ⟨_, _, rfl⟩
  have hroll : rollbackRow env s uid v = s' := by
    rw [rollbackRow, hfind]
    exact congrArg Prod.fst hr
  rw [hroll]
  rcases rowstoreRowDelete_spec hs hlook hid hr with ⟨rfl, -⟩ | ⟨-, -, hdel⟩
  · exact ⟨hs, .refl _, fun _ _ _ _ => rfl⟩
  · exact ⟨hdel.heap, hdel.catalog, fun j id hid' hne => hdel.frame j id hid' (Ne.symm hne)⟩

lemma rollbackVersions_spec (env : Env) (txnId uid : ℕ) (hs : Heap s used) (hd : DistinctTables s)
    (hplaced : ∀ v ∈ vs, v.active → ∃ i, tableIndex s v.tableObjectId = some i ∧
      v.physicalId ∈ used i) : RowsRemoved txnId used vs s (rollbackVersions env txnId uid vs s).1 ∧
      (rollbackVersions env txnId uid vs s).2 =
        vs.map fun v => if v.active then v.rollback txnId else v := by
  induction vs generalizing s with
  | nil => exact ⟨⟨hs, .refl _, fun _ _ _ _ => rfl⟩, rfl⟩
  | cons v vs ih =>
    have hrest : ∀ w ∈ vs, w.active → ∃ i, tableIndex s w.tableObjectId = some i ∧
        w.physicalId ∈ used i := fun w hw => hplaced w (mem_cons_of_mem _ hw)
    by_cases hown : v.active ∧ v.ownedBy txnId
    · obtain ⟨i, hi, hid⟩ := hplaced v (mem_cons_self ..) hown.1
      obtain ⟨hs1, hcat1, hframe1⟩ := rollbackRow_spec hs hd hi hid
      obtain ⟨hrem, hvs⟩ := ih hs1 (hcat1.distinct hd) fun w hw hact => by
        rw [hcat1.tableIndex]
        exact hrest w hw hact
      have hfst : rollbackVersions env txnId uid (v :: vs) s =
          ((rollbackVersions env txnId uid vs (rollbackRow env s uid v)).1,
            v.rollback txnId ::
              (rollbackVersions env txnId uid vs (rollbackRow env s uid v)).2) := by
        rw [rollbackVersions, if_pos hown.1, if_pos hown.2]
      rw [hfst, hvs, map_cons, if_pos hown.1]
      refine ⟨⟨hrem.heap, hcat1.trans hrem.catalog, fun j id hid' hne => ?_⟩, rfl⟩
      rw [hrem.frame j id hid' fun w hw => hne w (mem_cons_of_mem _ hw),
        hframe1 j id hid' (hne v (mem_cons_self ..) hown.1 hown.2)]
    · obtain ⟨hrem, hvs⟩ := ih hs hd hrest
      have hfst : rollbackVersions env txnId uid (v :: vs) s =
          ((rollbackVersions env txnId uid vs s).1, (if v.active then v.rollback txnId else v) ::
              (rollbackVersions env txnId uid vs s).2) := by
        rw [rollbackVersions]
        by_cases hact : v.active
        · grind
        · rw [if_neg hact, if_neg hact]
      rw [hfst, hvs]
      exact ⟨⟨hrem.heap, hrem.catalog, fun j id hid' hne =>
        hrem.frame j id hid' fun w hw => hne w (mem_cons_of_mem _ hw)⟩, rfl⟩

lemma rollback_frame (hact : (v.rollback txnId).active) : v.active ∧
    v.ownedBy txnId = false ∧ (v.rollback txnId).logicalId = v.logicalId ∧
    (v.rollback txnId).tableObjectId = v.tableObjectId ∧
    (v.rollback txnId).physicalId = v.physicalId := by
  unfold MvccVersion.rollback at hact ⊢
  cases hown : v.ownedBy txnId with
  | true =>
    simp only at hact
    split_ifs at hact
  | false => grind

lemma rollback_active (hact : v.active) : (v.rollback txnId).active = !v.ownedBy txnId := by
  unfold MvccVersion.rollback
  cases hown : v.ownedBy txnId <;> simp only [Bool.false_eq_true, if_false] <;>
    split_ifs <;> simp [hact]

lemma ownedBy_iff : v.ownedBy txnId ↔ v.start = .pending txnId := by
  cases hc : v.xminCommitted <;> simp [MvccVersion.ownedBy, MvccVersion.start, hc]

lemma rollback_stamps (hown : v.ownedBy txnId = false) (ht : txnId ≠ 0) :
    (v.rollback txnId).start = v.start ∧
      (v.rollback txnId).stop = if v.stop = some (.pending txnId) then none else v.stop := by
  unfold MvccVersion.rollback
  cases hc : v.xmaxCommitted <;> by_cases heq : v.xmaxTxn = txnId <;> by_cases hz :
    v.xmaxTxn = 0 <;>
    simp_all [MvccVersion.start, MvccVersion.stop]

lemma Db.Stamped.rollback (h : db.Stamped v) (hlive : db'.live = db.live \ {txnId})
    (hnext : db'.nextTxnId = db.nextTxnId) (hpos : 0 < db.nextTxnId) :
    db'.Stamped (v.rollback txnId) := by
  have hclosed := h.close hlive hnext
  unfold MvccVersion.rollback
  cases hown : v.ownedBy txnId <;> simp only [if_true, Bool.false_eq_true, if_false] <;>
    split_ifs with hx
  all_goals
    refine ⟨hclosed.xmin_done, ?_, hclosed.xmin_lt, ?_⟩
  all_goals first
    | exact hclosed.xmax_done
    | exact hclosed.xmax_lt
    | exact fun hc => absurd (hx.2.symm.trans hc) (by decide)
    | exact hnext ▸ hpos

end Rollback

lemma Db.Inv.physical_ne (h : db.Inv used) {v : MvccVersion} (hv : v ∈ db.versions)
    (hw : w ∈ db.versions) (hne : v ≠ w) (hvact : v.active) (hwact : w.active) :
    v.physicalId ≠ w.physicalId := by
  have hsymm : Std.Symm fun v w : MvccVersion =>
      v.active → w.active → v.physicalId ≠ w.physicalId :=
    ⟨fun v w hvw hw hv heq => hvw hv hw heq.symm⟩
  exact h.physical.forall hv hw hne hvact hwact

lemma history_rollback {txnId : ℕ} {s' : Store} (vs : List MvccVersion) (ht : txnId ≠ 0)
    (hrow : ∀ v ∈ vs, v.active → v.ownedBy txnId = false → v.row s' = v.row s) (k : ℕ) :
    ((vs.map fun v => if v.active then v.rollback txnId else v).filter (·.belongs k)).map
        (·.cell s') =
      (((vs.filter (·.belongs k)).map (·.cell s)).filter fun c => c.start ≠ .pending txnId).map
        (·.reopen txnId) := by
  induction vs with
  | nil => rfl
  | cons v vs ih =>
    have hih := ih fun w hw => hrow w (mem_cons_of_mem _ hw)
    rw [map_cons]
    by_cases hb : v.belongs k
    · have hact : v.active := by
        rw [belongs, Bool.and_eq_true] at hb
        exact hb.1
      rw [if_pos hact, filter_cons_of_pos hb, map_cons]
      cases hown : v.ownedBy txnId with
      | true =>
        -- taken back: inactive on one side, filtered out on the other
        have hgone : (v.rollback txnId).belongs k = false := by
          rw [belongs, rollback_active hact, hown]
          rfl
        have hstart : (v.cell s).start = .pending txnId := ownedBy_iff.mp hown
        rwa [filter_cons_of_neg (by simp [hgone]), filter_cons_of_neg (by simp [hstart])]
      | false =>
        have hact' : (v.rollback txnId).active := by rw [rollback_active hact, hown]; rfl
        obtain ⟨-, -, hlog, htable, hphys⟩ := rollback_frame hact'
        obtain ⟨hstart, hstop⟩ := rollback_stamps hown ht
        have hbelongs : (v.rollback txnId).belongs k := by grind [belongs]
        have hne : (v.cell s).start ≠ .pending txnId := fun heq => by
          rw [ownedBy_iff.mpr heq] at hown
          cases hown
        have hrowv : (v.rollback txnId).row s' = v.row s := by grind [row]
        have hcell : (v.rollback txnId).cell s' = (v.cell s).reopen txnId := by
          grind [MvccVersion.cell, Cell.reopen]
        rw [filter_cons_of_pos hbelongs, filter_cons_of_pos (by simpa using hne),
          map_cons, map_cons, hcell, hih]
    · have hb' : ¬ (if v.active then v.rollback txnId else v).belongs k := by
        intro hcontra
        split_ifs at hcontra with hact
        · have hact' : (v.rollback txnId).active := by
            rw [belongs, Bool.and_eq_true] at hcontra
            exact hcontra.1
          obtain ⟨-, -, hlog, -⟩ := rollback_frame hact'
          rw [belongs, hact', hlog] at hcontra
          exact hb (by rw [belongs, hact]; exact hcontra)
        · exact hb hcontra
      rwa [filter_cons_of_neg hb', filter_cons_of_neg hb]

lemma mvccRollback_spec (env : Env) (uid : ℕ) (h : db.Inv used) {txnId : ℕ} {t : MvccTxn}
    (ht : mvFindTxn db txnId = some t) :
    (mvccRollback env db txnId uid).2 = .ok ∧ (mvccRollback env db txnId uid).1.Inv used ∧
      db.pool.Step (mvccRollback env db txnId uid).1.pool (.rollback txnId) := by
  obtain ⟨hmem, rfl⟩ := mem_txns_of_find ht
  have hpos := (h.txn_range t hmem).1
  obtain ⟨hrem, hvs⟩ := rollbackVersions_spec env t.txnId uid h.heap h.distinct fun v hv hact => by
      obtain ⟨i, hi, hid, -⟩ := h.placed v hv hact
      exact ⟨i, hi, hid⟩
  rw [mvccRollback, ht]
  dsimp only
  rw [hvs]
  generalize (rollbackVersions env t.txnId uid db.versions db.store).1 = s' at hrem
  -- a version that is not taken back keeps its row: no version taken back sits there
  have hrow : ∀ v ∈ db.versions, v.active → v.ownedBy t.txnId = false →
      v.row s' = v.row db.store := by
    intro v hv hact hown
    obtain ⟨i, hi, hid, -⟩ := h.placed v hv hact
    rw [row, row, hrem.catalog.tableIndex, hi, Option.bind_some, Option.bind_some]
    apply hrem.frame i _ hid
    intro w hw hwact hwown heq'
    have hne : w ≠ v := fun hwv => by rw [hwv, hown] at hwown; cases hwown
    exact h.physical_ne hw hv hne hwact hact heq'
  have hstep : db.pool.Step (pool { db with
      store := s'
      versions := db.versions.map fun v => if v.active then v.rollback t.txnId else v
      txns := db.txns.filter fun x => x.txnId ≠ t.txnId }) (.rollback t.txnId) :=
    .rollback _ ⟨t, hmem, rfl⟩ (history_rollback db.versions (by omega) hrow) (live_filter rfl)
      (fun u hu => h.snap_filter rfl hu) rfl
  refine ⟨rfl, h.kept ?_ hrem.heap hrem.catalog (fun w hw hact => ?_) filter_sublist rfl rfl
    (fun w hw hact => ?_) (h.pool.step hstep), hstep⟩
  · rw [forall₂_map_right_iff, forall₂_same]
    intro v _ hact
    split_ifs at hact ⊢ with hv
    · grind [rollback_frame]
    · exact ⟨hact, rfl, rfl, rfl⟩
  · obtain ⟨v, hv, rfl⟩ := mem_map.mp hw
    split_ifs at hact ⊢ with hvact
    · obtain ⟨-, hown, -, htable, hphys⟩ := rollback_frame hact
      have hkept := hrow v hv hvact hown
      rw [row, row] at hkept ⊢
      rwa [htable, hphys]
    · exact absurd hact hvact
  · obtain ⟨v, hv, rfl⟩ := mem_map.mp hw
    split_ifs at hact ⊢ with hvact
    · exact (h.stamped v hv hvact).rollback (live_filter rfl) rfl h.next_pos.1
    · exact absurd hact hvact

end Lifecycle

end AeroSLS.Mvcc
