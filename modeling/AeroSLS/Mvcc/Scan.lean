import AeroSLS.Mvcc.Pool

namespace AeroSLS.Mvcc

open Rowstore Version List MvccVersion

variable {db : Db}

lemma Db.Inv.row_eq (h : db.Inv used) (hv : v ∈ db.versions) (hact : v.active)
    (s : Store) (hs : s = db.store) : v.row s = some (v.cell s).val.2 := by
  subst hs
  obtain ⟨i, hi, -, hsome⟩ := h.placed v hv hact
  have hrow : v.row db.store = db.store.row i v.physicalId := by rw [row, hi, Option.bind_some]
  obtain ⟨x, hx⟩ := Option.isSome_iff_exists.mp hsome
  rw [cell, hrow, hx]
  rfl

lemma Db.Inv.rowGet_eq (h : db.Inv used) (hv : v ∈ db.versions) (hact : v.active)
    (hl : lookupTable db.store name = some (i, slot, hd)) (htable : v.tableObjectId = slot.objectId)
    (hacc : env.access uid name .read) :
    rowstoreRowGet env db.store uid name v.physicalId = .ok (v.cell db.store).val.2 := by
  obtain ⟨j, hj, hid, -⟩ := h.placed v hv hact
  have hij : j = i := by
    have hindex := (lookupTable_isTable hl).1.index h.distinct
    rw [← htable, hj] at hindex
    exact Option.some.inj hindex
  subst hij
  have hrow : db.store.row j v.physicalId = some (v.cell db.store).val.2 := by
    rw [← h.row_eq hv hact db.store rfl, row, hj, Option.bind_some]
  rw [rowstoreRowGet_spec h.heap hl hid, if_pos hacc, hrow]

lemma Db.Inv.scan_eq (h : db.Inv used) (ht : t ∈ db.txns)
    (hl : lookupTable db.store name = some (i, slot, hd))
    (hacc : env.access uid name .read) : mvccTableScan env db t.txnId uid name =
      (db.versions.filter fun v => v.active && v.tableObjectId = slot.objectId && mvVisible v t).map
        fun v => (v.logicalId, (v.cell db.store).val.2) := by
  rw [mvccTableScan, h.find_txn ht, hl]
  simp only [hacc]
  rw [← filterMap_eq_map, filterMap_filter]
  apply filterMap_congr
  intro v hv
  split_ifs with hp
  · simp only [Bool.and_eq_true, decide_eq_true_eq] at hp
    rw [h.rowGet_eq hv hp.1.1 hl hp.1.2 hacc]
    rfl
  · rfl

lemma mem_history : c ∈ db.history k ↔
    ∃ v ∈ db.versions, v.active ∧ v.logicalId = k ∧ v.cell db.store = c := by
  simp only [Db.history, mem_map, mem_filter, belongs, Bool.and_eq_true, decide_eq_true_eq]
  constructor
  · grind
  · grind

def Db.sees (db : Db) (t k : ℕ) : Option Row := view ⟨t, db.snap t⟩ (db.history k)

section

variable (h : db.Inv used) (ht : t ∈ db.txns)
include h ht

lemma Db.Inv.sees_eq_some :
    db.sees t.txnId k = some x ↔ ∃ v ∈ db.versions, v.active ∧ v.logicalId = k ∧
      mvVisible v t ∧ (v.cell db.store).val = x := by
  have hsnap := h.snap_eq ht
  constructor
  · intro hview
    obtain ⟨c, hc, hvis, hval⟩ := exists_of_view hview
    obtain ⟨v, hv, hact, hlog, rfl⟩ := mem_history.mp hc
    refine ⟨v, hv, hact, hlog, ?_, hval⟩
    rwa [h.visible_eq ht hv hact, ← hsnap]
  · rintro ⟨v, hv, hact, hlog, hvis, rfl⟩
    apply (h.pool.sound k).view_eq_some (mem_history.mpr ⟨v, hv, hact, hlog, rfl⟩)
    rwa [h.visible_eq ht hv hact, ← hsnap] at hvis

lemma Db.Inv.mem_scan (hl : lookupTable db.store name = some (i, slot, hd))
    (hacc : env.access uid name .read) : (k, x) ∈ mvccTableScan env db t.txnId uid name ↔
      db.sees t.txnId k = some (slot.objectId, x) := by
  rw [h.scan_eq ht hl hacc, h.sees_eq_some ht]
  simp only [mem_map, mem_filter, Bool.and_eq_true, decide_eq_true_eq, Prod.mk.injEq]
  constructor
  · rintro ⟨v, ⟨hv, ⟨hact, htable⟩, hvis⟩, hlog, hval⟩
    exact ⟨v, hv, hact, hlog, hvis, Prod.ext htable hval⟩
  · rintro ⟨v, hv, hact, hlog, hvis, hval⟩
    exact ⟨v, ⟨hv, ⟨hact, congrArg Prod.fst hval⟩, hvis⟩, hlog, congrArg Prod.snd hval⟩

/-- No transaction sees two versions of one row. -/
theorem Db.Inv.visible_once : db.versions.Pairwise fun v w => v.active → w.active → mvVisible v t →
      mvVisible w t → v.logicalId ≠ w.logicalId := by
  rw [pairwise_iff_forall_sublist]
  intro v w hsub hvact hwact hvvis hwvis heq
  have hv : v ∈ db.versions := hsub.subset (by simp)
  have hw : w ∈ db.versions := hsub.subset (by simp)
  -- both are versions of one history, the second behind the first
  have hcells : [v.cell db.store, w.cell db.store].Sublist (db.history v.logicalId) := by
    have hfilter := (hsub.filter (·.belongs v.logicalId)).map (·.cell db.store)
    have hboth : [v, w].filter (·.belongs v.logicalId) = [v, w] := by
      simp [belongs, hvact, hwact, heq]
    rwa [hboth] at hfilter
  obtain ⟨A, B, hsplit, hB⟩ := cons_sublist_iff.mp hcells
  obtain ⟨A1, A2, rfl⟩ := append_of_mem hB.1
  rw [append_assoc] at hsplit
  rw [h.visible_eq ht hv hvact, ← h.snap_eq ht] at hvvis
  rw [h.visible_eq ht hw hwact, ← h.snap_eq ht] at hwvis
  have hnot := ((h.pool.sound v.logicalId).visible_unique hsplit hvvis).2
    (w.cell db.store) (mem_append_right _ (hB.2.subset (by simp)))
  exact Bool.false_ne_true (hnot.symm.trans hwvis)

lemma Db.Inv.visible_slot_unique {m n : ℕ} {v w : MvccVersion} (hm : db.versions[m]? = some v)
    (hn : db.versions[n]? = some w) (hv : v.active) (hw : w.active)
    (hvv : mvVisible v t) (hwv : mvVisible w t) (hlog : v.logicalId = w.logicalId) :
    m = n := by
  have hpair := h.visible_once ht
  rw [pairwise_iff_getElem] at hpair
  obtain ⟨hm', rfl⟩ := List.getElem?_eq_some_iff.mp hm
  obtain ⟨hn', rfl⟩ := List.getElem?_eq_some_iff.mp hn
  rcases Nat.lt_trichotomy m n with hlt | heq | hgt
  · exact absurd hlog (hpair m n hm' hn' hlt hv hw hvv hwv)
  · exact heq
  · exact absurd hlog.symm (hpair n m hn' hm' hgt hw hv hwv hvv)

lemma Db.Inv.scan_nodup (hl : lookupTable db.store name = some (i, slot, hd))
    (hacc : env.access uid name .read) :
    ((mvccTableScan env db t.txnId uid name).map (·.1)).Nodup := by
  rw [h.scan_eq ht hl hacc, map_map, nodup_iff_pairwise_ne, pairwise_map]
  have hpairs := (h.visible_once ht).sublist (filter_sublist
    (p := fun v => v.active && v.tableObjectId = slot.objectId && mvVisible v t))
  refine hpairs.imp_of_mem fun {v w} hv hw hvw => ?_
  simp only [mem_filter, Bool.and_eq_true] at hv hw
  exact hvw hv.2.1.1 hw.2.1.1 hv.2.2 hw.2.2

end

end AeroSLS.Mvcc
