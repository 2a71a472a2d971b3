import AeroSLS.Mvcc.Run

namespace AeroSLS.Mvcc

open Rowstore Version Machine

variable {p : Db × Isolation ℕ Row} {used : ℕ → List RowId} {t : ℕ} {env : Env} {a : Act}

/-- One call on the database, and what it means to the abstract machine. -/
def isolationStep (p : Db × Isolation ℕ Row) (a : Act) : Db × Isolation ℕ Row :=
  (p.1.step a, (p.1.events a).foldl Isolation.step p.2)

/-- What a transaction that began now would see of the row `k`. -/
def Db.latest (db : Db) (k : ℕ) : Option Row := view ⟨0, db.commitSeq - 1⟩ (db.history k)

section Refinement

variable {db : Db} {acts : List Act}

lemma isolation_fst (p : Db × Isolation ℕ Row) :
    (run isolationStep p acts).1 = run Db.step p.1 acts := by
  induction acts generalizing p with
  | nil => rfl
  | cons a acts ih => exact ih _

/-- The database is in step with the abstract machine. -/
structure InStep (p : Db × Isolation ℕ Row) : Prop where
  good : p.1.Good
  plain : p.1.constraints = []
  refines : p.1.pool.Refines p.2

lemma InStep.step (h : InStep p) (hlegal : p.1.Legal a) : InStep (isolationStep p a) := by
  obtain ⟨used, hinv⟩ := h.good
  have hs := (hinv.stepped hlegal).2 h.plain
  exact ⟨hs.good, hs.constraints.trans h.plain, h.refines.steps hs.steps hinv.pool⟩

lemma InStep.runs (h : InStep p)
    (hlegal : Always Db.step Db.Legal p.1 acts) : InStep (run isolationStep p acts) := by
  induction acts generalizing p with
  | nil => exact h
  | cons a acts ih => exact ih (h.step hlegal.1) hlegal.2

lemma boot_txns : (boot env s cs).txns = [] := by
  rw [boot_eq]
  obtain ⟨next, h⟩ := bootRows_eq (mvccInit s cs)
  rw [h]
  rfl

lemma boot_constraints (cs : List RowConstraintDef) : (boot env s cs).constraints = cs := by
  rw [boot_eq]
  obtain ⟨next, h⟩ := bootRows_eq (mvccInit s cs)
  rw [h]
  rfl

lemma boot_inStep (hs : Heap s used)
    (hd : DistinctTables s) : InStep (boot env s [], .start (boot env s []).latest) := by
  have hlive : ∀ t, t ∉ (boot env s []).live := by
    rintro t ⟨x, hx, -⟩
    rw [boot_txns] at hx
    cases hx
  exact ⟨⟨used, boot_inv hs hd []⟩, boot_constraints [],
    ⟨fun _ => rfl, fun t ht => absurd ht (hlive t), fun t ht => absurd ht (hlive t)⟩⟩

lemma begin_fresh (h : db.Inv used)
    (he : db.Emits a (.begin t)) (ht : t ≠ 0) : t = db.nextTxnId := by
  obtain ⟨hcall, hid⟩ := he
  rw [Db.call, hcall] at hid
  rcases mvccBegin_spec h with hfull | ⟨hnew, -, -⟩
  · grind
  · exact hid.symm.trans hnew

lemma InStep.unwritten (h : InStep p)
    (hlegal : Always Db.step Db.Legal p.1 acts) (ht0 : t ≠ 0) (ht : t < p.1.nextTxnId)
    (hw : (run isolationStep p acts).2.writes t k = none) :
    p.2.writes t k = none ∧ (run isolationStep p acts).2.snapshot t k = p.2.snapshot t k := by
  induction acts generalizing p with
  | nil => exact ⟨hw, rfl⟩
  | cons a acts ih =>
    obtain ⟨used, hinv⟩ := h.good
    have hs := (hinv.stepped hlegal.1).2 h.plain
    have hnew : .begin t ∉ p.1.events a := by
      intro hmem
      have := begin_fresh hinv (hs.emits _ hmem) ht0
      omega
    obtain ⟨hw', hsnap⟩ := ih (h.step hlegal.1) hlegal.2 (lt_of_lt_of_le ht hs.nextTxnId) hw
    obtain ⟨hw'', hsnap'⟩ := Isolation.steps_unwritten hnew hw'
    exact ⟨hw'', hsnap.trans hsnap'⟩

lemma InStep.mem_scan (h : InStep p) (ht : t ∈ p.1.live)
    (hl : lookupTable p.1.store name = some (i, slot, hd)) (hacc : env.access uid name .read)
    (k : ℕ) (x : RowValues) :
    (k, x) ∈ mvccTableScan env p.1 t uid name ↔ p.2.read t k = some (slot.objectId, x) := by
  obtain ⟨used, hinv⟩ := h.good
  obtain ⟨t, htxn, rfl⟩ := ht
  rw [hinv.mem_scan htxn hl hacc, ← h.refines.reads t.txnId ⟨t, htxn, rfl⟩ k]
  rfl

/-- MVCC refines snapshot isolation.  From a boot over any heap, after any
interleaving of calls: a transaction's scan visits one row for each row of the
table in its abstract snapshot, overlaid with its own writes, and no other; it
sees at most one version of a row; and a row it has not written looks as it did
at any earlier time it was open. -/
theorem scan_refines_snapshot_isolation {env₀ : Env} {s : Store} {used : ℕ → List RowId}
    (hs : Heap s used) (hd : DistinctTables s) (acts : List Act)
    (hlegal : Always Db.step Db.Legal (boot env₀ s []) acts) {db : Db} {σ : Isolation ℕ Row}
    (hrun : run isolationStep (boot env₀ s [], .start (boot env₀ s []).latest) acts = (db, σ))
    {t : MvccTxn} (ht : t ∈ db.txns) (env : Env) {uid i : ℕ} {name : String} {slot : CatalogSlot}
    {hdr : RowTableHeader} (hl : lookupTable db.store name = some (i, slot, hdr))
    (hacc : env.access uid name .read = true) :
    ((mvccTableScan env db t.txnId uid name).map (·.1)).Nodup ∧
    (∀ k x, (k, x) ∈ mvccTableScan env db t.txnId uid name ↔
      σ.read t.txnId k = some (slot.objectId, x)) ∧
    (∀ (m n : ℕ) (v w : MvccVersion), db.versions[m]? = some v → db.versions[n]? = some w →
      v.active = true → w.active = true → v.logicalId = w.logicalId →
      mvVisible v t = true → mvVisible w t = true → m = n) ∧
    ∀ n, t.txnId ∈ ((boot env₀ s []).after acts n).live → ∀ k, σ.writes t.txnId k = none →
      ∀ x, (k, x) ∈ mvccTableScan env ((boot env₀ s []).after acts n) t.txnId uid name ↔
        (k, x) ∈ mvccTableScan env db t.txnId uid name := by
  obtain ⟨p₀, hp₀⟩ : ∃ p₀, p₀ = (boot env₀ s [], Isolation.start (boot env₀ s []).latest) :=
    ⟨_, rfl⟩
  have hstart : InStep p₀ := hp₀ ▸ boot_inStep hs hd
  have hfst : p₀.1 = boot env₀ s [] := by rw [hp₀]
  rw [← hp₀] at hrun
  rw [← hfst] at hlegal ⊢
  have hend : InStep (db, σ) := hrun ▸ hstart.runs hlegal
  obtain ⟨used', hinv⟩ := hend.good
  have hmem : t.txnId ∈ db.live := ⟨t, ht, rfl⟩
  refine ⟨hinv.scan_nodup ht hl hacc, hend.mem_scan hmem hl hacc, ?_, ?_⟩
  · grind [hinv.visible_slot_unique]
  intro n hlive k hw x
  -- split the run at call `n`, and compare the abstract machine before and after
  obtain ⟨q, hq⟩ : ∃ q, q = run isolationStep p₀ (acts.take n) := ⟨_, rfl⟩
  have hqfst : q.1 = p₀.1.after acts n := by rw [hq, isolation_fst]; rfl
  have hmid : InStep q := hq ▸ hstart.runs (hlegal.take n)
  have hrest : run isolationStep q (acts.drop n) = (db, σ) := by
    rw [hq, ← run_append, List.take_append_drop, hrun]
  have hlegal' : Always Db.step Db.Legal q.1 (acts.drop n) := by
    rw [← List.take_append_drop n acts, always_append] at hlegal
    rw [hqfst]
    exact hlegal.2
  rw [← hqfst] at hlive ⊢
  obtain ⟨usedq, hinvq⟩ := hmid.good
  have hrange := hinvq.live_lt hlive
  have hcat : SameCatalog db.store q.1.store := by
    have := hmid.good.after_catalog hlegal' (acts.drop n).length
    rw [Db.after_of_le le_rfl, ← isolation_fst, hrest] at this
    exact this.symm
  obtain ⟨htab, rfl⟩ := lookupTable_isTable hl
  obtain ⟨slot', hdr', htab', hid, hname, -⟩ := hcat.isTable htab
  have hl' := htab'.lookup hinvq.distinct
  rw [hname] at hl'
  obtain ⟨hw', hsnap⟩ :=
    hmid.unwritten hlegal' (Nat.ne_of_gt hrange.1) hrange.2 (by rw [hrest]; exact hw)
  rw [hrest] at hsnap
  rw [hmid.mem_scan hlive hl' hacc, hend.mem_scan hmem hl hacc, hid, Isolation.read, Isolation.read,
    hw', hw, Option.getD_none, Option.getD_none, hsnap]

end Refinement

section Sample

set_option maxRecDepth 8000

/-- One table, no rows. -/
def oneTable : Db := boot openEnv (createTables [uintTable 7 "t"]) []

/-- The third transaction began before the second one changed the row. -/
def changeBehindReader : List Act :=
  [.begin, .insert 1 9 "t" (uintRow [53]), .commit 1, .begin, .begin,
    .update 2 9 "t" 1 (uintRow [54])].map (openEnv, ·)

theorem changeBehindReader_isolated :
    mvccTableScan openEnv (run Db.step oneTable changeBehindReader) 3 9 "t" = [(1, uintRow [53])] ∧
      ((mvccTableScan openEnv (run Db.step oneTable changeBehindReader) 3 9 "t").map
        (·.1)).Nodup := by
  refine ⟨by decide, ?_⟩
  have hsome : (lookupTable (run Db.step oneTable changeBehindReader).store "t").isSome = true := by
    decide
  have hlegal : Always Db.step Db.Legal oneTable changeBehindReader := by decide
  have ht : ⟨3, 1⟩ ∈ (run Db.step oneTable changeBehindReader).txns := by decide
  have hdist : DistinctTables (createTables [uintTable 7 "t"]) :=
    distinctTables_of_pairwise (by decide)
  obtain ⟨⟨i, slot, hdr⟩, hl⟩ := Option.isSome_iff_exists.mp hsome
  obtain ⟨⟨db, σ⟩, hrun⟩ : ∃ q,
      run isolationStep (oneTable, .start oneTable.latest) changeBehindReader = q := ⟨_, rfl⟩
  have hdb : run Db.step oneTable changeBehindReader = db := by
    rw [← isolation_fst (oneTable, .start oneTable.latest), hrun]
  rw [hdb] at hl ht ⊢
  exact (scan_refines_snapshot_isolation (createTables_heap _) hdist _ hlegal hrun ht openEnv hl
    rfl).1

/-- A table of numbers and one of texts, no rows. -/
def twoTables : Db := boot openEnv (createTables [uintTable 7 "t",
  tableSlot 8 "u" ⟨[⟨"w", .string, true⟩], 1⟩]) []

/-- A row of the first table is updated under the name of the second. -/
def updateElsewhere : List Act :=
  [.begin, .insert 1 9 "t" (uintRow [53]), .commit 1, .begin,
    .update 2 9 "u" 1 (uintRow [54])].map (openEnv, ·)

/-- The text that was written is in neither scan: its bytes come back as a number nobody wrote. -/
theorem updateElsewhere_misread : ∃ db σ,
    run isolationStep (twoTables, .start twoTables.latest) updateElsewhere = (db, σ) ∧
    ⟨2, 1⟩ ∈ db.txns ∧ σ.read 2 1 = some (8, uintRow [54]) ∧
    mvccTableScan openEnv db 2 9 "u" = [] ∧
    mvccTableScan openEnv db 2 9 "t" = [(1, uintRow [53, 52])] := by
  refine ⟨_, _, rfl, ?_, ?_, ?_, ?_⟩
  · decide
  · decide
  · decide
  · decide

end Sample

end AeroSLS.Mvcc
