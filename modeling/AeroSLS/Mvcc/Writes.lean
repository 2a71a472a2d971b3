import AeroSLS.Mvcc.Scan

namespace AeroSLS.Mvcc

open Rowstore Version List Function

variable {s' : Store} {vs : List MvccVersion} {id : RowId} {db' : Db} {layout : RowTableLayout}
  {x : RowValues}

def Db.Good (db : Db) : Prop := ∃ used, db.Inv used

/-- What a row operation of `txn` leaves: only versions it supersedes change, and new ones come
at the end. -/
structure Frame (txn : ℕ) (db db' : Db) : Prop where
  txns : db'.txns = db.txns
  commitSeq : db'.commitSeq = db.commitSeq
  nextTxnId : db'.nextTxnId = db.nextTxnId
  constraints : db'.constraints = db.constraints
  catalog : SameCatalog db.store db'.store
  grows : ∀ (i : ℕ) (v : MvccVersion), db.versions[i]? = some v →
    ∃ w, db'.versions[i]? = some w ∧ (w = v ∨ w = v.supersede txn)

inductive Effects (txn : ℕ) : Db → List (ℕ × Option Row) → Db → Prop
  | quiet {db db' : Db} (hgood : db'.Good) (hframe : Frame txn db db')
      (hpool : db'.pool = db.pool) : Effects txn db [] db'
  | write {db db₁ db₂ : Db} {k : ℕ} {x : Option Row} {ws : List (ℕ × Option Row)}
      (hgood : db₁.Good) (hframe : Frame txn db db₁)
      (hstep : db.pool.Step db₁.pool (.write txn k x)) (hrest : Effects txn db₁ ws db₂) :
      Effects txn db ((k, x) :: ws) db₂

section Effects

variable {db : Db}

lemma Frame.refl (txn : ℕ) (db : Db) : Frame txn db db :=
  ⟨rfl, rfl, rfl, rfl, .refl _, fun _ v hv => ⟨v, hv, .inl rfl⟩⟩

lemma Frame.trans (h : Frame txn db db1) (h' : Frame txn db1 db2) : Frame txn db db2 where
  txns := h'.txns.trans h.txns
  commitSeq := h'.commitSeq.trans h.commitSeq
  nextTxnId := h'.nextTxnId.trans h.nextTxnId
  constraints := h'.constraints.trans h.constraints
  catalog := h.catalog.trans h'.catalog
  grows i v hv := by
    obtain ⟨w, hw, hvw⟩ := h.grows i v hv
    obtain ⟨u, hu, hwu⟩ := h'.grows i w hw
    refine ⟨u, hu, ?_⟩
    rcases hvw with rfl | rfl
    · exact hwu
    · rcases hwu with rfl | rfl
      · exact .inr rfl
      · exact .inr rfl

lemma Effects.good (h : Effects txn db ws db1) : db1.Good := by
  induction h with
  | quiet hgood => exact hgood
  | write _ _ _ _ ih => exact ih

lemma Effects.frame (h : Effects txn db ws db1) : Frame txn db db1 := by
  induction h with
  | quiet _ hframe => exact hframe
  | write _ hframe _ _ ih => exact hframe.trans ih

lemma Effects.after_quiet (hframe : Frame txn db db1) (hpool : db1.pool = db.pool)
    (h : Effects txn db1 ws db2) : Effects txn db ws db2 := by
  cases h with
  | quiet hgood hframe' hpool' => exact .quiet hgood (hframe.trans hframe') (hpool'.trans hpool)
  | write hgood hframe' hstep hrest =>
    exact .write hgood (hframe.trans hframe') (hpool ▸ hstep) hrest

lemma Effects.trans (h : Effects txn db ws db1) (h' : Effects txn db1 ws' db2) :
    Effects txn db (ws ++ ws') db2 := by
  induction h with
  | quiet _ hframe hpool => exact h'.after_quiet hframe hpool
  | write hgood hframe hstep _ ih => exact .write hgood hframe hstep (ih h')

lemma Effects.refl (hgood : db.Good) : Effects txn db [] db := .quiet hgood (.refl _ _) rfl

lemma Effects.single {k : ℕ} {x : Option Row} (hgood : db1.Good) (hframe : Frame txn db db1)
    (hstep : db.pool.Step db1.pool (.write txn k x)) : Effects txn db [(k, x)] db1 :=
  .write hgood hframe hstep (.refl hgood)

end Effects

section Physical

variable {db : Db} {used : ℕ → List RowId}

lemma cells_congr (h : ∀ v ∈ vs, v.active → v.row s' = v.row s) :
    (vs.filter (·.belongs k)).map (·.cell s') = (vs.filter (·.belongs k)).map (·.cell s) := by
  apply map_congr_left
  intro v hv
  obtain ⟨hmem, hb⟩ := mem_filter.mp hv
  rw [MvccVersion.belongs, Bool.and_eq_true] at hb
  rw [MvccVersion.cell, MvccVersion.cell, h v hmem hb.1]

structure RowsKept (db : Db) (used' : ℕ → List RowId) (s' : Store) : Prop where
  heap : Heap s' used'
  catalog : SameCatalog db.store s'
  placed : ∀ v ∈ db.versions, v.active = true → ∀ i, tableIndex db.store v.tableObjectId = some i →
    v.physicalId ∈ used' i ∧ s'.row i v.physicalId = db.store.row i v.physicalId

section

variable (hk : RowsKept db used' s') (h : db.Inv used) (hv : v ∈ db.versions)
  (hact : v.active)
include hk h hv hact

lemma RowsKept.row_eq : v.row s' = v.row db.store := by
  obtain ⟨i, hi, -, -⟩ := h.placed v hv hact
  rw [MvccVersion.row, MvccVersion.row, hk.catalog.tableIndex, hi, Option.bind_some,
    Option.bind_some, (hk.placed v hv hact i hi).2]

lemma RowsKept.placedIn : ∃ i, tableIndex s' v.tableObjectId = some i ∧ v.physicalId ∈ used' i ∧
      (s'.row i v.physicalId).isSome := by
  obtain ⟨i, hi, -, hsome⟩ := h.placed v hv hact
  obtain ⟨hmem, hrow⟩ := hk.placed v hv hact i hi
  exact ⟨i, by rw [hk.catalog.tableIndex, hi], hmem, by rw [hrow]; exact hsome⟩

end

lemma RowsKept.effects (txn : ℕ) (hk : RowsKept db used' s')
    (h : db.Inv used) : Effects txn db [] { db with store := s' } := by
  have hpool : Db.pool { db with store := s' } = db.pool := by
    have hhist : Db.history { db with store := s' } = db.history := by
      funext k
      exact cells_congr fun v hv hact => hk.row_eq h hv hact
    rw [Db.pool, hhist]
    rfl
  refine .quiet ⟨used', hk.heap, hk.catalog.distinct h.distinct, ?_, h.physical, ?_, h.txn_ids,
    h.txn_range, h.logical, h.next_pos, h.same_table, hpool ▸ h.pool⟩
    ⟨rfl, rfl, rfl, rfl, hk.catalog, fun _ v hv => ⟨v, hv, .inl rfl⟩⟩ hpool
  · exact fun v hv hact => hk.placedIn h hv hact
  · intro v hv hact
    have hst := h.stamped v hv hact
    exact ⟨hst.xmin_done, hst.xmax_done, hst.xmin_lt, hst.xmax_lt⟩

lemma rowsKept_of_inserted (hi : Inserted db.store s' used i layout id x) (h : db.Inv used) :
    RowsKept db (update used i (used i ++ [id])) s' := by
  refine ⟨hi.heap, hi.catalog, fun v hv hact j hj => ?_⟩
  obtain ⟨j', hj', hid, -⟩ := h.placed v hv hact
  obtain rfl := Option.some.inj (hj'.symm.trans hj)
  refine ⟨?_, hi.frame j' _ hid⟩
  by_cases hji : j' = i
  · grind
  · rw [update_of_ne hji]
    exact hid

/-- Taking the new row out again leaves the versions in use alone as well. -/
theorem rowsKept_of_deleted (hl : lookupTable db.store name = some (i, slot, hd))
    (hi : Inserted db.store s' used i layout id x) (h : db.Inv used) :
    RowsKept db (update used i (used i ++ [id])) (rowstoreRowDelete env s' uid name id).1 := by
  have hkept := rowsKept_of_inserted hi h
  obtain ⟨htab, rfl⟩ := lookupTable_isTable hl
  obtain ⟨slot', hd', htab', -, hname, -⟩ := hi.catalog.isTable htab
  have hl' := htab'.lookup (hi.catalog.distinct h.distinct)
  rw [hname] at hl'
  have hmem : id ∈ update used i (used i ++ [id]) i := by simp
  obtain ⟨s2, rc, hr⟩ : ∃ s2 rc, rowstoreRowDelete env s' uid slot.name id = (s2, rc) := ⟨_, _, rfl⟩
  rw [hr]
  rcases rowstoreRowDelete_spec hi.heap hl' hmem hr with ⟨rfl, -⟩ | ⟨-, -, hdel⟩
  · exact hkept
  refine ⟨hdel.heap, hkept.catalog.trans hdel.catalog, fun v hv hact j hj => ?_⟩
  obtain ⟨hid, hrow⟩ := hkept.placed v hv hact j hj
  refine ⟨hid, ?_⟩
  obtain ⟨j', hj', hidj, -⟩ := h.placed v hv hact
  have hne : v.physicalId ≠ id := fun heq => hi.fresh j' (heq ▸ hidj)
  rw [hdel.frame j _ hid hne, hrow]

end Physical

section AddVersion

variable {db : Db} {used : ℕ → List RowId} {i : ℕ}

/-- The version a write of `txn` adds. -/
def newVersion (k tableObjectId txn : ℕ) (phys : RowId) : MvccVersion :=
  ⟨true, k, tableObjectId, phys, 0, false, txn, 0, false, 0⟩

/-- The write added a version, whose row reads back as the canonical form of what
was passed. -/
structure Added (env : Env) (db db' : Db) (used : ℕ → List RowId) (uid txn k i : ℕ) (name : String)
    (values : RowValues) (slot : CatalogSlot) (hd : RowTableHeader) (phys : RowId) : Prop where
  access : env.access uid name .write = true
  count : values.count = hd.layout.columnCount
  accepted : (serializeRow hd.layout values).isSome
  room : db.versions.length < mvccMaxVersions
  inserted : Inserted db.store db'.store used i hd.layout phys values
  eq : db' = { db with
    store := db'.store, versions := db.versions ++ [newVersion k slot.objectId txn phys] }

lemma mapRowstoreErr_ne_ok (h : rc ∈ [1, 2, 4, 5, 6]) : mapRowstoreErr rc ≠ .ok := by
  simp only [mem_cons, not_mem_nil, or_false] at h
  rcases h with rfl | rfl | rfl | rfl | rfl <;> decide

section

variable (h : db.Inv used) (hl : lookupTable db.store name = some (i, slot, hd))
include h hl

lemma addVersion_spec (hr : addVersion env db txn uid name values k slot.objectId = (db', err)) :
    (err ≠ .ok ∧ Effects txn db [] db') ∨
      (err = .ok ∧ ∃ phys, Added env db db' used uid txn k i name values slot hd phys) := by
  obtain ⟨s', rc, out, hins⟩ : ∃ s' rc out,
      rowstoreRowInsert env db.store uid name values = (s', rc, out) := ⟨_, _, _, rfl⟩
  rcases rowstoreRowInsert_spec h.heap hins with ⟨rfl, rfl, hrc⟩ |
    ⟨i', slot', hd', phys, hl', hacc, hcount, hser, rfl, -, hinserted⟩
  · left
    rw [addVersion, hins] at hr
    obtain ⟨rfl, rfl⟩ := Prod.mk.inj hr
    exact ⟨mapRowstoreErr_ne_ok hrc, .refl ⟨used, h⟩⟩
  rw [hl] at hl'
  obtain ⟨rfl, rfl, rfl⟩ := hl'
  rw [addVersion, hins] at hr
  split_ifs at hr with hfull
  · left
    obtain ⟨rfl, rfl⟩ := Prod.mk.inj hr
    exact ⟨by decide, (rowsKept_of_deleted hl hinserted h).effects txn h⟩
  · right
    obtain ⟨rfl, rfl⟩ := Prod.mk.inj hr
    exact ⟨rfl, phys, hacc, hcount, hser, not_le.mp hfull, hinserted, rfl⟩

lemma Added.cell (ha : Added env db db' used uid txn k i name values slot hd phys) :
    (newVersion k slot.objectId txn phys).cell db'.store =
      Cell.fresh txn (slot.objectId, canon hd.layout values) := by
  have hindex := (lookupTable_isTable hl).1.index h.distinct
  have hrow : (newVersion k slot.objectId txn phys).row db'.store =
      some (canon hd.layout values) := by
    rw [MvccVersion.row, ha.inserted.catalog.tableIndex]
    show (tableIndex db.store slot.objectId).bind _ = _
    rw [hindex]
    exact ha.inserted.row
  rw [MvccVersion.cell, hrow]
  rfl

end

def Superseded (txn : ℕ) (vs vs' : List MvccVersion) : Prop :=
  List.Forall₂ (fun v w => w = v ∨ w = v.supersede txn ∧ v.xmaxCommitted = false) vs vs'

lemma Superseded.kept (h : Superseded txn vs vs') : List.Forall₂ Kept vs vs' := by
  refine h.imp fun v w hvw hact => ?_
  rcases hvw with rfl | ⟨rfl, -⟩
  · exact ⟨hact, rfl, rfl, rfl⟩
  · exact ⟨hact, rfl, rfl, rfl⟩

lemma Superseded.stamped (h : Superseded txn db.versions vs)
    (hi : db.Inv used) (htxn : txn ∈ db.live) (hlive : db'.live = db.live)
    (hnext : db'.nextTxnId = db.nextTxnId) (hw : w ∈ vs)
    (hact : w.active) : db'.Stamped w := by
  obtain ⟨v, hv, hvw⟩ := exists_of_forall₂ h hw
  have hlt := (hi.live_lt htxn).2
  rcases hvw with rfl | ⟨rfl, hdone⟩
  · have hst := hi.stamped w hv hact
    exact ⟨hlive ▸ hst.xmin_done, hlive ▸ hst.xmax_done, hnext ▸ hst.xmin_lt, hnext ▸ hst.xmax_lt⟩
  · have hst := hi.stamped v hv hact
    refine ⟨hlive ▸ hst.xmin_done, fun hc => ?_, hnext ▸ hst.xmin_lt, hnext ▸ hlt⟩
    exact absurd (hdone.symm.trans hc) Bool.false_ne_true

/-- The invariant with one more version, those before it as they were or
superseded by `txn`. -/
theorem Db.Inv.append (h : db.Inv used)
    (hi : Inserted db.store db'.store used i hd.layout phys values)
    (htxns : db'.txns = db.txns) (hnext : db'.nextTxnId = db.nextTxnId)
    (hvs : Superseded txn db.versions vs)
    (hversions : db'.versions = vs ++ [newVersion k slot.objectId txn phys])
    (hlogical : db.nextLogicalId ≤ db'.nextLogicalId) (hk : 0 < k ∧ k < db'.nextLogicalId)
    (htxn : txn ∈ db.live) (hl : lookupTable db.store name = some (i, slot, hd))
    (htable : ∀ v ∈ db.versions, v.active → v.logicalId = k → v.tableObjectId = slot.objectId)
    (hpool : db'.pool.Inv) : db'.Inv (update used i (used i ++ [phys])) := by
  have hkept := rowsKept_of_inserted hi h
  have hlive : db'.live = db.live := by rw [Db.live, Db.live, htxns]
  have hsplit : ∀ w ∈ db'.versions, w ∈ vs ∨ w = newVersion k slot.objectId txn phys := by grind
  have hindex := (lookupTable_isTable hl).1.index h.distinct
  refine ⟨hi.heap, hi.catalog.distinct h.distinct, ?_, ?_, ?_, htxns ▸ h.txn_ids, ?_, ?_,
    ?_, ?_, hpool⟩
  · intro w hw hact
    rcases hsplit w hw with hold | rfl
    · grind [Db.Placed, exists_kept, hkept.placedIn, hvs.kept]
    refine ⟨i, ?_, ?_, ?_⟩
    · rw [hi.catalog.tableIndex]
      exact hindex
    · rw [update_self]
      exact mem_append_right _ (mem_singleton.mpr rfl)
    · show (db'.store.row i phys).isSome
      rw [hi.row]
      rfl
  · rw [hversions, pairwise_append]
    refine ⟨physical_kept hvs.kept h.physical, pairwise_singleton .., fun w hw u hu hact _ => ?_⟩
    obtain ⟨v, hv, hvact, -, -, hphys⟩ := exists_kept hvs.kept hw hact
    obtain ⟨j, -, hid, -⟩ := h.placed v hv hvact
    rw [mem_singleton.mp hu, hphys]
    intro heq
    rw [heq] at hid
    exact hi.fresh j hid
  · intro w hw hact
    rcases hsplit w hw with hold | rfl
    · exact hvs.stamped h htxn hlive hnext hold hact
    · refine ⟨fun hc => absurd hc Bool.false_ne_true, fun hc =>
        absurd hc Bool.false_ne_true, ?_, ?_⟩
      · exact hnext ▸ (h.live_lt htxn).2
      · exact hnext ▸ h.next_pos.1
  · intro x hx
    rw [htxns] at hx
    rw [hnext]
    exact h.txn_range x hx
  · intro w hw hact
    rcases hsplit w hw with hold | rfl
    · obtain ⟨v, hv, hvact, hlog, -⟩ := exists_kept hvs.kept hold hact
      have := h.logical v hv hvact
      omega
    · exact hk
  · exact ⟨hnext ▸ h.next_pos.1, lt_of_lt_of_le h.next_pos.2 hlogical⟩
  · intro w hw u hu hwact huact hlog
    rcases hsplit w hw with hwold | rfl <;> rcases hsplit u hu with huold | rfl
    · grind [exists_kept, h.same_table, hvs.kept]
    · obtain ⟨v, hv, hvact, hvlog, hvtab, -⟩ := exists_kept hvs.kept hwold hwact
      rw [hvtab]
      exact htable v hv hvact (hvlog.symm.trans hlog)
    · obtain ⟨v, hv, hvact, hvlog, hvtab, -⟩ := exists_kept hvs.kept huold huact
      rw [hvtab]
      exact (htable v hv hvact (hvlog.symm.trans hlog.symm)).symm
    · rfl

lemma cells_append_new (vs : List MvccVersion) (k o txn : ℕ) (phys : RowId) (s : Store) (j : ℕ) :
    ((vs ++ [newVersion k o txn phys]).filter (·.belongs j)).map (·.cell s) =
      (vs.filter (·.belongs j)).map (·.cell s) ++
        if j = k then [(newVersion k o txn phys).cell s] else [] := by
  rw [filter_append, map_append]
  by_cases hj : j = k
  · simp [hj, MvccVersion.belongs, newVersion]
  · simp [hj, MvccVersion.belongs, newVersion, Ne.symm hj]

theorem Added.insert {db1 : Db} (h : db.Inv used) (htxn : txn ∈ db.live)
    (hl : lookupTable db.store name = some (i, slot, hd))
    (ha : Added env db db1 used uid txn db.nextLogicalId i name values slot hd phys) :
    Effects txn db [(db.nextLogicalId, some (slot.objectId, canon hd.layout values))]
      { db1 with nextLogicalId := db1.nextLogicalId + 1 } := by
  have hcell := ha.cell h hl
  obtain ⟨-, -, -, -, hins, heq⟩ := ha
  have hkept := rowsKept_of_inserted hins h
  have hlt : ∀ v ∈ db.versions, v.active → v.logicalId ≠ db.nextLogicalId := fun v hv hact =>
    (h.logical v hv hact).2.ne
  rw [heq]
  have hhist : ∀ j, ((db.versions ++ [newVersion db.nextLogicalId slot.objectId txn phys]).filter
      (·.belongs j)).map (·.cell db1.store) = db.history j ++ if j = db.nextLogicalId then
        [Cell.fresh txn (slot.objectId, canon hd.layout values)] else [] := by
    intro j
    rw [cells_append_new, hcell, cells_congr fun v hv hact => hkept.row_eq h hv hact]
    rfl
  have hnone : db.history db.nextLogicalId = [] := by
    rw [eq_nil_iff_forall_not_mem]
    intro c hc
    obtain ⟨v, hv, hact, hlog, -⟩ := mem_history.mp hc
    exact hlt v hv hact hlog
  have hstep : db.pool.Step (Db.pool { db with
      store := db1.store
      versions := db.versions ++ [newVersion db.nextLogicalId slot.objectId txn phys]
      nextLogicalId := db.nextLogicalId + 1 })
      (.write txn db.nextLogicalId (some (slot.objectId, canon hd.layout values))) := by
    refine .write _ _ _ htxn ?_ (fun j hj => ?_) rfl rfl rfl
    · refine (congrArg₂ (Writes txn _ _) hnone (hhist _)).mpr ?_
      rw [hnone, if_pos rfl]
      exact .insert _
    · refine (hhist j).trans ?_
      rw [if_neg hj, append_nil]
      rfl
  refine .single ⟨_,
    h.append hins rfl rfl (forall₂_same.mpr fun v _ => .inl rfl) rfl (Nat.le_succ _)
    ⟨h.next_pos.2, Nat.lt_succ_self _⟩ htxn hl (fun v hv hact hlog => absurd hlog (hlt v hv hact))
    (h.pool.step hstep)⟩ ⟨rfl, rfl, rfl, rfl, hkept.catalog, fun j v hv => ⟨v, ?_, .inl rfl⟩⟩ hstep
  rw [getElem?_append_left (List.getElem?_eq_some_iff.mp hv).1, hv]

end AddVersion

section Supersede

variable {db : Db} {used : ℕ → List RowId} {v : MvccVersion}

/-- The version the search for a visible one ends at. -/
structure Found (db : Db) (t : MvccTxn) (k n : ℕ) (v : MvccVersion) : Prop where
  at_slot : db.versions[n]? = some v
  active : v.active = true
  logical : v.logicalId = k
  visible : mvVisible v t = true

lemma found_of_find (hf : mvFindVisibleVersion db k t = some n) : ∃ v, Found db t k n v := by
  obtain ⟨hlt, hp, -⟩ := findIdx?_eq_some_iff_getElem.mp hf
  simp only [Bool.and_eq_true, decide_eq_true_eq] at hp
  exact ⟨db.versions[n], getElem?_eq_getElem hlt, hp.1.1, hp.1.2, hp.2⟩

lemma Found.mem (hf : Found db t k n v) : v ∈ db.versions := mem_of_getElem? hf.at_slot

lemma Found.stop_none (hf : Found db t k n v) (h : db.Inv used)
    (hconf : ¬ (v.xmaxTxn ≠ 0 ∧ v.xmaxTxn ≠ t.txnId)) :
      v.stop = none ∧ v.xmaxCommitted = false := by
  have hvis := hf.visible
  have hst := h.stamped v hf.mem hf.active
  have hzero : v.xmaxTxn = 0 := by grind [mvVisible]
  have hdone : v.xmaxCommitted = false := by grind [hst.xmax_done]
  exact ⟨by rw [MvccVersion.stop, hdone, hzero]; rfl, hdone⟩

lemma modify_append_of_lt {α : Type} {l l' : List α} {f : α → α} {i : ℕ} (hi : i < l.length) :
    (l ++ l').modify i f = l.modify i f ++ l' := by
  have hi' : i < (l ++ l').length := by
    rw [length_append]
    omega
  rw [modify_eq_take_cons_drop hi, modify_eq_take_cons_drop hi',
    take_append_of_le_length hi.le, drop_append_of_le_length hi,
    getElem_append_left hi, append_assoc, cons_append]

lemma supersede_superseded (hv : db.versions[n]? = some v) (hdone : v.xmaxCommitted = false)
    (txn : ℕ) : Superseded txn db.versions (db.versions.modify n (·.supersede txn)) := by
  obtain ⟨hlt, rfl⟩ := List.getElem?_eq_some_iff.mp hv
  rw [modify_eq_take_cons_drop hlt]
  nth_rewrite 1 [← take_append_drop n db.versions]
  rw [drop_eq_getElem_cons hlt]
  refine rel_append (forall₂_same.mpr fun w _ => .inl rfl) ?_
  exact .cons (.inr ⟨rfl, hdone⟩) (forall₂_same.mpr fun w _ => .inl rfl)

theorem Found.history (hf : Found db t k n v) (h : db.Inv used) (hstop : v.stop = none)
    (hdone : v.xmaxCommitted = false) (htxn : txn ≠ 0)
    (hrow : ∀ v ∈ db.versions, v.active → v.row s' = v.row db.store) :
    ∃ A, db.history k = A ++ [v.cell db.store] ∧
      ((db.versions.modify n (·.supersede txn)).filter (·.belongs k)).map (·.cell s') =
        A ++ [(v.cell db.store).supersede txn] ∧
      ∀ j, j ≠ k → ((db.versions.modify n (·.supersede txn)).filter (·.belongs j)).map (·.cell s') =
        db.history j := by
  obtain ⟨hlt, hget⟩ := List.getElem?_eq_some_iff.mp hf.at_slot
  have hsplit : db.versions = db.versions.take n ++ v :: db.versions.drop (n + 1) := by
    rw [← hget, ← drop_eq_getElem_cons hlt, take_append_drop]
  have hmodify : db.versions.modify n (·.supersede txn) =
      db.versions.take n ++ v.supersede txn :: db.versions.drop (n + 1) := by
    rw [modify_eq_take_cons_drop hlt, hget]
  have hbelongs : v.belongs k := by
    rw [MvccVersion.belongs, hf.active, hf.logical]
    simp
  have hbelongs' : (v.supersede txn).belongs k := hbelongs
  have htake : ∀ j, ((db.versions.take n).filter (·.belongs j)).map (·.cell s') =
      ((db.versions.take n).filter (·.belongs j)).map (·.cell db.store) :=
    fun j => cells_congr fun w hw => hrow w (mem_of_mem_take hw)
  have hdrop : ∀ j, ((db.versions.drop (n + 1)).filter (·.belongs j)).map (·.cell s') =
      ((db.versions.drop (n + 1)).filter (·.belongs j)).map (·.cell db.store) :=
    fun j => cells_congr fun w hw => hrow w (mem_of_mem_drop hw)
  have hhist : db.history k = ((db.versions.take n).filter (·.belongs k)).map (·.cell db.store) ++
      v.cell db.store :: ((db.versions.drop (n + 1)).filter (·.belongs k)).map
        (·.cell db.store) := by
    rw [Db.history]
    conv_lhs => rw [hsplit]
    rw [filter_append, filter_cons_of_pos hbelongs, map_append, map_cons]
  have hlast : ((db.versions.drop (n + 1)).filter (·.belongs k)).map (·.cell db.store) = [] := by
    have hsound : Sound db.snap (db.history k) := h.pool.sound k
    rw [hhist] at hsound
    exact hsound.last_of_stop_none hstop
  refine ⟨_, by rw [hhist, hlast], ?_, fun j hj => ?_⟩
  · have hcell : (v.supersede txn).cell s' = (v.cell db.store).supersede txn := by
      have hrowv : (v.supersede txn).row s' = v.row db.store := hrow v hf.mem hf.active
      have hstopped : (v.supersede txn).stop = some (.pending txn) := by
        rw [MvccVersion.stop]
        simp [MvccVersion.supersede, hdone, htxn]
      rw [MvccVersion.cell, hrowv, hstopped]
      rfl
    rw [hmodify, filter_append, filter_cons_of_pos hbelongs', map_append,
      map_cons, htake, hdrop, hlast, hcell]
  · have hnot : ¬ v.belongs j := by
      rw [MvccVersion.belongs, hf.logical]
      simpa using fun _ => Ne.symm hj
    have hnot' : ¬ (v.supersede txn).belongs j := hnot
    rw [hmodify, filter_append, filter_cons_of_neg hnot', map_append, htake, hdrop, Db.history]
    conv_rhs => rw [hsplit]
    rw [filter_append, filter_cons_of_neg hnot, map_append]

lemma Found.start_seen (hf : Found db t k n v) (h : db.Inv used) (ht : t ∈ db.txns) :
    (v.cell db.store).start.seen ⟨t.txnId, db.snap t.txnId⟩ = true := by
  have hvis := hf.visible
  rw [h.visible_eq ht hf.mem hf.active, ← h.snap_eq ht, Cell.visible, Bool.and_eq_true] at hvis
  exact hvis.1

lemma frame_modify {txn : ℕ} (htxns : db'.txns = db.txns)
    (hseq : db'.commitSeq = db.commitSeq) (hnext : db'.nextTxnId = db.nextTxnId)
    (hcons : db'.constraints = db.constraints) (hcat : SameCatalog db.store db'.store)
    (hversions : ∃ vs, db'.versions = db.versions.modify n (·.supersede txn) ++ vs) :
    Frame txn db db' := by
  refine ⟨htxns, hseq, hnext, hcons, hcat, fun i w hw => ?_⟩
  obtain ⟨vs, hvs⟩ := hversions
  have hlt := (List.getElem?_eq_some_iff.mp hw).1
  rw [hvs, getElem?_append_left (by simpa using hlt), getElem?_modify, hw]
  by_cases hni : n = i
  · exact ⟨w.supersede txn, by simp [hni], .inr rfl⟩
  · exact ⟨w, by simp [hni], .inl rfl⟩

section

variable (hf : Found db t k n v) (h : db.Inv used) (ht : t ∈ db.txns) (hstop : v.stop = none)
  (hdone : v.xmaxCommitted = false)
include hf h ht hstop hdone

/-- Marking the visible version deletes the row for the transaction. -/
theorem Found.erase : Effects t.txnId db [(k, none)]
    { db with versions := db.versions.modify n (·.supersede t.txnId) } := by
  have hlive : t.txnId ∈ db.live := ⟨t, ht, rfl⟩
  have hpos := (h.txn_range t ht).1
  have hsup := supersede_superseded hf.at_slot hdone t.txnId
  obtain ⟨A, hA, hA', hother⟩ := hf.history h hstop hdone (Nat.ne_of_gt hpos) fun _ _ _ => rfl
  have hstep : db.pool.Step
      (Db.pool { db with versions := db.versions.modify n (·.supersede t.txnId) })
      (.write t.txnId k none) := by
    refine .write _ _ _ hlive ?_ hother rfl rfl rfl
    have hw := Writes.erase A _ hstop (hf.start_seen h ht)
    rwa [← hA, ← hA'] at hw
  refine .single ⟨used, h.kept hsup.kept h.heap (.refl _) (fun _ _ _ => rfl) (.refl _) rfl rfl
    (fun w => hsup.stamped h hlive rfl rfl) (h.pool.step hstep)⟩
    (frame_modify rfl rfl rfl rfl (.refl _) ⟨[], (append_nil _).symm⟩) hstep

theorem Found.replace (hl : lookupTable db.store name = some (i, slot, hd))
    (htable : v.tableObjectId = slot.objectId)
    (ha : Added env db db1 used uid t.txnId k i name values slot hd phys) :
    Effects t.txnId db [(k, some (slot.objectId, canon hd.layout values))]
      { db1 with versions := db1.versions.modify n (·.supersede t.txnId) } := by
  have hcell := ha.cell h hl
  obtain ⟨-, -, -, -, hins, heq⟩ := ha
  have hkept := rowsKept_of_inserted hins h
  have hlive : t.txnId ∈ db.live := ⟨t, ht, rfl⟩
  have hpos := (h.txn_range t ht).1
  obtain ⟨A, hA, hA', hother⟩ := hf.history h hstop hdone (Nat.ne_of_gt hpos)
    fun w hw hact => hkept.row_eq h hw hact
  rw [heq, modify_append_of_lt (List.getElem?_eq_some_iff.mp hf.at_slot).1]
  have hstep : db.pool.Step (Db.pool { db with
      store := db1.store
      versions := db.versions.modify n (·.supersede t.txnId) ++
        [newVersion k slot.objectId t.txnId phys] })
      (.write t.txnId k (some (slot.objectId, canon hd.layout values))) := by
    refine .write _ _ _ hlive ?_ (fun j hj => ?_) rfl rfl rfl
    · have hw := Writes.replace A _ (slot.objectId, canon hd.layout values) hstop
        (hf.start_seen h ht)
      have hnew := cells_append_new (db.versions.modify n (·.supersede t.txnId)) k slot.objectId
        t.txnId phys db1.store k
      rw [hA', hcell, if_pos rfl, append_assoc, singleton_append] at hnew
      rwa [← hA, ← hnew] at hw
    · refine (cells_append_new ..).trans ?_
      rw [hother j hj, if_neg hj, append_nil]
      rfl
  refine .single ⟨_, h.append hins rfl rfl
    (supersede_superseded hf.at_slot hdone t.txnId) rfl le_rfl ?_ hlive hl
    (fun w hw hact hlog => ?_) (h.pool.step hstep)⟩
      (frame_modify rfl rfl rfl rfl hkept.catalog ⟨_, rfl⟩) hstep
  · have hlog := h.logical v hf.mem hf.active
    rwa [hf.logical] at hlog
  · grind [h.same_table, hf.mem, hf.active, hf.logical]

end

end Supersede

end AeroSLS.Mvcc
