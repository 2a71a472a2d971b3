import AeroSLS.Mvcc.Writes
import Mathlib.Logic.Relation

namespace AeroSLS.Mvcc

open Rowstore Version List Option

variable {v : MvccVersion}

/-- A check ends in success or in a violation, never in a registration error. -/
def RowConstraintResult.isCheck : RowConstraintResult → Bool
  | .ok | .violationUnique | .violationNotNull | .violationRange | .violationReference
  | .violationReferenced | .cascadeFailed => true
  | _ => false

lemma mapConstraintViolation_ne_ok (hr : r.isCheck)
    (hne : r ≠ .ok) : mapConstraintViolation r ≠ .ok := by
  cases r <;> simp_all [mapConstraintViolation, RowConstraintResult.isCheck]

section Checks

variable {db : Db}

lemma checkWriteOne_isCheck : (checkWriteOne env db txn uid values exclude c).isCheck := by
  unfold checkWriteOne
  cases c.kind <;> simp only <;> split_ifs <;> rfl

lemma checkWriteAll_isCheck :
    (checkWriteAll env db txn uid tableObjectId values exclude cs).isCheck := by
  induction cs with
  | nil => rfl
  | cons c cs ih =>
    have hone : (checkWriteOne env db txn uid values exclude c).isCheck := checkWriteOne_isCheck
    rw [checkWriteAll]
    split_ifs
    · exact ih
    · split
      · exact ih
      · exact hone

lemma checkParentUpdateAll_isCheck :
    (checkParentUpdateAll env db txn uid tableObjectId old values cs).isCheck := by
  induction cs with
  | nil => rfl
  | cons c cs ih =>
    rw [checkParentUpdateAll]
    split_ifs
    · exact ih
    · rfl
    · exact ih

lemma rowConstraintCheckParentUpdate_isCheck :
    (rowConstraintCheckParentUpdate env db txn uid name tableObjectId phys values).isCheck := by
  unfold rowConstraintCheckParentUpdate
  split_ifs
  · split
    · rfl
    · exact checkParentUpdateAll_isCheck
  · rfl

end Checks

section Write

variable {db : Db}

lemma mvFindTxn_of_live (h : db.Inv used) (hlive : txn ∈ db.live) :
    ∃ t ∈ db.txns, t.txnId = txn ∧ mvFindTxn db txn = some t := by
  obtain ⟨t, ht, rfl⟩ := hlive
  exact ⟨t, ht, rfl, h.find_txn ht⟩

lemma live_of_find (hf : mvFindTxn db txn = some t) : txn ∈ db.live := by
  obtain ⟨ht, rfl⟩ := mem_txns_of_find hf
  exact ⟨t, ht, rfl⟩

/-- What a successful insert did. -/
structure InsertOk (env : Env) (db db' : Db) (txn uid : ℕ) (name : String) (values : RowValues)
    (slot : CatalogSlot) (hd : RowTableHeader) : Prop where
  live : txn ∈ db.live
  lookup : ∃ i, lookupTable db.store name = some (i, slot, hd)
  access : env.access uid name .write = true
  accepted : (serializeRow hd.layout values).isSome
  count : values.count = hd.layout.columnCount
  checked : rowConstraintCheckWrite env db txn uid slot.objectId values 0 = .ok
  effects : Effects txn db [(db.nextLogicalId, some (slot.objectId, canon hd.layout values))] db'

lemma mvccRowInsert_spec (h : db.Inv used)
    (hr : mvccRowInsert env db txn uid name values = (db', r)) :
    (r.1 ≠ .ok ∧ r.2 = none ∧ Effects txn db [] db') ∨ (r.1 = .ok ∧ r.2 = some db.nextLogicalId ∧
        ∃ slot hd, InsertOk env db db' txn uid name values slot hd) := by
  unfold mvccRowInsert at hr
  split at hr
  · cases hr
    exact .inl ⟨by decide, rfl, .refl ⟨used, h⟩⟩
  next t ht =>
  split at hr
  · cases hr
    exact .inl ⟨by decide, rfl, .refl ⟨used, h⟩⟩
  next i slot hd hl =>
  split at hr
  · next hcheck =>
    obtain ⟨db1, err1, hadd⟩ : ∃ db1 err1, addVersion env db txn uid name values
        db.nextLogicalId slot.objectId = (db1, err1) := ⟨_, _, rfl⟩
    rw [hadd] at hr
    rcases addVersion_spec h hl hadd with ⟨hne, heff⟩ | ⟨rfl, phys, ha⟩
    · grind
    right
    cases hr
    have hlive := live_of_find ht
    exact ⟨rfl, rfl, slot, hd, hlive, ⟨i, hl⟩, ha.access, ha.accepted, ha.count, hcheck,
      ha.insert h hlive hl⟩
  · next violation hne =>
    cases hr
    exact .inl ⟨mapConstraintViolation_ne_ok checkWriteAll_isCheck hne, rfl, .refl ⟨used, h⟩⟩

/-- The table `name` is the one the row `k` lives in, if there is such a row. -/
def Db.OwnTable (db : Db) (name : String) (k : ℕ) : Prop :=
  ∀ v ∈ db.versions, v.active = true → v.logicalId = k →
    (lookupTable db.store name).map (·.2.1.objectId) = some v.tableObjectId

instance (db : Db) (name : String) (k : ℕ) : Decidable (db.OwnTable name k) :=
  inferInstanceAs (Decidable (∀ v ∈ db.versions, _))

lemma Db.OwnTable.lookup (hown : db.OwnTable name k)
    (hv : v ∈ db.versions) (hact : v.active) (hlog : v.logicalId = k) :
    ∃ i slot hd, lookupTable db.store name = some (i, slot, hd) ∧
      v.tableObjectId = slot.objectId := by
  obtain ⟨⟨i, slot, hd⟩, hl, hid⟩ := map_eq_some_iff.mp (hown v hv hact hlog)
  exact ⟨i, slot, hd, hl, hid.symm⟩

/-- What a successful update did. -/
structure UpdateOk (env : Env) (db db' : Db) (t : MvccTxn) (uid : ℕ) (name : String) (k : ℕ)
    (values : RowValues) (v : MvccVersion) (slot : CatalogSlot) (hd : RowTableHeader) : Prop where
  txn : t ∈ db.txns
  found : ∃ n, Found db t k n v
  stop : v.stop = none
  lookup : ∃ i, lookupTable db.store name = some (i, slot, hd)
  table : v.tableObjectId = slot.objectId
  access : env.access uid name .write = true
  accepted : (serializeRow hd.layout values).isSome
  count : values.count = hd.layout.columnCount
  checked : rowConstraintCheckWrite env db t.txnId uid slot.objectId values k = .ok
  parent : rowConstraintCheckParentUpdate env db t.txnId uid name slot.objectId
    v.physicalId values = .ok
  effects : Effects t.txnId db [(k, some (slot.objectId, canon hd.layout values))] db'

lemma mvccRowUpdate_spec (h : db.Inv used) (hown : db.OwnTable name k)
    (hr : mvccRowUpdate env db txn uid name k values = (db', err)) :
    (err ≠ .ok ∧ Effects txn db [] db') ∨
      (err = .ok ∧ ∃ t v slot hd, t.txnId = txn ∧
        UpdateOk env db db' t uid name k values v slot hd) := by
  unfold mvccRowUpdate at hr
  split at hr
  · cases hr
    exact .inl ⟨by decide, .refl ⟨used, h⟩⟩
  next t ht =>
  obtain ⟨htmem, rfl⟩ := mem_txns_of_find ht
  split at hr
  · cases hr
    exact .inl ⟨by decide, .refl ⟨used, h⟩⟩
  next n hfind =>
  obtain ⟨v, hf⟩ := found_of_find hfind
  rw [hf.at_slot] at hr
  simp only at hr
  split_ifs at hr with hconf
  · cases hr
    exact .inl ⟨by decide, .refl ⟨used, h⟩⟩
  obtain ⟨hstop, hdone⟩ := hf.stop_none h hconf
  obtain ⟨i, slot, hd, hl, htable⟩ := hown.lookup hf.mem hf.active hf.logical
  rw [htable] at hr
  split at hr
  · next hcheck =>
    split at hr
    · next hparent =>
      obtain ⟨db1, err1, hadd⟩ : ∃ db1 err1, addVersion env db t.txnId uid name values k
          slot.objectId = (db1, err1) := ⟨_, _, rfl⟩
      rw [hadd] at hr
      rcases addVersion_spec h hl hadd with ⟨hne, heff⟩ | ⟨rfl, phys, ha⟩
      · grind
      right
      cases hr
      exact ⟨rfl, t, v, slot, hd, rfl, htmem, ⟨n, hf⟩, hstop, ⟨i, hl⟩, htable, ha.access,
        ha.accepted, ha.count, hcheck, hparent, hf.replace h htmem hstop hdone hl htable ha⟩
    · next violation hne =>
      cases hr
      exact .inl ⟨mapConstraintViolation_ne_ok rowConstraintCheckParentUpdate_isCheck hne,
        .refl ⟨used, h⟩⟩
  · next violation hne =>
    cases hr
    exact .inl ⟨mapConstraintViolation_ne_ok checkWriteAll_isCheck hne, .refl ⟨used, h⟩⟩

end Write

def Db.InTable (db : Db) (name : String) (k : ℕ) : Prop :=
  ∃ (n : ℕ) (v : MvccVersion) (i : ℕ) (slot : CatalogSlot) (hd : RowTableHeader),
    db.versions[n]? = some v ∧ v.active = true ∧ v.logicalId = k ∧
    lookupTable db.store name = some (i, slot, hd) ∧ v.tableObjectId = slot.objectId

section Delete

variable {db : Db}

lemma Db.InTable.ownTable (hin : db.InTable name k) (h : db.Inv used) : db.OwnTable name k := by
  obtain ⟨n, v, i, slot, hd, hv, hact, hlog, hl, htable⟩ := hin
  intro w hw hwact hwlog
  rw [hl, map_some, ← htable,
    h.same_table w hw v (mem_of_getElem? hv) hwact hact (hwlog.trans hlog.symm)]

lemma Db.InTable.frame (hin : db.InTable name k) (hf : Frame txn db db') (h : db.Inv used) :
    db'.InTable name k := by
  obtain ⟨n, v, i, slot, hd, hv, hact, hlog, hl, htable⟩ := hin
  obtain ⟨w, hw, hvw⟩ := hf.grows n v hv
  obtain ⟨htab, rfl⟩ := lookupTable_isTable hl
  obtain ⟨slot', hd', htab', hid, hname, -⟩ := hf.catalog.isTable htab
  have hl' := htab'.lookup (hf.catalog.distinct h.distinct)
  rw [hname] at hl'
  refine ⟨n, w, i, slot', hd', hw, ?_, ?_, hl', ?_⟩
  · rcases hvw with rfl | rfl <;> exact hact
  · rcases hvw with rfl | rfl <;> exact hlog
  · rw [hid]
    rcases hvw with rfl | rfl <;> exact htable

lemma inTable_of_scan (h : db.Inv used) (hlive : txn ∈ db.live)
    (hmem : (k, x) ∈ mvccTableScan env db txn uid name) : db.InTable name k := by
  obtain ⟨t, ht, rfl, hfind⟩ := mvFindTxn_of_live h hlive
  rcases hl : lookupTable db.store name with _ | p
  · rw [mvccTableScan, hfind, hl] at hmem
    cases hmem
  obtain ⟨i, slot, hd⟩ := p
  rcases hacc : env.access uid name .read with _ | _
  · grind [mvccTableScan]
  obtain ⟨v, hv, hact, hlog, -, hval⟩ := (h.sees_eq_some ht).mp ((h.mem_scan ht hl hacc).mp hmem)
  obtain ⟨n, hn⟩ := mem_iff_getElem?.mp hv
  exact ⟨n, v, i, slot, hd, hn, hact, hlog, hl, congrArg Prod.fst hval⟩

lemma Frame.live (hf : Frame txn db db') : db'.live = db.live := by
  rw [Db.live, Db.live, hf.txns]

/-- A cascade does nothing to the rows the transaction sees, deletes one, or sets a column of
one to NULL. -/
inductive CascadeStep (txn : ℕ) (db db' : Db) : Prop
  | quiet (h : Effects txn db [] db')
  | erase (k : ℕ) (h : Effects txn db [(k, none)] db')
  | null (k col i : ℕ) (name : String) (slot : CatalogSlot) (hd : RowTableHeader)
      (values : RowValues)
      (hl : lookupTable db.store name = some (i, slot, hd))
      (hsees : db.sees txn k = some (slot.objectId, values))
      (hser : (serializeRow hd.layout (RowValues.setNull values col)).isSome)
      (h : Effects txn db
        [(k, some (slot.objectId, canon hd.layout (RowValues.setNull values col)))] db')

def Cascade (txn : ℕ) : Db → Db → Prop := Relation.ReflTransGen (CascadeStep txn)

lemma CascadeStep.effects (hs : CascadeStep txn db db') : ∃ ws, Effects txn db ws db' := by
  cases hs with
  | quiet h | erase _ h | null _ _ _ _ _ _ _ _ _ _ h => exact ⟨_, h⟩

section

variable (hc : Cascade txn db db') (hgood : db.Good)
include hc hgood

lemma Cascade.effects : ∃ ws, Effects txn db ws db' := by
  induction hc with
  | refl => exact ⟨[], .refl hgood⟩
  | tail _ hs ih =>
    obtain ⟨ws, heff⟩ := ih
    obtain ⟨ws', heff'⟩ := hs.effects
    exact ⟨_, heff.trans heff'⟩

lemma Cascade.good : db'.Good := (hc.effects hgood).choose_spec.good

lemma Cascade.frame : Frame txn db db' := (hc.effects hgood).choose_spec.frame

end

/-- A call that only writes for its transaction. -/
def WritesOnly (txn : ℕ) (del : Db → String → ℕ → Db × MvccError) : Prop :=
  ∀ db name id, db.Good → txn ∈ db.live → Cascade txn db (del db name id).1

/-- A check wrote for its transaction only, and ended as a check ends. -/
def Checked (txn : ℕ) (db : Db) (r : Db × RowConstraintResult) : Prop :=
  Cascade txn db r.1 ∧ r.2.isCheck

lemma Checked.quiet (hr : r.isCheck) : Checked txn db (db, r) := ⟨.refl, hr⟩

lemma Checked.after (hr : Checked txn db1 r) (hc : Cascade txn db db1) : Checked txn db r :=
  ⟨hc.trans hr.1, hr.2⟩

lemma cascadeRows_checked (hdel : WritesOnly txn del) (hgood : db.Good) (hlive : txn ∈ db.live) :
    Checked txn db (cascadeRows del name ids db) := by
  induction ids generalizing db with
  | nil => exact .quiet rfl
  | cons id ids ih =>
    have hone := hdel db name id hgood hlive
    obtain ⟨db1, err, hd⟩ : ∃ db1 err, del db name id = (db1, err) := ⟨_, _, rfl⟩
    rw [hd] at hone
    have hlive1 : txn ∈ db1.live := (hone.frame hgood).live ▸ hlive
    have hrest := (ih (hone.good hgood) hlive1).after hone
    rw [cascadeRows, hd]
    split
    · next heq =>
      obtain ⟨rfl, -⟩ := Prod.mk.inj heq
      exact hrest
    · next heq =>
      obtain ⟨rfl, -⟩ := Prod.mk.inj heq
      exact hrest
    · next heq =>
      obtain ⟨rfl, -⟩ := Prod.mk.inj heq
      exact ⟨hone, rfl⟩

theorem Db.Inv.sees_of_get (h : db.Inv used) (hin : db.InTable name k)
    (hget : mvccRowGet env db txn uid name k = .ok values)
    (hl : lookupTable db.store name = some (i, slot, hd)) :
    db.sees txn k = some (slot.objectId, values) := by
  unfold mvccRowGet at hget
  split at hget
  · cases hget
  next t ht =>
  obtain ⟨htmem, rfl⟩ := mem_txns_of_find ht
  split at hget
  · cases hget
  next v hv =>
  obtain ⟨n, hn, hvn⟩ := bind_eq_some_iff.mp hv
  obtain ⟨w, hf⟩ := found_of_find hn
  obtain rfl := some.inj (hvn.symm.trans hf.at_slot)
  have htable : v.tableObjectId = slot.objectId := by
    have hown := hin.ownTable h v hf.mem hf.active hf.logical
    rw [hl] at hown
    exact (some.inj hown).symm
  split at hget
  · next values' hrow =>
    obtain rfl := Except.ok.inj hget
    cases hacc : env.access uid name .read with
    | false =>
      obtain ⟨j, hj, hid, -⟩ := h.placed v hf.mem hf.active
      rw [htable, (lookupTable_isTable hl).1.index h.distinct] at hj
      obtain rfl := some.inj hj
      rw [rowstoreRowGet_spec h.heap hl hid, hacc] at hrow
      cases hrow
    | true =>
      rw [h.rowGet_eq hf.mem hf.active hl htable hacc] at hrow
      exact (h.sees_eq_some htmem).mpr ⟨v, hf.mem, hf.active, hf.logical, hf.visible,
        Prod.ext htable (Except.ok.inj hrow)⟩
  · cases hget

lemma setNullRows_checked (hgood : db.Good) (hlive : txn ∈ db.live)
    (hids : ∀ id ∈ ids, db.InTable name id) :
    Checked txn db (setNullRows env txn uid name col ids db) := by
  induction ids generalizing db with
  | nil => exact .quiet rfl
  | cons id ids ih =>
    obtain ⟨used, h⟩ := hgood
    have hrest : ∀ id ∈ ids, db.InTable name id := fun j hj => hids j (mem_cons_of_mem _ hj)
    have hin := hids id (mem_cons_self ..)
    rw [setNullRows]
    split
    · exact ih ⟨used, h⟩ hlive hrest
    · exact .quiet rfl
    · next values hget =>
      obtain ⟨db1, err, hu⟩ : ∃ db1 err, mvccRowUpdate env db txn uid name id
          (RowValues.setNull values col) = (db1, err) := ⟨_, _, rfl⟩
      have hone : Cascade txn db db1 := by
        refine .single ?_
        rcases mvccRowUpdate_spec h (hin.ownTable h) hu with ⟨-, heff⟩ | ⟨-, t, v,
          slot, hd, rfl, hok⟩
        · exact .quiet heff
        · obtain ⟨i, hl⟩ := hok.lookup
          exact .null id col i name slot hd values hl (h.sees_of_get hin hget hl) hok.accepted
            hok.effects
      have hframe := hone.frame ⟨used, h⟩
      have hlive1 : txn ∈ db1.live := hframe.live ▸ hlive
      have htail := ih (hone.good ⟨used, h⟩) hlive1 fun j hj => (hrest j hj).frame hframe h
      rw [hu]
      split
      · next heq =>
        obtain ⟨rfl, -⟩ := Prod.mk.inj heq
        exact htail.after hone
      · next heq =>
        obtain ⟨rfl, -⟩ := Prod.mk.inj heq
        exact ⟨hone, rfl⟩

section Check

variable {del : Option (Db → String → ℕ → Db × MvccError)} (hdel : ∀ d ∈ del, WritesOnly txn d)
  (hgood : db.Good) (hlive : txn ∈ db.live)
include hdel hgood hlive

lemma checkDeleteOne_checked : Checked txn db (checkDeleteOne env txn uid del refVal c db) := by
  unfold checkDeleteOne
  cases c.onDeleteAction with
  | restrict =>
    simp only
    split_ifs <;> exact .quiet rfl
  | cascade =>
    simp only
    split_ifs
    · exact .quiet rfl
    · exact .quiet rfl
    · cases del with
      | none => exact .quiet rfl
      | some d => exact cascadeRows_checked (hdel d rfl) hgood hlive
  | setNull =>
    simp only
    split_ifs
    · exact .quiet rfl
    obtain ⟨used, h⟩ := hgood
    refine setNullRows_checked ⟨used, h⟩ hlive fun id hid => ?_
    obtain ⟨row, hrow, rfl⟩ := mem_map.mp hid
    exact inTable_of_scan h hlive (mem_filter.mp hrow).1

lemma checkDeleteAll_checked :
    Checked txn db (checkDeleteAll env txn uid del tableObjectId values cs db) := by
  induction cs generalizing db with
  | nil => exact .quiet rfl
  | cons c cs ih =>
    rw [checkDeleteAll]
    split_ifs
    · exact ih hgood hlive
    have hone : Checked txn db
        (checkDeleteOne env txn uid del (values.text c.refColumnIndex) c db) :=
      checkDeleteOne_checked hdel hgood hlive
    split
    · next db1 heq =>
      rw [heq] at hone
      exact (ih (hone.1.good hgood) ((hone.1.frame hgood).live ▸ hlive)).after hone.1
    · exact hone

lemma rowConstraintCheckDelete_checked :
    Checked txn db (rowConstraintCheckDelete env db txn uid del name tableObjectId phys) := by
  unfold rowConstraintCheckDelete
  split_ifs
  · split
    · exact .quiet rfl
    · exact checkDeleteAll_checked hdel hgood hlive
  · exact .quiet rfl

end Check

/-- What a successful delete did: the writes of its cascades, and then the row
itself is marked. -/
structure DeleteOk (env : Env) (db db' : Db) (t : MvccTxn) (uid : ℕ) (name : String) (k n : ℕ)
    (v : MvccVersion) : Prop where
  txn : t ∈ db.txns
  found : Found db t k n v
  stop : v.stop = none
  access : env.access uid name .write = true
  marked : db'.versions[n]? = some (v.supersede t.txnId)
  effects : ∃ ws, Effects t.txnId db ws db'

theorem Cascade.mark (hc : Cascade t.txnId db db')
    (h : db.Inv used) (ht : t ∈ db.txns) (hf : Found db t k n v)
    (hconf : ¬ (v.xmaxTxn ≠ 0 ∧ v.xmaxTxn ≠ t.txnId)) :
    (db'.versions.modify n (·.supersede t.txnId))[n]? = some (v.supersede t.txnId) ∧
      Cascade t.txnId db { db' with versions := db'.versions.modify n (·.supersede t.txnId) } := by
  obtain ⟨hstop, hdone⟩ := hf.stop_none h hconf
  have hframe := hc.frame ⟨used, h⟩
  obtain ⟨w, hw, hvw⟩ := hframe.grows n v hf.at_slot
  have hmarked : (db'.versions.modify n (·.supersede t.txnId))[n]? =
      some (w.supersede t.txnId) := by
    rw [getElem?_modify_eq, hw]
    rfl
  rcases hvw with rfl | rfl
  · refine ⟨hmarked, ?_⟩
    obtain ⟨used', h'⟩ := hc.good ⟨used, h⟩
    have hf' : Found db' t k n w := ⟨hw, hf.active, hf.logical, hf.visible⟩
    exact hc.tail (.erase k (hf'.erase h' (hframe.txns ▸ ht) hstop hdone))
  refine ⟨hmarked, ?_⟩
  have hsame : db'.versions.modify n (·.supersede t.txnId) = db'.versions := by
    apply ext_getElem?
    intro i
    rw [getElem?_modify]
    by_cases hni : n = i
    · subst hni
      rw [hw]
      simp [MvccVersion.supersede]
    · simp [hni]
  rwa [hsame]

lemma deleteWith_spec (hdel : ∀ d ∈ del, WritesOnly txn d) (h : db.Inv used)
    (hr : deleteWith env txn uid del db name k = (db', err)) : Cascade txn db db' ∧
      (err = .ok → ∃ t n v, t.txnId = txn ∧ DeleteOk env db db' t uid name k n v) := by
  unfold deleteWith at hr
  split at hr
  · cases hr
    exact ⟨.refl, fun hok => by cases hok⟩
  next t hfind =>
  obtain ⟨ht, rfl⟩ := mem_txns_of_find hfind
  split_ifs at hr with hacc
  · cases hr
    exact ⟨.refl, fun hok => by cases hok⟩
  split at hr
  · cases hr
    exact ⟨.refl, fun hok => by cases hok⟩
  next n hn =>
  obtain ⟨v, hf⟩ := found_of_find hn
  rw [hf.at_slot] at hr
  simp only at hr
  split_ifs at hr with hconf
  · cases hr
    exact ⟨.refl, fun hok => by cases hok⟩
  have hcheck : Checked t.txnId db (rowConstraintCheckDelete env db t.txnId uid del
      name v.tableObjectId v.physicalId) :=
    rowConstraintCheckDelete_checked hdel ⟨used, h⟩ ⟨t, ht, rfl⟩
  split at hr
  · next db1 heq =>
    rw [heq] at hcheck
    cases hr
    obtain ⟨hmarked, hws⟩ := hcheck.1.mark h ht hf hconf
    exact ⟨hws, fun _ => ⟨t, n, v, rfl, ht, hf, (hf.stop_none h hconf).1,
      by simpa using hacc, hmarked, hws.effects ⟨used, h⟩⟩⟩
  · next db1 violation hne heq =>
    rw [heq] at hcheck
    cases hr
    exact ⟨hcheck.1, fun hok => absurd hok (mapConstraintViolation_ne_ok hcheck.2 hne)⟩

lemma deleteWithin_writesOnly : WritesOnly txn (deleteWithin env txn uid levels) := by
  induction levels with
  | zero =>
    rintro db name id ⟨used, h⟩ -
    exact (deleteWith_spec (fun d hd => by cases hd) h rfl).1
  | succ =>
    rintro db name id ⟨used, h⟩ -
    refine (deleteWith_spec (fun d hd => ?_) h rfl).1
    rwa [← some.inj hd]

lemma mvccRowDelete_spec (h : db.Inv used)
    (hr : mvccRowDelete env db txn uid name k = (db', err)) : Cascade txn db db' ∧
      (err = .ok → ∃ t n v, t.txnId = txn ∧ DeleteOk env db db' t uid name k n v) := by
  refine deleteWith_spec (fun d hd => ?_) h hr
  rw [← some.inj hd]
  exact deleteWithin_writesOnly

theorem mvccRowDelete_plain (h : db.Inv used) (hnone : db.constraints = [])
    (hr : mvccRowDelete env db txn uid name k = (db', err)) :
    (err ≠ .ok ∧ db' = db) ∨ (err = .ok ∧ Effects txn db [(k, none)] db') := by
  have hcheck : ∀ del tableObjectId phys, rowConstraintCheckDelete env db txn uid del name
      tableObjectId phys = (db, .ok) := by
    intro del tableObjectId phys
    rw [rowConstraintCheckDelete, hnone]
    rfl
  rw [mvccRowDelete, rowCascadeMaxDepth, deleteWithin, deleteWith] at hr
  split at hr
  · cases hr
    exact .inl ⟨by decide, rfl⟩
  next t hfind =>
  obtain ⟨ht, rfl⟩ := mem_txns_of_find hfind
  split_ifs at hr with hacc
  · grind
  split at hr
  · grind
  next n hn =>
  obtain ⟨v, hf⟩ := found_of_find hn
  rw [hf.at_slot] at hr
  simp only at hr
  split_ifs at hr with hconf
  · grind
  · grind [hf.stop_none, hf.erase]

end Delete

end AeroSLS.Mvcc
