import AeroSLS.Lib.Worlds
import AeroSLS.Mvcc.Alter

namespace AeroSLS.Mvcc

open Rowstore Version Machine Option RowValues MvccVersion

def typedAt (type : FieldType) (v : RowValues) (c : ℕ) : Option TypedValue :=
  if v.isNull c then none else parseCell type (v.text c).1

/-- A text is how the value it stands for is shown. -/
def Canonical (type : FieldType) (s : Text) : Prop :=
  ∀ x ∈ parseCell type s.1, s = Text.ofBytes x.render

instance (type : FieldType) (s : Text) : Decidable (Canonical type s) :=
  inferInstanceAs (Decidable (∀ x ∈ parseCell type s.1, _))

section Typed

variable {v : RowValues}

lemma parseCell_of_typedAt (h : typedAt type v c = some x) :
    v.isNull c = false ∧ parseCell type (v.text c).1 = some x := by
  rw [typedAt] at h
  split_ifs at h with hnull
  exact ⟨by simpa using hnull, h⟩

lemma typedAt_of_null (h : v.isNull c) : typedAt type v c = none := if_pos h

lemma typedAt_of_ne_null (h : v.isNull c = false) :
    typedAt type v c = parseCell type (v.text c).1 :=
  if_neg (by rw [h]; exact Bool.false_ne_true)

lemma typedAt_canon (hcol : layout.columns[c]? = some col) (hfloat : col.type ≠ .float)
    (hser : (serializeRow layout v).isSome) :
    typedAt col.type (canon layout v) c = typedAt col.type v c := by
  cases hnull : v.isNull c with
  | true => rw [typedAt_of_null hnull, typedAt_of_null (v := canon layout v) hnull]
  | false =>
    obtain ⟨x, hx⟩ := isSome_iff_exists.mp ((serializeRow_isSome_iff v).mp hser c col hcol hnull)
    obtain ⟨y, hy, hyx⟩ := parseCell_render hx
    rw [typedAt_of_ne_null hnull, typedAt_of_ne_null (v := canon layout v) hnull,
      canon_text v hcol, (canonText_of_parse hnull hx).2, hy, hyx hfloat, hx]

lemma text_canon_of_typedAt (hcol : layout.columns[c]? = some col) (hfloat : col.type ≠ .float)
    (hser : (serializeRow layout v).isSome) (hx : typedAt col.type (canon layout v) c = some x) :
    (canon layout v).text c = Text.ofBytes x.render := by
  rw [typedAt_canon hcol hfloat hser] at hx
  obtain ⟨hnull, hparse⟩ := parseCell_of_typedAt hx
  rw [canon_text v hcol, (canonText_of_parse hnull hparse).1]

lemma isNull_setNull (hn : n < 16) : (setNull v n).isNull c = (v.isNull c || decide (c = n)) := by
  have hwiden := isNull_widen v 0 hn c
  exact hwiden

lemma text_setNull (hne : c ≠ n) : (setNull v n).text c = v.text c := by
  rw [text, text, setNull, List.getD_eq_getElem?_getD,
    List.getD_eq_getElem?_getD, List.getElem?_set_ne (Ne.symm hne)]

/-- Setting a column to NULL gives no column a new value. -/
theorem typedAt_setNull (hc : c < 16) (hx : typedAt type (setNull v n) c = some x) :
    typedAt type v c = some x := by
  obtain ⟨hnull, hparse⟩ := parseCell_of_typedAt hx
  have hmask : (setNull v n).isNull c ∨ c ≠ n ∧ (setNull v n).isNull c = v.isNull c := by
    by_cases hcn : c = n
    · grind [isNull_setNull]
    right
    refine ⟨hcn, ?_⟩
    by_cases hn : n < 16
    · rw [isNull_setNull hn, decide_eq_false hcn, Bool.or_false]
    -- a bit beyond the mask
    rw [isNull, isNull, setNull, BitVec.getLsbD_or, BitVec.getLsbD_shiftLeft]
    simp [show c < n by omega]
  rcases hmask with htrue | ⟨hcn, hsame⟩
  · rw [htrue] at hnull
    cases hnull
  · grind [typedAt_of_ne_null, text_setNull]

end Typed

section Rows

variable {db : Db} {v : MvccVersion} {slot : CatalogSlot} {hd : RowTableHeader}

lemma Db.Inv.cell_canon (h : db.Inv used) (hv : v ∈ db.versions) (hact : v.active)
    (hl : lookupTable db.store name = some (i, slot, hd))
    (htable : v.tableObjectId = slot.objectId) :
    ∃ u, (serializeRow hd.layout u).isSome ∧
      (v.cell db.store).val = (slot.objectId, canon hd.layout u) := by
  obtain ⟨hslot, hh, -, -⟩ := lookupTable_spec hl
  obtain ⟨j, hj, hused, hsome⟩ := h.placed v hv hact
  rw [htable, (lookupTable_isTable hl).1.index h.distinct] at hj
  obtain rfl := some.inj hj
  obtain ⟨u, hu, hval⟩ :=
    h.heap.row_canon (header_of_slot hslot hh) (mem_liveIds.mpr ⟨hused, hsome⟩)
  refine ⟨u, hu, Prod.ext htable ?_⟩
  have hindex := (lookupTable_isTable hl).1.index h.distinct
  rw [← hval, cell, row, htable, hindex]
  rfl

lemma lookupTable_eq_of_objectId (hdist : DistinctTables db.store)
    (hl : lookupTable db.store name = some (i, slot, hd))
    (hl' : lookupTable db.store name' = some (i', slot', hd'))
    (hid : slot'.objectId = slot.objectId) :
    i' = i ∧ slot' = slot ∧ hd' = hd := by
  have hindex := (lookupTable_isTable hl).1.index hdist
  have hindex' := (lookupTable_isTable hl').1.index hdist
  rw [hid, hindex] at hindex'
  obtain rfl := some.inj hindex'
  obtain ⟨hslot, hh, -, -⟩ := lookupTable_spec hl
  obtain ⟨hslot', hh', -, -⟩ := lookupTable_spec hl'
  obtain rfl := some.inj (hslot'.symm.trans hslot)
  exact ⟨rfl, rfl, some.inj (hh'.symm.trans hh)⟩

/-- What a world holds comes from a version no commit has stopped, nor a transaction of
the world. -/
theorem Db.Inv.world_version (h : db.Inv used) (hx : db.pool.world S k = some x) :
    ∃ v ∈ db.versions, v.active ∧ v.logicalId = k ∧ (v.cell db.store).val = x ∧
      v.xmaxCommitted = false ∧ ∀ t ∈ S, t ≠ 0 → v.xmaxTxn ≠ t := by
  obtain ⟨c, hc, hval, hstop⟩ := h.pool.world_cell hx
  obtain ⟨v, hv, hact, hlog, rfl⟩ := mem_history.mp hc
  have hdone : v.xmaxCommitted = false := by
    by_contra hcom
    rw [Bool.not_eq_false] at hcom
    obtain ⟨u, -, hu⟩ := hstop (.committed v.xmax) (by rw [cell, stop, if_pos hcom])
    cases hu
  refine ⟨v, hv, hact, hlog, hval, hdone, fun t ht ht0 heq => ?_⟩
  have hpend : (v.cell db.store).stop = some (.pending t) := by
    rw [cell, stop, hdone, heq]
    simp [ht0]
  obtain ⟨u, hu, hut⟩ := hstop _ hpend
  cases hut
  exact hu ht

end Rows

section Steps

variable {db : Db}

lemma Effects.pool_of_nil (h : Effects txn db [] db') : db'.pool = db.pool := by
  cases h with
  | quiet _ _ hpool => exact hpool

lemma Effects.step_of_single (h : Effects txn db [(k, x)] db') :
    db.pool.Step db'.pool (.write txn k x) := by
  cases h with
  | write _ _ hstep hrest => rwa [hrest.pool_of_nil]

lemma Db.Inv.begin_sees (h : db.Inv used) (hb : mvccBegin db = (db', t)) (ht : t ≠ 0) :
    db'.sees t k = db.pool.world ∅ k := by
  rcases mvccBegin_spec h with hfull | ⟨hid, -, hstep⟩
  · grind
  rw [hb] at hid hstep
  obtain rfl : t = db.nextTxnId := hid
  rw [Pool.world_empty]
  cases hstep with
  | begin _ _ hnot hhist _ hself =>
    have hnone : ∀ u, u ∉ db.live → .pending u ∉ stamps (db.history k) :=
      fun u hu hp => hu (h.pool.pending k u hp)
    show view ⟨db.nextTxnId, db'.pool.snap db.nextTxnId⟩ (db'.pool.hist k) = _
    rw [hself, hhist]
    exact Pool.view_of_not_pending (hnone _ hnot) (hnone 0 h.pool.zero)

lemma Stepped.ensures (hs : Stepped db a es) (h : db.Inv used)
    (hw : a.2.writer = none) (hens : db.pool.Ensures Φ) : (db.step a).pool.Ensures Φ := by
  refine hs.steps.induction (I := fun Q => Q.Ensures Φ) hens h.pool
    fun Q Q' e he hQ hstep hQens => ?_
  refine hQens.step hQ hstep fun t j v heq => ?_
  subst heq
  have hwriter : a.2.writer = some t := hs.emits _ he
  rw [hw] at hwriter
  cases hwriter

end Steps

end AeroSLS.Mvcc
