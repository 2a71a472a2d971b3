import AeroSLS.Rowstore.Schema

namespace AeroSLS.Rowstore

open Bytes List Function RowValues Store

def rowstoreAddColumnMaxRows : ℕ := 4096

/-- An old row with NULL in column `newCol`. The texts past the old columns, uninitialised in
the source, are empty here. -/
def RowValues.widen (v : RowValues) (count newCol : ℕ) : RowValues :=
  ⟨v.nullMask ||| (1#16 <<< newCol),
    (v.values ++ replicate (count - v.count) Text.empty).set newCol Text.empty⟩

section Model

variable (env : Env) (s : Store)

/-- The migration on the scratch header. A row that does not serialize is left out; `none`
without a page. -/
def migrateRows (partitionId newCol : ℕ) :
    List RowValues → Store → RowTableHeader → Bool → Store × Option (RowTableHeader × Bool)
  | [], s, h, undurable => (s, some (h, undurable))
  | v :: vs, s, h, undurable =>
    match serializeRow h.layout (v.widen h.layout.columnCount newCol) with
    | none => migrateRows partitionId newCol vs s h undurable
    | some row =>
      match appendRow env s partitionId h row with
      | none => (s, none)
      | some (s', h', _, lost) => migrateRows partitionId newCol vs s' h' (undurable || lost)

/-- Code 7 is both for too many rows and for a success that missed the disk. A failed page
allocation leaves the field in the schema. -/
def rowstoreAddColumn (uid : ℕ) (name column : String) (type : FieldType) : Store × ℕ :=
  match lookupTable s name with
  | none => (s, 1)
  | some (idx, slot, h) =>
    if !env.access uid name .write then (s, 2)
    else if rowstoreMaxColumns ≤ h.layout.columnCount then (s, 4)
    else if h.layout.columns.any (·.name = column) then (s, 3)
    else if slot.schema.fields.any fun f => f.active && f.key = column then (s, 3)
    else match slot.schema.freeField with
      | none => (s, 4)
      | some free =>
        let rows := rowstoreTableScan env s 0 name
        if rowstoreAddColumnMaxRows < rows.length then (s, 7)
        else
          let schema := slot.schema.addField free column type
          match computeLayout schema with
          | none => (s.setSchema idx (schema.dropField free), 4)
          | some layout =>
            match migrateRows env slot.partitionId (layout.columnCount - 1) (rows.map (·.2))
                (s.setSchema idx schema)
                ⟨layout, 0, 0, rowstoreInvalidPage, rowstoreInvalidPage, 0⟩ false with
            | (s', none) => (s', 6)
            | (s', some (h', undurable)) =>
              (s'.setHeader idx h', if undurable then rowstoreRcNotDurable else 0)

end Model

def cellOf (v : RowValues) (c : ℕ) (col : Column) : String × Bool × Option Text :=
  (col.name, v.isNull c, if col.type = .float then none else some (v.text c))

def cells (layout : RowTableLayout) (v : RowValues) : List (String × Bool × Option Text) :=
  layout.columns.mapIdx (cellOf v)

/-- The cell of a new column. -/
def nullCell (name : String) (type : FieldType) : String × Bool × Option Text :=
  (name, true, if type = .float then none else some Text.empty)

section

variable (v : RowValues)
include v

lemma isNull_widen (count : ℕ) (hn : n < 16) (c : ℕ) :
    (v.widen count n).isNull c = (v.isNull c || decide (c = n)) := by
  rw [isNull, widen, BitVec.getLsbD_or]
  congr 1
  rcases Nat.lt_trichotomy c n with h | h | h
  · simp [h, Nat.ne_of_lt h]
  · simp [h, hn]
  · simp [Nat.ne_of_gt h, show c - n ≠ 0 by omega]

lemma text_widen (count : ℕ) (hc : c < v.count) (hne : c ≠ n) :
    (v.widen count n).text c = v.text c := by
  rw [text, text, widen, getD_eq_getElem?_getD,
    getD_eq_getElem?_getD, getElem?_set_ne (Ne.symm hne), getElem?_append_left hc]

end

section Migrated

variable {layout layout' : RowTableLayout}

def migrated (layout layout' : RowTableLayout) (v : RowValues) : RowValues :=
  v.widen layout'.columnCount layout.columnCount

lemma columnCount_of_append (hcols : layout'.columns = layout.columns ++ [col]) :
    layout'.columnCount = layout.columnCount + 1 ∧ layout.columnCount < 16 := by
  have hcount : layout'.columnCount = layout.columnCount + 1 := by
    rw [RowTableLayout.columnCount, hcols, length_append]
    rfl
  have hle : layout'.columnCount ≤ 16 := layout'.columns_le
  omega

lemma isNull_migrated (hcols : layout'.columns = layout.columns ++ [col]) :
    (migrated layout layout' (canon layout u)).isNull c =
      (u.isNull c || decide (c = layout.columnCount)) := by
  rw [migrated, isNull_widen _ _ (columnCount_of_append hcols).2]
  rfl

lemma text_migrated (hcol : layout.columns[c]? = some old) :
    (migrated layout layout' (canon layout u)).text c = canonText u c old := by
  have hlt : c < layout.columnCount := (List.getElem?_eq_some_iff.mp hcol).1
  rw [migrated, text_widen _ _ (by rw [canon_count]; exact hlt) (Nat.ne_of_lt hlt),
    canon_text u hcol]

section

variable (hcols : layout'.columns = layout.columns ++ [col])
include hcols

lemma column_cases (hc : layout'.columns[c]? = some x) :
    layout.columns[c]? = some x ∨ (c = layout.columnCount ∧ x = col) := by
  rw [hcols] at hc
  rcases Nat.lt_trichotomy c layout.columnCount with hlt | heq | hgt
  · rw [getElem?_append_left hlt] at hc
    exact .inl hc
  · grind
  · have hlt := (List.getElem?_eq_some_iff.mp hc).1
    rw [length_append] at hlt
    change c < layout.columnCount + 1 at hlt
    omega

lemma serializeRow_migrated (hu : (serializeRow layout u).isSome) :
    (serializeRow layout' (migrated layout layout' (canon layout u))).isSome := by
  have hparse := (serializeRow_isSome_iff u).mp hu
  refine (serializeRow_isSome_iff _).mpr fun c x hc hnull => ?_
  rw [isNull_migrated hcols, Bool.or_eq_false_iff, decide_eq_false_iff_not] at hnull
  have hold := (column_cases hcols hc).resolve_right fun hnew => hnull.2 hnew.1
  obtain ⟨y, hy, -⟩ := parseCell_canonText hnull.1 (hparse c x hold hnull.1)
  rw [text_migrated hold, hy]
  rfl

theorem cellOf_migrated (hu : (serializeRow layout u).isSome)
    (hcol : layout.columns[c]? = some old) :
    cellOf (canon layout' (migrated layout layout' (canon layout u))) c old =
      cellOf (canon layout u) c old := by
  have hlt : c < layout.columnCount := (List.getElem?_eq_some_iff.mp hcol).1
  have hcol' : layout'.columns[c]? = some old := by rw [hcols, getElem?_append_left hlt, hcol]
  have hnull : (migrated layout layout' (canon layout u)).isNull c = u.isNull c := by
    rw [isNull_migrated hcols, decide_eq_false (Nat.ne_of_lt hlt), Bool.or_false]
  have htext : old.type ≠ .float →
      canonText (migrated layout layout' (canon layout u)) c old = canonText u c old := by
    intro hfloat
    cases hun : u.isNull c with
    | true => rw [canonText, canonText, hnull, hun, if_pos rfl, if_pos rfl]
    | false =>
      obtain ⟨y, hy, hyx⟩ :=
        parseCell_canonText hun ((serializeRow_isSome_iff u).mp hu c old hcol hun)
      rw [canonText, hnull, hun, text_migrated hcol, hy]
      exact hyx hfloat
  have hmask : ∀ l x, (canon l x).isNull c = x.isNull c := fun _ _ => rfl
  rw [cellOf, cellOf, hmask, hmask, canon_text _ hcol', canon_text _ hcol, hnull]
  by_cases hfloat : old.type = .float
  · rw [if_pos hfloat, if_pos hfloat]
  · rw [if_neg hfloat, if_neg hfloat, htext hfloat]

lemma cellOf_migrated_new :
    cellOf (canon layout' (migrated layout layout' (canon layout u))) layout.columnCount col =
      nullCell col.name col.type := by
  have hcol' : layout'.columns[layout.columnCount]? = some col := by
    rw [hcols, RowTableLayout.columnCount, getElem?_concat_length]
  have hnull : (migrated layout layout' (canon layout u)).isNull layout.columnCount := by
    rw [isNull_migrated hcols, decide_eq_true rfl, Bool.or_true]
  have hmask :
      (canon layout' (migrated layout layout' (canon layout u))).isNull layout.columnCount =
      true := hnull
  rw [cellOf, nullCell, hmask, canon_text _ hcol', canonText, if_pos hnull]

lemma cells_migrated (hu : (serializeRow layout u).isSome) :
    cells layout' (canon layout' (migrated layout layout' (canon layout u))) =
      cells layout (canon layout u) ++ [nullCell col.name col.type] := by
  rw [cells, hcols, mapIdx_concat]
  congr 1
  · apply mapIdx_eq_mapIdx_iff.mpr
    intro c hc
    exact cellOf_migrated hcols hu (getElem?_eq_getElem hc)
  · exact congrArg (fun x => [x]) (cellOf_migrated_new hcols)

end

end Migrated

/-- The scratch chain grew by the given rows. -/
structure Moved (s s' : Store) (h h' : RowTableHeader) (pages pages' : List ℕ) (ids : List RowId)
    (vs : List RowValues) : Prop extends Extends s s' h h' pages pages' where
  rowIds_eq : rowIds h' pages' = rowIds h pages ++ ids
  rows : ∀ id ∈ rowIds h pages, rowAt s'.page h.layout id = rowAt s.page h.layout id
  moved : ids.map (rowAt s'.page h.layout) = vs.map fun v => some (canon h.layout v)

lemma migrateRows_spec {env : Env} {s s' : Store} (hc : Chained s.page h pages) (hpool : Pool s)
    (hal : ∀ p ∈ pages, Allocated s p)
    (hser : ∀ v ∈ vs, (serializeRow h.layout (v.widen h.layout.columnCount newCol)).isSome)
    (hm : migrateRows env partitionId newCol vs s h lost = (s', some (h', lost'))) :
    ∃ pages' ids, Moved s s' h h' pages pages' ids
      (vs.map (·.widen h.layout.columnCount newCol)) := by
  induction vs generalizing s h pages lost with
  | nil =>
    obtain ⟨rfl, rfl, -⟩ := hm
    exact ⟨pages, [], .refl hc hpool hal, by simp, fun _ _ => rfl, rfl⟩
  | cons v vs ih =>
    obtain ⟨row, hrow⟩ := Option.isSome_iff_exists.mp (hser v (mem_cons_self ..))
    rw [migrateRows, hrow] at hm
    simp only at hm
    split at hm
    · cases hm
    next s1 h1 id lost1 happ =>
    obtain ⟨pages1, ha⟩ := appendRow_spec hc hpool hal hrow happ
    have hlay := ha.layout
    obtain ⟨pages', ids, hmv⟩ := ih ha.chained ha.pool ha.allocated
      (fun w hw => by rw [hlay]; exact hser w (mem_cons_of_mem _ hw)) hm
    refine ⟨pages', id :: ids, ha.toExtends.trans hmv.toExtends, ?_, fun id' hid' => ?_, ?_⟩
    · rw [hmv.rowIds_eq, ha.rowIds_eq, append_assoc]
      rfl
    · grind [ha.rowIds_eq, ha.rows, hmv.rows]
    · grind [ha.rowIds_eq, ha.row, hmv.rows, hmv.moved]

lemma Extends.replace {s s' : Store}
    (hext : Extends s s' h h' [] pages') (pages : List ℕ) : Extends s s' h h' pages pages' where
  chained := hext.chained
  pool := hext.pool
  allocated := hext.allocated
  keeps := hext.keeps
  fresh p hp := .inr ((hext.fresh p hp).resolve_left not_mem_nil)
  frame p hal _ := hext.frame p hal not_mem_nil
  layout := hext.layout
  slots := hext.slots

lemma Heap.row_canon {s : Store} {used : ℕ → List RowId} (hs : Heap s used) {idx : ℕ}
    {h : RowTableHeader} (hh : s.header idx = some h) {id : RowId} (hid : id ∈ liveIds s used idx) :
    ∃ u, (serializeRow h.layout u).isSome ∧ rowValue s idx id = canon h.layout u := by
  obtain ⟨chain, hon, hused⟩ := hs
  obtain ⟨hmem, hsome⟩ := mem_liveIds.mp hid
  rw [hused, usedIds_of_header hh] at hmem
  rw [row_of_header hh, rowAt] at hsome
  split_ifs at hsome with hlive
  · cases hsome
  obtain ⟨u, buf, hser, hagree⟩ := (hon.tables idx h hh).written id hmem hlive
  refine ⟨u, by rw [hser]; rfl, ?_⟩
  rw [rowValue, row_of_header hh, rowAt, if_neg hlive, Option.getD_some,
    deserializeRow_of_agree hser hagree]

structure ColumnAdded (s s' : Store) (used : ℕ → List RowId) (idx : ℕ) (h h' : RowTableHeader)
    (schema : ObjectSchema) (ids : List RowId) (column : String) (type : FieldType) : Prop where
  heap : Heap s' (update used idx ids)
  slots : s'.slots = s.slots.modify idx fun t => { t with schema := schema, header := some h' }
  filled : schema.Filled
  layout : computeLayout schema = some h'.layout
  columns : h'.layout.columns = h.layout.columns ++ [⟨column, type, h.layout.rowWidth⟩]
  live : ∀ id ∈ ids, (s'.row idx id).isSome
  rows : ids.map (fun id => cells h'.layout (rowValue s' idx id)) =
    (liveIds s used idx).map fun id =>
      cells h.layout (rowValue s idx id) ++ [nullCell column type]
  frame : ∀ i, i ≠ idx → ∀ id ∈ used i, s'.row i id = s.row i id

namespace ColumnAdded

variable {s : Store}

section

variable (ha : ColumnAdded s s' used idx h h' schema ids column type)
include ha

lemma isTable (htab : IsTable s idx slot h) :
    IsTable s' idx { slot with schema := schema, header := some h' } h' := by
  refine ⟨?_, htab.2.1, rfl⟩
  rw [ha.slots, getElem?_modify, htab.1]
  simp

lemma sameTables (htab : IsTable s idx slot h) : SameTables s s' := by
  rw [SameTables, ha.slots]
  apply ext_getElem?
  intro i
  rw [getElem?_map, getElem?_map, getElem?_modify]
  by_cases hi : idx = i
  · subst hi
    rw [htab.1]
    simp [CatalogSlot.identity, htab.2.2]
  · simp [hi]

lemma laidOut (htab : IsTable s idx slot h) (hout : LaidOut s) : LaidOut s' :=
  hout.modify htab.1 ha.slots ha.filled fun g hg => by
    rw [← Option.some.inj hg]
    exact ha.layout

lemma liveIds_eq : liveIds s' (update used idx ids) idx = ids := by
  rw [liveIds, update_self, filter_eq_self]
  exact ha.live

end

end ColumnAdded

section AddColumn

variable {env : Env} {s : Store}

lemma header_setSchema : (s.setSchema idx schema).header i = s.header i := by
  simp only [header, setSchema, getElem?_modify]
  cases s.slots[i]? with
  | none => rfl
  | some => by_cases hi : idx = i <;> simp [hi]

lemma HeapOn.setSchema (hon : HeapOn s chain) (idx : ℕ)
    (schema : ObjectSchema) : HeapOn (s.setSchema idx schema) chain :=
  ⟨hon.pool, fun i g hg => hon.tables i g (header_setSchema ▸ hg), hon.allocated, hon.disjoint⟩

lemma row_setSchema (id : RowId) : (s.setSchema idx schema).row i id = s.row i id := by
  rw [row, header_setSchema]
  rfl

theorem columnAdded_of_moved (hs : Heap s used) (hslot : s.slots[idx]? = some slot)
    (hh : slot.header = some h) {schema : ObjectSchema} (hfilled : schema.Filled) {s1 : Store}
    {h0 h' : RowTableHeader} (hlay : computeLayout schema = some h0.layout)
    (hcols : h0.layout.columns = h.layout.columns ++ [⟨column, type, h.layout.rowWidth⟩])
    {ids : List RowId} (hids0 : rowIds h0 [] = [])
    (hmv : Moved (s.setSchema idx schema) s1 h0 h' [] pages' ids
      ((liveIds s used idx).map fun id => migrated h.layout h0.layout (rowValue s idx id))) :
    ColumnAdded s (s1.setHeader idx h') used idx h h' schema ids column type := by
  have hhead := header_of_slot hslot hh
  have hcanon : ∀ id ∈ liveIds s used idx, ∃ u, (serializeRow h.layout u).isSome ∧
      rowValue s idx id = canon h.layout u := fun id hid => hs.row_canon hhead hid
  obtain ⟨chain, hon, hused⟩ := hs
  have hslot' : (s.setSchema idx schema).slots[idx]? = some { slot with schema := schema } := by
    simp [setSchema, hslot]
  obtain ⟨hon', hidsOther, hrows, hhead'⟩ :=
    (hon.setSchema idx schema).extend hslot' (hmv.toExtends.replace (chain idx))
  have hrowids : rowIds h' pages' = ids := by rw [hmv.rowIds_eq, hids0, nil_append]
  have hrow : ∀ id, (s1.setHeader idx h').row idx id = rowAt s1.page h0.layout id := by
    intro id
    rw [row_of_header hhead', hmv.layout]
    rfl
  have hread : ids.map (fun id => (s1.setHeader idx h').row idx id) =
      (liveIds s used idx).map fun id =>
      some (canon h0.layout (migrated h.layout h0.layout (rowValue s idx id))) := by
    simp only [hrow]
    rw [hmv.moved, map_map]
    rfl
  have hsame : ∀ i, usedIds (s.setSchema idx schema) chain i = used i := by
    intro i
    rw [hused, usedIds, usedIds, header_setSchema]
  refine ⟨⟨_, hon', fun i => ?_⟩, ?_, hfilled, hmv.layout ▸ hlay, hmv.layout ▸ hcols,
    fun id hid => ?_, ?_,
    fun i hi id hid => ?_⟩
  · grind [usedIds_of_header]
  · rw [setHeader, hmv.slots, setSchema, modify_modify_eq]
    rfl
  · have hmem : (s1.setHeader idx h').row idx id ∈
        ids.map (fun id => (s1.setHeader idx h').row idx id) := mem_map_of_mem hid
    rw [hread] at hmem
    obtain ⟨id', -, heq⟩ := mem_map.mp hmem
    rw [← heq]
    rfl
  · have hvalues : ids.map (fun id => cells h'.layout (rowValue (s1.setHeader idx h') idx id)) =
        (ids.map fun id => (s1.setHeader idx h').row idx id).map fun r =>
          cells h'.layout (r.getD ⟨0, []⟩) := by
      rw [map_map]
      rfl
    rw [hvalues, hread, map_map, hmv.layout]
    apply map_congr_left
    intro id hid
    obtain ⟨u, hu, hval⟩ := hcanon id hid
    rw [comp_apply, hval]
    exact cells_migrated hcols hu
  · rw [hrows i hi id (by rw [hsame]; exact hid), row_setSchema]

/-- Success is a new column or nothing: a table with too many rows is left alone under a success
code. -/
theorem rowstoreAddColumn_spec (hs : Heap s used) (hout : LaidOut s)
    (hl : lookupTable s name = some (idx, slot, h))
    (hr : rowstoreAddColumn env s uid name column type = (s', rc)) (hrc : rc = 0 ∨ rc = 7) :
    (s' = s ∧ rowstoreAddColumnMaxRows < (liveIds s used idx).length) ∨
      ∃ h' schema ids, ColumnAdded s s' used idx h h' schema ids column type := by
  obtain ⟨hslot, hh, -, -⟩ := lookupTable_spec hl
  obtain ⟨hfilled, hlayout⟩ := hout slot (mem_of_getElem? hslot)
  have hscan := rowstoreTableScan_live hs hl (env.kernel name .read)
  have hcode : ∀ {n : ℕ} {s1 : Store}, (s1, n) = (s', rc) → n ≠ 0 → n ≠ 7 → False := by grind
  simp only [rowstoreAddColumn, hl, hscan, length_map, map_map] at hr
  iterate 4
    split at hr
    · exact (hcode hr (by decide) (by decide)).elim
  split at hr
  · exact (hcode hr (by decide) (by decide)).elim
  next free hfree =>
  split at hr
  · next hmany => exact .inl ⟨(Prod.mk.inj hr).1.symm, hmany⟩
  split at hr
  · exact (hcode hr (by decide) (by decide)).elim
  next layout hlay =>
  have hcols := computeLayout_addField hfilled hfree (hlayout h hh) hlay
  split at hr
  · exact (hcode hr (by decide) (by decide)).elim
  next s1 h' lost hm =>
  have hnew : layout.columnCount - 1 = h.layout.columnCount := by
    rw [(columnCount_of_append hcols).1, Nat.add_sub_cancel]
  rw [hnew] at hm
  have hpool : Pool (s.setSchema idx (slot.schema.addField free column type)) := by
    obtain ⟨chain, hon, -⟩ := hs
    exact hon.pool
  have hser : ∀ v ∈ (liveIds s used idx).map (rowValue s idx),
      (serializeRow layout (v.widen layout.columnCount h.layout.columnCount)).isSome := by
    intro v hv
    obtain ⟨id, hid, rfl⟩ := mem_map.mp hv
    obtain ⟨u, hu, hval⟩ := hs.row_canon (header_of_slot hslot hh) hid
    rw [hval]
    exact serializeRow_migrated hcols hu
  obtain ⟨pages', ids, hmv⟩ := migrateRows_spec (Chained.nil _) hpool
    (fun p hp => absurd hp not_mem_nil) hser hm
  rw [map_map] at hmv
  have hadded := columnAdded_of_moved hs hslot hh (hfilled.addField hfree) hlay hcols rfl hmv
  rw [(Prod.mk.inj hr).1] at hadded
  exact .inr ⟨h', _, ids, hadded⟩

end AddColumn

end AeroSLS.Rowstore
