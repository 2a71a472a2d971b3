import AeroSLS.Rowstore.Heap

namespace AeroSLS.Rowstore

open Bytes List Function Store

variable {α : Type}

namespace Store

def header (s : Store) (idx : ℕ) : Option RowTableHeader := (s.slots[idx]?).bind (·.header)

/-- What a row of the table in slot `idx` reads as. -/
def row (s : Store) (idx : ℕ) (id : RowId) : Option RowValues :=
  (s.header idx).bind fun h => rowAt s.page h.layout id

end Store

/-- A catalog slot without the table's counters. -/
def CatalogSlot.shape (t : CatalogSlot) :
    ℕ × String × Bool × ℕ × ObjectSchema × Option RowTableLayout :=
  (t.objectId, t.name, t.active, t.partitionId, t.schema, t.header.map (·.layout))

/-- No table appeared, vanished or changed its columns. -/
def SameCatalog (s s' : Store) : Prop := s'.slots.map (·.shape) = s.slots.map (·.shape)

lemma SameCatalog.trans (h : SameCatalog s s') (h' : SameCatalog s' s'') :
    SameCatalog s s'' := Eq.trans h' h

section Headers

variable {s : Store} {idx : ℕ} {h : RowTableHeader}

lemma header_of_slot (hslot : s.slots[idx]? = some slot) (hh : slot.header = some h) :
    s.header idx = some h := by
  rwa [header, hslot]

lemma lookupTable_spec (hl : lookupTable s name = some (idx, slot, h)) :
    s.slots[idx]? = some slot ∧ slot.header = some h ∧ slot.active ∧ slot.name = name := by
  simp only [lookupTable, Option.bind_eq_some_iff, Option.map_eq_some_iff] at hl
  obtain ⟨i, hfind, t, ht, g, hg, rfl, rfl, rfl⟩ := hl
  obtain ⟨hlt, hp, -⟩ := findIdx?_eq_some_iff_getElem.mp hfind
  rw [getElem?_eq_getElem hlt] at ht
  obtain rfl := Option.some.inj ht
  simp only [Bool.and_eq_true, decide_eq_true_eq] at hp
  exact ⟨getElem?_eq_getElem hlt, hg, hp.1.1, hp.2⟩

lemma header_setHeader (hslot : s.slots[idx]? = some slot) (g : RowTableHeader) (i : ℕ) :
    (s.setHeader idx g).header i = if i = idx then some g else s.header i := by
  simp only [header, setHeader]
  by_cases hi : i = idx
  · subst hi
    simp [hslot]
  · simp [hi, Ne.symm hi]

lemma sameCatalog_setHeader (hslot : s.slots[idx]? = some slot) (hh : slot.header = some h)
    {s' : Store} {g : RowTableHeader} (hs' : s'.slots = s.slots) (hg : g.layout = h.layout) :
    SameCatalog s (s'.setHeader idx g) := by
  apply ext_getElem?
  intro i
  simp only [setHeader, hs']
  by_cases hi : idx = i
  · subst hi
    simp [hslot, CatalogSlot.shape, hh, hg]
  · simp [hi]

end Headers

/-- Every table lives on its own pages of the pool. -/
structure HeapOn (s : Store) (chain : ℕ → List ℕ) : Prop where
  pool : Pool s
  tables : ∀ idx h, s.header idx = some h → Chained s.page h (chain idx)
  allocated : ∀ idx, ∀ p ∈ chain idx, Allocated s p
  disjoint : ∀ i j p, p ∈ chain i → p ∈ chain j → i = j

def usedIds (s : Store) (chain : ℕ → List ℕ) (idx : ℕ) : List RowId :=
  ((s.header idx).map fun h => rowIds h (chain idx)).getD []

/-- The row ids handed out so far are `used`, table by table and in order. -/
def Heap (s : Store) (used : ℕ → List RowId) : Prop :=
  ∃ chain, HeapOn s chain ∧ ∀ idx, used idx = usedIds s chain idx

section Heap

variable {s s' : Store} {chain : ℕ → List ℕ} {idx : ℕ} {id : RowId} {h : RowTableHeader}

lemma usedIds_of_header (hh : s.header idx = some h) :
    usedIds s chain idx = rowIds h (chain idx) := by
  rw [usedIds, hh, Option.map_some, Option.getD_some]

lemma row_of_header (hh : s.header idx = some h) : s.row idx id = rowAt s.page h.layout id := by
  rw [row, hh, Option.bind_some]

lemma mem_usedIds (hid : id ∈ usedIds s chain idx) :
    ∃ h, s.header idx = some h ∧ id ∈ rowIds h (chain idx) := by
  cases hh : s.header idx with
  | none => simp [usedIds, hh] at hid
  | some h =>
    rw [usedIds_of_header hh] at hid
    exact ⟨h, rfl, hid⟩

lemma mem_chain_of_mem_usedIds (hid : id ∈ usedIds s chain idx) : id.pageId ∈ chain idx := by
  obtain ⟨h, -, hmem⟩ := mem_usedIds hid
  exact (mem_rowIds.mp hmem).1

lemma Heap.nodup (hs : Heap s used) (idx : ℕ) : (used idx).Nodup := by
  obtain ⟨chain, hon, hused⟩ := hs
  rw [hused]
  cases hh : s.header idx with
  | none => simp [usedIds, hh]
  | some h =>
    rw [usedIds_of_header hh]
    exact (hon.tables idx h hh).nodup_rowIds

lemma Heap.table_unique (hs : Heap s used) (hi : id ∈ used i) (hj : id ∈ used j) : i = j := by
  obtain ⟨chain, hon, hused⟩ := hs
  rw [hused] at hi hj
  exact hon.disjoint i j _ (mem_chain_of_mem_usedIds hi) (mem_chain_of_mem_usedIds hj)

theorem HeapOn.extend (hon : HeapOn s chain)
    (hslot : s.slots[idx]? = some slot) (hext : Extends s s' h h' (chain idx) pages') :
    HeapOn (s'.setHeader idx h') (update chain idx pages') ∧
      (∀ i, i ≠ idx → usedIds (s'.setHeader idx h') (update chain idx pages') i =
        usedIds s chain i) ∧
      (∀ i, i ≠ idx → ∀ id ∈ usedIds s chain i, (s'.setHeader idx h').row i id = s.row i id) ∧
      (s'.setHeader idx h').header idx = some h' := by
  have hslot' : s'.slots[idx]? = some slot := by rw [hext.slots, hslot]
  have hhead : ∀ i, (s'.setHeader idx h').header i = if i = idx then some h' else s.header i := by
    intro i
    rw [header_setHeader hslot', header, hext.slots]
    rfl
  have hpages : ∀ i, i ≠ idx → ∀ p ∈ chain i, s'.page p = s.page p := by
    grind [hext.frame, hon.allocated, hon.disjoint]
  have hother : ∀ i, i ≠ idx → ∀ g, s.header i = some g → ∀ id ∈ rowIds g (chain i),
      slotBytes s'.page g.layout id = slotBytes s.page g.layout id := by
    intro i hi g _ id hid
    unfold slotBytes
    rw [hpages i hi _ (mem_rowIds.mp hid).1]
  refine ⟨⟨hext.pool, ?_, ?_, ?_⟩, ?_, ?_, (hhead idx).trans (if_pos rfl)⟩
  · intro i g hg
    rw [hhead] at hg
    by_cases hi : i = idx
    · subst hi
      rw [if_pos rfl] at hg
      obtain rfl := Option.some.inj hg
      rw [update_self]
      exact hext.chained
    rw [if_neg hi] at hg
    rw [update_of_ne hi]
    have hc := hon.tables i g hg
    refine ⟨hc.first, hc.last, hc.linked.congr fun p hp => ?_, hc.nodup, hc.small, hc.room, ?_⟩
    · show Buf.Agree 4 (s.page p) (s'.page p)
      rw [hpages i hi p hp]
      exact fun _ _ => rfl
    intro id hid
    have hw := hc.written id hid
    show slotBytes s'.page g.layout id 0 ≠ 0 → ∃ v buf, serializeRow g.layout v = some buf ∧
      Buf.Agree g.layout.rowWidth buf (slotBytes s'.page g.layout id)
    rwa [hother i hi g hg id hid]
  · intro i p hp
    by_cases hi : i = idx
    · subst hi
      rw [update_self] at hp
      exact hext.allocated p hp
    · rw [update_of_ne hi] at hp
      exact hext.keeps p (hon.allocated i p hp)
  · -- a page of the moved table is an old one of its own or was not allocated before
    have hmoved : ∀ i, i ≠ idx → ∀ p ∈ chain i, p ∉ pages' := by
      intro i hi p hp hmem
      rcases hext.fresh p hmem with hold | hnew
      · exact hi (hon.disjoint i idx p hp hold)
      · exact hnew (hon.allocated i p hp)
    intro i j p hpi hpj
    by_cases hi : i = idx <;> by_cases hj : j = idx
    · rw [hi, hj]
    · grind
    · rw [hj, update_self] at hpj
      rw [update_of_ne hi] at hpi
      exact absurd hpj (hmoved i hi p hpi)
    · grind [hon.disjoint]
  · intro i hi
    rw [usedIds, usedIds, hhead, if_neg hi, update_of_ne hi]
  · intro i hi id hid
    obtain ⟨g, hg, hmem⟩ := mem_usedIds hid
    rw [row_of_header hg, row_of_header ((hhead i).trans ((if_neg hi).trans hg)), rowAt, rowAt]
    show (if slotBytes s'.page g.layout id 0 = 0 then none
      else some (deserializeRow g.layout (slotBytes s'.page g.layout id))) = _
    rw [hother i hi g hg id hmem]

end Heap

structure Inserted (s s' : Store) (used : ℕ → List RowId) (idx : ℕ) (layout : RowTableLayout)
    (id : RowId) (v : RowValues) : Prop where
  heap : Heap s' (update used idx (used idx ++ [id]))
  fresh : ∀ i, id ∉ used i
  row : s'.row idx id = some (canon layout v)
  frame : ∀ i, ∀ id' ∈ used i, s'.row i id' = s.row i id'
  catalog : SameCatalog s s'

section Operations

variable {s s' : Store} {idx : ℕ} {id : RowId} {h : RowTableHeader}

def liveIds (s : Store) (used : ℕ → List RowId) (idx : ℕ) : List RowId :=
  (used idx).filter fun id => (s.row idx id).isSome

def rowValue (s : Store) (idx : ℕ) (id : RowId) : RowValues := (s.row idx id).getD ⟨0, []⟩

lemma mem_liveIds : id ∈ liveIds s used idx ↔ id ∈ used idx ∧ (s.row idx id).isSome := mem_filter

/-- The row `id` of the table in slot `idx` is gone, every other one is as before. -/
structure Deleted (s s' : Store) (used : ℕ → List RowId) (idx : ℕ) (id : RowId) : Prop where
  heap : Heap s' used
  row : s'.row idx id = none
  frame : ∀ i, ∀ id' ∈ used i, id' ≠ id → s'.row i id' = s.row i id'
  catalog : SameCatalog s s'

/-- Clearing the flag byte of one slot. -/
theorem tombstone_extends {pages : List ℕ} (hc : Chained s.page h pages) (hpool : Pool s)
    (hal : ∀ p ∈ pages, Allocated s p) (hid : id ∈ rowIds h pages) (count : ℕ)
    (hs1 : (rowstoreFlushPage env (s.setPage id.pageId ((s.page id.pageId).fill
      (slotOffset h.layout id.slotIndex) 0 1)) id.pageId).1 = s1) :
    Extends s s1 h { h with rowCount := count } pages pages ∧
      rowAt s1.page h.layout id = none ∧
      ∀ id' ∈ rowIds h pages, id' ≠ id →
        rowAt s1.page h.layout id' = rowAt s.page h.layout id' := by
  have hwidth := h.layout.three_le_rowWidth
  have hflag : slotBytes s1.page h.layout id 0 = 0 := by
    simp only [slotBytes, ← hs1, rowstoreFlushPage_page, setPage, update_self, Buf.at_apply]
    exact Buf.copy_inside (by omega)
  obtain ⟨hext, hkept⟩ := hc.overwrite hpool hal id (mem_rowIds.mp hid).1
    (c := count) (by omega) hs1 hc.room (fun _ => .inl) (absurd hflag)
  exact ⟨hext, by rw [rowAt, if_pos hflag], hkept⟩

lemma HeapOn.liveSlot_eq (hon : HeapOn s chain)
    (hh : s.header idx = some h) (hid : id ∈ rowIds h (chain idx)) : liveSlot s h id =
      if slotBytes s.page h.layout id 0 = 0 then none else some (slotBytes s.page h.layout id) := by
  obtain ⟨hpage, hslot⟩ := mem_rowIds.mp hid
  have hc := hon.tables idx h hh
  have hnext := (hon.allocated idx _ hpage).2
  have hlimit := hc.pageLimit_le id.pageId
  have hsmall := hc.small _ hpage
  rw [liveSlot, if_neg (by omega), if_neg (by omega), if_neg (by omega)]
  rfl

variable (hs : Heap s used)
include hs

lemma Heap.insert (hslot : s.slots[idx]? = some slot) (hh : slot.header = some h) {s1 : Store}
    (happ : ∀ pages, Chained s.page h pages → (∀ p ∈ pages, Allocated s p) → Pool s →
      ∃ pages', Appended s s1 h h' pages pages' id v) :
    Inserted s (s1.setHeader idx h') used idx h.layout id v := by
  obtain ⟨chain, hon, hused⟩ := hs
  have hhead := header_of_slot hslot hh
  obtain ⟨pages', ha⟩ := happ _ (hon.tables idx h hhead) (hon.allocated idx) hon.pool
  obtain ⟨hon', hids, hrows, hhead'⟩ := hon.extend hslot ha.toExtends
  have husedidx := (hused idx).trans (usedIds_of_header hhead)
  have hidmem : id ∈ rowIds h' pages' := by
    rw [ha.rowIds_eq]
    simp
  refine ⟨⟨_, hon', fun i => ?_⟩, ?_, ?_, ?_, sameCatalog_setHeader hslot hh ha.slots ha.layout⟩
  · grind [usedIds_of_header, ha.rowIds_eq]
  · intro i hmem
    rw [hused] at hmem
    by_cases hi : i = idx
    · subst hi
      have hnd := ha.chained.nodup_rowIds
      rw [ha.rowIds_eq, nodup_append] at hnd
      rw [usedIds_of_header hhead] at hmem
      exact hnd.2.2 id hmem id (by simp) rfl
    have hmem' := mem_chain_of_mem_usedIds hmem
    rcases ha.fresh _ (mem_rowIds.mp hidmem).1 with hold | hnew
    · exact hi (hon.disjoint i idx _ hmem' hold)
    · exact hnew (hon.allocated i _ hmem')
  · rw [row_of_header hhead', ha.layout]
    exact ha.row
  · intro i id' hid'
    by_cases hi : i = idx
    · subst hi
      rw [row_of_header hhead', row_of_header hhead, ha.layout]
      exact ha.rows id' (husedidx ▸ hid')
    · exact hrows i hi id' (hused i ▸ hid')

/-- An insert fails and changes nothing, or adds the row. -/
theorem rowstoreRowInsert_spec (hr : rowstoreRowInsert env s uid name v = (s', rc, out)) :
    (s' = s ∧ out = none ∧ rc ∈ [1, 2, 4, 5, 6]) ∨
      ∃ idx slot h id, lookupTable s name = some (idx, slot, h) ∧
        env.access uid name .write ∧ v.count = h.layout.columnCount ∧
        (serializeRow h.layout v).isSome ∧ out = some id ∧ (rc = 0 ∨ rc = rowstoreRcNotDurable) ∧
        Inserted s s' used idx h.layout id v := by
  unfold rowstoreRowInsert at hr
  split at hr
  · grind
  next idx slot h hl =>
  split_ifs at hr with hacc hcount
  · grind
  · grind
  · split at hr
    · cases hr
      exact .inl ⟨rfl, rfl, by simp⟩
    next buf hser =>
    split at hr
    · cases hr
      exact .inl ⟨rfl, rfl, by simp⟩
    next s1 h' id lost happ =>
    cases hr
    obtain ⟨hslot, hh, -, -⟩ := lookupTable_spec hl
    refine .inr ⟨idx, slot, h, id, hl, by simpa using hacc, not_not.mp hcount,
      by rw [hser]; rfl, rfl, ?_, ?_⟩
    · grind
    · exact hs.insert hslot hh fun pages hc hal hpool => appendRow_spec hc hpool hal hser happ

lemma liveIds_nodup : (liveIds s used idx).Nodup := (hs.nodup idx).filter _

variable (hl : lookupTable s name = some (idx, slot, h))
include hl

lemma rowstoreRowGet_spec (hid : id ∈ used idx) : rowstoreRowGet env s uid name id =
      if env.access uid name .read then
        match s.row idx id with
        | some v => .ok v
        | none => .error 3
      else .error 2 := by
  obtain ⟨chain, hon, hused⟩ := hs
  obtain ⟨hslot, hh, -, -⟩ := lookupTable_spec hl
  have hhead := header_of_slot hslot hh
  rw [hused, usedIds_of_header hhead] at hid
  simp only [rowstoreRowGet, hl, row_of_header hhead, hon.liveSlot_eq hhead hid, rowAt]
  cases env.access uid name .read
  · rfl
  · grind

lemma rowstoreTableScan_spec (hacc : env.access uid name .read) : rowstoreTableScan env s uid name =
      (used idx).filterMap fun id => (s.row idx id).map fun v => (id, v) := by
  obtain ⟨chain, hon, hused⟩ := hs
  obtain ⟨hslot, hh, -, -⟩ := lookupTable_spec hl
  have hhead := header_of_slot hslot hh
  have hscan := (hon.tables idx h hhead).scan
  simp only [rowstoreTableScan, hl, hacc, Bool.not_true, Bool.false_eq_true, if_false, hscan,
    hused, usedIds_of_header hhead, row_of_header hhead]

lemma rowstoreTableScan_live (hacc : env.access uid name .read) : rowstoreTableScan env s uid name =
      (liveIds s used idx).map fun id => (id, rowValue s idx id) := by
  rw [rowstoreTableScan_spec hs hl hacc, liveIds, ← filterMap_eq_map, filterMap_filter]
  apply filterMap_congr
  intro id _
  cases hrow : s.row idx id with
  | none => rfl
  | some => simp [rowValue, hrow]

/-- Deleting a row in use fails and changes nothing, or removes that row. -/
theorem rowstoreRowDelete_spec (hid : id ∈ used idx)
    (hr : rowstoreRowDelete env s uid name id = (s', rc)) :
    (s' = s ∧ (env.access uid name .write = false ∨ s.row idx id = none)) ∨
      (env.access uid name .write ∧ (rc = 0 ∨ rc = rowstoreRcNotDurable) ∧
        Deleted s s' used idx id) := by
  obtain ⟨chain, hon, hused⟩ := hs
  obtain ⟨hslot, hh, -, -⟩ := lookupTable_spec hl
  have hhead := header_of_slot hslot hh
  have hid' : id ∈ rowIds h (chain idx) := by rwa [hused, usedIds_of_header hhead] at hid
  simp only [rowstoreRowDelete, hl, hon.liveSlot_eq hhead hid'] at hr
  rcases hacc : env.access uid name .write with _ | _
  · grind
  by_cases hlive : slotBytes s.page h.layout id 0 = 0
  · simp only [hacc, hlive, if_true, Bool.not_true, Bool.false_eq_true, if_false] at hr
    cases hr
    exact .inl ⟨rfl, .inr (by rw [row_of_header hhead, rowAt, if_pos hlive])⟩
  simp only [hacc, hlive, Bool.not_true, Bool.false_eq_true, if_false, Prod.mk.injEq] at hr
  obtain ⟨rfl, hrc⟩ := hr
  obtain ⟨hext, hgone, hkept⟩ := tombstone_extends (hon.tables idx h hhead) hon.pool
    (hon.allocated idx) hid' (h.rowCount - 1) rfl
  obtain ⟨hon', hids, hrows, hhead'⟩ := hon.extend hslot hext
  refine .inr ⟨rfl, ?_, ⟨_, hon', fun i => ?_⟩, ?_, ?_,
    sameCatalog_setHeader hslot hh hext.slots hext.layout⟩
  · grind
  · by_cases hi : i = idx
    · subst hi
      rw [usedIds_of_header hhead', update_self, hused, usedIds_of_header hhead]
      rfl
    · rw [hids i hi, hused]
  · rw [row_of_header hhead']
    exact hgone
  · intro i id1 hid1 hne
    by_cases hi : i = idx
    · subst hi
      rw [row_of_header hhead', row_of_header hhead]
      exact hkept id1 (by rwa [hused, usedIds_of_header hhead] at hid1) hne
    · exact hrows i hi id1 (hused i ▸ hid1)

end Operations

def DistinctTables (s : Store) : Prop :=
  ∀ (i j : ℕ) (t u : CatalogSlot), s.slots[i]? = some t → s.slots[j]? = some u →
    t.active = true → u.active = true → t.objectId = u.objectId ∨ t.name = u.name →
    i = j

def IsTable (s : Store) (i : ℕ) (t : CatalogSlot) (h : RowTableHeader) : Prop :=
  s.slots[i]? = some t ∧ t.active = true ∧ t.header = some h

def tableIndex (s : Store) (objectId : ℕ) : Option ℕ :=
  s.slots.findIdx? fun t => t.active && t.header.isSome && t.objectId = objectId

section Finding

variable {s s' : Store} {i : ℕ} {t : CatalogSlot} {h : RowTableHeader}

lemma lookupTable_isTable (hl : lookupTable s name = some (i, t, h)) :
    IsTable s i t h ∧ t.name = name := by
  obtain ⟨hslot, hh, hact, hname⟩ := lookupTable_spec hl
  exact ⟨⟨hslot, hact, hh⟩, hname⟩

lemma findIdx?_of_unique {l : List α} {p : α → Bool} {i : ℕ} (hi : l[i]? = some a) (hp : p a)
    (huniq : ∀ j b, l[j]? = some b → p b → j = i) : l.findIdx? p = some i := by
  obtain ⟨hlt, rfl⟩ := List.getElem?_eq_some_iff.mp hi
  rw [findIdx?_eq_some_iff_getElem]
  refine ⟨hlt, hp, fun j hj hpj => ?_⟩
  have hj' : j < l.length := Nat.lt_trans hj hlt
  exact absurd (huniq j l[j] (getElem?_eq_getElem hj') hpj) (Nat.ne_of_lt hj)

lemma find?_of_unique {l : List α} {p : α → Bool} {i : ℕ} (hi : l[i]? = some a) (hp : p a)
    (huniq : ∀ j b, l[j]? = some b → p b → j = i) : l.find? p = some a := by
  rw [find?_eq_bind_findIdx?_getElem?, findIdx?_of_unique hi hp huniq, Option.bind_some, hi]

lemma IsTable.lookup (ht : IsTable s i t h) (hd : DistinctTables s) :
    lookupTable s t.name = some (i, t, h) := by
  obtain ⟨hslot, hact, hh⟩ := ht
  have hfind : findActiveTable s t.name = some i := by
    apply findIdx?_of_unique hslot
    · simp [hact, hh]
    · intro j u hu hp
      simp only [Bool.and_eq_true, decide_eq_true_eq] at hp
      exact hd j i u t hu hslot hp.1.1 hact (.inr hp.2)
  rw [lookupTable, hfind, Option.bind_some, hslot, Option.bind_some, hh, Option.map_some]

lemma IsTable.index (ht : IsTable s i t h) (hd : DistinctTables s) :
    tableIndex s t.objectId = some i := by
  obtain ⟨hslot, hact, hh⟩ := ht
  apply findIdx?_of_unique hslot
  · simp [hact, hh]
  · intro j u hu hp
    simp only [Bool.and_eq_true, decide_eq_true_eq] at hp
    exact hd j i u t hu hslot hp.1.1 hact (.inl hp.2)

lemma isTable_of_index (hi : tableIndex s objectId = some i) :
    ∃ t h, IsTable s i t h ∧ t.objectId = objectId := by
  obtain ⟨hlt, hp, -⟩ := findIdx?_eq_some_iff_getElem.mp hi
  simp only [Bool.and_eq_true, decide_eq_true_eq] at hp
  obtain ⟨h, hh⟩ := Option.isSome_iff_exists.mp hp.1.2
  exact ⟨s.slots[i], h, ⟨getElem?_eq_getElem hlt, hp.1.1, hh⟩, hp.2⟩

lemma tableIndex_inj (h : tableIndex s o = some i) (h' : tableIndex s o' = some i) : o = o' := by
  obtain ⟨t, _, ht, rfl⟩ := isTable_of_index h
  obtain ⟨t', _, ht', rfl⟩ := isTable_of_index h'
  rw [Option.some.inj (ht.1.symm.trans ht'.1)]

lemma distinctTables_of_pairwise (hs : s.slots.Pairwise fun t u =>
    t.active → u.active → t.objectId ≠ u.objectId ∧ t.name ≠ u.name) :
    DistinctTables s := by
  rw [pairwise_iff_getElem] at hs
  -- two indices in order cannot clash, and neither order is special
  have hlt : ∀ (i j : ℕ) (t u : CatalogSlot), s.slots[i]? = some t → s.slots[j]? = some u →
      t.active → u.active → t.objectId = u.objectId ∨ t.name = u.name → ¬ i < j := by
    intro i j t u ht hu hta hua hor hij
    obtain ⟨hi, rfl⟩ := List.getElem?_eq_some_iff.mp ht
    obtain ⟨hj, rfl⟩ := List.getElem?_eq_some_iff.mp hu
    have hne := hs i j hi hj hij hta hua
    rcases hor with heq | heq
    · exact hne.1 heq
    · exact hne.2 heq
  intro i j t u ht hu hta hua hor
  have h1 := hlt i j t u ht hu hta hua hor
  have h2 := hlt j i u t hu ht hua hta (hor.imp Eq.symm Eq.symm)
  omega

/-- What a table is found by. -/
def CatalogSlot.identity (t : CatalogSlot) : ℕ × String × Bool × Bool :=
  (t.objectId, t.name, t.active, t.header.isSome)

/-- The same tables, though one may have got other columns. -/
def SameTables (s s' : Store) : Prop := s'.slots.map (·.identity) = s.slots.map (·.identity)

lemma SameTables.distinct (hs : SameTables s s') (hd : DistinctTables s) : DistinctTables s' := by
  have hslot : ∀ {i : ℕ} {t' : CatalogSlot}, s'.slots[i]? = some t' →
      ∃ t, s.slots[i]? = some t ∧ t.identity = t'.identity := by
    intro i t' ht'
    have hmap := congrArg (fun l => l[i]?) hs
    simp only [getElem?_map, ht'] at hmap
    exact Option.map_eq_some_iff.mp hmap.symm
  intro i j t u ht hu hta hua hor
  obtain ⟨t0, ht0, hti⟩ := hslot ht
  obtain ⟨u0, hu0, hui⟩ := hslot hu
  simp only [CatalogSlot.identity, Prod.mk.injEq] at hti hui
  refine hd i j t0 u0 ht0 hu0 (hti.2.2.1.trans hta) (hui.2.2.1.trans hua) ?_
  rwa [hti.1, hui.1, hti.2.1, hui.2.1]

lemma SameTables.tableIndex (hs : SameTables s s') :
    tableIndex s' objectId = tableIndex s objectId := by
  -- the search only looks at identities
  have hmap : ∀ s, Rowstore.tableIndex s objectId =
      (s.slots.map (·.identity)).findIdx? fun t => t.2.2.1 && t.2.2.2 && t.1 = objectId := by
    intro s
    rw [findIdx?_map]
    rfl
  rw [hmap, hmap, hs]

lemma SameCatalog.refl (s : Store) : SameCatalog s s := Eq.refl _

variable (hs : SameCatalog s s')
include hs

lemma SameCatalog.symm : SameCatalog s' s := Eq.symm hs

lemma SameCatalog.slot (hslot : s.slots[i]? = some t) :
    ∃ t', s'.slots[i]? = some t' ∧ t'.shape = t.shape := by
  have hmap := congrArg (fun l => l[i]?) hs
  simp only [getElem?_map, hslot] at hmap
  exact Option.map_eq_some_iff.mp hmap

lemma SameCatalog.sameTables : SameTables s s' := by
  -- the identity is part of the shape
  have hmap : ∀ s : Store, s.slots.map (·.identity) = (s.slots.map (·.shape)).map fun x =>
      (x.1, x.2.1, x.2.2.1, x.2.2.2.2.2.isSome) := by
    intro s
    rw [map_map]
    apply map_congr_left
    simp [CatalogSlot.identity, CatalogSlot.shape]
  rw [SameTables, hmap, hmap, hs]

lemma SameCatalog.distinct (hd : DistinctTables s) : DistinctTables s' := hs.sameTables.distinct hd

lemma SameCatalog.tableIndex (objectId : ℕ) : tableIndex s' objectId = tableIndex s objectId :=
  hs.sameTables.tableIndex

lemma SameCatalog.isTable (ht : IsTable s i t h) :
    ∃ t' h', IsTable s' i t' h' ∧ t'.objectId = t.objectId ∧ t'.name = t.name ∧
      h'.layout = h.layout := by
  obtain ⟨hslot, hact, hh⟩ := ht
  obtain ⟨t', hslot', hshape⟩ := hs.slot hslot
  simp only [CatalogSlot.shape, Prod.mk.injEq, hh] at hshape
  obtain ⟨hid, hname, hact', -, -, hlay⟩ := hshape
  obtain ⟨h', hh', hlayout⟩ := Option.map_eq_some_iff.mp hlay
  exact ⟨t', h', ⟨hslot', hact'.trans hact, hh'⟩, hid, hname, hlayout⟩

end Finding

lemma rowstoreInit_heap (slots : List CatalogSlot) (disk : ℕ → Buf) :
    Heap (rowstoreInit slots disk) fun _ => [] := by
  have hnone : ∀ idx, (rowstoreInit slots disk).header idx = none := by simp [header, rowstoreInit]
  refine ⟨fun _ => [], ⟨fun q _ => le_rfl, fun idx h hh => ?_, ?_, ?_⟩, fun idx => ?_⟩
  · rw [hnone] at hh
    cases hh
  · exact fun idx p hp => absurd hp not_mem_nil
  · exact fun i j p hp => absurd hp not_mem_nil
  · rw [usedIds, hnone, Option.map_none, Option.getD_none]

/-- A new table has no rows, and the others keep theirs. -/
theorem rowstoreCreateTable_heap (hs : Heap s used) : Heap (rowstoreCreateTable s name).1 used := by
  unfold rowstoreCreateTable
  split
  · exact hs
  next idx hidx =>
  split
  · exact hs
  next slot hslot =>
  split_ifs with hheader
  · exact hs
  split
  · exact hs
  next layout hlayout =>
  have hnone : s.header idx = none := by
    rw [header, hslot]
    simpa using hheader
  have hhead := header_setHeader hslot
  obtain ⟨chain, hon, hused⟩ := hs
  have hsub : ∀ i, ∀ p ∈ update chain idx [] i, p ∈ chain i := by grind
  refine ⟨update chain idx [], ⟨hon.pool, fun i h hh => ?_, ?_, ?_⟩, fun i => ?_⟩
  · rw [hhead] at hh
    by_cases hi : i = idx
    · subst hi
      rw [if_pos rfl] at hh
      rw [update_self, ← Option.some.inj hh]
      exact .nil _
    · rw [if_neg hi] at hh
      rw [update_of_ne hi]
      exact hon.tables i h hh
  · exact fun i p hp => hon.allocated i p (hsub i p hp)
  · exact fun i j p hi hj => hon.disjoint i j p (hsub i p hi) (hsub j p hj)
  · grind [usedIds, rowIds]

end AeroSLS.Rowstore
