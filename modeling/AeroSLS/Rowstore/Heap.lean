import AeroSLS.Rowstore.Codec
import AeroSLS.Rowstore.Store
import Mathlib.Data.List.Nodup
import Mathlib.Data.List.Count

namespace AeroSLS.Rowstore

open Bytes List Function

lemma RowTableLayout.three_le_rowWidth (layout : RowTableLayout) : 3 ≤ layout.rowWidth :=
  layout.packed.le

lemma slotOffset_add_le (h : i < j) :
    slotOffset layout i + layout.rowWidth ≤ slotOffset layout j := by
  have hmul : (i + 1) * layout.rowWidth ≤ j * layout.rowWidth := Nat.mul_le_mul_right _ h
  unfold slotOffset
  rw [Nat.add_mul] at hmul
  omega

lemma slotOffset_disjoint (layout : RowTableLayout) (h : i ≠ j) :
    slotOffset layout i + layout.rowWidth ≤ slotOffset layout j ∨
      slotOffset layout j + layout.rowWidth ≤ slotOffset layout i := by
  rcases Nat.lt_or_gt_of_ne h with hlt | hgt
  · exact .inl (slotOffset_add_le hlt)
  · exact .inr (slotOffset_add_le hgt)

def slotBytes (page : ℕ → Buf) (layout : RowTableLayout) (id : RowId) : Buf :=
  (page id.pageId).at (slotOffset layout id.slotIndex)

def rowAt (page : ℕ → Buf) (layout : RowTableLayout) (id : RowId) : Option RowValues :=
  if slotBytes page layout id 0 = 0 then none
  else some (deserializeRow layout (slotBytes page layout id))

/-- A slot that is a tombstone or holds a serialized row.  Only such a slot is
determined by its own bytes: a string cell without a terminator would be read
into the next one. -/
def Written (page : ℕ → Buf) (layout : RowTableLayout) (id : RowId) : Prop :=
  slotBytes page layout id 0 ≠ 0 → ∃ v buf, serializeRow layout v = some buf ∧
    Buf.Agree layout.rowWidth buf (slotBytes page layout id)

section Slots

variable {id : RowId}

lemma Written.congr (hw : Written page layout id)
    (h : Buf.Agree layout.rowWidth (slotBytes page layout id) (slotBytes page' layout id)) :
    Written page' layout id ∧ rowAt page' layout id = rowAt page layout id := by
  have hwidth := layout.three_le_rowWidth
  have hflag := h 0 (by omega)
  by_cases hlive : slotBytes page layout id 0 = 0
  · have hlive' := hflag.symm.trans hlive
    exact ⟨absurd hlive', by rw [rowAt, rowAt, if_pos hlive, if_pos hlive']⟩
  have hlive' := hflag ▸ hlive
  obtain ⟨v, buf, hser, hagree⟩ := hw hlive
  have hagree' := hagree.trans h
  refine ⟨fun _ => ⟨v, buf, hser, hagree'⟩, ?_⟩
  rw [rowAt, rowAt, if_neg hlive, if_neg hlive', deserializeRow_of_agree hser hagree,
    deserializeRow_of_agree hser hagree']

lemma written_of_serialize (hser : serializeRow layout v = some buf)
    (h : Buf.Agree layout.rowWidth buf (slotBytes page layout id)) :
    Written page layout id ∧ rowAt page layout id = some (canon layout v) := by
  have hwidth := layout.three_le_rowWidth
  have hlive : slotBytes page layout id 0 ≠ 0 := by
    rw [← h 0 (by omega), serializeRow_active hser]
    decide
  refine ⟨fun _ => ⟨v, buf, hser, h⟩, ?_⟩
  rw [rowAt, if_neg hlive, deserializeRow_of_agree hser h]

end Slots

/-- Each page holds the number of the next, the last one the end mark. -/
def Linked (page : ℕ → Buf) : List ℕ → Prop
  | [] => True
  | p :: ps => readLE (page p) 4 = ps.headD rowstoreInvalidPage ∧ Linked page ps

lemma Linked.congr (hl : Linked page ps)
    (h : ∀ p ∈ ps, Buf.Agree 4 (page p) (page' p)) : Linked page' ps := by
  induction ps with
  | nil => trivial
  | cons p ps ih =>
    refine ⟨?_, ih hl.2 fun q hq => h q (mem_cons_of_mem _ hq)⟩
    rw [← readLE_congr (h p (mem_cons_self ..))]
    exact hl.1

lemma Linked.append (hl : Linked page (ps ++ [q])) (hps : ∀ p ∈ ps, Buf.Agree 4 (page p) (page' p))
    (hq : readLE (page' q) 4 = new) (hnew : readLE (page' new) 4 = rowstoreInvalidPage) :
    Linked page' (ps ++ [q] ++ [new]) := by
  induction ps with
  | nil => exact ⟨hq, hnew, trivial⟩
  | cons p ps ih =>
    refine ⟨?_, ih hl.2 fun r hr => hps r (mem_cons_of_mem _ hr)⟩
    rw [← readLE_congr (hps p (mem_cons_self ..)), hl.1]
    cases ps <;> rfl

/-- How many slots of a page are in use. -/
def pageLimit (h : RowTableHeader) (p : ℕ) : ℕ :=
  if p = h.lastPageId then h.rowsInLastPage else h.layout.rowsPerPage

/-- The row ids a table on these pages has handed out, oldest first. -/
def rowIds (h : RowTableHeader) (pages : List ℕ) : List RowId :=
  pages.flatMap fun p => (range (pageLimit h p)).map (RowId.mk p)

lemma mem_rowIds {id : RowId} :
    id ∈ rowIds h pages ↔ id.pageId ∈ pages ∧ id.slotIndex < pageLimit h id.pageId := by
  obtain ⟨p, i⟩ := id
  simp only [rowIds, mem_flatMap, mem_map, mem_range, RowId.mk.injEq]
  constructor
  · simp
  · simp

structure Chained (page : ℕ → Buf) (h : RowTableHeader) (pages : List ℕ) : Prop where
  first : h.firstPageId = pages.headD rowstoreInvalidPage
  last : ∀ p, pages.getLast? = some p → h.lastPageId = p
  linked : Linked page pages
  nodup : pages.Nodup
  small : ∀ p ∈ pages, p < rowstoreMaxPages
  room : h.rowsInLastPage ≤ h.layout.rowsPerPage
  written : ∀ id ∈ rowIds h pages, Written page h.layout id

section Chains

section

variable (hc : Chained page h pages)
include hc

lemma Chained.first_eq_invalid_iff : h.firstPageId = rowstoreInvalidPage ↔ pages = [] := by
  rw [hc.first]
  rcases pages with _ | ⟨p, ps⟩
  · simp
  have hsmall := hc.small p (mem_cons_self ..)
  have hne : p ≠ rowstoreInvalidPage := by
    simp only [rowstoreMaxPages, rowstoreInvalidPage] at hsmall ⊢
    omega
  simpa using hne

lemma Chained.exists_last (hne : pages ≠ []) : ∃ ps, pages = ps ++ [h.lastPageId] := by
  obtain ⟨ps, q, rfl⟩ := eq_nil_or_concat pages |>.resolve_left hne
  have hq := hc.last q (by simp)
  exact ⟨ps, by rw [hq, concat_eq_append]⟩

lemma Chained.pageLimit_le (p : ℕ) : pageLimit h p ≤ h.layout.rowsPerPage := by
  have := hc.room
  unfold pageLimit
  split_ifs <;> omega

lemma Chained.nodup_rowIds : (rowIds h pages).Nodup := by
  unfold rowIds
  rw [nodup_flatMap]
  constructor
  · intro p _
    exact nodup_range.map fun i j hij => (RowId.mk.inj hij).2
  refine hc.nodup.imp fun {p q} hpq => ?_
  intro id hp hq
  obtain ⟨_, _, rfl⟩ := mem_map.mp hp
  obtain ⟨_, _, hid⟩ := mem_map.mp hq
  exact hpq (RowId.mk.inj hid).1.symm

end

end Chains

lemma Chained.nil (page : ℕ → Buf) :
    Chained page ⟨layout, 0, 0, rowstoreInvalidPage, rowstoreInvalidPage, 0⟩ [] where
  first := rfl
  last := by simp
  linked := trivial
  nodup := nodup_nil
  small := by simp
  room := Nat.zero_le _
  written := by simp [rowIds]

/-- Pages handed out so far: those below their partition's cursor. -/
def Allocated (s : Store) (p : ℕ) : Prop :=
  p < s.cursor (p / rowstorePagesPerPartition) ∧ p < s.nextFreePageId

def Pool (s : Store) : Prop :=
  ∀ q < partitionMax, q * rowstorePagesPerPartition ≤ s.cursor q

section Flush

variable (env : Env) (s : Store) (id : ℕ)

@[simp] lemma rowstoreFlushPage_page : (rowstoreFlushPage env s id).1.page = s.page := by
  unfold rowstoreFlushPage
  split_ifs <;> rfl

@[simp] lemma rowstoreFlushPage_slots : (rowstoreFlushPage env s id).1.slots = s.slots := by
  unfold rowstoreFlushPage
  split_ifs <;> rfl

@[simp] lemma rowstoreFlushPage_cursor : (rowstoreFlushPage env s id).1.cursor = s.cursor := by
  unfold rowstoreFlushPage
  split_ifs <;> rfl

@[simp] lemma rowstoreFlushPage_nextFreePageId :
    (rowstoreFlushPage env s id).1.nextFreePageId = s.nextFreePageId := by
  unfold rowstoreFlushPage
  split_ifs <;> rfl

end Flush

structure FreshPage (s s' : Store) (p : ℕ) : Prop where
  fresh : ¬ Allocated s p
  small : p < rowstoreMaxPages
  pool : Pool s'
  allocated : Allocated s' p
  keeps : ∀ r, Allocated s r → Allocated s' r
  page : s'.page = update s.page p emptyPage
  slots : s'.slots = s.slots

lemma rowstoreAllocPage_spec {env : Env} {s s' : Store} (hpool : Pool s)
    (h : rowstoreAllocPage env s q = some (s', p)) : FreshPage s s' p := by
  simp only [rowstoreAllocPage] at h
  split_ifs at h with hq hfull hgrant
  obtain ⟨rfl, rfl⟩ := Prod.mk.inj (Option.some.inj h)
  have hlow := hpool q (by omega)
  have hdiv : s.cursor q / rowstorePagesPerPartition = q := by
    simp only [rowstorePagesPerPartition, rowstoreMaxPages, partitionMax] at hlow hfull ⊢
    omega
  refine ⟨?_, ?_, ?_, ?_, ?_, rfl, rfl⟩
  · rintro ⟨hlt, -⟩
    rw [hdiv] at hlt
    exact lt_irrefl _ hlt
  · simp only [rowstorePagesPerPartition, rowstoreMaxPages, partitionMax] at hq hfull ⊢
    omega
  · intro r hr
    have hrlow := hpool r hr
    by_cases hrq : r = q
    · grind
    · simpa only [update_of_ne hrq] using hrlow
  · constructor
    · simp only [hdiv, update_self]
      omega
    · exact lt_of_lt_of_le (Nat.lt_succ_self _) (le_max_right _ _)
  · rintro r ⟨hcur, hnext⟩
    refine ⟨?_, lt_of_lt_of_le hnext (le_max_left _ _)⟩
    by_cases hrq : r / rowstorePagesPerPartition = q
    · grind
    · simpa only [update_of_ne hrq] using hcur

structure Extends (s s' : Store) (h h' : RowTableHeader) (pages pages' : List ℕ) : Prop where
  chained : Chained s'.page h' pages'
  pool : Pool s'
  allocated : ∀ p ∈ pages', Allocated s' p
  keeps : ∀ p, Allocated s p → Allocated s' p
  fresh : ∀ p ∈ pages', p ∈ pages ∨ ¬ Allocated s p
  frame : ∀ p, Allocated s p → p ∉ pages → s'.page p = s.page p
  layout : h'.layout = h.layout
  slots : s'.slots = s.slots

lemma Extends.refl {s : Store}
    (hc : Chained s.page h pages) (hpool : Pool s) (hal : ∀ p ∈ pages, Allocated s p) :
    Extends s s h h pages pages :=
  ⟨hc, hpool, hal, fun _ hp => hp, fun _ hp => .inl hp, fun _ _ _ => rfl, rfl, rfl⟩

lemma Extends.trans {s s' s'' : Store}
    (a : Extends s s' h h' ps ps') (b : Extends s' s'' h' h'' ps' ps'') :
    Extends s s'' h h'' ps ps'' where
  chained := b.chained
  pool := b.pool
  allocated := b.allocated
  keeps p hp := b.keeps p (a.keeps p hp)
  fresh p hp := by
    rcases b.fresh p hp with hold | hnew
    · exact a.fresh p hold
    · exact .inr fun hal => hnew (a.keeps p hal)
  frame p hal hp := by
    have hp' : p ∉ ps' := fun hmem => (a.fresh p hmem).elim hp fun hf => hf hal
    rw [b.frame p (a.keeps p hal) hp', a.frame p hal hp]
  layout := b.layout.trans a.layout
  slots := b.slots.trans a.slots

lemma rowIds_congr
    (heq : ∀ p ∈ pages, pageLimit h' p = pageLimit h p) : rowIds h' pages = rowIds h pages := by
  exact flatMap_congr fun p hp => by rw [heq p hp]

lemma rowIds_append (h : RowTableHeader) (ps qs : List ℕ) :
    rowIds h (ps ++ qs) = rowIds h ps ++ rowIds h qs := by
  simp [rowIds]

lemma slotBytes_agree_of_head (id : RowId) (h : ∀ i, 4 ≤ i → page' id.pageId i = page id.pageId i) :
    Buf.Agree layout.rowWidth (slotBytes page layout id) (slotBytes page' layout id) := by
  intro i _
  have hoff : 4 ≤ slotOffset layout id.slotIndex + i := by
    unfold slotOffset
    omega
  exact (h _ hoff).symm

lemma readLE_emptyPage : readLE emptyPage 4 = rowstoreInvalidPage := by decide

/-- What making room achieves: the same rows, and a free slot behind them. -/
structure Grown (s s' : Store) (h h' : RowTableHeader) (pages pages' : List ℕ) : Prop
    extends Extends s s' h h' pages pages' where
  nonempty : pages' ≠ []
  free : h'.rowsInLastPage < h'.layout.rowsPerPage
  rowIds_eq : rowIds h' pages' = rowIds h pages
  rows : ∀ id ∈ rowIds h pages, rowAt s'.page h.layout id = rowAt s.page h.layout id

section Grow

variable {s : Store}

lemma grown_first (hf : FreshPage s s1 new) (count : ℕ) :
    Grown s s1 h ⟨h.layout, h.rowCount, count, new, new, 0⟩ [] [new] where
  chained :=
    { first := rfl
      last := by simp
      linked := ⟨by rw [hf.page, update_self]; exact readLE_emptyPage, trivial⟩
      nodup := nodup_singleton _
      small := by simpa using hf.small
      room := Nat.zero_le _
      written := by simp [rowIds, pageLimit] }
  pool := hf.pool
  allocated := by simpa using hf.allocated
  keeps := hf.keeps
  fresh := by simpa using hf.fresh
  frame p hal _ := by
    have hne : p ≠ new := fun heq => hf.fresh (heq ▸ hal)
    rw [hf.page, update_of_ne hne]
  rows := by simp [rowIds]
  layout := rfl
  slots := hf.slots
  nonempty := cons_ne_nil _ _
  free := h.layout.rows_pos
  rowIds_eq := by simp [rowIds, pageLimit]

lemma rowIds_grow (count : ℕ) (hfull : h.layout.rowsPerPage ≤ h.rowsInLastPage)
    (hroom : h.rowsInLastPage ≤ h.layout.rowsPerPage) (hnew : new ∉ pages) :
    rowIds ⟨h.layout, h.rowCount, count, h.firstPageId, new, 0⟩ (pages ++ [new]) =
      rowIds h pages := by
  have hlastids : rowIds ⟨h.layout, h.rowCount, count, h.firstPageId, new, 0⟩ [new] = [] := by
    simp [rowIds, pageLimit]
  rw [rowIds_append, hlastids, append_nil]
  apply rowIds_congr
  intro p hp
  have hpn : p ≠ new := fun heq => hnew (heq ▸ hp)
  simp only [pageLimit]
  split_ifs <;> omega

theorem grown_link (hc : Chained s.page h (ps ++ [h.lastPageId]))
    (hal : ∀ p ∈ ps ++ [h.lastPageId], Allocated s p) (hf : FreshPage s s1 new)
    (hfull : h.layout.rowsPerPage ≤ h.rowsInLastPage) (hpage : s2.page = update s1.page h.lastPageId
      ((s1.page h.lastPageId).copy 0 (leBytes new) 4))
    (hslots : s2.slots = s1.slots) (hcur : s2.cursor = s1.cursor)
    (hnext : s2.nextFreePageId = s1.nextFreePageId) (count : ℕ) :
    Grown s s2 h ⟨h.layout, h.rowCount, count, h.firstPageId, new, 0⟩ (ps ++ [h.lastPageId])
      (ps ++ [h.lastPageId] ++ [new]) := by
  have hal2 : ∀ p, Allocated s1 p → Allocated s2 p := by
    intro p hp
    rwa [Allocated, hcur, hnext]
  have hne : ∀ p, Allocated s p → p ≠ new := fun p hp heq => hf.fresh (heq ▸ hp)
  have hnotmem : new ∉ ps ++ [h.lastPageId] := fun hmem => hne new (hal new hmem) rfl
  have hlastal := hal h.lastPageId (by simp)
  have hother : ∀ p, Allocated s p → p ≠ h.lastPageId → s2.page p = s.page p := by
    intro p hp hpl
    rw [hpage, update_of_ne hpl, hf.page, update_of_ne (hne p hp)]
  have hlast : s2.page h.lastPageId = (s.page h.lastPageId).copy 0 (leBytes new) 4 := by
    rw [hpage, update_self, hf.page, update_of_ne (hne _ hlastal)]
  have hnew : s2.page new = emptyPage := by
    rw [hpage, update_of_ne (hne _ hlastal).symm, hf.page, update_self]
  have hbody : ∀ p, Allocated s p → ∀ i, 4 ≤ i → s2.page p i = s.page p i := by
    intro p hp i hi
    by_cases hpl : p = h.lastPageId
    · rw [hpl, hlast, Buf.copy_outside (by omega)]
    · rw [hother p hp hpl]
  have hpsne : ∀ p ∈ ps, p ≠ h.lastPageId := by grind [hc.nodup]
  have hids := rowIds_grow count hfull hc.room hnotmem
  have hkept : ∀ id ∈ rowIds h (ps ++ [h.lastPageId]), Written s2.page h.layout id ∧
      rowAt s2.page h.layout id = rowAt s.page h.layout id := by
    intro id hid
    have hidal := hal id.pageId (mem_rowIds.mp hid).1
    exact (hc.written id hid).congr (slotBytes_agree_of_head _ (hbody _ hidal))
  refine
    { chained := ⟨?_, by simp, ?_, ?_, ?_, Nat.zero_le _, ?_⟩
      pool := ?_
      allocated := ?_
      keeps := fun p hp => hal2 p (hf.keeps p hp)
      fresh := ?_
      frame := fun p hp hpm => hother p hp fun heq => hpm (by simp [heq])
      rows := fun id hid => (hkept id hid).2
      layout := rfl
      slots := hslots.trans hf.slots
      nonempty := by simp
      free := h.layout.rows_pos
      rowIds_eq := hids }
  · rw [hc.first]
    cases ps <;> rfl
  · refine hc.linked.append (fun p hp => ?_) ?_ ?_
    · rw [hother p (hal p (by simp [hp])) (hpsne p hp)]
      exact fun _ _ => rfl
    · have hsmall := hf.small
      have hagree : Buf.Agree 4 (s2.page h.lastPageId) (leBytes new) := by
        intro i hi
        have hin : ((s.page h.lastPageId).copy 0 (leBytes new) 4) (0 + i) = leBytes new i :=
          Buf.copy_inside hi
        rw [hlast, ← hin, Nat.zero_add]
      rw [readLE_congr hagree, readLE_leBytes]
      simp only [rowstoreMaxPages] at hsmall
      omega
    · rw [hnew]
      exact readLE_emptyPage
  · exact List.Nodup.append hc.nodup (nodup_singleton _) (by simpa using hnotmem)
  · intro p hp
    rcases mem_append.mp hp with hold | hnew'
    · exact hc.small p hold
    · rw [mem_singleton.mp hnew']
      exact hf.small
  · grind
  · intro q hq
    rw [hcur]
    exact hf.pool q hq
  · grind [hf.keeps, hf.allocated]
  · grind

lemma growTable_spec {env : Env}
    (hc : Chained s.page h pages) (hpool : Pool s) (hal : ∀ p ∈ pages, Allocated s p)
    (hg : growTable env s q h = some (s', h', lost)) : ∃ pages', Grown s s' h h' pages pages' := by
  unfold growTable at hg
  split_ifs at hg with hneed hfirst
  · obtain rfl := hc.first_eq_invalid_iff.mp hfirst
    split at hg
    · cases hg
    · next s1 new halloc =>
      obtain ⟨rfl, rfl, -⟩ := hg
      exact ⟨_, grown_first (rowstoreAllocPage_spec hpool halloc) _⟩
  · have hne : pages ≠ [] := fun he => hfirst (hc.first_eq_invalid_iff.mpr he)
    obtain ⟨ps, hps⟩ := hc.exists_last hne
    rw [hps] at hc hal ⊢
    split at hg
    · cases hg
    next s1 new halloc =>
    obtain ⟨rfl, rfl, -⟩ := hg
    refine ⟨_, grown_link hc hal (rowstoreAllocPage_spec hpool halloc)
      (hneed.resolve_left hfirst) ?_ ?_ ?_ ?_ _⟩
    · rw [rowstoreFlushPage_page, Store.setPage]
    · rw [rowstoreFlushPage_slots, Store.setPage]
    · rw [rowstoreFlushPage_cursor, Store.setPage]
    · rw [rowstoreFlushPage_nextFreePageId, Store.setPage]
  · obtain ⟨rfl, rfl, -⟩ := hg
    rw [not_or, hc.first_eq_invalid_iff, not_le] at hneed
    exact ⟨pages, Extends.refl hc hpool hal, hneed.1, hneed.2, rfl, fun _ _ => rfl⟩

end Grow

/-- What appending a row achieves: one more id, which reads the row back. -/
structure Appended (s s' : Store) (h h' : RowTableHeader) (pages pages' : List ℕ) (id : RowId)
    (v : RowValues) : Prop extends Extends s s' h h' pages pages' where
  rowIds_eq : rowIds h' pages' = rowIds h pages ++ [id]
  rows : ∀ id ∈ rowIds h pages, rowAt s'.page h.layout id = rowAt s.page h.layout id
  row : rowAt s'.page h.layout id = some (canon h.layout v)

section Append

variable {s : Store} {id : RowId}

lemma rowIds_place (hps : ∀ p ∈ ps, p ≠ h.lastPageId) (count : ℕ) :
    rowIds { h with rowsInLastPage := h.rowsInLastPage + 1, rowCount := count }
        (ps ++ [h.lastPageId]) =
      rowIds h (ps ++ [h.lastPageId]) ++ [⟨h.lastPageId, h.rowsInLastPage⟩] := by
  rw [rowIds_append, rowIds_append]
  have hinit : rowIds { h with rowsInLastPage := h.rowsInLastPage + 1, rowCount := count } ps =
      rowIds h ps := rowIds_congr fun p hp => by simp only [pageLimit, if_neg (hps p hp)]
  rw [append_assoc]
  congr 1
  simp [rowIds, pageLimit, range_succ]

section

variable (hc : Chained s.page h pages) (hpool : Pool s) (hal : ∀ p ∈ pages, Allocated s p)
include hc hpool hal

theorem Chained.overwrite (id : RowId) (hid : id.pageId ∈ pages) (hn : n ≤ h.layout.rowWidth)
    (hs1 : (rowstoreFlushPage env (s.setPage id.pageId ((s.page id.pageId).copy
      (slotOffset h.layout id.slotIndex) buf n)) id.pageId).1 = s1)
    (hr : r ≤ h.layout.rowsPerPage) (hids : ∀ id' ∈ rowIds { h with
      rowsInLastPage := r, rowCount := c } pages, id' ∈ rowIds h pages ∨ id' = id)
    (hw : Written s1.page h.layout id) :
    Extends s s1 h { h with rowsInLastPage := r, rowCount := c } pages pages ∧
      ∀ id' ∈ rowIds h pages, id' ≠ id →
        rowAt s1.page h.layout id' = rowAt s.page h.layout id' := by
  have hpage : s1.page = update s.page id.pageId
      ((s.page id.pageId).copy (slotOffset h.layout id.slotIndex) buf n) := by
    rw [← hs1, rowstoreFlushPage_page, Store.setPage]
  have hal1 : ∀ p, Allocated s p → Allocated s1 p := by
    intro p hp
    rwa [← hs1, Allocated, rowstoreFlushPage_cursor, rowstoreFlushPage_nextFreePageId]
  have hother : ∀ p, p ≠ id.pageId → s1.page p = s.page p := by
    intro p hp
    rw [hpage, update_of_ne hp]
  have hself : s1.page id.pageId =
      (s.page id.pageId).copy (slotOffset h.layout id.slotIndex) buf n := by
    rw [hpage, update_self]
  -- every other slot is outside the bytes that were written
  have hkept : ∀ id' ∈ rowIds h pages, id' ≠ id → Written s1.page h.layout id' ∧
      rowAt s1.page h.layout id' = rowAt s.page h.layout id' := by
    intro id' hid' hne
    refine (hc.written id' hid').congr ?_
    unfold slotBytes
    by_cases hp : id'.pageId = id.pageId
    · have hslot : id'.slotIndex ≠ id.slotIndex := by
        cases id
        cases id'
        simp_all
      rw [hp, hself]
      apply Buf.Agree.symm
      apply Buf.copy_agree_of_disjoint
      have hdis := slotOffset_disjoint h.layout hslot
      omega
    · rw [hother _ hp]
      exact fun _ _ => rfl
  refine ⟨?_, fun id' hid' hne => (hkept id' hid' hne).2⟩
  refine
    { chained := ⟨hc.first, hc.last, hc.linked.congr fun p _ => ?_, hc.nodup, hc.small, hr, ?_⟩
      pool := ?_
      allocated := fun p hp => hal1 p (hal p hp)
      keeps := hal1
      fresh := fun p hp => .inl hp
      frame := fun p _ hp => hother p fun heq => hp (heq ▸ hid)
      layout := rfl
      slots := by rw [← hs1, rowstoreFlushPage_slots, Store.setPage] }
  · by_cases hp : p = id.pageId
    · intro i hi
      rw [hp, hself]
      refine (Buf.copy_outside (.inl ?_)).symm
      unfold slotOffset
      omega
    · rw [hother p hp]
      exact fun _ _ => rfl
  · intro id' hid'
    by_cases hne : id' = id
    · exact hne ▸ hw
    · exact (hkept id' ((hids id' hid').resolve_right hne) hne).1
  · intro q hq
    rw [← hs1, rowstoreFlushPage_cursor]
    exact hpool q hq

theorem placeRow_spec (hne : pages ≠ []) (hfree : h.rowsInLastPage < h.layout.rowsPerPage)
    (hser : serializeRow h.layout v = some buf) :
    Appended s (placeRow env s h buf).1 h (placeRow env s h buf).2.1 pages pages
      (placeRow env s h buf).2.2.1 v := by
  obtain ⟨ps, rfl⟩ := hc.exists_last hne
  have hpsne : ∀ p ∈ ps, p ≠ h.lastPageId := by grind [hc.nodup]
  have hids := rowIds_place hpsne (h.rowCount + 1)
  have hbytes : Buf.Agree h.layout.rowWidth buf (slotBytes (placeRow env s h buf).1.page h.layout
      ⟨h.lastPageId, h.rowsInLastPage⟩) := by
    simp only [slotBytes, placeRow, rowstoreFlushPage_page, Store.setPage, update_self]
    exact Buf.copy_agree.symm
  have hnew := written_of_serialize hser hbytes
  obtain ⟨hext, hrows⟩ := hc.overwrite hpool hal ⟨h.lastPageId, h.rowsInLastPage⟩ (by simp) le_rfl
    (Eq.refl (placeRow env s h buf).1) hfree (fun id' hid' => by
      rwa [hids, mem_append, mem_singleton] at hid') hnew.1
  refine ⟨hext, hids, fun id hid => hrows id hid ?_, hnew.2⟩
  rintro rfl
  have hslot := (mem_rowIds.mp hid).2
  simp [pageLimit] at hslot

lemma appendRow_spec (hser : serializeRow h.layout v = some buf)
    (happ : appendRow env s q h buf = some (s', h', id, lost)) :
    ∃ pages', Appended s s' h h' pages pages' id v := by
  unfold appendRow at happ
  split at happ
  · cases happ
  next s1 h1 linkLost hgrow =>
  obtain ⟨rfl, rfl, rfl, -⟩ := happ
  obtain ⟨pages1, hg⟩ := growTable_spec hc hpool hal hgrow
  have hser1 : serializeRow h1.layout v = some buf := by rw [hg.layout, hser]
  have hp : Appended s1 (placeRow env s1 h1 buf).1 h1 (placeRow env s1 h1 buf).2.1 pages1 pages1
      (placeRow env s1 h1 buf).2.2.1 v :=
    placeRow_spec hg.chained hg.pool hg.allocated hg.nonempty hg.free hser1
  refine ⟨pages1, hg.toExtends.trans hp.toExtends, ?_, ?_, ?_⟩
  · rw [hp.rowIds_eq, hg.rowIds_eq]
  · grind [hg.layout, hg.rows, hp.rows, hg.rowIds_eq]
  · rw [← hg.layout]
    exact hp.row

end

end Append

lemma scanPage_eq (s : Store) (h : RowTableHeader) : scanPage h.layout (s.page p) p limit =
      ((range limit).map (RowId.mk p)).filterMap fun id =>
        (rowAt s.page h.layout id).map fun v => (id, v) := by
  rw [filterMap_map]
  apply filterMap_congr
  intro slot _
  rw [comp_apply, rowAt]
  by_cases hlive : slotBytes s.page h.layout ⟨p, slot⟩ 0 = 0
  · rw [if_pos hlive, Option.map_none]
    exact if_pos hlive
  · rw [if_neg hlive, Option.map_some]
    exact if_neg hlive

lemma scanChain_eq (h : RowTableHeader) (hl : Linked s.page pages)
    (hsmall : ∀ p ∈ pages, p < rowstoreMaxPages) (hfuel : pages.length < fuel) :
    scanChain s h fuel (pages.headD rowstoreInvalidPage) =
      (rowIds h pages).filterMap fun id => (rowAt s.page h.layout id).map fun v => (id, v) := by
  induction pages generalizing fuel with
  | nil =>
    obtain ⟨fuel, rfl⟩ := Nat.exists_eq_succ_of_ne_zero (Nat.ne_of_gt hfuel)
    simp [scanChain, rowIds]
  | cons p ps ih =>
    obtain ⟨fuel, rfl⟩ := Nat.exists_eq_succ_of_ne_zero (Nat.ne_of_gt (Nat.zero_lt_of_lt hfuel))
    have hp := hsmall p (mem_cons_self ..)
    have hvalid : ¬ (p = rowstoreInvalidPage ∨ rowstoreMaxPages ≤ p) := by
      simp only [rowstoreMaxPages, rowstoreInvalidPage] at hp ⊢
      omega
    have hrest := ih hl.2 (fun r hr => hsmall r (mem_cons_of_mem _ hr))
      (Nat.lt_of_succ_lt_succ hfuel)
    rw [headD_cons, scanChain, if_neg hvalid]
    show scanPage h.layout (s.page p) p (pageLimit h p) ++
      scanChain s h fuel (readLE (s.page p) 4) = _
    rw [scanPage_eq, hl.1, hrest]
    simp [rowIds]

lemma Chained.scan {s : Store}
    (hc : Chained s.page h pages) : scanChain s h (rowstoreMaxPages + 1) h.firstPageId =
      (rowIds h pages).filterMap fun id => (rowAt s.page h.layout id).map fun v => (id, v) := by
  rw [hc.first]
  apply scanChain_eq h hc.linked hc.small
  have hsub : pages ⊆ range rowstoreMaxPages := fun p hp => mem_range.mpr (hc.small p hp)
  have hlen := (subperm_of_subset hc.nodup hsub).length_le
  rw [length_range] at hlen
  omega

end AeroSLS.Rowstore
