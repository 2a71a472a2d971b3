import AeroSLS.Rowstore.Table

namespace AeroSLS.Rowstore

open Bytes Function

/-- Every page handed out, with the possible exception of `except`, is on the disk
as it is in memory. -/
def Store.OnDiskBut (s : Store) (except : Option ℕ) : Prop :=
  ∀ p, p < s.cursor (p / rowstorePagesPerPartition) → some p ≠ except → s.disk p = s.page p

abbrev Store.OnDisk (s : Store) : Prop := s.OnDiskBut none

section Writes

variable {env : Env} {s : Store}

lemma onDisk_flush (hd : ∀ p, env.durable p)
    (hs : s.OnDiskBut except) (hq : except = none ∨ except = some q) :
    (rowstoreFlushPage env (s.setPage q page) q).1.OnDisk := by
  intro p hp _
  rw [rowstoreFlushPage, if_pos (hd q)] at hp ⊢
  simp only [Store.setPage]
  by_cases hpq : p = q
  · subst hpq
    simp
  simp only [update_of_ne hpq]
  refine hs p hp fun heq => ?_
  rcases hq with rfl | rfl
  · cases heq
  · exact hpq (Option.some.inj heq)

lemma onDisk_other_page (hd : ∀ p, env.durable p) (hs : s.OnDiskBut except) :
    (rowstoreFlushPage env (s.setPage q page) q).1.OnDiskBut except := by
  intro p hp hne
  rw [rowstoreFlushPage, if_pos (hd q)] at hp ⊢
  simp only [Store.setPage]
  by_cases hpq : p = q
  · subst hpq
    simp
  · simp only [update_of_ne hpq]
    exact hs p hp hne

lemma rowstoreAllocPage_onDisk {id : ℕ} (hs : s.OnDisk)
    (ha : rowstoreAllocPage env s partitionId = some (s', id)) : s'.OnDiskBut (some id) := by
  simp only [rowstoreAllocPage] at ha
  split_ifs at ha
  obtain ⟨rfl, rfl⟩ := ha
  intro p hp hne
  have hpne : p ≠ s.cursor partitionId := fun heq => hne (congrArg some heq)
  simp only [Store.setPage, update_of_ne hpne]
  refine hs p ?_ (by simp)
  change p < update s.cursor partitionId (s.cursor partitionId + 1) _ at hp
  by_cases hpart : p / rowstorePagesPerPartition = partitionId
  · grind
  · rwa [update_of_ne hpart] at hp

section

variable (hd : ∀ p, env.durable p) (hs : s.OnDisk)
include hd hs

/-- Growing leaves at most the new last page to be written. -/
theorem growTable_onDisk (hg : growTable env s partitionId h = some (s', h', lost)) :
    s'.OnDisk ∨ s'.OnDiskBut (some h'.lastPageId) := by
  unfold growTable at hg
  by_cases hfull : h.firstPageId = rowstoreInvalidPage ∨ h.layout.rowsPerPage ≤ h.rowsInLastPage
  · rw [if_pos hfull] at hg
    rcases halloc : rowstoreAllocPage env s partitionId with _ | r
    · rw [halloc] at hg
      cases hg
    have hs1 := rowstoreAllocPage_onDisk hs halloc
    rw [halloc] at hg
    split_ifs at hg
    · grind
    · obtain ⟨rfl, rfl, -⟩ := hg
      exact .inr (onDisk_other_page hd hs1)
  · grind

lemma appendRow_onDisk {row : Buf} {id : RowId}
    (ha : appendRow env s partitionId h row = some (s', h', id, lost)) : s'.OnDisk := by
  unfold appendRow at ha
  split at ha
  · cases ha
  next s1 h1 linkLost hgrow =>
  obtain ⟨rfl, -, -, -⟩ := ha
  rcases growTable_onDisk hd hs hgrow with hs1 | hs1
  · exact onDisk_flush hd hs1 (.inl rfl)
  · exact onDisk_flush hd hs1 (.inr rfl)

lemma rowstoreRowInsert_onDisk : (rowstoreRowInsert env s uid name values).1.OnDisk := by
  unfold rowstoreRowInsert
  split
  · exact hs
  split_ifs
  · exact hs
  · exact hs
  · split
    · exact hs
    split
    · exact hs
    · next happend =>
      have hs' := appendRow_onDisk hd hs happend
      exact hs'

lemma rowstoreRowDelete_onDisk (id : RowId) : (rowstoreRowDelete env s uid name id).1.OnDisk := by
  unfold rowstoreRowDelete
  split
  · exact hs
  split_ifs
  · exact hs
  · split
    · exact hs
    · exact onDisk_flush hd hs (.inl rfl)

end

end Writes

section Reload

variable {s : Store}

/-- Every row is back after a restart. -/
theorem Store.OnDisk.reload (hs : s.OnDisk) (hheap : Heap s used) :
    Heap s.reload used ∧ ∀ i, ∀ id ∈ used i, s.reload.row i id = s.row i id := by
  obtain ⟨chain, hon, hused⟩ := hheap
  have hpage : ∀ i, ∀ p ∈ chain i, s.reload.page p = s.page p := fun i p hp =>
    hs p (hon.allocated i p hp).1 (by simp)
  have hslot : ∀ i, ∀ id ∈ used i, ∀ layout,
      slotBytes s.reload.page layout id = slotBytes s.page layout id := by
    intro i id hid layout
    rw [hused] at hid
    rw [slotBytes, slotBytes, hpage i _ (mem_chain_of_mem_usedIds hid)]
  refine ⟨⟨chain, ⟨hon.pool, fun i h hh => ?_, hon.allocated, hon.disjoint⟩, hused⟩,
    fun i id hid => ?_⟩
  · have hc := hon.tables i h hh
    refine ⟨hc.first, hc.last, hc.linked.congr fun p hp => ?_, hc.nodup, hc.small, hc.room,
      fun id hid => ?_⟩
    · rw [hpage i p hp]
      exact fun _ _ => rfl
    have hh' : s.header i = some h := hh
    have hmem : id ∈ used i := by rwa [hused, usedIds_of_header hh']
    have hw := hc.written id hid
    rwa [Written, hslot i id hmem]
  · show (s.header i).bind _ = _
    congr 1
    funext h
    rw [rowAt, rowAt, hslot i id hid]

end Reload

end AeroSLS.Rowstore
