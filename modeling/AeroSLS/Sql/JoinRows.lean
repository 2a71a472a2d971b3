import AeroSLS.Sql.Join
import AeroSLS.Sql.Rows

namespace AeroSLS.Sql

open Rowstore Mvcc List

section combine

@[simp] lemma combineRows_count : (combineRows n l m r).count = n + m := by
  simp [combineRows, RowValues.count]

lemma combineRows_text_left (h : col < n) : (combineRows n l m r).text col = l.text col := by
  unfold combineRows RowValues.text
  rw [getD_eq_getElem?_getD, getElem?_append_left (by simpa using h)]
  simp [h]

lemma combineRows_text_right (h : col < m) : (combineRows n l m r).text (n + col) = r.text col := by
  unfold combineRows RowValues.text
  simp [h]

lemma maskSegment_getLsbD (start count i : ℕ) : (maskSegment mask start count).getLsbD i =
      (decide (i < 16) && decide (start ≤ i) && decide (i - start < count) && mask.getLsbD
        (i - start)) := by
  unfold maskSegment
  by_cases hstart : start ≤ i
  · grind
  · simp [hstart]

lemma combineRows_isNull_left (h : col < n) (hn : n ≤ 16) :
    (combineRows n l m r).isNull col = l.isNull col := by
  unfold combineRows RowValues.isNull
  rw [BitVec.getLsbD_or, maskSegment_getLsbD, maskSegment_getLsbD]
  have h16 : col < 16 := by omega
  simp [h, h16]

lemma combineRows_isNull_right (h : col < m) (hnm : n + m ≤ 16) :
    (combineRows n l m r).isNull (n + col) = r.isNull col := by
  unfold combineRows RowValues.isNull
  rw [BitVec.getLsbD_or, maskSegment_getLsbD, maskSegment_getLsbD]
  have h16 : n + col < 16 := by omega
  simp [h, h16]

@[simp] lemma nullRow_text (col : ℕ) : (nullRow n).text col = Text.empty := by
  unfold nullRow RowValues.text
  rw [getD_eq_getElem?_getD, getElem?_replicate]
  split_ifs <;> rfl

lemma nullRow_isNull (h : col < 16) : (nullRow n).isNull col := by
  unfold nullRow RowValues.isNull
  rw [BitVec.getLsbD_allOnes, decide_eq_true h]

end combine

lemma columnType_qualify : columnType (qualify display layout) col = columnType layout col := by
  unfold columnType qualify
  rw [getElem?_map, Option.map_map]
  rfl

lemma length_qualify : (qualify display layout).length = layout.length := length_map ..

lemma columnType_append_left (h : col < as.length) :
    columnType (as ++ bs) col = columnType as col := by
  unfold columnType
  rw [getElem?_append_left h]

lemma columnType_append_right : columnType (as ++ bs) (as.length + col) = columnType bs col := by
  unfold columnType
  rw [getElem?_append_right (Nat.le_add_right ..), Nat.add_sub_cancel_left]

lemma TypedRow.qualify (h : TypedRow layout row) : TypedRow (qualify display layout) row := by
  constructor
  · rw [h.count, length_qualify]
  · grind [length_qualify, h.null]
  · intro col hcol hvalue
    rw [length_qualify] at hcol
    rw [columnType_qualify]
    exact h.value col hcol hvalue

lemma TypedRow.combine (hl : TypedRow as l)
    (hr : TypedRow bs r) (hwidth : as.length + bs.length ≤ 16) :
    TypedRow (as ++ bs) (combineRows as.length l bs.length r) := by
  have hsplit : ∀ col < (as ++ bs).length,
      col < as.length ∨ ∃ j < bs.length, col = as.length + j := by
    intro col hcol
    rw [length_append] at hcol
    by_cases h : col < as.length
    · exact .inl h
    · exact .inr ⟨col - as.length, by omega, by omega⟩
  constructor
  · rw [combineRows_count, length_append]
  · grind [combineRows_isNull_left, combineRows_text_left, combineRows_isNull_right,
      combineRows_text_right, hl.null, hr.null]
  · intro col hcol hvalue
    rcases hsplit col hcol with h | ⟨j, hj, rfl⟩
    · rw [combineRows_isNull_left h (by omega)] at hvalue
      rw [combineRows_text_left h, columnType_append_left h]
      exact hl.value col h hvalue
    · rw [combineRows_isNull_right hj hwidth] at hvalue
      rw [combineRows_text_right hj, columnType_append_right]
      exact hr.value j hj hvalue

lemma typedRow_null (h : layout.length ≤ 16) : TypedRow layout (nullRow layout.length) := by
  constructor
  · simp [nullRow, RowValues.count]
  · exact fun col _ _ => nullRow_text col
  · grind [nullRow_isNull]

/-- A JOIN clause resolves to its table's columns, and the combined row is not too wide. -/
lemma resolveJoin_ok (h : resolveJoin c s st jc = .ok plan) :
    tableColumns c jc.table = some plan.layout ∧
      st.layout.length + plan.layout.length ≤ rowstoreMaxColumns := by
  unfold resolveJoin at h
  split at h
  · split_ifs at h
  rename_i layoutNew hcols
  dsimp only at h
  split_ifs at h with hwide hleft hright
  · split at h
    · cases h
    split at h
    · cases h
    · grind
  · split at h
    · cases h
    split at h
    · cases h
    · grind

lemma scan_typed (hcols : tableColumns c table = some layout) (hgood : c.db.Good) :
    ∀ row ∈ mvccTableScan c.env c.db c.txnId c.uid table, TypedRow layout row.2 :=
  fun _ hrow => rowGet_typed (rowGet_of_scan hgood hrow) hcols

lemma joinStep_typed (hgood : c.db.Good) (h : joinStep c s st jc = .ok st')
    (hst : ∀ row ∈ st.rows, TypedRow st.layout row) : ∀ row ∈ st'.rows,
      TypedRow st'.layout row := by
  unfold joinStep at h
  split at h
  · cases h
  rename_i plan hplan
  obtain ⟨hcols, hwidth⟩ := resolveJoin_ok hplan
  cases h
  have hlen : st.layout.length + (qualify plan.display plan.layout).length ≤ 16 := by
    rwa [length_qualify]
  have hpair : ∀ l r, TypedRow st.layout l → TypedRow plan.layout r →
      TypedRow (st.layout ++ qualify plan.display plan.layout)
        (combineRows st.layout.length l plan.layout.length r) := by
    intro l r hl hr
    have hcombined := hl.combine hr.qualify hlen
    rwa [length_qualify] at hcombined
  have hnew : TypedRow plan.layout (nullRow plan.layout.length) := typedRow_null (by
    unfold rowstoreMaxColumns at hwidth
    omega)
  have hold : TypedRow st.layout (nullRow st.layout.length) := typedRow_null (by
    omega)
  intro row hrow
  rcases mem_append.1 (mem_of_mem_take hrow) with hmain | hanti
  · obtain ⟨l, hl, hin⟩ := mem_flatMap.1 hmain
    unfold joinRow at hin
    split at hin
    · grind
    obtain ⟨id, -, hid⟩ := mem_filterMap.1 hin
    split at hid
    · rename_i rowNew hget
      cases hid
      exact hpair l rowNew (hst l hl) (rowGet_typed hget hcols)
    · cases hid
  · split_ifs at hanti
    · obtain ⟨r, hr, rfl⟩ := mem_map.1 hanti
      exact hpair _ r.2 hold (scan_typed hcols hgood r (mem_filter.1 hr).1)
    · cases hanti

/-- What holds of the FROM table's rows and what each JOIN clause keeps holds of the join. -/
lemma joinMaterialize_keeps {P : JoinState → Prop} (h : joinMaterialize c s = .ok st)
    (hfrom : ∀ layout, tableColumns c s.tableName = some layout → P (joinFrom c s layout))
    (hstep : ∀ st jc st', joinStep c s st jc = .ok st' → P st → P st') : P st := by
  have hsteps : ∀ jcs st', P st' → joinSteps c s st' jcs = .ok st → P st := by
    intro jcs
    induction jcs with
    | nil =>
      rintro st' hst' ⟨⟩
      exact hst'
    | cons jc jcs ih =>
      intro st' hst' h
      unfold joinSteps at h
      split at h
      · cases h
      · exact ih _ (hstep _ _ _ ‹_› hst') h
  unfold joinMaterialize at h
  split at h
  · split_ifs at h
  · exact hsteps _ _ (hfrom _ ‹_›) h

lemma joinFrom_typed (hgood : c.db.Good) (hcols : tableColumns c s.tableName = some layout) :
    ∀ row ∈ (joinFrom c s layout).rows, TypedRow (joinFrom c s layout).layout row := by
  intro row hrow
  obtain ⟨r, hr, rfl⟩ := mem_map.1 (mem_of_mem_take hrow)
  exact (scan_typed hcols hgood r hr).qualify

lemma joinMaterialize_typed (hgood : c.db.Good) (h : joinMaterialize c s = .ok st) :
    ∀ row ∈ st.rows, TypedRow st.layout row :=
  joinMaterialize_keeps h (fun _ => joinFrom_typed hgood) fun _ _ _ => joinStep_typed hgood

lemma joinMaterialize_length (h : joinMaterialize c s = .ok st) :
    st.rows.length ≤ cursorMaxRowsetRows := by
  refine joinMaterialize_keeps (P := fun st => st.rows.length ≤ cursorMaxRowsetRows) h
    (fun _ _ => length_take_le ..) fun st jc st' hstep _ => ?_
  unfold joinStep at hstep
  split at hstep
  · cases hstep
  · cases hstep
    exact length_take_le ..

end AeroSLS.Sql
