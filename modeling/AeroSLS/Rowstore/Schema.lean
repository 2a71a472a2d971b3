import AeroSLS.Rowstore.Table

namespace AeroSLS.Rowstore

open List Option

namespace ObjectSchema

/-- Put a field into slot `i`, as `rowstore_add_column` does. -/
def addField (schema : ObjectSchema) (i : ℕ) (key : String) (type : FieldType) : ObjectSchema :=
  ⟨schema.fields.set i ⟨key, type, true⟩,
    if schema.fieldCount ≤ i then i + 1 else schema.fieldCount⟩

/-- Free slot `i` again; key, type and count stay. -/
def dropField (schema : ObjectSchema) (i : ℕ) : ObjectSchema :=
  { schema with fields := schema.fields.modify i ({ · with active := false }) }

def freeField (schema : ObjectSchema) : Option ℕ := schema.fields.findIdx? (!·.active)

/-- No field behind a free slot. -/
def Filled (schema : ObjectSchema) : Prop :=
  schema.fields.Pairwise fun f g => g.active = true → f.active = true

instance (schema : ObjectSchema) : Decidable schema.Filled :=
  inferInstanceAs (Decidable (List.Pairwise _ _))

end ObjectSchema

def Store.setSchema (s : Store) (idx : ℕ) (schema : ObjectSchema) : Store :=
  { s with slots := s.slots.modify idx ({ · with schema := schema }) }

section Filled

variable {schema : ObjectSchema}

lemma ObjectSchema.freeField_split (hi : schema.freeField = some i) :
    ∃ front f back, schema.fields = front ++ f :: back ∧ front.length = i ∧
      (∀ g ∈ front, g.active) ∧ f.active = false := by
  obtain ⟨hlt, hfree, hbefore⟩ := findIdx?_eq_some_iff_getElem.mp hi
  refine ⟨schema.fields.take i, schema.fields[i], schema.fields.drop (i + 1), ?_, ?_, ?_, ?_⟩
  · rw [← drop_eq_getElem_cons hlt, take_append_drop]
  · simp [Nat.le_of_lt hlt]
  · grind [mem_take_iff_getElem]
  · simpa using hfree

lemma ObjectSchema.Filled.split (h : schema.Filled) (hi : schema.freeField = some i) :
    ∃ front f back, schema.fields = front ++ f :: back ∧ front.length = i ∧
      (∀ g ∈ front, g.active) ∧ f.active = false ∧ ∀ g ∈ back, g.active = false := by
  obtain ⟨front, f, back, hfields, hlen, hfront, hf⟩ := freeField_split hi
  refine ⟨front, f, back, hfields, hlen, hfront, hf, fun g hg => ?_⟩
  rw [Filled, hfields, pairwise_append, pairwise_cons] at h
  grind

lemma filled_append (hfront : ∀ g ∈ front, g.active) (hback : ∀ g ∈ back, g.active = false) :
    ObjectSchema.Filled ⟨front ++ f :: back, n⟩ := by
  rw [ObjectSchema.Filled, pairwise_append, pairwise_cons]
  refine ⟨?_, ⟨fun g hg hact => ?_, ?_⟩, fun g hg _ _ _ => hfront g hg⟩
  · exact pairwise_of_forall_mem_list fun g hg _ _ _ => hfront g hg
  · rw [hback g hg] at hact
    cases hact
  · grind [pairwise_of_forall_mem_list]

lemma set_append_cons {α : Type} (front : List α) (a b : α) (back : List α) :
    (front ++ a :: back).set front.length b = front ++ b :: back := by
  simp

lemma ObjectSchema.Filled.set (h : schema.Filled) (hi : schema.freeField = some i)
    (f : SchemaField) (n : ℕ) : ObjectSchema.Filled ⟨schema.fields.set i f, n⟩ := by
  obtain ⟨front, g, back, hfields, rfl, hfront, -, hback⟩ := h.split hi
  rw [hfields, set_append_cons]
  exact filled_append hfront hback

lemma ObjectSchema.Filled.addField (h : schema.Filled) (hi : schema.freeField = some i) :
    (schema.addField i key type).Filled := h.set hi _ _

end Filled

lemma layColumns_append : layColumns (front ++ back) offset =
      ((layColumns front offset).1 ++ (layColumns back (layColumns front offset).2).1,
        (layColumns back (layColumns front offset).2).2) := by
  induction front generalizing offset with
  | nil => rfl
  | cons f front ih => grind [layColumns]

lemma layColumns_free (h : ∀ g ∈ back, g.active = false) :
    layColumns back offset = ([], offset) := by
  induction back with
  | nil => rfl
  | cons g back ih => grind [layColumns]

lemma computeLayout_columns (h : computeLayout schema = some layout) :
    layColumns schema.fields 3 = (layout.columns, layout.rowWidth) := by
  unfold computeLayout at h
  simp only at h
  split_ifs at h
  obtain rfl := Option.some.inj h
  rfl

lemma computeLayout_addField {type : FieldType} (hfilled : schema.Filled)
    (hi : schema.freeField = some i)
    (h : computeLayout schema = some layout)
    (h' : computeLayout (schema.addField i key type) = some layout') :
    layout'.columns = layout.columns ++ [⟨key, type, layout.rowWidth⟩] := by
  obtain ⟨front, f, back, hfields, rfl, hfront, hf, hback⟩ := hfilled.split hi
  have hold := computeLayout_columns h
  have hnew := computeLayout_columns h'
  rw [ObjectSchema.addField, hfields, set_append_cons, layColumns_append, layColumns,
    if_pos rfl, layColumns_free hback] at hnew
  have hfree : ∀ g ∈ f :: back, g.active = false := by grind
  rw [hfields, layColumns_append, layColumns_free hfree, append_nil] at hold
  obtain ⟨hcolumns, hwidth⟩ := Prod.mk.inj hold
  rw [← hcolumns, ← hwidth]
  exact (congrArg Prod.fst hnew).symm

def LaidOut (s : Store) : Prop :=
  ∀ t ∈ s.slots, t.schema.Filled ∧ ∀ h, t.header = some h → computeLayout t.schema = some h.layout

section LaidOut

lemma SameCatalog.laidOut (hs : SameCatalog s s') (h : LaidOut s) : LaidOut s' := by
  intro t' ht'
  obtain ⟨i, hi⟩ := mem_iff_getElem?.mp ht'
  obtain ⟨t, ht, hshape⟩ := hs.symm.slot hi
  simp only [CatalogSlot.shape, Prod.mk.injEq] at hshape
  obtain ⟨-, -, -, -, hschema, hheader⟩ := hshape
  obtain ⟨hfilled, hlayout⟩ := h t (mem_of_getElem? ht)
  refine ⟨hschema ▸ hfilled, fun h' hh' => ?_⟩
  rw [hh', map_some, map_eq_some_iff] at hheader
  obtain ⟨g, hg, hgl⟩ := hheader
  rw [← hschema, ← hgl]
  exact hlayout g hg

lemma LaidOut.modify (h : LaidOut s)
    (ht : s.slots[idx]? = some t) (hslots : s'.slots = s.slots.modify idx f)
    (hfilled : (f t).schema.Filled)
    (hlayout : ∀ g, (f t).header = some g → computeLayout (f t).schema = some g.layout) :
    LaidOut s' := by
  intro u hu
  rw [hslots] at hu
  obtain ⟨j, hj⟩ := mem_iff_getElem?.mp hu
  rw [getElem?_modify] at hj
  by_cases hij : idx = j
  · grind
  · simp only [if_neg hij, Option.map_eq_map, Option.map_id'] at hj
    exact h u (mem_of_getElem? hj)

lemma rowstoreInit_laidOut (h : ∀ t ∈ slots, t.schema.Filled) :
    LaidOut (rowstoreInit slots disk) := by
  intro t ht
  obtain ⟨u, hu, rfl⟩ := mem_map.mp ht
  exact ⟨h u hu, fun _ hh => by cases hh⟩

lemma rowstoreCreateTable_laidOut (h : LaidOut s) (name : String) :
    LaidOut (rowstoreCreateTable s name).1 := by
  unfold rowstoreCreateTable
  split
  · exact h
  split
  · exact h
  next slot hslot =>
  split_ifs
  · exact h
  split
  · exact h
  · next layout hlayout =>
    refine h.modify hslot rfl (h slot (mem_of_getElem? hslot)).1 fun g hg => ?_
    rwa [← Option.some.inj hg]

end LaidOut

end AeroSLS.Rowstore
