import AeroSLS.Rowstore.Row

namespace AeroSLS.Rowstore

open Bytes List Option TypedValue

lemma isDigit_digitByte (h : d < 10) : isDigit (digitByte d) ∧ (digitByte d).toNat - 48 = d := by
  revert d
  decide

/-- The number that a text of digits denotes, read on from `v`. -/
def numeral (v : ℕ) (s : List UInt8) : ℕ := s.foldl (fun v c => v * 10 + (c.toNat - 48)) v

theorem numeral_u64Digits (acc : List UInt8) (hv : v < 10 ^ fuel) :
    numeral 0 (u64Digits fuel v acc) = numeral v acc := by
  induction fuel generalizing v acc with
  | zero =>
    have h0 : v = 0 := by rw [pow_zero] at hv; omega
    rw [h0]
    rfl
  | succ fuel ih =>
    rw [u64Digits]
    split_ifs with h0
    · rw [h0]
    have hval := (isDigit_digitByte (Nat.mod_lt v (by decide : 0 < 10))).2
    have hdm : v / 10 * 10 + v % 10 = v := by omega
    rw [ih _ (by omega), numeral, foldl_cons, hval, hdm]
    rfl

/-- The parser keeps the last 64 bits of the number. -/
theorem parseDigits_eq : parseDigits s (v % 2 ^ 64) =
    if s.all isDigit then some (numeral v s % 2 ^ 64) else none := by
  induction s generalizing v with
  | nil => simp [parseDigits, numeral]
  | cons c cs ih =>
    have hmod : (v % 2 ^ 64 * 10 + (c.toNat - 48)) % 2 ^ 64 =
        (v * 10 + (c.toNat - 48)) % 2 ^ 64 := by omega
    rw [parseDigits, hmod, ih]
    by_cases hc : isDigit c <;> simp [hc, numeral]

lemma ne_zero_of_isDigit (h : isDigit c) : c ≠ 0 := by
  rintro rfl
  exact absurd h (by decide)

lemma u64Digits_digits (h : ∀ c ∈ acc, isDigit c) : ∀ c ∈ u64Digits fuel v acc, isDigit c := by
  induction fuel generalizing v acc with
  | zero => exact h
  | succ fuel ih => grind [u64Digits, isDigit_digitByte]

lemma u64Digits_length (fuel v : ℕ) (acc : List UInt8) :
    acc.length ≤ (u64Digits fuel v acc).length ∧
      (u64Digits fuel v acc).length ≤ acc.length + fuel := by
  induction fuel generalizing v acc with
  | zero => exact ⟨le_rfl, le_rfl⟩
  | succ fuel ih => grind [u64Digits]

lemma rsU64ToStr_ne_nil (v : ℕ) : rsU64ToStr v ≠ [] := by
  unfold rsU64ToStr
  split_ifs with h
  · simp
  intro hnil
  have hlen := u64Digits_length 19 (v / 10) [digitByte (v % 10)]
  rw [u64Digits, if_neg h] at hnil
  rw [hnil] at hlen
  simp at hlen

lemma rsU64ToStr_digits (v : ℕ) : ∀ c ∈ rsU64ToStr v, isDigit c := by
  unfold rsU64ToStr
  split_ifs
  · exact forall_mem_singleton.2 rfl
  · exact u64Digits_digits (by simp)

lemma rsU64ToStr_length (v : ℕ) : (rsU64ToStr v).length ≤ 20 := by
  unfold rsU64ToStr
  split_ifs
  · simp
  · simpa using (u64Digits_length 20 v []).2

lemma numeral_rsU64ToStr {v : ℕ} (h : v < 2 ^ 64) : numeral 0 (rsU64ToStr v) = v := by
  unfold rsU64ToStr
  split_ifs with h0
  · rw [h0]
    rfl
  · exact numeral_u64Digits [] (by omega)

lemma rsParseU64_rsU64ToStr {v : ℕ} (h : v < 2 ^ 64) : rsParseU64 (rsU64ToStr v) = some v := by
  rw [rsParseU64, if_neg (rsU64ToStr_ne_nil v), ← Nat.zero_mod (2 ^ 64), parseDigits_eq,
    if_pos (all_eq_true.2 (rsU64ToStr_digits v)), numeral_rsU64ToStr h, Nat.mod_eq_of_lt h]

lemma rsParseU64_eq {v : ℕ} (h : rsParseU64 s = some v) : v = numeral 0 s % 2 ^ 64 := by
  rw [rsParseU64, ← Nat.zero_mod (2 ^ 64), parseDigits_eq] at h
  split_ifs at h
  exact (Option.some.inj h).symm

lemma rsParseU64_lt {v : ℕ} (h : rsParseU64 s = some v) : v < 2 ^ 64 :=
  rsParseU64_eq h ▸ Nat.mod_lt _ (by decide)

lemma rsParseBool_cases {v : UInt8} (h : rsParseBool s = some v) : v = 0 ∨ v = 1 := by
  unfold rsParseBool at h
  split_ifs at h
  · exact .inr (Option.some.inj h).symm
  · exact .inl (Option.some.inj h).symm

theorem readCell_of_agree {v : TypedValue} (hs : ∀ c ∈ s, c ≠ 0) (h : parseCell t s = some v)
    (hb : Buf.Agree (columnWidth t) v.bytes b) : readCell t b = v := by
  have hstring : ∀ {w : TypedValue}, (if rowstoreStringLen ≤ s.length then none
      else some (string s)) = some w → Buf.Agree rowstoreStringLen w.bytes b →
      string (cstr b (recordValLen - 1)) = w := by
    intro w hw hagree
    split_ifs at hw with hlen
    obtain rfl := Option.some.inj hw
    rw [rowstoreStringLen] at hlen hagree
    have hend : ∃ j < 64, (string s).bytes j = 0 :=
      ⟨s.length, by omega, by simp [bytes, Buf.ofList]⟩
    rw [← cstr_congr hagree hend]
    congr 1
    exact cstr_ofList hs (by simp only [recordValLen]; omega)
  cases t with
  | uint64 =>
    obtain ⟨n, hn, rfl⟩ := map_eq_some_iff.mp h
    have hlt := rsParseU64_lt hn
    have hle : readLE b 8 = n % 256 ^ 8 := by
      rw [← readLE_leBytes]
      exact (readLE_congr hb).symm
    rw [readCell, hle, Nat.mod_eq_of_lt (by omega)]
  | float =>
    obtain ⟨x, -, rfl⟩ := map_eq_some_iff.mp h
    have hle : readLE b 8 = x.toBits.toNat % 256 ^ 8 := by
      rw [← readLE_leBytes]
      exact (readLE_congr hb).symm
    have hlt := x.toBits.toNat_lt
    rw [readCell, hle, Nat.mod_eq_of_lt (by omega), UInt64.ofNat_toNat]
  | bool =>
    obtain ⟨x, -, rfl⟩ := map_eq_some_iff.mp h
    rw [readCell, ← hb 0 (by decide)]
    rfl
  | string | blob => exact hstring h hb

lemma f64Decimals_spec (k : ℕ) (frac : Float) :
    (∀ c ∈ f64Decimals k frac, isDigit c) ∧ (f64Decimals k frac).length = k := by
  induction k generalizing frac with
  | zero => exact ⟨by simp [f64Decimals], rfl⟩
  | succ k ih => grind [f64Decimals, isDigit_digitByte]

lemma rsF64ToStr_shape : ∃ (sign : List UInt8) (ip : ℕ) (frac : Float),
    (sign = [45] ∨ sign = []) ∧
      rsF64ToStr v = sign ++ rsU64ToStr ip ++ 46 :: f64Decimals 6 frac := by
  refine ⟨_, _, _, ?_, rfl⟩
  by_cases hneg : v < 0 <;> simp [hneg]

lemma rsF64ToStr_text (v : Float) :
    (∀ c ∈ rsF64ToStr v, c ≠ 0) ∧ (rsF64ToStr v).length < recordValLen := by
  obtain ⟨sign, ip, frac, hsign, hv⟩ := rsF64ToStr_shape
  obtain ⟨hdec, hdeclen⟩ := f64Decimals_spec 6 frac
  have hiplen := rsU64ToStr_length ip
  rw [hv]
  constructor
  · intro c hc
    simp only [mem_append, mem_cons] at hc
    rcases hc with (hc | hc) | rfl | hc
    · grind
    · exact ne_zero_of_isDigit (rsU64ToStr_digits ip c hc)
    · decide
    · exact ne_zero_of_isDigit (hdec c hc)
  · grind [recordValLen]

/-- Every rendering is a proper C string that fits its buffer. -/
theorem render_text {v : TypedValue} (hs : ∀ c ∈ s, c ≠ 0)
    (h : parseCell t s = some v) : (∀ c ∈ v.render, c ≠ 0) ∧ v.render.length < recordValLen := by
  have hstring : (if rowstoreStringLen ≤ s.length then none else some (string s)) = some v →
      (∀ c ∈ v.render, c ≠ 0) ∧ v.render.length < recordValLen := by
    intro hv
    split_ifs at hv with hlen
    obtain rfl := Option.some.inj hv
    rw [rowstoreStringLen] at hlen
    exact ⟨hs, by simp only [render, recordValLen]; omega⟩
  cases t with
  | uint64 =>
    obtain ⟨n, -, rfl⟩ := map_eq_some_iff.mp h
    have hlen := rsU64ToStr_length n
    exact ⟨fun c hc => ne_zero_of_isDigit (rsU64ToStr_digits n c hc),
      by simp only [render, recordValLen]; omega⟩
  | float =>
    obtain ⟨x, -, rfl⟩ := map_eq_some_iff.mp h
    exact rsF64ToStr_text (Float.ofBits x.toBits)
  | bool =>
    obtain ⟨x, -, rfl⟩ := map_eq_some_iff.mp h
    simp only [render]
    split_ifs
    · simp [falseText, recordValLen]
    · simp [trueText, recordValLen]
  | string | blob => exact hstring h

lemma f64IntPart_digits (h : ∀ c ∈ ds, isDigit c) (rest : List UInt8)
    (v : Float) (saw : Bool) : ∃ w, f64IntPart (ds ++ 46 :: rest) v saw =
      (w, saw || !ds.isEmpty, 46 :: rest) := by
  induction ds generalizing v saw with
  | nil => exact ⟨v, by simp [f64IntPart, isDigit]⟩
  | cons d ds ih =>
    obtain ⟨w, hw⟩ := ih (fun c hc => h c (mem_cons_of_mem _ hc))
      (v * 10 + Float.ofNat (d.toNat - 48)) true
    rw [cons_append, f64IntPart, if_pos (h d (mem_cons_self ..)), hw]
    simp

lemma f64FracPart_digits (h : ∀ c ∈ ds, isDigit c) (v frac : Float)
    (saw : Bool) : ∃ w, f64FracPart ds v frac saw = (w, saw || !ds.isEmpty, []) := by
  induction ds generalizing v frac saw with
  | nil => exact ⟨v, by simp [f64FracPart]⟩
  | cons d ds ih =>
    obtain ⟨w, hw⟩ := ih (fun c hc => h c (mem_cons_of_mem _ hc))
      (v + Float.ofNat (d.toNat - 48) * frac) (frac * 0.1) true
    rw [f64FracPart, if_pos (h d (mem_cons_self ..)), hw]
    simp

/-- Every number the formatter prints is read again, if not as the same number. -/
theorem rsParseF64_rsF64ToStr : (rsParseF64 (rsF64ToStr v)).isSome := by
  obtain ⟨sign, ip, frac, hsign, hv⟩ := rsF64ToStr_shape
  have hip := rsU64ToStr_digits ip
  have hne := rsU64ToStr_ne_nil ip
  have hbody : (if (rsF64ToStr v).head? = some 45 then (rsF64ToStr v).drop 1 else rsF64ToStr v) =
      rsU64ToStr ip ++ 46 :: f64Decimals 6 frac := by
    rw [hv]
    rcases hsign with rfl | rfl
    · rfl
    obtain ⟨d, ds, hds⟩ := exists_cons_of_ne_nil hne
    have hd : d ≠ 45 := by
      rintro rfl
      exact absurd (hip 45 (hds ▸ mem_cons_self ..)) (by decide)
    rw [hds]
    simp [hd]
  have hempty : (rsU64ToStr ip).isEmpty = false := by simpa using hne
  obtain ⟨w, hw⟩ := f64IntPart_digits hip (f64Decimals 6 frac) 0 false
  rw [hempty, Bool.not_false, Bool.or_true] at hw
  obtain ⟨x, hx⟩ := f64FracPart_digits (f64Decimals_spec 6 frac).1 w 0.1 true
  unfold rsParseF64
  simp only [hbody, hw, hx]
  simp

/-- What was stored for a text is also stored for its rendering; a float may
lose digits on the way. -/
theorem parseCell_render {x : TypedValue} (h : parseCell t s = some x) :
    ∃ y, parseCell t x.render = some y ∧ (t ≠ .float → y = x) := by
  cases t with
  | uint64 =>
    obtain ⟨n, hn, rfl⟩ := map_eq_some_iff.mp h
    exact ⟨.uint64 n, by rw [parseCell, render, rsParseU64_rsU64ToStr (rsParseU64_lt hn)]; rfl,
      fun _ => rfl⟩
  | float =>
    obtain ⟨v, -, rfl⟩ := map_eq_some_iff.mp h
    obtain ⟨w, hw⟩ := isSome_iff_exists.mp rsParseF64_rsF64ToStr
    exact ⟨.float w.toBits, by rw [parseCell, render, hw]; rfl, absurd rfl⟩
  | bool =>
    obtain ⟨v, hv, rfl⟩ := map_eq_some_iff.mp h
    rcases rsParseBool_cases hv with rfl | rfl <;> decide
  | string | blob =>
    have hx := h
    simp only [parseCell] at hx
    split_ifs at hx with hlen
    obtain rfl := Option.some.inj hx
    exact ⟨.string s, h, fun _ => rfl⟩

def canonColumns (v : RowValues) : List Column → ℕ → List Text
  | [], _ => []
  | col :: cols, c =>
    (if v.isNull c then Text.empty
      else match parseCell col.type (v.text c).1 with
        | some x => Text.ofBytes x.render
        | none => v.text c) :: canonColumns v cols (c + 1)

/-- The row that reading back an accepted `v` yields. -/
def canon (layout : RowTableLayout) (v : RowValues) : RowValues :=
  ⟨v.nullMask, canonColumns v layout.columns 0⟩

lemma Packed.le (h : Packed cols offset width) : offset ≤ width := by
  induction cols generalizing offset with
  | nil => exact le_of_eq h
  | cons col cols ih =>
    have := ih h.2
    omega

section

variable (hp : Packed cols offset width) (h : serializeColumns v cols c out = some out')
include hp h

lemma serializeColumns_before : Buf.Agree offset out' out := by
  induction cols generalizing c offset out with
  | nil =>
    obtain rfl := Option.some.inj h
    exact fun _ _ => rfl
  | cons col cols ih =>
    obtain ⟨hoff, hrest⟩ := hp
    have hstep : ∀ cell, Buf.Agree offset (out.copy col.offset cell (columnWidth col.type)) out :=
      fun cell i hi => Buf.copy_outside (by omega)
    rw [serializeColumns] at h
    split_ifs at h
    · exact ((ih hrest h).mono (by omega)).trans (hstep _)
    · split at h
      · cases h
      · exact ((ih hrest h).mono (by omega)).trans (hstep _)

theorem deserializeColumns_of_agree (hb : Buf.Agree width out' b) :
    deserializeColumns v.nullMask b cols c = canonColumns v cols c := by
  induction cols generalizing c offset out with
  | nil => rfl
  | cons col cols ih =>
    obtain ⟨hoff, hrest⟩ := hp
    have hle := hrest.le
    rw [serializeColumns] at h
    rw [deserializeColumns, canonColumns]
    split_ifs at h ⊢ with hnull hnull' hnull'
    · rw [ih hrest h]
    · exact absurd hnull hnull'
    · exact absurd hnull' hnull
    · split at h
      · cases h
      next cell hcell =>
      -- the cell written here survives the columns after it
      have hcellbytes : Buf.Agree (columnWidth col.type) cell.bytes (b.at col.offset) := by
        intro i hi
        have hlater := serializeColumns_before hrest h (col.offset + i) (by omega)
        rw [Buf.at_apply, ← hb (col.offset + i) (by omega), hlater, Buf.copy_inside hi]
      rw [readCell_of_agree (v.text c).2.1 hcell hcellbytes, ih hrest h, hcell]

end

lemma deserializeRow_of_agree
    (h : serializeRow layout v = some buf) (hb : Buf.Agree layout.rowWidth buf b) :
    deserializeRow layout b = canon layout v := by
  have hbefore := serializeColumns_before layout.packed h
  have hle := layout.packed.le
  have hmask : readLE (b.at 1) 2 = v.nullMask.toNat := by
    have hagree : Buf.Agree 2 (leBytes v.nullMask.toNat) (b.at 1) := by
      intro i hi
      rw [Buf.at_apply, ← hb (1 + i) (by omega), hbefore (1 + i) (by omega), Buf.copy_inside hi]
    rw [← readLE_congr hagree, readLE_leBytes, Nat.mod_eq_of_lt]
    exact v.nullMask.isLt
  unfold deserializeRow
  simp only [hmask, BitVec.ofNat_toNat, BitVec.setWidth_eq]
  rw [canon, deserializeColumns_of_agree layout.packed h hb]

lemma serializeRow_active (h : serializeRow layout v = some buf) : buf 0 = 1 := by
  have hbefore := serializeColumns_before layout.packed h 0 (by omega)
  rw [hbefore]
  rfl

/-- The text a column of an accepted row reads back as. -/
def canonText (v : RowValues) (c : ℕ) (col : Column) : Text :=
  if v.isNull c then Text.empty
  else match parseCell col.type (v.text c).1 with
    | some x => Text.ofBytes x.render
    | none => v.text c

section

variable (v : RowValues) {layout : RowTableLayout}
include v

lemma canonColumns_getElem? :
    (canonColumns v cols c)[i]? = (cols[i]?).map (canonText v (c + i)) := by
  induction cols generalizing c i with
  | nil => rfl
  | cons col cols ih =>
    cases i with
    | zero => rfl
    | succ i => grind [canonColumns]

lemma canon_text (hcol : layout.columns[c]? = some col) :
    (canon layout v).text c = canonText v c col := by
  rw [RowValues.text, canon, getD_eq_getElem?_getD, canonColumns_getElem?, hcol, Nat.zero_add]
  rfl

lemma canon_count : (canon layout v).count = layout.columnCount := by
  have hlen : ∀ cols c, (canonColumns v cols c).length = cols.length := by
    intro cols
    induction cols with
    | nil => exact fun _ => rfl
    | cons col cols ih => exact fun c => by rw [canonColumns, length_cons, ih, length_cons]
  exact hlen layout.columns 0

theorem serializeColumns_isSome_iff :
    (serializeColumns v cols c out).isSome ↔ ∀ i col, cols[i]? = some col →
      v.isNull (c + i) = false → (parseCell col.type (v.text (c + i)).1).isSome := by
  induction cols generalizing c out with
  | nil => simp [serializeColumns]
  | cons col cols ih =>
    -- column 0 here, the others by induction
    have hsplit : (∀ i col', (col :: cols)[i]? = some col' → v.isNull (c + i) = false →
        (parseCell col'.type (v.text (c + i)).1).isSome) ↔
        (v.isNull c = false → (parseCell col.type (v.text c).1).isSome) ∧
        ∀ i col', cols[i]? = some col' → v.isNull (c + 1 + i) = false →
          (parseCell col'.type (v.text (c + 1 + i)).1).isSome := by
      constructor
      · intro h
        refine ⟨h 0 col rfl, fun i col' hcol => ?_⟩
        rw [show c + 1 + i = c + (i + 1) by omega]
        exact h (i + 1) col' hcol
      · grind
    rw [hsplit, serializeColumns]
    cases hnull : v.isNull c with
    | true => simp [ih]
    | false =>
      cases hcell : parseCell col.type (v.text c).1 with
      | none => simp
      | some => simp [ih]

lemma serializeRow_isSome_iff : (serializeRow layout v).isSome ↔
    ∀ c col, layout.columns[c]? = some col → v.isNull c = false →
      (parseCell col.type (v.text c).1).isSome := by
  rw [serializeRow, serializeColumns_isSome_iff]
  simp

end

lemma canonText_of_parse (hnull : u.isNull c = false)
    (hx : parseCell col.type (u.text c).1 = some x) :
    canonText u c col = Text.ofBytes x.render ∧ (canonText u c col).1 = x.render := by
  obtain ⟨hne, hlen⟩ := render_text (u.text c).2.1 hx
  rw [canonText, hnull, if_neg Bool.false_ne_true, hx]
  exact ⟨rfl, Text.ofBytes_val hne hlen⟩

lemma parseCell_canonText (hnull : u.isNull c = false)
    (hparse : (parseCell col.type (u.text c).1).isSome) :
    ∃ y, parseCell col.type (canonText u c col).1 = some y ∧
      (col.type ≠ .float → Text.ofBytes y.render = canonText u c col) := by
  obtain ⟨x, hx⟩ := Option.isSome_iff_exists.mp hparse
  obtain ⟨y, hy, hyx⟩ := parseCell_render hx
  obtain ⟨htext, hval⟩ := canonText_of_parse hnull hx
  rw [hval, htext]
  exact ⟨y, hy, fun hfloat => by rw [hyx hfloat]⟩

def Denotes (t : FieldType) (s r : List UInt8) : Prop :=
  match t with
  | .uint64 => r ≠ [] ∧ (∀ c ∈ r, isDigit c) ∧ numeral 0 r = numeral 0 s
  | .float => True
  | .bool => rsParseBool r = rsParseBool s
  | .string | .blob => r = s

lemma denotes_render_iff {x : TypedValue} (h : parseCell t s = some x) :
    Denotes t s x.render ↔ (t = .uint64 → numeral 0 s < 2 ^ 64) := by
  have hstring : (if rowstoreStringLen ≤ s.length then none else some (string s)) = some x →
      x.render = s := by
    intro hx
    split_ifs at hx
    cases hx
    rfl
  cases t with
  | uint64 =>
    obtain ⟨n, hn, rfl⟩ := map_eq_some_iff.mp h
    have hval := numeral_rsU64ToStr (rsParseU64_lt hn)
    have hmod := rsParseU64_eq hn
    simp only [Denotes, render, hval, rsU64ToStr_ne_nil, ne_eq, not_false_eq_true, true_and,
      forall_const]
    exact ⟨fun hs => by omega, fun hs => ⟨rsU64ToStr_digits n, by omega⟩⟩
  | float => exact ⟨fun _ => nofun, fun _ => trivial⟩
  | bool =>
    obtain ⟨b, hb, rfl⟩ := map_eq_some_iff.mp h
    refine ⟨fun _ => nofun, fun _ => ?_⟩
    rw [Denotes, hb]
    rcases rsParseBool_cases hb with rfl | rfl <;> decide
  | string | blob => exact ⟨fun _ => nofun, fun _ => hstring h⟩

/-- **A stored row comes back**: every column with its null flag and, unless it is NULL,
with the value of the accepted text, if and only if that is no number of more than 64
bits. -/
theorem stored_values_come_back_iff (h : serializeRow layout v = some buf) :
    (deserializeRow layout buf).count = layout.columnCount ∧
      (∀ c, (deserializeRow layout buf).isNull c = v.isNull c) ∧
      ∀ c col, layout.columns[c]? = some col → v.isNull c = false →
        (Denotes col.type (v.text c).1 ((deserializeRow layout buf).text c).1 ↔
          (col.type = .uint64 → numeral 0 (v.text c).1 < 2 ^ 64)) := by
  rw [deserializeRow_of_agree h fun _ _ => rfl]
  refine ⟨canon_count v, fun _ => rfl, fun c col hcol hnull => ?_⟩
  have hparse := (serializeRow_isSome_iff v).1 (isSome_of_eq_some h) c col hcol hnull
  obtain ⟨x, hx⟩ := isSome_iff_exists.1 hparse
  rw [canon_text v hcol, (canonText_of_parse hnull hx).2]
  exact denotes_render_iff hx

/-- A number and a text, with a NULL between them. -/
theorem stored_values_come_back_row : ∃ layout buf,
    let v : RowValues := ⟨2, [.ofBytes [52, 50], .ofBytes [], .ofBytes [97, 98]]⟩
    serializeRow layout v = some buf ∧ (deserializeRow layout buf).isNull 1 = true ∧
      Denotes .uint64 [52, 50] ((deserializeRow layout buf).text 0).1 ∧
      Denotes .string [97, 98] ((deserializeRow layout buf).text 2).1 := by
  have hlayout : (computeLayout ⟨[⟨"n", .uint64, true⟩, ⟨"b", .bool, true⟩,
    ⟨"s", .string, true⟩], 3⟩).isSome := by decide
  have hrow : serializeRow (Option.get _ hlayout)
    ⟨2, [.ofBytes [52, 50], .ofBytes [], .ofBytes [97, 98]]⟩ = some _ := rfl
  obtain ⟨-, hnull, htexts⟩ := stored_values_come_back_iff hrow
  exact ⟨_, _, hrow, hnull 1, (htexts 0 ⟨"n", .uint64, 3⟩ rfl rfl).2 fun _ => by decide,
    (htexts 2 ⟨"s", .string, 12⟩ rfl rfl).2 nofun⟩

/-- The text that comes back for a number written out in the only column. -/
def numberBack (n : ℕ) : Option (List UInt8) :=
  (computeLayout ⟨[⟨"v", .uint64, true⟩], 1⟩).bind fun layout =>
    (serializeRow layout ⟨0, [.ofBytes (rsU64ToStr n)]⟩).map fun buf =>
      ((deserializeRow layout buf).text 0).1

theorem number_wraps : numberBack (2 ^ 64) = some (rsU64ToStr 0) := by
  decide

end AeroSLS.Rowstore
