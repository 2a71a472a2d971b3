import AeroSLS.Lib.Bytes
import Mathlib.Data.Int.Notation

namespace AeroSLS.Rowstore

open Bytes

def rowstoreMaxColumns : ℕ := 16
def rowstoreStringLen : ℕ := 64
def rowstorePageSize : ℕ := 4096
def recordValLen : ℕ := 256
def schemaMaxFields : ℕ := 32

def Text : Type := { s : List UInt8 // (∀ c ∈ s, c ≠ 0) ∧ s.length < recordValLen }
  deriving DecidableEq

namespace Text

def empty : Text := ⟨[], by simp [recordValLen]⟩

/-- `strcpy` of the string at `b`. -/
def ofBuf (b : Buf) : Text :=
  ⟨cstr b (recordValLen - 1), cstr_ne_zero, by
    have := cstr_length_le b (recordValLen - 1)
    simp only [recordValLen] at this ⊢
    omega⟩

def ofBytes (s : List UInt8) : Text := ofBuf (Buf.ofList s)

lemma ofBytes_val (hne : ∀ c ∈ s, c ≠ 0) (hlen : s.length < recordValLen) : (ofBytes s).1 = s :=
  cstr_ofList hne (by omega)

end Text

/-- A row as callers pass and receive it; the count is the number of texts. -/
structure RowValues where
  nullMask : BitVec 16
  values : List Text
  deriving DecidableEq

namespace RowValues

def count (v : RowValues) : ℕ := v.values.length

def isNull (v : RowValues) (c : ℕ) : Bool := v.nullMask.getLsbD c

def text (v : RowValues) (c : ℕ) : Text := v.values.getD c Text.empty

end RowValues

inductive FieldType
  | uint64
  | float
  | bool
  | string
  | blob
  deriving DecidableEq, Repr

def digitByte (d : ℕ) : UInt8 := UInt8.ofNat (48 + d)

def isDigit (c : UInt8) : Bool := 48 ≤ c && c ≤ 57

/-- The digit loop of `rs_parse_u64`, on a 64-bit accumulator. -/
def parseDigits : List UInt8 → ℕ → Option ℕ
  | [], v => some v
  | c :: cs, v => if isDigit c then parseDigits cs ((v * 10 + (c.toNat - 48)) % 2 ^ 64) else none

def rsParseU64 (s : List UInt8) : Option ℕ := if s = [] then none else parseDigits s 0

/-- The `tmp` loop of `rs_u64_to_str`: at most 20 digits. -/
def u64Digits : ℕ → ℕ → List UInt8 → List UInt8
  | 0, _, acc => acc
  | fuel + 1, v, acc => if v = 0 then acc else u64Digits fuel (v / 10) (digitByte (v % 10) :: acc)

def rsU64ToStr (v : ℕ) : List UInt8 := if v = 0 then [48] else u64Digits 20 v []

def trueText : List UInt8 := [116, 114, 117, 101]
def falseText : List UInt8 := [102, 97, 108, 115, 101]

def rsParseBool (s : List UInt8) : Option UInt8 :=
  if s = trueText ∨ s = [49] then some 1
  else if s = falseText ∨ s = [48] then some 0
  else none

/-- The integer part of `rs_parse_f64`: value, whether a digit was seen, rest. -/
def f64IntPart : List UInt8 → Float → Bool → Float × Bool × List UInt8
  | [], v, saw => (v, saw, [])
  | c :: cs, v, saw =>
    if isDigit c then f64IntPart cs (v * 10 + Float.ofNat (c.toNat - 48)) true
    else (v, saw, c :: cs)

/-- The digits after the point, with the weight of the next one. -/
def f64FracPart : List UInt8 → Float → Float → Bool → Float × Bool × List UInt8
  | [], v, _, saw => (v, saw, [])
  | c :: cs, v, frac, saw =>
    if isDigit c then f64FracPart cs (v + Float.ofNat (c.toNat - 48) * frac) (frac * 0.1) true
    else (v, saw, c :: cs)

def rsParseF64 (s : List UInt8) : Option Float :=
  let neg := s.head? = some 45
  let body := if neg then s.drop 1 else s
  let (v, saw, rest) := f64IntPart body 0 false
  let (v, saw, rest) :=
    match rest with
    | 46 :: cs => f64FracPart cs v 0.1 saw
    | _ => (v, saw, rest)
  if rest ≠ [] ∨ saw = false then none else some (if neg then -v else v)

/-- The six decimals of `rs_f64_to_str`. -/
def f64Decimals : ℕ → Float → List UInt8
  | 0, _ => []
  | k + 1, frac =>
    let frac := frac * 10
    let digit := min 9 frac.toUInt64.toNat
    digitByte digit :: f64Decimals k (frac - Float.ofNat digit)

def rsF64ToStr (v : Float) : List UInt8 :=
  let neg : Bool := v < 0
  let v := if neg then -v else v
  let ip := v.toUInt64
  (if neg then [45] else []) ++ rsU64ToStr ip.toNat ++ 46 :: f64Decimals 6 (v - ip.toFloat)

def columnWidth : FieldType → ℕ
  | .uint64 => 8
  | .float => 8
  | .bool => 1
  | .string | .blob => rowstoreStringLen

inductive TypedValue
  | uint64 (v : ℕ)
  | float (bits : UInt64)
  | bool (v : UInt8)
  | string (s : List UInt8)
  deriving DecidableEq

/-- The value `serialize_row` stores for a non-NULL text. -/
def parseCell (t : FieldType) (s : List UInt8) : Option TypedValue :=
  match t with
  | .uint64 => (rsParseU64 s).map .uint64
  | .float => (rsParseF64 s).map fun v => .float v.toBits
  | .bool => (rsParseBool s).map .bool
  | .string | .blob => if rowstoreStringLen ≤ s.length then none else some (.string s)

/-- The bytes written at the column's offset. -/
def TypedValue.bytes : TypedValue → Buf
  | .uint64 v => leBytes v
  | .float bits => leBytes bits.toNat
  | .bool v => fun _ => v
  | .string s => Buf.ofList s

def readCell (t : FieldType) (src : Buf) : TypedValue :=
  match t with
  | .uint64 => .uint64 (readLE src 8)
  | .float => .float (UInt64.ofNat (readLE src 8))
  | .bool => .bool (src 0)
  | .string | .blob => .string (cstr src (recordValLen - 1))

/-- The text `deserialize_row` shows for a stored value. -/
def TypedValue.render : TypedValue → List UInt8
  | .uint64 v => rsU64ToStr v
  | .float bits => rsF64ToStr (Float.ofBits bits)
  | .bool v => if v = 0 then falseText else trueText
  | .string s => s

structure SchemaField where
  key : String
  type : FieldType
  active : Bool
  deriving DecidableEq

structure ObjectSchema where
  fields : List SchemaField
  fieldCount : ℕ
  deriving DecidableEq

structure Column where
  name : String
  type : FieldType
  offset : ℕ
  deriving DecidableEq

def Packed : List Column → ℕ → ℕ → Prop
  | [], offset, width => offset = width
  | c :: cs, offset, width => c.offset = offset ∧ Packed cs (offset + columnWidth c.type) width

/-- Byte 0 of a row is the active flag, bytes 1 and 2 the null mask; a page starts with its
successor's id. -/
structure RowTableLayout where
  columns : List Column
  rowWidth : ℕ
  rowsPerPage : ℕ
  packed : Packed columns 3 rowWidth
  columns_le : columns.length ≤ rowstoreMaxColumns
  rows_fit : 4 + rowsPerPage * rowWidth ≤ rowstorePageSize
  rows_pos : 0 < rowsPerPage
  deriving DecidableEq

def RowTableLayout.columnCount (l : RowTableLayout) : ℕ := l.columns.length

/-- The layout loop: the active fields in schema order, packed from `offset`. -/
def layColumns : List SchemaField → ℕ → List Column × ℕ
  | [], offset => ([], offset)
  | f :: fs, offset =>
    if f.active then
      let r := layColumns fs (offset + columnWidth f.type)
      (⟨f.key, f.type, offset⟩ :: r.1, r.2)
    else layColumns fs offset

lemma layColumns_packed : Packed (layColumns fs offset).1 offset (layColumns fs offset).2 := by
  induction fs generalizing offset with
  | nil => rfl
  | cons f fs ih =>
    rw [layColumns]
    split_ifs
    · exact ⟨rfl, ih⟩
    · exact ih

lemma layColumns_length : (layColumns fs offset).1.length = fs.countP (·.active) := by
  induction fs generalizing offset with
  | nil => rfl
  | cons f fs ih => grind [layColumns]

def computeLayout (schema : ObjectSchema) : Option RowTableLayout :=
  let active := schema.fields.countP (·.active)
  if hcount : active = 0 ∨ rowstoreMaxColumns < active then none
  else
    let r := layColumns schema.fields 3
    let rowsPerPage := (rowstorePageSize - 4) / r.2
    if hrows : rowsPerPage = 0 then none
    else some
      { columns := r.1
        rowWidth := r.2
        rowsPerPage := rowsPerPage
        packed := layColumns_packed
        columns_le := by rw [layColumns_length]; omega
        rows_fit := by
          have := Nat.div_mul_le_self (rowstorePageSize - 4) r.2
          simp only [rowsPerPage, rowstorePageSize] at this ⊢
          omega
        rows_pos := Nat.pos_of_ne_zero hrows }

def serializeColumns (v : RowValues) : List Column → ℕ → Buf → Option Buf
  | [], _, out => some out
  | col :: cols, c, out =>
    if v.isNull c then
      serializeColumns v cols (c + 1) (out.fill col.offset 0 (columnWidth col.type))
    else
      match parseCell col.type (v.text c).1 with
      | none => none
      | some cell =>
        serializeColumns v cols (c + 1) (out.copy col.offset cell.bytes (columnWidth col.type))

def serializeRow (layout : RowTableLayout) (v : RowValues) : Option Buf :=
  serializeColumns v layout.columns 0
    ((Buf.zero.fill 0 1 1).copy 1 (leBytes v.nullMask.toNat) 2)

def deserializeColumns (mask : BitVec 16) (row : Buf) : List Column → ℕ → List Text
  | [], _ => []
  | col :: cols, c =>
    (if mask.getLsbD c then Text.empty
      else Text.ofBytes (readCell col.type (row.at col.offset)).render) ::
      deserializeColumns mask row cols (c + 1)

def deserializeRow (layout : RowTableLayout) (row : Buf) : RowValues :=
  let mask := BitVec.ofNat 16 (readLE (row.at 1) 2)
  ⟨mask, deserializeColumns mask row layout.columns 0⟩

end AeroSLS.Rowstore
