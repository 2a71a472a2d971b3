import AeroSLS.Mvcc.Ops

namespace AeroSLS.Sql

open Rowstore Mvcc

def predicateMaxNodes : ℕ := 32
def predicateSubqueryTextLen : ℕ := 256

inductive CompareOp
  | eq
  | ne
  | lt
  | gt
  | le
  | ge
  | like
  | isNull
  | isNotNull
  | inSubquery
  | false
  deriving DecidableEq

inductive ArithOp
  | none
  | add
  | sub
  | mul
  | div
  deriving DecidableEq

inductive ArithOperand
  | column (name : String)
  | number (text : List UInt8)
  deriving DecidableEq

/-- A comparison whose value comes from a subquery names it by its index. -/
inductive PredicateNode
  | comparison (column : String) (op : CompareOp) (literal : Text) (subquery : Option ℕ)
  | arith (op1 : ArithOperand) (arith : ArithOp) (op2 : ArithOperand) (op : CompareOp)
      (literal : Text)
  | and (left right : ℕ)
  | or (left right : ℕ)
  deriving DecidableEq

structure Subquery where
  text : List UInt8
  isCorrelated : Bool
  deriving DecidableEq

structure Predicate where
  nodes : List PredicateNode
  root : Option ℕ
  subqueries : List Subquery
  deriving DecidableEq

namespace Predicate

variable (p : Predicate)

/-- The node's index, if the pool has room for it. -/
def addNode (n : PredicateNode) : Predicate × Option ℕ :=
  if predicateMaxNodes ≤ p.nodes.length then (p, none)
  else ({ p with nodes := p.nodes ++ [n] }, some p.nodes.length)

def addComparison (column : String) (op : CompareOp) (literal : Text) : Predicate × Option ℕ :=
  p.addNode (.comparison column op literal none)

def addLogical (node : ℕ → ℕ → PredicateNode) (left right : ℕ) : Predicate × Option ℕ :=
  if p.nodes.length ≤ left ∨ p.nodes.length ≤ right then (p, none) else p.addNode (node left right)

def addOr (left right : ℕ) : Predicate × Option ℕ := p.addLogical .or left right

end Predicate

def charIsIdent (c : UInt8) : Bool :=
  (97 ≤ c && c ≤ 122) || (65 ≤ c && c ≤ 90) || (48 ≤ c && c ≤ 57) || c = 95

def toLower (c : UInt8) : UInt8 := if 65 ≤ c && c ≤ 90 then c + 32 else c

/-- The text starts with `OUTER.`, in either case. -/
def isOuterAt (s : List UInt8) : Bool := (s.take 6).map toLower = [111, 117, 116, 101, 114, 46]

namespace Predicate

variable (p : Predicate)

def hasCorrelatedSubquery : Bool :=
  p.nodes.any fun
    | .comparison _ _ _ (some k) => (p.subqueries[k]?).any (·.isCorrelated)
    | _ => false

end Predicate

def findColumnIndex (layout : List Column) (name : String) : Option ℕ :=
  layout.findIdx? fun c => c.name = name

def columnType (layout : List Column) (col : ℕ) : FieldType :=
  ((layout[col]?).map (·.type)).getD .string

def boolInt (b : Bool) : ℤ := if b then 1 else 0

def compareTexts (t : FieldType) (a b : List UInt8) : Option ℤ :=
  match t with
  | .uint64 =>
    match rsParseU64 a, rsParseU64 b with
    | some x, some y => some (boolInt (y < x) - boolInt (x < y))
    | _, _ => none
  | .float =>
    match rsParseF64 a, rsParseF64 b with
    | some x, some y => some (boolInt (y < x) - boolInt (x < y))
    | _, _ => none
  | .bool =>
    match rsParseBool a, rsParseBool b with
    | some x, some y => some ((x.toNat : ℤ) - y.toNat)
    | _, _ => none
  | .string | .blob => some (rcStrcmp a b)

variable (layout : List Column) (row : RowValues)

def rowColumn (name : String) : Option ℕ :=
  (findColumnIndex layout name).bind fun col => if row.count ≤ col then none else some col

/-- `compare_typed` of the predicate engine: a NULL compares with nothing. -/
def compareTyped (name : String) (literal : Text) : Option ℤ :=
  match rowColumn layout row name with
  | none => none
  | some col =>
    if row.isNull col then none
    else compareTexts (columnType layout col) (row.text col).1 literal.1

def CompareOp.holds (op : CompareOp) (cmp : ℤ) : Bool :=
  match op with
  | .eq => cmp = 0
  | .ne => cmp ≠ 0
  | .lt => cmp < 0
  | .gt => 0 < cmp
  | .le => cmp ≤ 0
  | .ge => 0 ≤ cmp
  | _ => Bool.false

def percent : UInt8 := 37
def underscore : UInt8 := 95

/-- Go back to the last `%`, which takes one character more. -/
def likeRetry (again : List UInt8 → List UInt8 → Option Bool) :
    Option (List UInt8 × List UInt8) → Option Bool
  | some (pattern, text) => again pattern text.tail
  | none => some false

/-- The loop of `pe_like_match`: `pattern` and `text` are what is left from `pi` and `ti`
on, `star` the pattern behind the last `%` and the text from `star_t` on.  `none` when
the fuel is used up. -/
def likeLoop : ℕ → List UInt8 → List UInt8 → Option (List UInt8 × List UInt8) → Option Bool
  | 0, _, _, _ => none
  | _ + 1, pattern, [], _ => some (pattern.all (· = percent))
  | fuel + 1, [], _ :: _, star =>
    likeRetry (fun pattern text => likeLoop fuel pattern text (some (pattern, text))) star
  | fuel + 1, p :: pattern, c :: text, star =>
    if p = underscore ∨ p = c then likeLoop fuel pattern text star
    else if p = percent then likeLoop fuel pattern (c :: text) (some (pattern, c :: text))
    else likeRetry (fun pattern text => likeLoop fuel pattern text (some (pattern, text))) star

def likeFuel (pattern text : List UInt8) : ℕ :=
  (text.length + 2) * (pattern.length + text.length + 1)

def peLikeMatch (pattern text : List UInt8) : Bool :=
  likeLoop (likeFuel pattern text) pattern text none = some true

def resolveArithOperand : ArithOperand → Option Float
  | .number text => rsParseF64 text
  | .column name =>
    match rowColumn layout row name with
    | none => none
    | some col =>
      if row.isNull col then none
      else
        match columnType layout col with
        | .uint64 => (rsParseU64 (row.text col).1).map Float.ofNat
        | .float => rsParseF64 (row.text col).1
        | _ => none

def predicateEvalArith (op1 : ArithOperand) (arith : ArithOp) (op2 : ArithOperand) : Option Float :=
  match resolveArithOperand layout row op1 with
  | none => none
  | some a =>
    match arith with
    | .none => some a
    | _ =>
      match resolveArithOperand layout row op2 with
      | none => none
      | some b =>
        match arith with
        | .add => some (a + b)
        | .sub => some (a - b)
        | .mul => some (a * b)
        | .div => if b == 0 then none else some (a / b)
        | .none => some a

def evalNullTest (name : String) (wanted : Bool) : Bool :=
  match rowColumn layout row name with
  | none => false
  | some col => row.isNull col = wanted

def evalLike (name : String) (literal : Text) : Bool :=
  match rowColumn layout row name with
  | none => false
  | some col =>
    columnType layout col = .string && !row.isNull col && peLikeMatch literal.1 (row.text col).1

def evalComparison : PredicateNode → Bool
  | .comparison column op literal subquery =>
    if subquery.isSome then false
    else
      match op with
      | .inSubquery => false
      | .false => false
      | .isNull => evalNullTest layout row column true
      | .isNotNull => evalNullTest layout row column false
      | .like => evalLike layout row column literal
      | op => (compareTyped layout row column literal).any op.holds
  | .arith op1 arith op2 op literal =>
    match op with
    | .isNull => evalNullTest layout row "" true
    | .isNotNull => evalNullTest layout row "" false
    | op =>
      match predicateEvalArith layout row op1 arith op2, rsParseF64 literal.1 with
      | some x, some y => op.holds (boolInt (y < x) - boolInt (x < y))
      | _, _ => false
  | .and _ _ => false
  | .or _ _ => false

/-- The nodes below `idx`, so many levels deep. -/
def evalNode (p : Predicate) : ℕ → ℕ → Bool
  | 0, _ => false
  | fuel + 1, idx =>
    match p.nodes[idx]? with
    | none => false
    | some (.and left right) => evalNode p fuel left && evalNode p fuel right
    | some (.or left right) => evalNode p fuel left || evalNode p fuel right
    | some leaf => evalComparison layout row leaf

/-- A tree of the pool is no deeper than the pool is large. -/
def predicateEval (p : Predicate) : Bool :=
  match p.root with
  | none => true
  | some root => evalNode layout row p p.nodes.length root

end AeroSLS.Sql
