import AeroSLS.Sql.Planner

namespace AeroSLS.Sql

open Rowstore Mvcc

def quote : UInt8 := 39

/-- A quote inside a string literal is written twice. -/
def escapeQuotes (value : List UInt8) : List UInt8 :=
  value.flatMap fun b => if b = quote then [quote, quote] else [b]

/-- The buffer it is written to has room for any value. -/
def formatValueForSplice (type : FieldType) (value : Text) : List UInt8 :=
  match type with
  | .string | .blob => quote :: escapeQuotes value.1 ++ [quote]
  | _ => value.1

def nameOfBytes (bytes : List UInt8) : String :=
  String.ofList ((bytes.take (recordKeyLen - 1)).map fun b => Char.ofNat b.toNat)

/-- The column name of the reference that the text starts with; empty if none follows. -/
def refName (text : List UInt8) : List UInt8 := (text.drop 6).takeWhile charIsIdent

/-- Write a piece at position `oi` of the output, then the rest. -/
def emit (oi : ℕ) (piece : List UInt8)
    (rest : ℕ → Except (SqlErrorCode × String) (List UInt8)) :
    Except (SqlErrorCode × String) (List UInt8) :=
  if predicateSubqueryTextLen ≤ oi + piece.length then
    .error (.internal, "correlated subquery substitution too long")
  else
    match rest (oi + piece.length) with
    | .error e => .error e
    | .ok text => .ok (piece ++ text)

/-- The loop of `substitute_outer_refs`, with the character before, what is left of a reference,
and the bytes written. -/
def substituteFrom (layout : List Column) (row : RowValues) :
    Option UInt8 → ℕ → ℕ → List UInt8 → Except (SqlErrorCode × String) (List UInt8)
  | _, _, _, [] => .ok []
  | _, skip + 1, oi, b :: bs => substituteFrom layout row (some b) skip oi bs
  | before, 0, oi, b :: bs =>
    if !before.any charIsIdent && isOuterAt (b :: bs) && refName (b :: bs) ≠ [] then
      match findColumnIndex layout (nameOfBytes (refName (b :: bs))) with
      | none => .error (.columnNotFound,
          "correlated subquery references an unknown outer column (OUTER.<name>)")
      | some col =>
        emit oi (formatValueForSplice (columnType layout col) (row.text col)) fun oi =>
          substituteFrom layout row (some b) (5 + (refName (b :: bs)).length) oi bs
    else emit oi [b] fun oi => substituteFrom layout row (some b) 0 oi bs

def substituteOuterRefs (layout : List Column) (row : RowValues) (text : List UInt8) :
    Except (SqlErrorCode × String) (List UInt8) :=
  substituteFrom layout row none 0 0 text

variable (c : SqlEnv)

def execSubqueryColumn (text : List UInt8) : Except (SqlErrorCode × String) (List Text) :=
  match c.parse text with
  | .ok (.select sq) =>
    match tableColumns c sq.tableName with
    | none => .error (.tableNotFound, "subquery references a table that no longer exists")
    | some layout =>
      match findColumnIndex layout ((sq.columns.head?.map (·.label)).getD "") with
      | none => .error (.columnNotFound, "subquery's selected column no longer exists in its table")
      | some col =>
        if !whereValid sq.whereClause layout then
          .error (.columnNotFound, "subquery's WHERE clause references an unknown column")
        else
          let found := mvccFindMatchingRows c sq.tableName sq.whereClause layout cursorMaxRowsetRows
          .ok (found.1.filterMap fun id => (rowGet c sq.tableName id).toOption.map (·.text col))
  | _ => .error (.internal, "internal error: subquery failed to re-parse at exec time")

/-- The chain of ORs that `column IN (...)` becomes: the last node added, `none` for no values.
-/
def addInChain (column : String) :
    List Text → Predicate → Option ℕ → Option (Predicate × Option ℕ)
  | [], p, acc => some (p, acc)
  | value :: values, p, acc =>
    match p.addComparison column .eq value with
    | (_, none) => none
    | (p, some eqn) =>
      match acc with
      | none => addInChain column values p (some eqn)
      | some left =>
        match p.addOr left eqn with
        | (_, none) => none
        | (p, some acc) => addInChain column values p (some acc)

def Predicate.setNode (p : Predicate) (i : ℕ) (n : PredicateNode) : Predicate :=
  { p with nodes := p.nodes.set i n }

/-- What becomes of a leaf once its subquery has given these values. -/
def resolveValues (p : Predicate) (i : ℕ) (column : String) (op : CompareOp) (literal : Text)
    (values : List Text) : Except (SqlErrorCode × String) Predicate :=
  match values with
  | [] => .ok (p.setNode i (.comparison column .false literal none))
  | value :: more =>
    if op = .inSubquery then
      match addInChain column (value :: more) p none with
      | none => .error (.internal,
          "IN (SELECT ...) result too large (predicate node pool exhausted)")
      | some (q, acc) =>
        -- the root of the chain is copied into the leaf's own slot
        match acc.bind fun root => q.nodes[root]? with
        | none => .ok q
        | some n => .ok (q.setNode i n)
    else if more ≠ [] then
      .error (.valueInvalid, "subquery returned more than one row for a scalar comparison")
    else .ok (p.setNode i (.comparison column op value none))

def subqueryText (outer : Option (List Column × RowValues)) (sq : Subquery) :
    Option (Except (SqlErrorCode × String) (List UInt8)) :=
  if sq.isCorrelated then outer.map fun o => substituteOuterRefs o.1 o.2 sq.text
  else some (.ok sq.text)

def resolveNode (outer : Option (List Column × RowValues)) (p : Predicate) (i : ℕ) :
    Except (SqlErrorCode × String) Predicate :=
  match p.nodes[i]? with
  | some (.comparison column op literal (some k)) =>
    match p.subqueries[k]? with
    | none => .error (.internal, "internal error: invalid subquery index")
    | some sq =>
      match subqueryText outer sq with
      | none => .ok p
      | some (.error e) => .error e
      | some (.ok text) =>
        match execSubqueryColumn c text with
        | .error e => .error e
        | .ok values => resolveValues p i column op literal values
  | _ => .ok p

/-- The nodes that are added on the way hold no subquery, so the loop over them is left
out. -/
def resolvePredicateSubqueries (outer : Option (List Column × RowValues)) (p : Predicate) :
    Except (SqlErrorCode × String) Predicate :=
  if p.subqueries = [] then .ok p
  else (List.range p.nodes.length).foldlM (resolveNode c outer) p

end AeroSLS.Sql
