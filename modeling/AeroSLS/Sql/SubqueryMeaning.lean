import AeroSLS.Sql.SetOp

namespace AeroSLS.Sql

open Rowstore Mvcc List Predicate

variable {node : PredicateNode} {k : ℕ}

namespace Predicate

structure Ordered (p : Predicate) : Prop where
  children : ∀ j l r, p.nodes[j]? = some (PredicateNode.and l r) ∨
    p.nodes[j]? = some (PredicateNode.or l r) → l < j ∧ r < j
  root : ∀ root, p.root = some root → root < p.nodes.length

end Predicate

def PredicateNode.isLeaf : PredicateNode → Bool
  | .and _ _ => false
  | .or _ _ => false
  | _ => true

section pool

variable {layout : List Column} {row : RowValues} {p q : Predicate} {a : Bool}

def Agrees (n : ℕ) (q p : Predicate) : Prop :=
  ∀ j, n ≤ j → j < q.nodes.length → p.nodes[j]? = q.nodes[j]?

lemma Agrees.trans {p' : Predicate} (h : Agrees n p q) (h' : Agrees n q p')
    (hlen : p.nodes.length ≤ q.nodes.length) : Agrees n p p' := by
  intro j hj hlt
  rw [h' j hj (by omega), h j hj hlt]

/-- The node has the value, whatever becomes of the other nodes before `n` and behind `q`. -/
def Settles (layout : List Column) (row : RowValues) (n : ℕ) (q : Predicate) (idx : ℕ) (b : Bool) :
    Prop :=
  ∀ p, Agrees n q p → p.nodes[idx]? = q.nodes[idx]? → ∀ fuel, q.nodes.length - n < fuel →
    evalNode layout row p fuel idx = b

lemma evalNode_leaf (hnode : p.nodes[idx]? = some node) (hleaf : node.isLeaf) :
    evalNode layout row p (fuel + 1) idx = evalComparison layout row node := by
  rw [evalNode, hnode]
  cases node with
  | comparison | arith => rfl
  | and | or => cases hleaf

lemma settles_leaf (hnode : q.nodes[idx]? = some node)
    (hleaf : node.isLeaf) : Settles layout row n q idx (evalComparison layout row node) := by
  intro p _ hp fuel hfuel
  obtain ⟨fuel, rfl⟩ : ∃ f, fuel = f + 1 := ⟨fuel - 1, by omega⟩
  exact evalNode_leaf (hp.trans hnode) hleaf

lemma Settles.extend (h : Settles layout row n p idx b) (hq : Agrees n p q)
    (hlen : p.nodes.length ≤ q.nodes.length) (hidx : q.nodes[idx]? = p.nodes[idx]?) :
    Settles layout row n q idx b := by
  intro p' hagree hp' fuel hfuel
  exact h p' (hq.trans hagree hlen) (hp'.trans hidx) fuel (by omega)

lemma Settles.copy (h : Settles layout row n p j b) (hj : n ≤ j) (hlt : j < p.nodes.length)
    (hq : Agrees n p q) (hlen : p.nodes.length ≤ q.nodes.length)
    (hidx : q.nodes[idx]? = p.nodes[j]?) : Settles layout row n q idx b := by
  intro p' hagree hp' fuel hfuel
  have hagree' := hq.trans hagree hlen
  have hsame : p'.nodes[idx]? = p'.nodes[j]? := by rw [hp', hidx, hagree' j hj hlt]
  rw [← h p' hagree' (hagree' j hj hlt) fuel (by omega)]
  obtain ⟨fuel, rfl⟩ : ∃ f, fuel = f + 1 := ⟨fuel - 1, by omega⟩
  rw [evalNode, evalNode, hsame]

def comparesTo (layout : List Column) (row : RowValues) (column : String) (op : CompareOp)
    (value : Text) : Bool :=
  evalComparison layout row (.comparison column op value none)

lemma agrees_set (hi : i < n) (p : Predicate) (extra : List PredicateNode) (node : PredicateNode) :
    Agrees n p { p with nodes := (p.nodes ++ extra).set i node } := by
  intro j hj hlt
  rw [getElem?_set_ne (by omega), getElem?_append_left hlt]

/-- The leaves before `i` have their meaning, the nodes from `i` on are still to come. -/
structure ResolvedUpTo (layout : List Column) (row : RowValues) (truth : PredicateNode → Bool)
    (p : Predicate) (i : ℕ) (q : Predicate) : Prop where
  root : q.root = p.root
  subqueries : q.subqueries = p.subqueries
  length : p.nodes.length ≤ q.nodes.length
  todo : ∀ j, i ≤ j → j < p.nodes.length → q.nodes[j]? = p.nodes[j]?
  logical : ∀ (j : ℕ) (node : PredicateNode), p.nodes[j]? = some node → node.isLeaf = false →
    q.nodes[j]? = some node
  leaf : ∀ j < i, ∀ node : PredicateNode, p.nodes[j]? = some node → node.isLeaf = true →
    Settles layout row p.nodes.length q j (truth node)

lemma Settles.set (h : Settles layout row n p idx b) (hi : i < n) (hidx : idx ≠ i)
    (hlt : idx < p.nodes.length) (extra : List PredicateNode) :
    Settles layout row n { p with nodes := (p.nodes ++ extra).set i node } idx b := by
  apply h.extend (agrees_set hi p extra node)
  · simp
  · rw [getElem?_set_ne (Ne.symm hidx), getElem?_append_left hlt]

lemma ResolvedUpTo.pass (h : ResolvedUpTo layout row truth p i q)
    (hleaf : ∀ node, p.nodes[i]? = some node → node.isLeaf →
      truth node = evalComparison layout row node) (hi : i < p.nodes.length) :
    ResolvedUpTo layout row truth p (i + 1) q where
  root := h.root
  subqueries := h.subqueries
  length := h.length
  todo := fun j hj hlt => h.todo j (by omega) hlt
  logical := h.logical
  leaf := by
    intro j hj node hnode hisleaf
    obtain hlt | rfl := Nat.lt_succ_iff_lt_or_eq.1 hj
    · exact h.leaf j hlt node hnode hisleaf
    · grind [settles_leaf, h.todo]

theorem ResolvedUpTo.replace (h : ResolvedUpTo layout row truth p i q) (hi : i < p.nodes.length)
    (hold : p.nodes[i]? = some old) (hleaf : old.isLeaf)
    (hq : q' = { q with nodes := (q.nodes ++ extra).set i node })
    (hsettles : Settles layout row p.nodes.length q' i (truth old)) :
    ResolvedUpTo layout row truth p (i + 1) q' := by
  have hlength := h.length
  have hother : ∀ j, j ≠ i → j < p.nodes.length → q'.nodes[j]? = q.nodes[j]? := by grind
  refine ⟨?_, ?_, ?_, ?_, ?_, ?_⟩
  · subst hq
    exact h.root
  · subst hq
    exact h.subqueries
  · subst hq
    simp
    omega
  · grind [h.todo]
  · grind [h.logical]
  · intro j hj other hother' hisleaf
    obtain hlt | rfl := Nat.lt_succ_iff_lt_or_eq.1 hj
    · subst hq
      exact (h.leaf j hlt other hother' hisleaf).set hi (by omega) (by omega) extra
    · grind

end pool

section loop

variable {c : SqlEnv} {outer : Option (List Column × RowValues)} {layout : List Column}
  {row : RowValues} {p q : Predicate}

section

variable (hcor : ∀ sq ∈ p.subqueries, sq.isCorrelated = false)
include hcor

end

end loop

/-- What `try_parse_embedded_subquery` accepts. -/
structure Embedded (s : SqlSelectStmt) : Prop where
  joins : s.hasJoin = false
  aggregates : s.hasAggregates = false
  selectAll : s.selectAll = false
  column : ∃ item, s.columns = [item]
  cte : s.cte = none
  flat : ∀ p, s.whereClause = some p → p.subqueries = []

/-- The cells of the selected column in the result of the text; a statement that fails has
none. -/
def queryCells (c : SqlEnv) (cursors : CursorTable) (text : List UInt8) : List (Option Text) :=
  if (sqlExecuteTx c text cursors).result.error = .none then
    (sqlExecuteTx c text cursors).rows.map fun row => (textPositions c text).head?.bind (cell row)
  else []

/-- The column of the subquery's text and the table it is read from. -/
structure SelectsColumn (c : SqlEnv) (text : List UInt8) (s : SqlSelectStmt) (layout : List Column)
    (col : ℕ) : Prop where
  parse : c.parse text = .ok (.select s)
  table : tableColumns c s.tableName = some layout
  column : findColumnIndex layout ((s.columns.head?.map (·.label)).getD "") = some col

section query

variable {c : SqlEnv} {s : SqlSelectStmt} {layout : List Column} {cursors : CursorTable}
  {text : List UInt8} {values : List Text} {col : ℕ}

lemma find_layoutColumns :
    ((layoutColumns layout).find? fun x => x.1 = name).map (·.2) = findColumnIndex layout name := by
  have hshift : ∀ cols k, (((cols.map (·.name)).zipIdx k).find? fun x => x.1 = name).map (·.2) =
        (findColumnIndex cols name).map (· + k) := by
    intro cols
    unfold findColumnIndex
    induction cols with
    | nil => exact fun _ => rfl
    | cons col cols ih =>
      intro k
      rw [map_cons, zipIdx_cons, find?_cons, findIdx?_cons]
      by_cases hname : col.name = name
      · simp [hname]
      · simp only [hname, decide_false, if_neg Bool.false_ne_true, ih (k + 1), Option.map_map]
        congr 1
        simp [Nat.add_comm 1 k]
  unfold layoutColumns
  rw [hshift layout 0]
  simp

lemma Embedded.correlated (h : Embedded s) : s.correlated = none := by
  unfold SqlSelectStmt.correlated
  cases hwhere : s.whereClause with
  | none => rfl
  | some p => grind [h.flat, hasCorrelatedSubquery]

lemma Embedded.cteSource (h : Embedded s) : s.cteSource = none := by
  unfold SqlSelectStmt.cteSource
  rw [h.cte]
  rfl

lemma Embedded.resolveSelect (h : Embedded s) : resolveSelect c s = .ok s := by
  unfold Sql.resolveSelect
  rw [h.joins, h.aggregates, Bool.or_self, if_neg Bool.false_ne_true]
  rcases hwhere : s.whereClause with _ | p
  · unfold resolveWhere
    rw [Except.map, ← hwhere]
  unfold resolveWhere resolvePredicateSubqueries
  dsimp only
  rw [if_pos (h.flat p hwhere), Except.map, Except.map, ← hwhere]

lemma Embedded.textPositions (h : Embedded s) (hq : SelectsColumn c text s layout col) :
    textPositions c text = [col] := by
  obtain ⟨hparse, hcols, hcol⟩ := hq
  obtain ⟨item, hitem⟩ := h.column
  have hsource : ∀ inner, sourceColumns c inner s = layoutColumns layout := by
    intro inner
    unfold sourceColumns
    rw [h.cteSource, h.aggregates, h.joins, hcols]
    rfl
  have hpick : pickColumns s (layoutColumns layout) = [(item.label, col)] := by
    grind [h.selectAll, find_layoutColumns, pickColumns]
  unfold Sql.textPositions textColumns
  rw [hparse]
  change (pickColumns s (sourceColumns c _ s)).map (·.2) = [col]
  rw [hsource, hpick]
  rfl

theorem Embedded.delivered (h : Embedded s) (hset : s.setOp = none) (hok : cursors.Ok)
    (hfree : cursors.opened.length < cursorMax) (hactive : (mvFindTxn c.db c.txnId).isSome)
    (hq : SelectsColumn c text s layout col) :
    (∃ e, validateSelect s layout "table" "" = .error e ∧
      (sqlExecuteTx c text cursors).result.error ≠ .none) ∨
    ∃ orderCol, validateSelect s layout "table" "" = .ok orderCol ∧
      (sqlExecuteTx c text cursors).result.error = .none ∧
      (sqlExecuteTx c text cursors).rows =
        applyLimit s.limit (sortRows layout orderCol s.orderDesc (materialize c s layout).1) := by
  have hrun :
      sqlExecuteTx c text cursors = .same c (execSelectTable c s layout cursors .empty) := by
    rw [sqlExecuteTx_select hq.parse, runSelect, dispatchStmt_select hactive h.resolveSelect]
    unfold execSelect execSelectBranch
    rw [hset, h.correlated, h.cteSource, h.aggregates, h.joins, hq.table]
    rfl
  rw [hrun]
  unfold execSelectTable
  rcases hvalid : validateSelect s layout "table" "" with e | orderCol
  · have hcoded : Coded (validateSelect s layout "table" "") := validateSelect_coded
    rw [hvalid] at hcoded
    exact .inl ⟨e, rfl, hcoded⟩
  · refine .inr ⟨orderCol, rfl, rfl, resultRows_finishSelect hok hfree ?_⟩
    exact length_cut_le.trans (materialize_length ..)

end query

/-- SQL's comparison with the cells of a query's result: a NULL compares with nothing. -/
def cellsHold (layout : List Column) (row : RowValues) (column : String) (op : CompareOp)
    (cells : List (Option Text)) : Bool :=
  if op = .inSubquery then cells.any (Option.any (comparesTo layout row column .eq))
  else
    match cells with
    | [value] => value.any (comparesTo layout row column op)
    | _ => false

/-- The comparison that a leaf makes with one value. -/
def CompareOp.single : CompareOp → CompareOp
  | .inSubquery => .eq
  | op => op

/-- A row that the WHERE clause selects compares with the outer row only if the statement's
result does; a set operator brings in nothing else. -/
structure Kept (c : SqlEnv) (cursors : CursorTable) (layout : List Column) (row : RowValues)
    (column : String) (op : CompareOp) (s : SqlSelectStmt) (text : List UInt8) (inner : List Column)
    (col : ℕ) : Prop where
  matched : ∀ r ∈ (materialize c s inner).1, comparesTo layout row column op.single (r.text col) →
    cellsHold layout row column op (queryCells c cursors text)
  added : s.setOp.isSome → cellsHold layout row column op (queryCells c cursors text) →
    ∃ r ∈ (materialize c s inner).1, comparesTo layout row column op.single (r.text col)

section kept

variable {c : SqlEnv} {cursors : CursorTable} {layout inner : List Column} {row : RowValues}
  {column : String} {op : CompareOp} {s : SqlSelectStmt} {text : List UInt8} {col : ℕ}

end kept

section Sample

set_option maxRecDepth 8000

end Sample

end AeroSLS.Sql
