import AeroSLS.Sql.Execute
import AeroSLS.Sql.JoinRows

namespace AeroSLS.Sql

open Rowstore Mvcc List CursorTable

def Coded {α : Type} : Except (SqlErrorCode × String) α → Prop
  | .ok _ => True
  | .error err => err.1 ≠ .none

section coded

variable {α β : Type}

lemma coded_ok (a : α) : Coded (.ok a : Except (SqlErrorCode × String) α) := trivial

lemma coded_error (h : code ≠ .none) :
    Coded (.error (code, msg) : Except (SqlErrorCode × String) α) := h

lemma Coded.bind {e : Except (SqlErrorCode × String) α}
    {f : α → Except (SqlErrorCode × String) β} (he : Coded e) (hf : ∀ a, Coded (f a)) :
    Coded (e >>= f) := by
  cases e with
  | error => exact he
  | ok a => exact hf a

lemma Coded.map (he : Coded e) (f : α → β) : Coded (e.map f) := by
  cases e with
  | error => exact he
  | ok => exact coded_ok _

lemma Coded.error (he : Coded e) (h : e = .error err) :
    Coded (.error err : Except (SqlErrorCode × String) β) := by
  rwa [h] at he

end coded

lemma validateSelect_coded : Coded (validateSelect s layout place hint) := by
  have hwhere : ∀ orderCol : Option ℕ, Coded (if whereValid s.whereClause layout then .ok orderCol
      else .error (.columnNotFound, "WHERE clause references an unknown column" ++ hint)) := by
    intro orderCol
    split_ifs
    · exact coded_ok _
    · exact coded_error nofun
  unfold validateSelect
  by_cases hlist : !s.selectAll && s.columns.any fun item =>
    (findColumnIndex layout item.label).isNone
  · rw [if_pos hlist]
    exact coded_error nofun
  · grind [coded_error]

lemma resolveJoin_coded : Coded (resolveJoin c s st jc) := by
  unfold resolveJoin
  split
  · split_ifs <;> exact coded_error nofun
  · grind [coded_error, coded_ok]

lemma joinSteps_coded : Coded (joinSteps c s st jcs) := by
  induction jcs generalizing st with
  | nil => exact coded_ok _
  | cons jc jcs ih =>
    rw [joinSteps]
    split
    · rename_i hstep
      unfold joinStep at hstep
      split at hstep
      · rename_i hres
        cases hstep
        exact resolveJoin_coded.error hres
      · cases hstep
    · exact ih

lemma joinMaterialize_coded : Coded (joinMaterialize c s) := by
  unfold joinMaterialize
  split
  · split_ifs <;> exact coded_error nofun
  · exact joinSteps_coded

lemma groupSource_coded : Coded (groupSource c s) := by
  unfold groupSource
  split_ifs
  · split
    · rename_i hjoin
      exact joinMaterialize_coded.error hjoin
    · split_ifs
      · exact coded_ok _
      · exact coded_error nofun
  · split
    · exact coded_error nofun
    · exact coded_ok _

lemma resolveColumn_coded : Coded (resolveColumn layout name msg) := by
  unfold resolveColumn
  split
  · exact coded_ok _
  · split
    · exact coded_error nofun
    · exact coded_ok _

lemma resolveItems_coded : Coded (resolveItems s layout place items) := by
  induction items with
  | nil => exact coded_ok _
  | cons item items ih =>
    rw [resolveItems]
    split
    · grind [resolveItem, coded_error]
    · grind [coded_ok]

lemma resolveGroup_coded : Coded (resolveGroup s layout) := by
  apply resolveColumn_coded.bind
  intro groupCol
  apply resolveItems_coded.bind
  intro items
  apply resolveColumn_coded.bind
  intro orderCol
  split_ifs
  · exact coded_error nofun
  · exact coded_error nofun
  · exact coded_ok _

lemma resolveValues_coded : Coded (resolveValues p i column op literal values) := by
  unfold resolveValues
  repeat' split
  all_goals first | exact coded_error nofun | exact coded_ok _

lemma execSubqueryColumn_coded : Coded (execSubqueryColumn c text) := by
  unfold execSubqueryColumn
  repeat' split
  all_goals first | exact coded_error nofun | exact coded_ok _

lemma emit_coded (h : ∀ oi, Coded (rest oi)) : Coded (emit oi piece rest) := by
  unfold emit
  split_ifs
  · exact coded_error nofun
  · grind [coded_ok]

lemma substituteFrom_coded : Coded (substituteFrom layout row before skip oi text) := by
  induction text generalizing before skip oi with
  | nil =>
    cases skip <;> exact coded_ok _
  | cons b bs ih =>
    cases skip with
    | succ => exact ih ..
    | zero => grind [substituteFrom, coded_error, emit_coded]

lemma resolveNode_coded : Coded (resolveNode c outer p i) := by
  unfold resolveNode
  split
  · split
    · exact coded_error nofun
    split
    · exact coded_ok _
    · rename_i e htext
      unfold subqueryText at htext
      split_ifs at htext
      · obtain ⟨o, -, ho⟩ := Option.map_eq_some_iff.1 htext
        exact substituteFrom_coded.error ho
      · cases htext
    · split
      · rename_i hrun
        exact execSubqueryColumn_coded.error hrun
      · exact resolveValues_coded
  · exact coded_ok _

lemma resolvePredicateSubqueries_coded : Coded (resolvePredicateSubqueries c outer p) := by
  have hfold : ∀ (is : List ℕ) (p : Predicate), Coded (is.foldlM (resolveNode c outer) p) := by
    intro is
    induction is with
    | nil => exact coded_ok
    | cons i is ih =>
      intro p
      exact resolveNode_coded.bind ih
  unfold resolvePredicateSubqueries
  split_ifs
  · exact coded_ok _
  · exact hfold ..

lemma correlatedRows_coded : Coded (correlatedRows c table layout pred ids) := by
  induction ids with
  | nil => exact coded_ok _
  | cons id ids ih =>
    rw [correlatedRows]
    split
    · exact ih
    split
    · rename_i hres
      exact resolvePredicateSubqueries_coded.error hres
    · grind [coded_ok]

lemma correlatedRows_length (h : correlatedRows c table layout pred ids = .ok rows) :
    rows.length ≤ ids.length := by
  induction ids generalizing rows with
  | nil =>
    cases h
    exact le_rfl
  | cons id ids ih => grind [correlatedRows]

/-- Whatever the cursors, one error is reported or the same rows are delivered. -/
def Flat (f : CursorTable → SqlResult → CursorTable × SqlResult) : Prop :=
  (∃ code msg, code ≠ SqlErrorCode.none ∧ ∀ cursors out,
    f cursors out = (cursors, out.fail code msg)) ∨
    ∃ rows labels truncated, rows.length ≤ cursorMaxRowsetRows ∧
      ∀ cursors out, f cursors out = finishSelect cursors out rows labels truncated

lemma Flat.error {α : Type} {e : Except (SqlErrorCode × String) α} {code : SqlErrorCode}
    {msg : String} (he : Coded e) (h : e = .error (code, msg)) :
    Flat fun cursors out => (cursors, out.fail code msg) := by
  rw [h] at he
  exact .inl ⟨code, msg, he, fun _ _ => rfl⟩

lemma Flat.finish (hsize : rows.length ≤ cursorMaxRowsetRows)
    (labels : List String) (truncated : Bool) :
    Flat fun cursors out => finishSelect cursors out rows labels truncated :=
  Or.inr ⟨rows, labels, truncated, hsize, fun _ _ => rfl⟩

lemma execSelectTable_flat : Flat (execSelectTable c s layout) := by
  unfold execSelectTable
  split
  · rename_i hcheck
    exact Flat.error validateSelect_coded hcheck
  · exact Flat.finish (length_cut_le.trans (materialize_length ..)) ..

lemma execSelectJoin_flat : Flat (execSelectJoin c s) := by
  unfold execSelectJoin
  split
  · rename_i hjoin
    exact Flat.error joinMaterialize_coded hjoin
  rename_i st hjoin
  split
  · rename_i hcheck
    exact Flat.error validateSelect_coded hcheck
  · apply Flat.finish
    apply length_cut_le.trans
    exact (length_filter_le ..).trans (joinMaterialize_length hjoin)

lemma execSelectGroup_flat : Flat (execSelectGroup c s) := by
  unfold execSelectGroup
  split
  · rename_i hsource
    exact Flat.error groupSource_coded hsource
  split
  · rename_i hcheck
    exact Flat.error resolveGroup_coded hcheck
  · exact Flat.finish (length_cut_le.trans (length_take_le ..)) ..

lemma execSelectCorrelated_flat : Flat (execSelectCorrelated c s pred) := by
  unfold execSelectCorrelated
  split
  · exact .inl ⟨.tableNotFound, "table not found", nofun, fun _ _ => rfl⟩
  split
  · rename_i hcheck
    exact Flat.error validateSelect_coded hcheck
  dsimp only
  split
  · rename_i hrows
    exact Flat.error correlatedRows_coded hrows
  rename_i rows hrows
  apply Flat.finish
  apply length_cut_le.trans
  apply (correlatedRows_length hrows).trans
  exact mvccFindMatchingRows_length.trans (by decide)

/-- A new cursor that is read and closed leaves no trace but its id. -/
theorem drainCursor_openRowset {t : CursorTable} (h : t.Ok) (hfree : t.opened.length < cursorMax)
    {rows : List RowValues} (hsize : rows.length ≤ cursorMaxRowsetRows) :
    drainCursor (t.openRowset rows).1 (t.openRowset rows).2 = (⟨t.opened, t.nextId + 1⟩, rows) := by
  have hrows := fetchRows_openRowset h hfree rows
  rw [take_of_length_le hsize] at hrows
  have hnone : ∀ a ∈ t.opened, ¬decide (a.cursorId = t.nextId) := by
    intro a ha
    have := h.older a ha
    simp
    omega
  have hclosed : ((t.openRowset rows).1.fetchRows (t.openRowset rows).2 cursorMaxRowsetRows).1.close
      (t.openRowset rows).2 = ⟨t.opened, t.nextId + 1⟩ := by
    unfold openRowset fetchRows close
    rw [if_neg (by omega)]
    rw [findIdx?_append, findIdx?_eq_none_iff.2 (by simpa using hnone)]
    simp [eraseP_append_right _ hnone]
  exact Prod.ext hclosed hrows

/-- The cursors at the end are those at the beginning and a new one with the rows. -/
structure Delivers (cursors : CursorTable) (x : Executed) (rows : List RowValues) : Prop where
  size : rows.length ≤ cursorMaxRowsetRows
  opens : ∃ base : CursorTable, base.Ok ∧ base.opened = cursors.opened ∧
    x.cursors = (base.openRowset rows).1 ∧ x.result.cursorId = (base.openRowset rows).2

section delivers

lemma Delivers.finish (hbase : base.Ok) (hopened : base.opened = cursors.opened)
    (hsize : rows.length ≤ cursorMaxRowsetRows) :
    Delivers cursors ⟨db, (finishSelect base out rows labels truncated).1,
      (finishSelect base out rows labels truncated).2⟩ rows :=
  ⟨hsize, base, hbase, hopened, rfl, rfl⟩

section

variable (h : Delivers cursors x rows) (hfree : cursors.opened.length < cursorMax)
include h hfree

lemma Delivers.drain : ∃ t : CursorTable, t.Ok ∧ t.opened = cursors.opened ∧
      drainCursor x.cursors x.result.cursorId = (t, rows) := by
  obtain ⟨base, hbase, hopened, hcursors, hid⟩ := h.opens
  refine ⟨⟨base.opened, base.nextId + 1⟩, ⟨Nat.succ_pos _, fun a ha => ?_⟩, hopened, ?_⟩
  · exact Nat.lt_succ_of_lt (hbase.older a ha)
  · grind [drainCursor_openRowset, h.size]

lemma Delivers.resultRows : resultRows (x.cursors, x.result) = rows := by
  obtain ⟨t, -, -, hdrain⟩ := h.drain hfree
  exact congrArg Prod.snd hdrain

end

end delivers

def Nested.Delivering (nested : Nested) : Prop :=
  ∀ run, nested = some run → ∀ text (cursors : CursorTable), cursors.Ok →
    cursors.opened.length < cursorMax → (run text cursors).result.error = .none →
    (run text cursors).result.kind = .select → ∃ rows, Delivers cursors (run text cursors) rows

section runs

lemma Flat.delivers (hf : Flat f) (hok : cursors.Ok) (h : (f cursors out).2.error = .none) :
    ∃ rows, Delivers cursors (.same c (f cursors out)) rows := by
  obtain ⟨code, msg, hcode, hfail⟩ | ⟨rows, labels, truncated, hsize, hfinish⟩ := hf
  · rw [hfail] at h
    exact absurd h hcode
  · rw [hfinish]
    exact ⟨rows, .finish hok rfl hsize⟩

lemma execSelectNested_delivers (hn : nested.Delivering) (hok : cursors.Ok)
    (hfree : cursors.opened.length < cursorMax)
    (h : (execSelectNested c nested text place notSelect s cursors out).result.error = .none) :
    ∃ rows, Delivers cursors (execSelectNested c nested text place notSelect s cursors out)
      rows := by
  unfold execSelectNested at h ⊢
  rcases hrun : nested with _ | run <;> rw [hrun] at h
  · cases h
  dsimp only at h ⊢
  by_cases herr : (run text cursors).result.error = .none
  · rw [if_neg (not_not.2 herr)] at h ⊢
    by_cases hkind : (run text cursors).result.kind = .select
    · rw [if_neg (not_not.2 hkind)] at h ⊢
      obtain ⟨inner, hinner⟩ := hn run hrun text cursors hok hfree herr hkind
      obtain ⟨t, ht, hopened, hdrain⟩ := hinner.drain hfree
      rw [hdrain] at h ⊢
      unfold execSelectRows at h ⊢
      dsimp only at h ⊢
      split at h
      · rename_i hcheck
        exact absurd h (validateSelect_coded.error (β := Unit) hcheck)
      · refine ⟨_, .finish ht hopened ?_⟩
        apply length_cut_le.trans
        exact (length_filter_le ..).trans hinner.size
    · rw [if_pos hkind] at h
      cases h
  · grind

/-- A SELECT is one of the flat ones, or reads a run one level down. -/
theorem execSelectBranch_cases : (∃ f, Flat f ∧ ∀ nested cursors out,
      execSelectBranch c nested s cursors out = .same c (f cursors out)) ∨
    ∃ text place notSelect s', ∀ nested cursors out, execSelectBranch c nested s cursors out =
      execSelectNested c nested text place notSelect s' cursors out := by
  have hfail : ∀ {code msg}, code ≠ SqlErrorCode.none →
      Flat fun cursors out => (cursors, out.fail code msg) :=
    fun h => .inl ⟨_, _, h, fun _ _ => rfl⟩
  unfold execSelectBranch
  cases s.correlated with
  | some =>
    cases s.hasJoin || s.hasAggregates || s.cte.isSome with
    | true => exact .inl ⟨_, hfail (by nofun), fun _ _ _ => rfl⟩
    | false => exact .inl ⟨_, execSelectCorrelated_flat, fun _ _ _ => rfl⟩
  | none =>
    cases s.cteSource with
    | some =>
      cases s.hasJoin || s.hasAggregates with
      | true => exact .inl ⟨_, hfail (by nofun), fun _ _ _ => rfl⟩
      | false => exact .inr ⟨_, _, _, _, fun _ _ _ => rfl⟩
    | none =>
      cases s.hasAggregates with
      | true => exact .inl ⟨_, execSelectGroup_flat, fun _ _ _ => rfl⟩
      | false =>
        cases s.hasJoin with
        | true => exact .inl ⟨_, execSelectJoin_flat, fun _ _ _ => rfl⟩
        | false =>
          cases tableColumns c s.tableName with
          | some => exact .inl ⟨_, execSelectTable_flat, fun _ _ _ => rfl⟩
          | none =>
            cases viewFind c s.tableName with
            | some => exact .inr ⟨_, _, _, _, fun _ _ _ => rfl⟩
            | none => exact .inl ⟨_, hfail (by nofun), fun _ _ _ => rfl⟩

lemma execSelectBranch_delivers (hn : nested.Delivering) (hok : cursors.Ok)
    (hfree : cursors.opened.length < cursorMax)
    (h : (execSelectBranch c nested s cursors out).result.error = .none) :
    ∃ rows, Delivers cursors (execSelectBranch c nested s cursors out) rows := by
  obtain ⟨f, hf, heq⟩ | ⟨text, place, notSelect, s', heq⟩ := execSelectBranch_cases
  · rw [heq] at h ⊢
    exact hf.delivers hok h
  · rw [heq] at h ⊢
    exact execSelectNested_delivers hn hok hfree h

/-- Without nesting, what is delivered depends neither on the cursors nor on the levels
that are left. -/
theorem execSelectBranch_flat (h : (execSelectBranch c none s cursors out).result.error = .none) :
    ∃ rows labels truncated, rows.length ≤ cursorMaxRowsetRows ∧ ∀ nested cursors out,
      execSelectBranch c nested s cursors out =
        .same c (finishSelect cursors out rows labels truncated) := by
  obtain ⟨f, hf, heq⟩ | ⟨text, place, notSelect, s', heq⟩ := execSelectBranch_cases
  · rw [heq] at h
    obtain ⟨code, msg, hcode, hfail⟩ | ⟨rows, labels, truncated, hsize, hfinish⟩ := hf
    · rw [hfail] at h
      exact absurd h hcode
    · exact ⟨rows, labels, truncated, hsize, fun nested cursors out => by rw [heq, hfinish]⟩
  · rw [heq] at h
    cases h

lemma execSelect_flat (h : (execSelect c none s cursors out).result.error = .none) :
    ∃ rows labels truncated, rows.length ≤ cursorMaxRowsetRows ∧ ∀ nested cursors out,
      execSelect c nested s cursors out =
        .same c (finishSelect cursors out rows labels truncated) := by
  unfold execSelect at h ⊢
  rcases hop : s.setOp with _ | entry
  · rw [hop] at h
    exact execSelectBranch_flat h
  rw [hop] at h
  split_ifs at h
  · cases h
  · cases h
  · -- the left branch fails, or the right one is nested too deep
    unfold execSelectSetOp at h
    split_ifs at h with hleft
    · exact absurd h hleft
    · cases h

lemma resolveSelect_coded : Coded (resolveSelect c s) := by
  unfold resolveSelect
  split_ifs
  · exact coded_ok _
  apply Coded.map
  unfold resolveWhere
  split
  · exact coded_ok _
  · exact resolvePredicateSubqueries_coded.map _

lemma resolveSelect_ok (h : resolveSelect c s = .ok s') :
    s' = { s with whereClause := s'.whereClause } := by
  unfold resolveSelect at h
  split_ifs at h
  · cases h
    rfl
  rcases hwhere : resolveWhere c s.whereClause with e | p <;> rw [hwhere] at h
  · cases h
  cases h
  rfl

lemma dispatchStmt_select (ht : (mvFindTxn c.db c.txnId).isSome)
    (hres : resolveSelect c s = .ok s') :
    dispatchStmt c nested (.select s) cursors = execSelect c nested s' cursors .empty := by
  obtain ⟨t, ht⟩ := Option.isSome_iff_exists.1 ht
  have hstmt : resolveStatement c (.select s) = .ok (.select s') :=
    congrArg (Except.map SqlStatement.select) hres
  unfold dispatchStmt
  rw [ht, hstmt]
  rfl

lemma dispatchStmt_select_ok
    (h : (dispatchStmt c nested (.select s) cursors).result.error = .none) :
    (mvFindTxn c.db c.txnId).isSome ∧ ∃ s', resolveSelect c s = .ok s' := by
  unfold dispatchStmt at h
  split at h
  · cases h
  rename_i t ht
  refine ⟨by rw [ht]; rfl, ?_⟩
  have hcoded := resolveSelect_coded (c := c) (s := s)
  have hstmt : resolveStatement c (.select s) = (resolveSelect c s).map .select := rfl
  cases hres : resolveSelect c s with
  | error =>
    rw [hstmt, hres] at h
    rw [hres] at hcoded
    exact absurd h hcoded
  | ok s' => exact ⟨s', rfl⟩

lemma dispatchStmt_flat (h : (dispatchStmt c none (.select s) cursors).result.error = .none) :
    ∃ rows labels truncated, rows.length ≤ cursorMaxRowsetRows ∧ ∀ nested cursors,
      dispatchStmt c nested (.select s) cursors =
        .same c (finishSelect cursors .empty rows labels truncated) := by
  obtain ⟨ht, s', hres⟩ := dispatchStmt_select_ok h
  rw [dispatchStmt_select ht hres] at h
  obtain ⟨rows, labels, truncated, hsize, heq⟩ := execSelect_flat h
  refine ⟨rows, labels, truncated, hsize, fun nested cursors => ?_⟩
  rw [dispatchStmt_select ht hres, heq]

lemma insertRows_kind :
    (insertRows c table layout cols out tuples db inserted last).2.kind = out.kind := by
  induction tuples generalizing db inserted last with
  | nil => rfl
  | cons tuple tuples ih =>
    rw [insertRows]
    split
    · exact ih ..
    · rfl

lemma updateRows_kind :
    (updateRows c table layout sets out truncated ids db affected).2.kind = out.kind := by
  induction ids generalizing db affected with
  | nil => rfl
  | cons id ids ih =>
    rw [updateRows]
    split
    · exact ih ..
    split
    · rfl
    split
    · exact ih ..
    · rfl
    · rfl

lemma deleteRows_kind : (deleteRows c table out truncated ids db affected).2.kind = out.kind := by
  induction ids generalizing db affected with
  | nil => rfl
  | cons id ids ih =>
    rw [deleteRows]
    split
    · exact ih ..
    · rfl
    · rfl

lemma resolveStatement_kind (h : resolveStatement c stmt = .ok stmt') : stmt'.kind = stmt.kind := by
  have hmap : ∀ {α : Type} {e : Except (SqlErrorCode × String) α} {f : α → SqlStatement},
      e.map f = .ok stmt' → ∃ a, stmt' = f a := by
    intro α e f hef
    cases e with
    | error => cases hef
    | ok a => exact ⟨a, (Except.ok.inj hef).symm⟩
  cases stmt with
  | select =>
    obtain ⟨s', rfl⟩ := hmap h
    rfl
  | insert =>
    cases h
    rfl
  | update | delete =>
    simp only [resolveStatement] at h
    split_ifs at h
    obtain ⟨p, rfl⟩ := hmap h
    rfl

theorem execStatement_kind (hstmt : stmt.kind ≠ .select) :
    (execStatement c nested stmt cursors out).result.kind = out.kind := by
  cases stmt with
  | select => exact absurd rfl hstmt
  | insert =>
    unfold execStatement execInsert
    dsimp only
    repeat' split
    all_goals first | rfl | exact insertRows_kind
  | update =>
    unfold execStatement execUpdate
    dsimp only
    repeat' split
    all_goals first | rfl | exact updateRows_kind
  | delete =>
    unfold execStatement execDelete
    dsimp only
    repeat' split
    all_goals first | rfl | exact deleteRows_kind

lemma dispatchStmt_kind (hstmt : stmt.kind ≠ .select) :
    (dispatchStmt c nested stmt cursors).result.kind = stmt.kind := by
  unfold dispatchStmt
  split
  · rfl
  split
  · rfl
  · rename_i stmt' hres
    exact execStatement_kind (resolveStatement_kind hres ▸ hstmt)

/-- At the deepest level a text that runs is a SELECT, with the same rows at every level. -/
theorem executeWithin_zero_flat (herr : (executeWithin c 0 text cursors).result.error = .none)
    (hkind : (executeWithin c 0 text cursors).result.kind = .select) :
    ∃ rows labels truncated, rows.length ≤ cursorMaxRowsetRows ∧ ∀ nested cursors,
      runParsed c nested text cursors =
        .same c (finishSelect cursors .empty rows labels truncated) := by
  unfold executeWithin runParsed at herr hkind
  split at herr
  · cases herr
  rename_i stmt hparse
  rw [hparse] at hkind
  by_cases hstmt : stmt.kind = .select
  · cases stmt with
    | select =>
      obtain ⟨rows, labels, truncated, hsize, heq⟩ := dispatchStmt_flat herr
      exact ⟨rows, labels, truncated, hsize, fun nested cursors => by rw [← heq, runParsed, hparse]⟩
    | insert | update | delete => cases hstmt
  · exact absurd ((dispatchStmt_kind hstmt).symm.trans hkind) hstmt

lemma executeWithin_zero_delivering : Nested.Delivering (some (executeWithin c 0)) := by
  rintro _ ⟨⟩ text cursors hok hfree herr hkind
  obtain ⟨rows, labels, truncated, hsize, heq⟩ := executeWithin_zero_flat herr hkind
  rw [executeWithin, heq]
  exact ⟨rows, .finish hok rfl hsize⟩

def runSelect (c : SqlEnv) (s : SqlSelectStmt) (cursors : CursorTable) : Executed :=
  dispatchStmt c (some (executeWithin c 0)) (.select s) cursors

lemma sqlExecuteTx_select (h : c.parse text = .ok (.select s)) :
    sqlExecuteTx c text cursors = runSelect c s cursors := by
  change runParsed c (some (executeWithin c 0)) text cursors = _
  unfold runParsed
  rw [h]
  rfl

end runs

end AeroSLS.Sql
