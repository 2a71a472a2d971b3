import AeroSLS.Lib.Machine
import AeroSLS.Mvcc.Boot
import AeroSLS.Mvcc.Calls

namespace AeroSLS.Mvcc

open Rowstore Version Machine List

variable {a : Act}

inductive Call
  | begin
  | insert (txn uid : ℕ) (name : String) (values : RowValues)
  | update (txn uid : ℕ) (name : String) (id : ℕ) (values : RowValues)
  | delete (txn uid : ℕ) (name : String) (id : ℕ)
  | commit (txn : ℕ)
  | rollback (txn uid : ℕ)

/-- A call, and the environment it runs in. -/
abbrev Act := Env × Call

namespace Db

/-- The state after a call, its result and the id it hands out: of a new transaction (0 if none)
or row. -/
def call (db : Db) (a : Act) : Db × MvccError × ℕ :=
  match a.2 with
  | .begin => ((mvccBegin db).1, .ok, (mvccBegin db).2)
  | .insert txn uid name values =>
    let r := mvccRowInsert a.1 db txn uid name values
    (r.1, r.2.1, r.2.2.getD 0)
  | .update txn uid name id values =>
    let r := mvccRowUpdate a.1 db txn uid name id values
    (r.1, r.2, 0)
  | .delete txn uid name id =>
    let r := mvccRowDelete a.1 db txn uid name id
    (r.1, r.2, 0)
  | .commit txn =>
    let r := mvccCommit db txn
    (r.1, r.2, 0)
  | .rollback txn uid =>
    let r := mvccRollback a.1 db txn uid
    (r.1, r.2, 0)

def step (db : Db) (a : Act) : Db := (db.call a).1

/-- What the callers of the interface keep to: the table passed to an update is
the one the row was read from. -/
def Legal (db : Db) (a : Act) : Prop :=
  match a.2 with
  | .update _ _ name id _ => db.OwnTable name id
  | _ => True

instance : (db : Db) → (a : Act) → Decidable (db.Legal a)
  | db, (_, .update _ _ name id _) => inferInstanceAs (Decidable (db.OwnTable name id))
  | _, (_, .begin) => .isTrue trivial
  | _, (_, .insert ..) => .isTrue trivial
  | _, (_, .delete ..) => .isTrue trivial
  | _, (_, .commit _) => .isTrue trivial
  | _, (_, .rollback ..) => .isTrue trivial

/-- The state after the first `n` calls. -/
def after (db : Db) (acts : List Act) (n : ℕ) : Db := run step db (acts.take n)

end Db

def Call.writer : Call → Option ℕ
  | .insert txn _ _ _ => some txn
  | .update txn _ _ _ _ => some txn
  | .delete txn _ _ _ => some txn
  | _ => none

/-- The row a write stores: what was passed, as it reads back from the table. -/
def Db.stored (db : Db) (name : String) (values : RowValues) : Option Row :=
  (lookupTable db.store name).map fun t => (t.2.1.objectId, canon t.2.2.layout values)

/-- What a call means to the transactions, told from its result; a delete that
cascades means more than this. -/
def Db.events (db : Db) (a : Act) : List (Event ℕ Row) :=
  let r := (db.call a).2
  match a.2 with
  | .begin => if r.2 = 0 then [] else [.begin r.2]
  | .insert txn _ name values => if r.1 = .ok then [.write txn r.2 (db.stored name values)] else []
  | .update txn _ name id values => if r.1 = .ok then
      [.write txn id (db.stored name values)] else []
  | .delete txn _ _ id => if r.1 = .ok then [.write txn id none] else []
  | .commit txn => if r.1 = .ok then [.commit txn] else []
  | .rollback txn _ => if r.1 = .ok then [.rollback txn] else []

def Db.Emits (db : Db) (a : Act) : Event ℕ Row → Prop
  | .begin t => a.2 = .begin ∧ (db.call a).2.2 = t
  | .write t _ _ => a.2.writer = some t
  | .commit t => a.2 = .commit t ∧ (db.call a).2.1 = .ok
  | .rollback t => (∃ uid, a.2 = .rollback t uid) ∧ (db.call a).2.1 = .ok

section Steps

variable {db : Db} {txn : ℕ}

lemma Effects.steps (h : Effects txn db ws db') :
    db.pool.Steps (ws.map fun w => .write txn w.1 w.2) db'.pool := by
  induction h with
  | quiet _ _ hpool =>
    rw [hpool]
    exact .nil _
  | write _ _ hstep _ ih => exact .cons hstep ih

/-- The state stays good, catalog and constraints stay, and the pool takes the steps the call
emits. -/
structure Stepped (db : Db) (a : Act) (es : List (Event ℕ Row)) : Prop where
  good : (db.step a).Good
  catalog : SameCatalog db.store (db.step a).store
  constraints : (db.step a).constraints = db.constraints
  nextTxnId : db.nextTxnId ≤ (db.step a).nextTxnId
  steps : db.pool.Steps es (db.step a).pool
  emits : ∀ e ∈ es, db.Emits a e

lemma Effects.stepped (h : Effects txn db ws db') (hstep : db.step a = db')
    (hw : a.2.writer = some txn) (hes : es = ws.map fun w => .write txn w.1 w.2) :
    Stepped db a es := by
  subst hstep hes
  refine ⟨h.good, h.frame.catalog, h.frame.constraints, h.frame.nextTxnId.ge, h.steps,
    fun e he => ?_⟩
  obtain ⟨w, -, rfl⟩ := mem_map.mp he
  exact hw

lemma stepped_one (hinv : (db.step a).Inv used)
    (hkeep : SameCatalog db.store (db.step a).store ∧ (db.step a).constraints = db.constraints ∧
      db.nextTxnId ≤ (db.step a).nextTxnId)
    (hstep : db.pool.Step (db.step a).pool e) (hevents : db.events a = [e]) (hemit : db.Emits a e) :
    Stepped db a (db.events a) := by
  rw [hevents]
  refine ⟨⟨used, hinv⟩, hkeep.1, hkeep.2.1, hkeep.2.2, .single hstep, fun f hf => ?_⟩
  rw [mem_singleton.mp hf]
  exact hemit

section

variable (h : db.Inv used)
include h

lemma stepped_quiet (hdb : db.step a = db) : Stepped db a [] := by
  refine ⟨by rw [hdb]; exact ⟨used, h⟩, by rw [hdb]; exact .refl _, by rw [hdb], by rw [hdb],
    ?_, ?_⟩
  · rw [hdb]
    exact .nil _
  · exact fun e he => by cases he

open Db (call events)

lemma stepped_begin : Stepped db (env, .begin) (db.events (env, .begin)) := by
  rcases mvccBegin_spec h with hfull | ⟨hid, hinv, hstep⟩
  · grind [events, call, Db.step, stepped_quiet]
  have hne : db.nextTxnId ≠ 0 := Nat.ne_of_gt h.next_pos.1
  have hevents : db.events (env, .begin) = [.begin db.nextTxnId] := by simp [events, call, hid, hne]
  refine stepped_one hinv ?_ hstep hevents ⟨rfl, hid⟩
  simp only [Db.step, call, mvccBegin]
  split_ifs
  · exact ⟨.refl _, rfl, le_rfl⟩
  · exact ⟨.refl _, rfl, Nat.le_succ _⟩

lemma stepped_commit : Stepped db (env, .commit txn) (db.events (env, .commit txn)) := by
  rcases hfind : mvFindTxn db txn with _ | t
  · grind [events, call, Db.step, mvccCommit_none, stepped_quiet]
  obtain ⟨hok, hinv, hstep⟩ := mvccCommit_spec h hfind
  have hevents : db.events (env, .commit txn) = [.commit txn] := by simp [events, call, hok]
  refine stepped_one hinv ?_ hstep hevents ⟨rfl, hok⟩
  simp only [Db.step, call, mvccCommit, hfind]
  exact ⟨.refl _, trivial, le_rfl⟩

lemma stepped_rollback :
    Stepped db (env, .rollback txn uid) (db.events (env, .rollback txn uid)) := by
  rcases hfind : mvFindTxn db txn with _ | t
  · grind [mvccRollback, events, call, Db.step, stepped_quiet]
  obtain ⟨hok, hinv, hstep⟩ := mvccRollback_spec env uid h hfind
  have hevents : db.events (env, .rollback txn uid) = [.rollback txn] := by
    simp [events, call, hok]
  have hrem := (rollbackVersions_spec env txn uid h.heap h.distinct fun v hv hact => by
      obtain ⟨i, hi, hid, -⟩ := h.placed v hv hact
      exact ⟨i, hi, hid⟩).1
  refine stepped_one hinv ?_ hstep hevents ⟨⟨uid, rfl⟩, hok⟩
  simp only [Db.step, call, mvccRollback, hfind]
  exact ⟨hrem.catalog, trivial, le_rfl⟩

lemma Db.Inv.commit_step (he : db.Emits a (.commit t)) :
    db.pool.Step (db.step a).pool (.commit t) := by
  obtain ⟨env, c⟩ := a
  obtain ⟨rfl, hok⟩ := he
  rcases hfind : mvFindTxn db t with _ | x
  · simp [call, mvccCommit, hfind] at hok
  · exact (mvccCommit_spec h hfind).2.2

lemma Db.Inv.rollback_step (he : db.Emits a (.rollback t)) :
    db.pool.Step (db.step a).pool (.rollback t) := by
  obtain ⟨env, c⟩ := a
  obtain ⟨⟨uid, rfl⟩, hok⟩ := he
  rcases hfind : mvFindTxn db t with _ | x
  · simp [call, mvccRollback, hfind] at hok
  · exact (mvccRollback_spec env uid h hfind).2.2

lemma stepped_insert :
    Stepped db (env, .insert txn uid name values)
      (db.events (env, .insert txn uid name values)) := by
  have hr := (Prod.mk.eta (p := mvccRowInsert env db txn uid name values)).symm
  rcases mvccRowInsert_spec h hr with
    ⟨hne, -, heff⟩ | ⟨herr, hid, slot, hd, hok⟩
  · have hevents : db.events (env, .insert txn uid name values) = [] := by simp [events, call, hne]
    exact heff.stepped rfl rfl hevents
  obtain ⟨i, hl⟩ := hok.lookup
  have hevents : db.events (env, .insert txn uid name values) =
      [.write txn db.nextLogicalId (some (slot.objectId, canon hd.layout values))] := by
    simp [events, call, herr, hid, Db.stored, hl]
  exact hok.effects.stepped rfl rfl hevents

lemma stepped_update (env : Env) (txn uid : ℕ) (values : RowValues) (hown : db.OwnTable name k) :
    Stepped db (env, .update txn uid name k values)
      (db.events (env, .update txn uid name k values)) := by
  have hr := (Prod.mk.eta (p := mvccRowUpdate env db txn uid name k values)).symm
  rcases mvccRowUpdate_spec h hown hr with
    ⟨hne, heff⟩ | ⟨herr, t, v, slot, hd, rfl, hok⟩
  · have hevents : db.events (env, .update txn uid name k values) = [] := by
      simp [events, call, hne]
    exact heff.stepped rfl rfl hevents
  obtain ⟨i, hl⟩ := hok.lookup
  have hevents : db.events (env, .update t.txnId uid name k values) =
      [.write t.txnId k (some (slot.objectId, canon hd.layout values))] := by
    simp [events, call, herr, Db.stored, hl]
  exact hok.effects.stepped rfl rfl hevents

lemma stepped_delete : (∃ es, Stepped db (env, .delete txn uid name k) es) ∧
      (db.constraints = [] → Stepped db (env, .delete txn uid name k)
        (db.events (env, .delete txn uid name k))) := by
  have hr := (Prod.mk.eta (p := mvccRowDelete env db txn uid name k)).symm
  refine ⟨?_, fun hnone => ?_⟩
  · obtain ⟨ws, heff⟩ := (mvccRowDelete_spec h hr).1.effects ⟨used, h⟩
    exact ⟨_, heff.stepped rfl rfl rfl⟩
  rcases mvccRowDelete_plain h hnone hr with ⟨hne, hdb⟩ | ⟨herr, heff⟩
  · grind [events, call, stepped_quiet, Db.step]
  have hevents : db.events (env, .delete txn uid name k) = [.write txn k none] := by
    simp [events, call, herr]
  exact heff.stepped rfl rfl hevents

lemma Db.Inv.stepped (hlegal : db.Legal a) :
    (∃ es, Stepped db a es) ∧ (db.constraints = [] → Stepped db a (db.events a)) := by
  obtain ⟨env, c⟩ := a
  cases c with
  | begin => exact ⟨⟨_, stepped_begin h⟩, fun _ => stepped_begin h⟩
  | insert txn uid name values => grind [stepped_insert]
  | update txn uid name k values =>
    have hs := stepped_update h env txn uid values hlegal
    exact ⟨⟨_, hs⟩, fun _ => hs⟩
  | delete => exact stepped_delete h
  | commit => exact ⟨⟨_, stepped_commit h⟩, fun _ => stepped_commit h⟩
  | rollback => exact ⟨⟨_, stepped_rollback h⟩, fun _ => stepped_rollback h⟩

end

lemma Db.Good.step (hgood : db.Good) (hlegal : db.Legal a) : (db.step a).Good := by
  obtain ⟨used, h⟩ := hgood
  obtain ⟨es, hs⟩ := (h.stepped hlegal).1
  exact hs.good

end Steps

section Runs

variable {db : Db} {acts : List Act} {n : ℕ}

lemma Db.after_succ (ha : acts[n]? = some a) :
    db.after acts (n + 1) = (db.after acts n).step a := run_take_succ ha

lemma Db.after_of_le (h : acts.length ≤ n) : db.after acts n = run Db.step db acts := by
  rw [Db.after, take_of_length_le h]

lemma Db.Good.after (hgood : db.Good) (hlegal : Always Db.step Db.Legal db acts) (n : ℕ) :
    (db.after acts n).Good :=
  run_induction hgood (fun _ _ hg hl => hg.step hl) (hlegal.take n)

lemma Db.after_none (ha : acts[n]? = none) : db.after acts (n + 1) = db.after acts n := by
  have hlen : acts.length ≤ n := getElem?_eq_none_iff.mp ha
  rw [Db.after_of_le (Nat.le_succ_of_le hlen), Db.after_of_le hlen]

section

variable (hgood : db.Good) (hlegal : Always Db.step Db.Legal db acts)
include hgood hlegal

/-- What holds of the pool from call `m` to call `n`: every event of a call keeps it. -/
theorem Db.Good.events_induction {I : ℕ → Pool ℕ Row → Prop} {m n : ℕ} (hmn : m ≤ n)
    (h0 : I m (db.after acts m).pool) (hcount : ∀ j P, I j P → I (j + 1) P)
    (hevent : ∀ j a e P P', m ≤ j → j < n → acts[j]? = some a → (db.after acts j).Emits a e →
      Pool.Inv P → P.Step P' e → I (j + 1) P → I (j + 1) P') : I n (db.after acts n).pool := by
  induction n, hmn using Nat.le_induction with
  | base => exact h0
  | succ n hmn ih =>
    have hn := ih fun j a e P P' hm hj => hevent j a e P P' hm (Nat.lt_succ_of_lt hj)
    rcases ha : acts[n]? with _ | a
    · rw [Db.after_none ha]
      exact hcount n _ hn
    obtain ⟨used, hinv⟩ := hgood.after hlegal n
    obtain ⟨es, hs⟩ := (hinv.stepped (hlegal.getElem? ha)).1
    rw [Db.after_succ ha]
    exact hs.steps.induction (hcount n _ hn) hinv.pool fun Q Q' e he hQ hstep hI =>
      hevent n a e Q Q' hmn (Nat.lt_succ_self n) ha (hs.emits e he) hQ hstep hI

lemma Db.Good.nextTxnId_mono (hmn : m ≤ n) :
    (db.after acts m).nextTxnId ≤ (db.after acts n).nextTxnId := by
  induction n, hmn using Nat.le_induction with
  | base => exact le_rfl
  | succ n _ ih =>
    rcases ha : acts[n]? with _ | a
    · rwa [Db.after_none ha]
    obtain ⟨used, hinv⟩ := hgood.after hlegal n
    obtain ⟨es, hs⟩ := (hinv.stepped (hlegal.getElem? ha)).1
    rw [Db.after_succ ha]
    exact ih.trans hs.nextTxnId

lemma Db.Good.after_catalog (n : ℕ) : SameCatalog db.store (db.after acts n).store := by
  suffices hall : ∀ acts, Always Db.step Db.Legal db acts → (run Db.step db acts).Good ∧
      SameCatalog db.store (run Db.step db acts).store from (hall _ (hlegal.take n)).2
  intro acts hlegal
  refine run_induction (I := fun db' => db'.Good ∧ SameCatalog db.store db'.store)
    ⟨hgood, .refl _⟩ ?_ hlegal
  rintro db' a ⟨⟨used, h⟩, hcat⟩ hl
  obtain ⟨es, hs⟩ := (h.stepped hl).1
  exact ⟨hs.good, hcat.trans hs.catalog⟩

end

end Runs

/-- Everything is permitted, every page is granted and every write lands. -/
def openEnv : Env := ⟨fun _ _ _ => true, fun _ _ => rfl, fun _ => true, fun _ => true⟩

/-- A catalog entry of the first partition with the given columns. -/
def tableSlot (objectId : ℕ) (name : String) (schema : ObjectSchema) : CatalogSlot :=
  ⟨objectId, name, true, 0, schema, none⟩

def createTables (slots : List CatalogSlot) : Store :=
  slots.foldl (fun s slot => (rowstoreCreateTable s slot.name).1)
    (rowstoreInit slots fun _ => .zero)

/-- A table with one number column. -/
def uintTable (objectId : ℕ) (name : String) : CatalogSlot :=
  tableSlot objectId name ⟨[⟨"v", .uint64, true⟩], 1⟩

/-- A row of such a table, from the digits of the number. -/
def uintRow (digits : List UInt8) : RowValues := ⟨0, [Text.ofBytes digits]⟩

lemma createTables_heap (slots : List CatalogSlot) : Heap (createTables slots) fun _ => [] := by
  have hfold : ∀ (names : List CatalogSlot) (s : Store), Heap s (fun _ => []) →
      Heap (names.foldl (fun s slot => (rowstoreCreateTable s slot.name).1) s) fun _ => [] := by
    intro names
    induction names with
    | nil => exact fun _ hs => hs
    | cons slot names ih => exact fun s hs => ih _ (rowstoreCreateTable_heap hs)
  exact hfold slots _ (rowstoreInit_heap slots _)

end AeroSLS.Mvcc
