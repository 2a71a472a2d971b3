import AeroSLS.Mvcc.Isolation

namespace AeroSLS.Mvcc

open Rowstore Machine List

def rowJournalMaxEntries : ℕ := 16
def rowJournalMaxAttachments : ℕ := 16
def rowJournalNameLen : ℕ := 32
def objectNameLen : ℕ := 64

inductive JournalEntryType
  | pt
  | up
  | ub
  | dl
  deriving DecidableEq

/-- `boot` is not in the source: it tells transactions of different boots apart. -/
structure RowJournalEntry where
  seq : ℕ
  txId : ℕ
  tableObjectId : ℕ
  journalName : String
  tableName : String
  logicalId : ℕ
  type : JournalEntryType
  committed : Bool
  active : Bool
  before : RowValues
  after : RowValues
  boot : ℕ
  deriving DecidableEq

structure RowJournalAttachment where
  journalName : String
  tableName : String
  active : Bool
  deriving DecidableEq

structure RowJournal where
  buffer : List RowJournalEntry
  entryCount : ℕ
  attachments : List RowJournalAttachment
  deriving DecidableEq

def rjStrcpy (s : String) (max : ℕ) : String := String.ofList (s.toList.take (max - 1))

def emptyRow : RowValues := ⟨0, []⟩

def rowJournalInit : RowJournal :=
  ⟨replicate rowJournalMaxEntries ⟨0, 0, 0, "", "", 0, .pt, false, false, emptyRow, emptyRow, 0⟩,
    0, replicate rowJournalMaxAttachments ⟨"", "", false⟩⟩

/-- A change of a row, as the row operations report it; an image that could not be read
is missing. -/
inductive Notice
  | insert (table : String) (tableObjectId logicalId : ℕ) (after : RowValues)
  | update (table : String) (tableObjectId logicalId : ℕ) (before : Option RowValues)
      (after : RowValues)
  | delete (table : String) (tableObjectId logicalId : ℕ) (before : Option RowValues)
  deriving DecidableEq

namespace RowJournal

variable (j : RowJournal)

def journalForTable (table : String) : Option String :=
  (j.attachments.find? fun a => a.active && a.tableName = table).map (·.journalName)

/-- One journal for a table; the first free slot is taken. -/
def attach (journal table : String) : RowJournal :=
  if (j.journalForTable table).isSome then j
  else
    let a : RowJournalAttachment :=
      ⟨rjStrcpy journal rowJournalNameLen, rjStrcpy table objectNameLen, true⟩
    match j.attachments.findIdx? fun a => !a.active with
    | none => j
    | some i => { j with attachments := j.attachments.set i a }

def detach (journal table : String) : RowJournal :=
  match j.attachments.findIdx? fun a =>
      a.active && a.journalName = journal && a.tableName = table with
  | none => j
  | some i => { j with attachments := j.attachments.modify i fun a => { a with active := false } }

/-- The next slot of the ring is overwritten. -/
def write (boot txnId : ℕ) (journal table : String) (tableObjectId logicalId : ℕ)
    (type : JournalEntryType) (before after : Option RowValues) : RowJournal :=
  let count := (j.entryCount + 1) % 2 ^ 32
  { j with
    buffer := j.buffer.set (j.entryCount % rowJournalMaxEntries)
      ⟨count, txnId, tableObjectId, rjStrcpy journal rowJournalNameLen,
        rjStrcpy table objectNameLen,
        logicalId, type, false, true, before.getD emptyRow, after.getD emptyRow, boot⟩
    entryCount := count }

/-- Changes of tables that are not attached are ignored. -/
def notify (boot txnId : ℕ) : Notice → RowJournal
  | .insert table oid id after =>
    match j.journalForTable table with
    | none => j
    | some journal => j.write boot txnId journal table oid id .pt none (some after)
  | .update table oid id before after =>
    match j.journalForTable table with
    | none => j
    | some journal =>
      (j.write boot txnId journal table oid id .ub before none).write boot txnId
        journal table oid id
        .up none (some after)
  | .delete table oid id before =>
    match j.journalForTable table with
    | none => j
    | some journal => j.write boot txnId journal table oid id .dl before none

end RowJournal

/-- An entry that commit and rollback of the transaction look for. -/
def RowJournalEntry.pending (txnId : ℕ) (e : RowJournalEntry) : Bool :=
  e.active && e.txId = txnId && !e.committed

namespace RowJournal

variable (j : RowJournal)

def commitTx (txnId : ℕ) : RowJournal :=
  { j with buffer := j.buffer.map fun e => if e.pending txnId then
    { e with committed := true } else e }

def rollbackTx (txnId : ℕ) : RowJournal :=
  { j with buffer := j.buffer.map fun e => if e.pending txnId then
    { e with active := false } else e }

end RowJournal

/-- The database, its journal and the image on disk; boots and commits are kept for the
statements only. -/
structure JournaledDb where
  db : Db
  journal : RowJournal
  disk : RowJournal
  boot : ℕ
  commits : List (ℕ × ℕ)

/-- A call comes with the rows it changed. When the image is written is left open, and a power
cycle finds it unless it is torn. -/
inductive JournalEvent
  | call (a : Act) (notices : List Notice)
  | attach (journal table : String)
  | detach (journal table : String)
  | persist
  | power (env : Env) (store : Store) (constraints : List RowConstraintDef) (trusted : Bool)

namespace JournaledDb

variable (s : JournaledDb)

def start (db : Db) : JournaledDb := ⟨db, rowJournalInit, rowJournalInit, 0, []⟩

def settle (call : Call) (notices : List Notice) : RowJournal × List (ℕ × ℕ) :=
  let noted (txn : ℕ) : RowJournal × List (ℕ × ℕ) :=
    if (mvFindTxn s.db txn).isSome then
      (notices.foldl (fun j => j.notify s.boot txn) s.journal, s.commits)
    else (s.journal, s.commits)
  match call with
  | .begin => (s.journal, s.commits)
  | .insert txn _ _ _ => noted txn
  | .update txn _ _ _ _ => noted txn
  | .delete txn _ _ _ => noted txn
  | .commit txn =>
    if (mvFindTxn s.db txn).isSome then (s.journal.commitTx txn, (s.boot, txn) :: s.commits)
    else (s.journal, s.commits)
  | .rollback txn _ =>
    if (mvFindTxn s.db txn).isSome then (s.journal.rollbackTx txn, s.commits)
    else (s.journal, s.commits)

def step : JournalEvent → JournaledDb
  | .call a notices =>
    { s with
      db := s.db.step a
      journal := (s.settle a.2 notices).1
      commits := (s.settle a.2 notices).2 }
  | .attach journal table => { s with journal := s.journal.attach journal table }
  | .detach journal table => { s with journal := s.journal.detach journal table }
  | .persist => { s with disk := s.journal }
  | .power env store constraints trusted =>
    { s with
      db := Mvcc.boot env store constraints
      journal := if trusted then s.disk else rowJournalInit
      boot := s.boot + 1 }

end JournaledDb

/-- The committed entries are those of transactions that committed. -/
def RowJournal.Honest (j : RowJournal) (commits : List (ℕ × ℕ)) : Prop :=
  ∀ e ∈ j.buffer, e.active = true → e.committed = true → (e.boot, e.txId) ∈ commits

/-- No entry counts as committed unless the transaction that wrote it was. -/
def JournaledDb.Honest (s : JournaledDb) : Prop := s.journal.Honest s.commits

/-- A commit finds no pending entry of a transaction with the same id in an earlier boot. -/
def JournaledDb.FreshCommit (s : JournaledDb) : JournalEvent → Prop
  | .call (_, .commit txn) _ => (mvFindTxn s.db txn).isSome →
      ∀ e ∈ s.journal.buffer, e.pending txn = true → e.boot = s.boot ∨ (e.boot, txn) ∈ s.commits
  | _ => True

section honest

variable {j : RowJournal} {commits : List (ℕ × ℕ)} {boot txn : ℕ}

lemma RowJournal.Honest.mono (h : j.Honest commits) (hsub : commits ⊆ commits') :
    j.Honest commits' := fun e he hact hcom => hsub (h e he hact hcom)

lemma rowJournalInit_inactive : ∀ e ∈ rowJournalInit.buffer, e.active = false := by
  intro e he
  rw [eq_of_mem_replicate he]

lemma rowJournalInit_honest : rowJournalInit.Honest commits := by
  intro e he hact
  rw [rowJournalInit_inactive e he] at hact
  cases hact

lemma attach_buffer : (j.attach journal table).buffer = j.buffer := by
  unfold RowJournal.attach
  split_ifs
  · rfl
  · split <;> rfl

lemma detach_buffer : (j.detach journal table).buffer = j.buffer := by
  unfold RowJournal.detach
  split <;> rfl

lemma mem_write {e : RowJournalEntry} {journal table : String} {oid id : ℕ}
    {type : JournalEntryType} {before after : Option RowValues}
    (h : e ∈ (j.write boot txn journal table oid id type before after).buffer) :
    e ∈ j.buffer ∨ e.committed = false ∧ e.boot = boot := by
  obtain hold | rfl := mem_or_eq_of_mem_set h
  · exact .inl hold
  · exact .inr ⟨rfl, rfl⟩

lemma mem_notify {e : RowJournalEntry} {n : Notice} (h : e ∈ (j.notify boot txn n).buffer) :
    e ∈ j.buffer ∨ e.committed = false ∧ e.boot = boot := by
  cases n with
  | insert | update | delete => grind [RowJournal.notify, mem_write]

lemma mem_foldl_notify {e : RowJournalEntry} {notices : List Notice}
    (h : e ∈ (notices.foldl (fun j => j.notify boot txn) j).buffer) :
    e ∈ j.buffer ∨ e.committed = false ∧ e.boot = boot := by
  induction notices generalizing j with
  | nil => exact .inl h
  | cons n notices ih => grind [mem_notify]

lemma mem_rollbackTx (h : e ∈ (j.rollbackTx txn).buffer) (hact : e.active) : e ∈ j.buffer := by
  obtain ⟨e', he', rfl⟩ := mem_map.1 h
  by_cases hpending : e'.pending txn
  · rw [if_pos hpending] at hact
    cases hact
  · rw [if_neg hpending]
    exact he'

end honest

namespace JournaledDb

variable {s : JournaledDb}

theorem settle_cases {e : RowJournalEntry} (he : e ∈ (s.settle call notices).1.buffer)
    (hact : e.active) : e ∈ s.journal.buffer ∨ e.committed = false ∧ e.boot = s.boot ∨
      ∃ txn, call = .commit txn ∧ (mvFindTxn s.db txn).isSome ∧
        ∃ old ∈ s.journal.buffer, old.pending txn ∧ e = { old with committed := true } := by
  have hnoted : ∀ txn, e ∈ (if (mvFindTxn s.db txn).isSome then
      (notices.foldl (fun j => j.notify s.boot txn) s.journal, s.commits)
      else (s.journal, s.commits)).1.buffer →
      e ∈ s.journal.buffer ∨ e.committed = false ∧ e.boot = s.boot := by
    intro txn h
    split_ifs at h
    · exact mem_foldl_notify h
    · exact .inl h
  cases call with
  | begin => exact .inl he
  | insert txn | update txn | delete txn => exact (hnoted txn he).imp_right .inl
  | commit txn =>
    simp only [settle] at he
    split_ifs at he with hfind
    · obtain ⟨old, hold, rfl⟩ := mem_map.1 he
      split_ifs with hpending
      · exact .inr (.inr ⟨txn, rfl, hfind, old, hold, hpending, rfl⟩)
      · exact .inl hold
    · exact .inl he
  | rollback =>
    simp only [settle] at he
    split_ifs at he
    · exact .inl (mem_rollbackTx he hact)
    · exact .inl he

lemma settle_commits : s.commits ⊆ (s.settle call notices).2 := by
  cases call with
  | begin => exact List.Subset.refl _
  | insert | update | delete | commit | rollback => grind [settle]

lemma settle_commit (h : (mvFindTxn s.db txn).isSome) :
    s.settle (.commit txn) notices = (s.journal.commitTx txn, (s.boot, txn) :: s.commits) :=
  if_pos h

theorem honest_step (h : s.Honest ∧ s.disk.Honest s.commits) (hfresh : s.FreshCommit ev) :
    (s.step ev).Honest ∧ (s.step ev).disk.Honest (s.step ev).commits := by
  obtain ⟨hj, hd⟩ := h
  cases ev with
  | call a notices =>
    obtain ⟨env, call⟩ := a
    refine ⟨fun e he hact hcom => ?_, hd.mono settle_commits⟩
    obtain hold | ⟨hpend, -⟩ | ⟨txn, rfl, hfind, old, hold, hpending, rfl⟩ := settle_cases he hact
    · exact settle_commits (hj e hold hact hcom)
    · rw [hpend] at hcom
      cases hcom
    · change (old.boot, old.txId) ∈ (s.settle (.commit txn) notices).2
      rw [settle_commit hfind]
      have htx : old.txId = txn := by
        simp only [RowJournalEntry.pending, Bool.and_eq_true, decide_eq_true_eq] at hpending
        exact hpending.1.2
      rw [htx]
      obtain hboot | hdone := hfresh hfind old hold hpending
      · rw [hboot]
        exact mem_cons_self ..
      · exact mem_cons_of_mem _ hdone
  | attach =>
    refine ⟨fun e he => hj e ?_, hd⟩
    exact attach_buffer ▸ he
  | detach =>
    refine ⟨fun e he => hj e ?_, hd⟩
    exact detach_buffer ▸ he
  | persist => exact ⟨hj, hj⟩
  | power env store constraints trusted =>
    refine ⟨?_, hd⟩
    cases trusted with
    | true => exact hd
    | false => exact rowJournalInit_honest

theorem freshCommit_of_honest (h : (s.step ev).Honest) : s.FreshCommit ev := by
  unfold FreshCommit
  split
  · rename_i env txn notices
    intro hfind e he hpending
    have hboth := hpending
    simp only [RowJournalEntry.pending, Bool.and_eq_true, decide_eq_true_eq] at hboth
    have hmem : { e with committed := true } ∈
        (s.step (.call (env, .commit txn) notices)).journal.buffer := by
      change _ ∈ (s.settle (.commit txn) notices).1.buffer
      rw [settle_commit hfind]
      exact mem_map.2 ⟨e, he, if_pos hpending⟩
    have hcom := h _ hmem hboth.1.1 rfl
    change (e.boot, e.txId) ∈ (s.settle (.commit txn) notices).2 at hcom
    rw [settle_commit hfind, hboth.1.2, mem_cons] at hcom
    exact hcom.imp_left fun heq => (Prod.ext_iff.1 heq).1
  · trivial

/-- Along a run no entry counts as committed without its transaction's commit exactly when
no commit finds a stale pending entry under its id. -/
theorem journal_honest_iff (db : Db) (evs : List JournalEvent) :
    (∀ n, (run step (start db) (evs.take n)).Honest) ↔ Always step FreshCommit (start db) evs := by
  constructor
  · exact fun h => always_of_prefixes h fun _ _ => freshCommit_of_honest
  intro h n
  have h0 : (start db).Honest ∧ (start db).disk.Honest (start db).commits :=
    ⟨rowJournalInit_honest, rowJournalInit_honest⟩
  exact (run_induction (I := fun s => s.Honest ∧ s.disk.Honest s.commits) h0
    (fun _ _ => honest_step) (h.take n)).1

section Sample

set_option maxRecDepth 8000

/-- The first transaction is open when the power goes; the next one has its number. -/
def openAtCrash : List JournalEvent :=
  [.attach "j" "t", .call (openEnv, .begin) [],
    .call (openEnv, .insert 1 9 "t" (uintRow [53])) [.insert "t" 7 1 (uintRow [53])], .persist,
    .power openEnv (createTables [uintTable 7 "t"]) [] true, .call (openEnv, .begin) [],
    .call (openEnv, .commit 1) []]

/-- The insert of the lost transaction is reported as committed. -/
theorem journal_commits_lost_insert : (run step (start oneTable) openAtCrash).commits = [(1, 1)] ∧
      ¬(run step (start oneTable) openAtCrash).Honest := by
  have hcommits : (run step (start oneTable) openAtCrash).commits = [(1, 1)] := by decide +kernel
  refine ⟨hcommits, fun h => ?_⟩
  have hentry : ∃ e ∈ (run step (start oneTable) openAtCrash).journal.buffer, e.active = true ∧
      e.committed = true ∧ (e.boot, e.txId) = (0, 1) := by decide +kernel
  obtain ⟨e, he, hact, hcom, heq⟩ := hentry
  have hmem := h e he hact hcom
  rw [heq] at hmem
  exact absurd hmem (by decide)

end Sample

end JournaledDb

end AeroSLS.Mvcc
