import Mathlib.Algebra.Group.Nat.Defs
import Mathlib.Data.List.GetD
import Mathlib.Data.List.Nodup
import Mathlib.Data.List.Perm.Subperm
import Mathlib.Order.MinMax

namespace AeroSLS.Replica

open List

def envReplicaMax : ℕ := 8

abbrev Page := List UInt8

structure EnvCkptRecord where
  sequence : ℕ
  body : List UInt8
deriving DecidableEq, Inhabited

structure DirEntry where
  partitionId : ℕ
  index : ℕ
  slot : ℕ
  valid : Bool
  seq : ℕ
  pages : ℕ
  srcNode : ℕ
  record : EnvCkptRecord
deriving DecidableEq, Inhabited

/-- The count in the directory's header, if it is of this build, its entries, and the pages of
the slots. -/
structure Disk where
  hdr : Option ℕ
  ents : List DirEntry
  band : ℕ → ℕ → Page

structure Staging where
  partitionId : ℕ
  index : ℕ
  srcNode : ℕ
  record : EnvCkptRecord
  pages : List Page

def Staging.identity (s : Staging) : ℕ × ℕ := (s.partitionId, s.index)

/-- Which commands of a finalize succeed: three reads and writes of the invalidation, so many
pages, two writes of the publish. -/
structure Io where
  read : Bool
  inval : Bool × Bool
  band : ℕ
  publish : Bool × Bool

def erDirRead (d : Disk) (ok : Bool) : Option (List DirEntry) :=
  if ok then d.hdr.map fun n =>
    (d.ents ++ replicate envReplicaMax default).take (min n envReplicaMax)
  else none

/-- Entries first, header last. -/
def erDirWrite (d : Disk) (ok : Bool × Bool) (es : List DirEntry) : Disk × Bool :=
  if ok.1 = false then (d, false)
  else if ok.2 = false then ({ d with ents := es.take envReplicaMax }, false)
  else ({ d with ents := es.take envReplicaMax, hdr := some es.length }, true)

/-- The staged pages go to the slot until a write fails. -/
def writeBand (d : Disk) (slot : ℕ) (pages : List Page) (ok : ℕ) : Disk × Bool :=
  ({ d with
      band := fun c p =>
        if c = slot ∧ p < ok then pages.getD p (d.band c p) else d.band c p },
    decide (pages.length ≤ ok))

def DirEntry.of (e : DirEntry) (s : Staging) : Bool :=
  e.valid && e.partitionId == s.partitionId && e.index == s.index

def Staging.entry (s : Staging) (slot : ℕ) : DirEntry :=
  ⟨s.partitionId, s.index, slot, true, s.record.sequence, s.pages.length, s.srcNode, s.record⟩

def erFinalize (d : Disk) (s : Staging) (io : Io) : Disk × Bool :=
  -- a directory that cannot be read counts as empty
  let es := (erDirRead d io.read).getD []
  match ((range es.length).filter fun i => (es.getD i default).of s).getLast? with
  | some i =>
    let e := es.getD i default
    if e.seq > s.record.sequence then (d, false)
    else match erDirWrite d io.inval (es.set i { e with valid := false }) with
      | (d, false) => (d, false)
      | (d, true) =>
        match writeBand d e.slot s.pages io.band with
        | (d, false) => (d, false)
        | (d, true) => erDirWrite d io.publish (es.set i (s.entry e.slot))
  | none =>
    match (range envReplicaMax).find? fun c => es.all fun e => !(e.valid && e.slot == c) with
    | none => (d, false)
    | some slot =>
      match writeBand d slot s.pages io.band with
      | (d, false) => (d, false)
      | (d, true) =>
        if es.length ≥ envReplicaMax then (d, false)
        else erDirWrite d io.publish (es ++ [s.entry slot])

/-- The complete stagings of the table are finalised in turn. -/
def envReplicaTick (d : Disk) (staged : List (Staging × Io)) : Disk :=
  staged.foldl (fun d x => (erFinalize d x.1 x.2).1) d

def envReplicaMaxPages : ℕ := 2048

def envMigrateImageMax : ℕ := 1024

/-- An active slot of the staging table. -/
structure EnvReplicaSlot extends Staging where
  transferId : ℕ
  totalPages : ℕ
  complete : Bool

inductive Refusal
  | pageCount | tooMany | slotExists | superseded | noDiskSlot | tableFull

/-- The first inactive slot is taken. -/
def place (s : EnvReplicaSlot) :
    List (Option EnvReplicaSlot) → Option (List (Option EnvReplicaSlot))
  | [] => none
  | none :: table => some (some s :: table)
  | some t :: table => (place s table).map (some t :: ·)

/-- The staging table after a BEGIN; `envId` and `payloadPages` are what the record's body
says. -/
def envReplicaRecvBegin (envId payloadPages : EnvCkptRecord → ℕ) (d : Disk) (ok : Bool)
    (table : List (Option EnvReplicaSlot)) (transferId partitionId index totalPages : ℕ)
    (record : EnvCkptRecord) (srcNode : ℕ) : Except Refusal (List (Option EnvReplicaSlot)) := do
  let s : EnvReplicaSlot :=
    ⟨⟨partitionId, index, srcNode, record, []⟩, transferId, totalPages, totalPages == 0⟩
  if totalPages < payloadPages record ∨
      totalPages > (payloadPages record + envMigrateImageMax) % 2 ^ 32 then throw .pageCount
  if totalPages > envReplicaMaxPages then throw .tooMany
  match table.reduceOption.find? fun t => t.identity == s.identity with
  | some t =>
    -- a BEGIN that is sent again
    if t.transferId = transferId ∧ envId t.record = envId record then pure table
    else throw .slotExists
  | none =>
    let es := (erDirRead d ok).getD []
    match es.find? (·.of s.toStaging) with
    | some e => if e.seq > record.sequence then throw .superseded
    | none => if es.countP (·.valid) ≥ envReplicaMax then throw .noDiskSlot
    match place s table with
    | none => throw .tableFull
    | some table => pure table

/-- No command fails. -/
def Io.fine (s : Staging) : Io := ⟨true, (true, true), s.pages.length, (true, true)⟩

def Disk.entries (d : Disk) : List DirEntry := (erDirRead d true).getD []

/-- The directory has a valid entry of the identity. -/
def Disk.has (d : Disk) (s : Staging) : Bool := d.entries.any fun e => e.of s

/-- The staged capture is in the directory. -/
def Disk.Published (d : Disk) (s : Staging) : Prop := ∃ slot, s.entry slot ∈ d.entries

/-- Those without a valid entry. -/
def Disk.fresh (d : Disk) (staged : List Staging) : ℕ :=
  staged.countP fun s => !d.has s

variable {d : Disk} {s t : Staging} {es : List DirEntry}

lemma entries_erDirWrite (h : es.length ≤ envReplicaMax) :
    (erDirWrite d (true, true) es).1.entries = es := by
  simp only [erDirWrite, Disk.entries, erDirRead]
  simp [take_of_length_le h, Nat.min_eq_left h]

lemma entries_length (d : Disk) : d.entries.length ≤ envReplicaMax := by
  unfold Disk.entries erDirRead
  cases d.hdr with
  | none => exact Nat.zero_le _
  | some => simp

/-- Fewer entries than slots leave a slot that none of them names. -/
theorem exists_slot (h : es.length < envReplicaMax) : ∃ slot,
    (range envReplicaMax).find? (fun c => es.all fun e => !(e.valid && e.slot == c)) =
      some slot := by
  rw [← Option.isSome_iff_exists, find?_isSome]
  by_contra hall
  have hsub : range envReplicaMax ⊆ es.map (·.slot) := by
    intro c hc
    have := not_exists.1 hall c
    grind
  have hle := (subperm_of_subset nodup_range hsub).length_le
  rw [length_range, length_map] at hle
  omega

/-- What a finalize does to the directory when no command fails. -/
theorem finalize_cases (s : Staging) :
    ((∃ slot, (erFinalize d s (.fine s)).1.entries = d.entries ++ [s.entry slot]) ∧
      d.has s = false ∧
        d.entries.length < envReplicaMax) ∨
      ((erFinalize d s (.fine s)).1.entries = d.entries ∧ d.has s = false ∧
        d.entries.length = envReplicaMax) ∨
      ∃ i e, d.entries[i]? = some e ∧ e.of s ∧ (erFinalize d s (.fine s)).1.entries =
        if e.seq > s.record.sequence then d.entries else d.entries.set i (s.entry e.slot) := by
  have hlen := entries_length d
  unfold erFinalize
  rw [show (erDirRead d (Io.fine s).read).getD [] = d.entries from rfl]
  dsimp only
  split
  · rename_i i hi
    obtain ⟨hlt, hof⟩ := mem_filter.1 (mem_of_getLast? hi)
    rw [mem_range] at hlt
    rw [getD_eq_getElem _ _ hlt] at hof ⊢
    refine .inr (.inr ⟨i, d.entries[i], getElem?_eq_getElem hlt, hof, ?_⟩)
    split_ifs
    · rfl
    · rw [show ∀ es, erDirWrite d (Io.fine s).inval es = ((erDirWrite d (true, true) es).1, true)
        from fun _ => rfl]
      simp only [Io.fine, writeBand, le_refl, decide_true]
      exact entries_erDirWrite (by simpa using hlen)
  · rename_i hnone
    have hhas : d.has s = false := by
      rw [Disk.has, any_eq_false]
      rintro e he hof
      obtain ⟨i, hi, rfl⟩ := getElem_of_mem he
      rw [getLast?_eq_none_iff, filter_eq_nil_iff] at hnone
      exact hnone i (mem_range.2 hi) (by rwa [getD_eq_getElem _ _ hi])
    by_cases hfull : d.entries.length < envReplicaMax
    · obtain ⟨slot, hslot⟩ := exists_slot hfull
      refine .inl ⟨⟨slot, ?_⟩, hhas, hfull⟩
      simp only [hslot, Io.fine, writeBand, le_refl, decide_true]
      rw [if_neg (not_le.2 hfull)]
      exact entries_erDirWrite (by rw [length_append]; exact hfull)
    · refine .inr (.inl ⟨?_, hhas, by omega⟩)
      split
      · rfl
      · simp only [Io.fine, writeBand, le_refl, decide_true, if_pos (not_lt.1 hfull)]
        rfl

theorem finalize_other (hne : s.identity ≠ t.identity) {e : DirEntry} (he : e.of t) :
    e ∈ (erFinalize d s (.fine s)).1.entries ↔ e ∈ d.entries := by
  have hnot : e.of s = false := by
    unfold DirEntry.of Staging.identity at *
    grind
  have hentry : ∀ slot, s.entry slot ≠ e := by
    rintro slot rfl
    simp [DirEntry.of, Staging.entry] at hnot
  rcases finalize_cases s with ⟨⟨slot, h⟩, -⟩ | ⟨h, -⟩ | ⟨i, e', hi, hof, h⟩
  · rw [h, mem_append, mem_singleton]
    simp [(hentry slot).symm]
  · rw [h]
  · rw [h]
    split_ifs
    · rfl
    · refine ⟨fun hmem => (mem_or_eq_of_mem_set hmem).resolve_right (hentry _).symm, fun hmem => ?_⟩
      obtain ⟨j, hj⟩ := getElem?_of_mem hmem
      exact mem_of_getElem? (i := j) (by grind)

lemma finalize_has (hne : s.identity ≠ t.identity) :
    (erFinalize d s (.fine s)).1.has t = d.has t := by
  rw [Bool.eq_iff_iff, Disk.has, Disk.has, any_eq_true, any_eq_true]
  exact exists_congr fun e => and_congr_left fun he => finalize_other hne he

lemma finalize_published (hseq : ∀ e ∈ d.entries, e.of s → e.seq ≤ s.record.sequence) :
    (erFinalize d s (.fine s)).1.Published s ↔ d.has s = true ∨
      d.entries.length < envReplicaMax := by
  rcases finalize_cases s with ⟨⟨slot, h⟩, -, hlt⟩ | ⟨h, hno, hfull⟩ | ⟨i, e, hi, hof, h⟩
  · refine iff_of_true ⟨slot, ?_⟩ (.inr hlt)
    simp [h]
  · refine iff_of_false ?_ (by simp [hno, hfull])
    rintro ⟨slot, hmem⟩
    rw [Disk.has, any_eq_false] at hno
    exact hno _ (h ▸ hmem) (by simp [DirEntry.of, Staging.entry])
  · have hmem := mem_of_getElem? hi
    refine iff_of_true ⟨e.slot, ?_⟩ (.inl (any_eq_true.2 ⟨e, hmem, hof⟩))
    rw [h, if_neg (not_lt.2 (hseq e hmem hof))]
    exact mem_set (by grind) _

lemma finalize_length : (erFinalize d s (.fine s)).1.entries.length =
    min envReplicaMax (d.entries.length + if !d.has s then 1 else 0) := by
  have hlen := entries_length d
  rcases finalize_cases s with ⟨⟨slot, h⟩, hno, hlt⟩ | ⟨h, hno, hfull⟩ | ⟨i, e, hi, hof, h⟩
  · rw [h, hno, length_append, length_singleton]
    exact (Nat.min_eq_right hlt).symm
  · simp [h, hno, hfull]
  · have hhas : d.has s = true := any_eq_true.2 ⟨e, mem_of_getElem? hi, hof⟩
    rw [h, apply_ite length, length_set, ite_self, hhas]
    exact (Nat.min_eq_right hlen).symm

lemma tick_other {staged : List Staging} (hids : s.identity ∉ staged.map Staging.identity)
    {e : DirEntry} (he : e.of s) :
    e ∈ (envReplicaTick d (staged.map fun t => (t, .fine t))).entries ↔ e ∈ d.entries := by
  induction staged generalizing d with
  | nil => rfl
  | cons t staged ih =>
    rw [map_cons, mem_cons, not_or] at hids
    exact (ih hids.2).trans (finalize_other (Ne.symm hids.1) he)

lemma reduceOption_place {s : EnvReplicaSlot} {table table' : List (Option EnvReplicaSlot)}
    (h : place s table = some table') : table'.reduceOption ~ s :: table.reduceOption := by
  induction table generalizing table' with
  | nil => cases h
  | cons t table ih =>
    cases t with
    | none =>
      cases h
      rfl
    | some t =>
      obtain ⟨rest, hrest, rfl⟩ := Option.map_eq_some_iff.1 h
      exact ((ih hrest).cons t).trans (.swap ..)

/-- A BEGIN keeps the identities of the staging table distinct. -/
theorem recvBegin_distinct {table table' : List (Option EnvReplicaSlot)}
    (h : envReplicaRecvBegin envId payloadPages d ok table transferId partitionId index totalPages
      record srcNode = .ok table') (hids : (table.reduceOption.map (·.identity)).Nodup) :
    (table'.reduceOption.map (·.identity)).Nodup := by
  have hcase : table' = table ∨ ∃ s : EnvReplicaSlot,
      table.reduceOption.find? (fun t => t.identity == s.identity) = none ∧
        place s table = some table' := by
    simp only [envReplicaRecvBegin, bind, Except.bind, pure, Except.pure, throw, throwThe,
      MonadExceptOf.throw] at h
    grind
  rcases hcase with rfl | ⟨s, hnone, hplace⟩
  · exact hids
  · refine ((reduceOption_place hplace).map _).nodup_iff.2 (nodup_cons.2 ⟨?_, hids⟩)
    rw [find?_eq_none] at hnone
    grind

/-- A staged capture is published by a tick without failing commands exactly when its identity
has a valid entry or the directory has room. -/
theorem tick_publishes_iff (d : Disk) (before after : List Staging) (s : Staging)
    (hids : ((before ++ s :: after).map Staging.identity).Nodup)
    (hseq : ∀ e ∈ d.entries, e.of s → e.seq ≤ s.record.sequence) :
    (envReplicaTick d ((before ++ s :: after).map fun t => (t, .fine t))).Published s ↔
      d.has s = true ∨ d.entries.length + d.fresh before < envReplicaMax := by
  induction before generalizing d with
  | nil =>
    rw [nil_append, map_cons, nodup_cons] at hids
    refine Iff.trans ?_ (finalize_published hseq)
    exact exists_congr fun slot => tick_other hids.1 (by simp [DirEntry.of, Staging.entry])
  | cons t before ih =>
    rw [cons_append, map_cons, nodup_cons] at hids
    have hne : ∀ {x}, x ∈ before ++ s :: after → t.identity ≠ x.identity :=
      fun hx heq => hids.1 (heq ▸ mem_map_of_mem hx)
    have hs : t.identity ≠ s.identity := hne (by simp)
    refine (ih (erFinalize d t (.fine t)).1 hids.2 fun e he hof => hseq e ?_ hof).trans ?_
    · exact (finalize_other hs hof).1 he
    · have hfresh : (erFinalize d t (.fine t)).1.fresh before = d.fresh before :=
        countP_congr fun x hx => by rw [finalize_has (hne (mem_append_left _ hx))]
      have hcons : d.fresh (t :: before) = d.fresh before + if !d.has t then 1 else 0 := countP_cons
      rw [finalize_has hs, finalize_length, hfresh, hcons]
      refine or_congr_right ?_
      generalize (if !d.has t then 1 else 0) = k
      omega

def capture (seq : ℕ) : Staging := ⟨1, 0, 2, ⟨seq, []⟩, [[]]⟩

def blank : Disk := ⟨none, [], fun _ _ => []⟩

/-- The table after a BEGIN of an empty capture. -/
def begun (d : Disk) (table : List (Option EnvReplicaSlot)) (index : ℕ) :
    Except Refusal (List (Option EnvReplicaSlot)) :=
  envReplicaRecvBegin (fun _ => 0) (fun _ => 0) d true table index 1 index 0 ⟨2, []⟩ 2

/-- A capture is rewritten in a tick that publishes another identity before it. -/
theorem tick_publishes_rewrite :
    let d := envReplicaTick blank [(capture 1, .fine (capture 1))]
    let s : Staging := ⟨1, 0, 2, ⟨2, []⟩, []⟩
    d.has s = true ∧ ∃ table table', begun d [none, none, none] 1 = .ok table ∧
      begun d table 0 = .ok table' ∧ (envReplicaTick d
        ((table'.reduceOption.map (·.toStaging)).map fun t => (t, .fine t))).Published s := by
  intro d s
  have hfirst : begun d [none, none, none] 1 =
      .ok [some ⟨{ s with index := 1 }, 1, 0, true⟩, none, none] := rfl
  have hsecond : begun d [some ⟨{ s with index := 1 }, 1, 0, true⟩, none, none] 0 =
      .ok [some ⟨{ s with index := 1 }, 1, 0, true⟩, some ⟨s, 0, 0, true⟩, none] := rfl
  have hids := recvBegin_distinct hsecond (recvBegin_distinct hfirst nodup_nil)
  exact ⟨by decide, _, _, hfirst, hsecond,
    (tick_publishes_iff d [{ s with index := 1 }] [] s hids (by decide)).2 (by decide)⟩

/-- A capture is published and its rewrite fails in the band, eight times over. -/
def failedRewrites : List (Staging × Io) :=
  (replicate 8 [(capture 1, .fine (capture 1)),
    (capture 1, { Io.fine (capture 1) with band := 0 })]).flatten

/-- Then no entry is valid, and the next capture is not published. -/
theorem band_wedged : (envReplicaTick blank failedRewrites).entries.countP (·.valid) = 0 ∧
    ¬(envReplicaTick (envReplicaTick blank failedRewrites)
      [(capture 2, .fine (capture 2))]).Published (capture 2) := by
  refine ⟨by decide, ?_⟩
  rintro ⟨slot, hmem⟩
  have hseq : ∀ e ∈ (envReplicaTick (envReplicaTick blank failedRewrites)
      [(capture 2, .fine (capture 2))]).entries, e.seq ≠ 2 := by
    decide
  exact hseq _ hmem rfl

end AeroSLS.Replica
