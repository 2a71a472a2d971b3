import Mathlib.Algebra.Order.BigOperators.Group.List
import AeroSLS.Lib.Machine
import AeroSLS.Posix.Calls

namespace AeroSLS.Posix

open AeroSLS.Crash List Function

variable {v : Vfs} {o : FileObj} {t : FdTable} {i : ℕ}

def FdTable.count (t : FdTable) (o : FileObj) : ℕ :=
  t.countP fun e => decide (e.map (·.node) = some o)

/-- The entries that name the object, over all tables of the pool. -/
def Vfs.entries (v : Vfs) (o : FileObj) : ℕ := (v.tables.map fun t => t.count o).sum

/-- One for the object that the entry names. -/
def FdEntry.weight (e : FdEntry) (o : FileObj) : ℕ := if e.node = o then 1 else 0

@[simp] lemma count_nil : FdTable.count [] o = 0 := rfl

@[simp] lemma count_cons_none : FdTable.count (none :: t) o = t.count o := by
  simp [FdTable.count]

@[simp] lemma count_cons_some : FdTable.count (some e :: t) o = t.count o + e.weight o := by
  simp [FdTable.count, FdEntry.weight, countP_cons]

@[simp] lemma count_append : FdTable.count (t ++ t') o = t.count o + t'.count o := countP_append

@[simp] lemma count_replicate_none : FdTable.count (replicate n none) o = 0 := by
  simp [FdTable.count]

open FdTable (entry place)

lemma count_set_none (h : t.entry fd = some e) (o : FileObj) :
    FdTable.count (t.set fd none) o + e.weight o = t.count o := by
  induction t generalizing fd with
  | nil => simp [entry] at h
  | cons x t ih =>
    cases fd with
    | zero =>
      obtain rfl : x = some e := by simpa [entry] using h
      simp
    | succ fd =>
      have := ih h
      cases x <;> simp <;> omega

lemma count_set_some (hlt : fd < t.length) (h : t.entry fd = none) (o : FileObj) :
    FdTable.count (t.set fd (some e)) o = t.count o + e.weight o := by
  induction t generalizing fd with
  | nil => simp at hlt
  | cons x t ih =>
    cases fd with
    | zero =>
      obtain rfl : x = none := by simpa [entry] using h
      simp
    | succ fd =>
      have := ih (by simpa using hlt) h
      cases x <;> simp <;> omega

lemma count_place (h : t.entry fd = none) (o : FileObj) :
    FdTable.count (t.place fd e) o = t.count o + e.weight o := by
  unfold place
  split_ifs with hlt
  · exact count_set_some hlt h o
  · simp

lemma entry_lt (h : t.entry fd = some e) : fd < t.length := by
  by_contra hge
  have hnone : t[fd]? = none := by simp; omega
  simp [entry, hnone] at h

lemma count_set_over (h : t.entry fd = some old) (o : FileObj) :
    FdTable.count (t.set fd (some e)) o + old.weight o = t.count o + e.weight o := by
  have hlt := entry_lt h
  have hrem := count_set_none h o
  have hadd : FdTable.count ((t.set fd none).set fd (some e)) o =
      FdTable.count (t.set fd none) o + e.weight o := by
    apply count_set_some
    · simpa using hlt
    · simp [entry, hlt]
  rw [set_set] at hadd
  omega

lemma count_place_over (h : t.entry fd = some old) (o : FileObj) :
    FdTable.count (t.place fd e) o + old.weight o = t.count o + e.weight o := by
  rw [place, if_pos (entry_lt h)]
  exact count_set_over h o

def weights (es : List FdEntry) (o : FileObj) : ℕ := (es.map fun e => e.weight o).sum

lemma count_eq_weights : t.count o = weights (t.filterMap fun e => e) o := by
  induction t with
  | nil => rfl
  | cons x t ih =>
    cases x with
    | none => rw [count_cons_none, ih, filterMap_cons_none rfl]
    | some => simp [ih, weights, map_cons, sum_cons, add_comm]

/-- The slots that `alloc` can still hand out. -/
def FdTable.free (t : FdTable) : ℕ := t.countP Option.isNone + (maxFds - t.length)

lemma entry_set (hlt : fd < t.length) :
    entry (t.set fd x) fd' = if fd' = fd then x else t.entry fd' := by
  unfold entry
  rw [getElem?_set]
  by_cases h : fd' = fd
  · subst h
    simp [hlt]
  · rw [if_neg h, if_neg (Ne.symm h)]

lemma entry_place : (t.place fd e).entry fd' = if fd' = fd then some e else t.entry fd' := by
  unfold place
  by_cases hlt : fd < t.length
  · rw [if_pos hlt, entry_set hlt]
  rw [if_neg hlt]
  by_cases h : fd' = fd
  · subst h
    simp [entry, getElem?_append, hlt]
  · grind [entry]

/-- The table after a slot that was free has been given to the entry. -/
structure Added (t : FdTable) (fd : ℕ) (e : FdEntry) (t' : FdTable) : Prop where
  free : t.free = t'.free + 1
  length : t.length ≤ maxFds → t'.length ≤ maxFds
  count : ∀ o, t'.count o = t.count o + e.weight o
  entry : ∀ fd', t'.entry fd' = if fd' = fd then some e else t.entry fd'

lemma added_set (hlt : fd < t.length) (hnone : t[fd].isNone) :
    Added t fd e (t.set fd (some e)) := by
  have hentry : t.entry fd = none := by simpa [entry, hlt] using hnone
  refine ⟨?_, ?_, count_set_some hlt hentry, fun fd' => entry_set hlt⟩
  · grind [FdTable.free]
  · rw [length_set]
    exact id

lemma added_push (hall : t.countP Option.isNone = 0) (hlen : t.length < maxFds) :
    Added t t.length e (t ++ [some e]) := by
  refine ⟨?_, fun _ => ?_, fun o => by simp, fun fd' => ?_⟩
  · grind [FdTable.free]
  · grind
  · grind [entry]

lemma alloc_cases (t : FdTable) (e : FdEntry) : (t.alloc e = .error .mfile ∧ t.free = 0) ∨
    ∃ fd t', t.alloc e = .ok (fd, t') ∧ Added t fd e t' := by
  unfold FdTable.alloc
  cases hfind : t.findIdx? Option.isNone with
  | some i =>
    obtain ⟨hlt, hnone, -⟩ := findIdx?_eq_some_iff_getElem.1 hfind
    exact .inr ⟨i, _, rfl, added_set hlt hnone⟩
  | none =>
    have hall : t.countP Option.isNone = 0 := by grind
    by_cases hlen : maxFds ≤ t.length
    · simp only [if_pos hlen, true_and, FdTable.free, hall]
      omega
    · right
      simp only [if_neg hlen]
      exact ⟨t.length, _, rfl, added_push hall (by omega)⟩

lemma sum_set {f : FdTable → ℕ} {l : List FdTable} (h : l[i]? = some t) :
    ((l.set i t').map f).sum + f t = (l.map f).sum + f t' := by
  induction l generalizing i with
  | nil => simp at h
  | cons x l ih =>
    cases i with
    | zero | succ => grind

lemma length_place (hfd : fd < maxFds) (h : t.length ≤ maxFds) :
    (t.place fd e).length ≤ maxFds := by
  unfold place
  split_ifs
  · rwa [length_set]
  · grind

lemma weight_le_count (h : t.entry fd = some e) : e.weight o ≤ t.count o := by
  have := count_set_none h o
  omega

/-- The counts of the object are `n`, as 32-bit words. -/
def Vfs.Counted (v : Vfs) (n : ℤ) : FileObj → Prop
  | .pipeRead p => ((v.pipes p).readers.toNat : ℤ) = n % 2 ^ 32
  | .pipeWrite p => ((v.pipes p).writers.toNat : ℤ) = n % 2 ^ 32
  | .ptyMaster p =>
    ((v.ptys p).masterReaders.toNat : ℤ) = n % 2 ^ 32 ∧
      ((v.ptys p).masterWriters.toNat : ℤ) = n % 2 ^ 32
  | .ptySlave p =>
    ((v.ptys p).slaveReaders.toNat : ℤ) = n % 2 ^ 32 ∧
      ((v.ptys p).slaveWriters.toNat : ℤ) = n % 2 ^ 32
  | .file _ | .char _ => True

/-- A pipe or terminal that does not exist yet. -/
def Vfs.Unborn (v : Vfs) : FileObj → Prop
  | .pipeRead p | .pipeWrite p => v.nextPipe ≤ p
  | .ptyMaster p | .ptySlave p => v.nextPts ≤ p
  | .file _ | .char _ => False

def Vfs.Live (v : Vfs) (i : ℕ) : Prop := some i ∈ v.tasks.map (·.fds)

structure Books (δ : FileObj → ℤ) (v : Vfs) : Prop where
  count : ∀ o, v.Counted (v.entries o + δ o) o
  fresh : ∀ o, v.Unborn o → v.entries o = 0
  dead : ∀ i t, v.tables[i]? = some t → ¬v.Live i → ∀ o, t.count o = 0
  valid : ∀ i, v.Live i → i < v.tables.length
  short : ∀ t ∈ v.tables, t.length ≤ maxFds
  few : v.tables.length < 2 ^ 24

structure SamePool (v v' : Vfs) : Prop where
  tables : v'.tables = v.tables
  fds : v'.tasks.map (·.fds) = v.tasks.map (·.fds)
  nextPipe : v'.nextPipe = v.nextPipe
  nextPts : v'.nextPts = v.nextPts

lemma SamePool.refl (v : Vfs) : SamePool v v := ⟨rfl, rfl, rfl, rfl⟩

lemma SamePool.trans (h : SamePool v v') (h' : SamePool v' w) : SamePool v w where
  tables := h'.tables.trans h.tables
  fds := h'.fds.trans h.fds
  nextPipe := h'.nextPipe.trans h.nextPipe
  nextPts := h'.nextPts.trans h.nextPts

lemma SamePool.live (h : SamePool v v') (i : ℕ) : v'.Live i ↔ v.Live i := by
  rw [Vfs.Live, h.fds, Vfs.Live]

lemma SamePool.unborn (h : SamePool v v') (o : FileObj) : v'.Unborn o ↔ v.Unborn o := by
  cases o <;> simp only [Vfs.Unborn, h.nextPipe, h.nextPts]

lemma SamePool.entries (h : SamePool v v') (o : FileObj) : v'.entries o = v.entries o := by
  rw [Vfs.entries, h.tables, Vfs.entries]

lemma samePool_bump : SamePool v (v.bump d o) := by
  cases o <;> exact ⟨rfl, rfl, rfl, rfl⟩

theorem Books.of_pool (hb : Books δ v) (h : SamePool v v')
    (hc : ∀ o, v'.Counted (v.entries o + δ' o) o) : Books δ' v' := by
  constructor
  · intro o
    rw [h.entries]
    exact hc o
  · intro o ho
    rw [h.entries]
    exact hb.fresh o ((h.unborn o).1 ho)
  · grind [h.tables, h.live, hb.dead]
  · intro i hl
    rw [h.tables]
    exact hb.valid i ((h.live i).1 hl)
  · rw [h.tables]
    exact hb.short
  · rw [h.tables]
    exact hb.few

lemma toNat_add_one (c : UInt32) (n : ℤ) (h : (c.toNat : ℤ) = n % 2 ^ 32) :
    ((c + 1).toNat : ℤ) = (n + 1) % 2 ^ 32 := by
  have h1 : (1 : UInt32).toNat = 1 := by decide
  rw [UInt32.toNat_add]
  omega

lemma toNat_sub_one (c : UInt32) (n : ℤ) (h : (c.toNat : ℤ) = n % 2 ^ 32) :
    ((c + -1).toNat : ℤ) = (n - 1) % 2 ^ 32 := by
  have h1 : (-1 : UInt32).toNat = 4294967295 := by decide
  rw [UInt32.toNat_add]
  omega

section

variable
  (hd : ∀ (c : UInt32) (n : ℤ), (c.toNat : ℤ) = n % 2 ^ 32 → ((c + d).toNat : ℤ) = (n + k) % 2 ^ 32)
include hd

theorem counted_bump (h : v.Counted n o') :
    (v.bump d o).Counted (n + if o = o' then k else 0) o' := by
  by_cases ho : o = o'
  · subst ho
    rw [if_pos rfl]
    cases o with
    | file | char => trivial
    | pipeRead p =>
      change (((update v.pipes p _) p).readers.toNat : ℤ) = _
      rw [update_self]
      exact hd _ _ h
    | pipeWrite p =>
      change (((update v.pipes p _) p).writers.toNat : ℤ) = _
      rw [update_self]
      exact hd _ _ h
    | ptyMaster p =>
      change (((update v.ptys p _) p).masterReaders.toNat : ℤ) = _ ∧
        (((update v.ptys p _) p).masterWriters.toNat : ℤ) = _
      rw [update_self]
      exact ⟨hd _ _ h.1, hd _ _ h.2⟩
    | ptySlave p =>
      change (((update v.ptys p _) p).slaveReaders.toNat : ℤ) = _ ∧
        (((update v.ptys p _) p).slaveWriters.toNat : ℤ) = _
      rw [update_self]
      exact ⟨hd _ _ h.1, hd _ _ h.2⟩
  · cases o <;> cases o' <;>
      simp_all [Vfs.bump, Vfs.setPipe, Vfs.setPty, Vfs.Counted, update_apply] <;>
      split_ifs <;> simp_all

lemma Books.bump (h : Books δ v) (hδ : ∀ o', δ' o' = δ o' + if o = o' then k else 0) :
    Books δ' (v.bump d o) := by
  apply h.of_pool samePool_bump
  intro o'
  rw [hδ, ← add_assoc]
  exact counted_bump hd (h.count o')

end

lemma Books.noteAdded (h : Books δ v)
    (hδ : ∀ o, δ' o = δ o + e.weight o) : Books δ' (v.noteAdded e) := by
  apply h.bump toNat_add_one
  intro o
  rw [hδ, FdEntry.weight]
  split_ifs <;> simp

lemma Books.noteRemoved (h : Books δ v)
    (hδ : ∀ o, δ' o = δ o - e.weight o) : Books δ' (v.noteRemoved e) := by
  apply h.bump toNat_sub_one
  intro o
  rw [hδ, FdEntry.weight]
  split_ifs <;> simp [sub_eq_add_neg]

def Vfs.withTable (v : Vfs) (i : ℕ) (t : FdTable) : Vfs := { v with tables := v.tables.set i t }

lemma count_le_entries (ht : v.tables[i]? = some t) : t.count o ≤ v.entries o := by
  have hset : ((v.tables.set i []).map fun t => FdTable.count t o).sum + t.count o =
      (v.tables.map fun t => t.count o).sum + FdTable.count [] o := sum_set ht
  rw [count_nil] at hset
  unfold Vfs.entries
  omega

/-- One table is replaced; what its entries gain is taken off `δ`. -/
theorem Books.withTable (h : Books δ v) (ht : v.tables[i]? = some t)
    (hlive : v.Live i ∨ ∀ o, t'.count o = 0)
    (hborn : ∀ o, v.Unborn o → t'.count o = 0) (hshort : t'.length ≤ maxFds)
    (hδ : ∀ o, δ' o + t'.count o = δ o + t.count o) : Books δ' (v.withTable i t') := by
  have hent : ∀ o, (v.withTable i t').entries o + t.count o = v.entries o + t'.count o :=
    fun o => sum_set ht
  have hcount : ∀ o, v.entries o + δ o = (v.withTable i t').entries o + δ' o := by grind
  have hi : i < v.tables.length := (List.getElem?_eq_some_iff.1 ht).1
  constructor
  · intro o
    rw [← hcount]
    exact h.count o
  · intro o ho
    have hzero := h.fresh o ho
    have hb := hborn o ho
    have h1 := hent o
    omega
  · intro j tj htj hdead o
    by_cases hj : j = i
    · subst hj
      have htj' : (v.tables.set j t')[j]? = some tj := htj
      rw [getElem?_set_self hi, Option.some.injEq] at htj'
      subst htj'
      obtain hl | hz := hlive
      · exact absurd hl hdead
      · exact hz o
    · have htj' : (v.tables.set i t')[j]? = some tj := htj
      rw [getElem?_set_ne (Ne.symm hj)] at htj'
      exact h.dead j tj htj' hdead o
  · intro j hj
    change j < (v.tables.set i t').length
    rw [length_set]
    exact h.valid j hj
  · intro x hx
    obtain hx | rfl := mem_or_eq_of_mem_set hx
    · exact h.short x hx
    · exact hshort
  · change (v.tables.set i t').length < 2 ^ 24
    rw [length_set]
    exact h.few

lemma Books.entries_lt (h : Books δ v) (o : FileObj) : v.entries o < 2 ^ 32 := by
  have hle : v.entries o ≤ (v.tables.map fun t => t.count o).length * maxFds := by
    apply sum_le_card_nsmul
    intro n hn
    obtain ⟨t, ht, rfl⟩ := mem_map.1 hn
    exact (countP_le_length).trans (h.short t ht)
  have hfew := h.few
  rw [length_map] at hle
  unfold maxFds at hle
  omega

end AeroSLS.Posix
