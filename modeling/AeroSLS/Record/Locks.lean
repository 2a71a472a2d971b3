import Mathlib.Logic.Function.Basic
import AeroSLS.Lib.Machine

namespace AeroSLS.Record

open Machine Function List

def lockMaxEntries : ℕ := 128
def recordKeyLen : ℕ := 64

inductive LockType
  | shared
  | exclusive
  deriving DecidableEq

structure Lock where
  txId : ℕ
  objectId : ℕ
  key : List UInt8
  type : LockType
  deriving DecidableEq

structure LockEntry extends Lock where
  active : Bool

/-- The return codes 0, 1 and 2 of `lock_acquire`. -/
inductive LockResult
  | granted
  | conflict
  | tableFull
  deriving DecidableEq

/-- The two locks are on the same record. -/
def Lock.Same (g g' : Lock) : Prop := g.objectId = g'.objectId ∧ g.key = g'.key

instance (g g' : Lock) : Decidable (g.Same g') := inferInstanceAs (Decidable (_ ∧ _))

/-- The scan stops at the first lock on the same record that is exclusive or the caller's own. -/
def LockEntry.Stops (e : LockEntry) (g : Lock) : Prop :=
  e.active = true ∧ g.Same e.toLock ∧ (e.type = .exclusive ∨ e.txId = g.txId)

instance (e : LockEntry) (g : Lock) : Decidable (e.Stops g) :=
  inferInstanceAs (Decidable (_ ∧ _))

def lockAcquire (t : ℕ → LockEntry) (g : Lock) : (ℕ → LockEntry) × LockResult :=
  match (range lockMaxEntries).find? fun i => (t i).Stops g with
  | some i =>
    if (t i).txId ≠ g.txId then (t, .conflict)
    else if g.type = .exclusive then (update t i { t i with type := .exclusive }, .granted)
    else (t, .granted)
  | none =>
    match (range lockMaxEntries).find? fun i => !(t i).active with
    | some i => (update t i ⟨{ g with key := g.key.take (recordKeyLen - 1) }, true⟩, .granted)
    | none => (t, .tableFull)

def lockReleaseTx (t : ℕ → LockEntry) (tx i : ℕ) : LockEntry :=
  if (t i).active ∧ (t i).txId = tx then { t i with active := false } else t i

structure Locks where
  table : ℕ → LockEntry
  held : List Lock

def Locks.init : Locks := ⟨fun _ => ⟨⟨0, 0, [], .shared⟩, false⟩, []⟩

inductive LockCall
  | acquire (g : Lock)
  | release (tx : ℕ)

def Locks.step (s : Locks) : LockCall → Locks
  | .acquire g =>
    ⟨(lockAcquire s.table g).1,
      if (lockAcquire s.table g).2 = .granted then g :: s.held else s.held⟩
  | .release tx => ⟨lockReleaseTx s.table tx, s.held.filter fun g => g.txId ≠ tx⟩

/-- Who holds a record exclusively is its only holder. -/
def Locks.Exclusion (s : Locks) : Prop :=
  ∀ g ∈ s.held, ∀ g' ∈ s.held, g.type = .exclusive → g.Same g' → g'.txId = g.txId

/-- Keys fit, and an EXCLUSIVE request meets no other transaction that holds the record SHARED
only. -/
def Locks.Unshared (s : Locks) : LockCall → Prop
  | .acquire g => g.key.length < recordKeyLen ∧ (g.type = .exclusive → ∀ g' ∈ s.held,
      g.Same g' → g'.txId ≠ g.txId → { g' with type := .exclusive } ∈ s.held)
  | .release _ => True

structure Locks.Good (s : Locks) : Prop where
  granted : ∀ i < lockMaxEntries, (s.table i).active = true → (s.table i).toLock ∈ s.held
  entered : ∀ g ∈ s.held, ∃ i < lockMaxEntries, (s.table i).active = true ∧
    (s.table i).txId = g.txId ∧ g.Same (s.table i).toLock ∧
      (g.type = .exclusive → (s.table i).type = .exclusive)
  exclusion : s.Exclusion

variable {s : Locks} {g : Lock} {i : ℕ} {m : LockType}

/-- What a call can do: it is refused, it renews the caller's own lock, or it fills an entry. -/
lemma lockAcquire_cases (t : ℕ → LockEntry) (g : Lock) :
    (∃ i < lockMaxEntries, (t i).Stops g ∧ (t i).txId ≠ g.txId ∧ lockAcquire t g = (t, .conflict)) ∨
    (∃ i < lockMaxEntries, (t i).Stops g ∧ (t i).txId = g.txId ∧
      lockAcquire t g = (update t i { t i with
        type := if g.type = .exclusive then .exclusive else (t i).type }, .granted)) ∨
    (∀ i < lockMaxEntries, ¬(t i).Stops g) ∧
      ((∃ i < lockMaxEntries, (t i).active = false ∧ lockAcquire t g =
        (update t i ⟨{ g with key := g.key.take (recordKeyLen - 1) }, true⟩, .granted)) ∨
      (∀ i < lockMaxEntries, (t i).active) ∧ lockAcquire t g = (t, .tableFull)) := by
  unfold lockAcquire
  cases hstop : (range lockMaxEntries).find? fun i => (t i).Stops g with
  | some i =>
    have hi := mem_range.1 (mem_of_find?_eq_some hstop)
    have hs : (t i).Stops g := by simpa using find?_some hstop
    by_cases htx : (t i).txId = g.txId
    · refine .inr (.inl ⟨i, hi, hs, htx, ?_⟩)
      cases g.type
      · exact (if_neg (not_not.2 htx)).trans (by simp)
      · exact if_neg (not_not.2 htx)
    · exact .inl ⟨i, hi, hs, htx, if_pos htx⟩
  | none =>
    refine .inr (.inr ⟨fun i hi => by simpa using find?_eq_none.1 hstop i (mem_range.2 hi), ?_⟩)
    cases hfree : (range lockMaxEntries).find? fun i => !(t i).active with
    | some i =>
      exact .inl ⟨i, mem_range.1 (mem_of_find?_eq_some hfree), by simpa using find?_some hfree, rfl⟩
    | none => exact .inr ⟨fun i hi => by simpa using find?_eq_none.1 hfree i (mem_range.2 hi), rfl⟩

lemma Locks.Good.enter (h : s.Good) (hi : i < lockMaxEntries)
    (hold : (s.table i).active → (s.table i).txId = g.txId ∧ g.Same (s.table i).toLock ∧
      ((s.table i).type = .exclusive → m = .exclusive))
    (hnew : g.type = .exclusive → m = .exclusive) (hmem : { g with type := m } ∈ g :: s.held)
    (hother : ∀ g' ∈ s.held, g.Same g' → g.type = .exclusive ∨ g'.type = .exclusive →
      g'.txId = g.txId) :
    Locks.Good ⟨update s.table i ⟨{ g with type := m }, true⟩, g :: s.held⟩ := by
  refine ⟨fun j hj hact => ?_, fun g' hg' => ?_, fun a ha b hb hx hsame => ?_⟩
  · grind [h.granted j hj]
  · rcases mem_cons.1 hg' with rfl | hg'
    · exact ⟨i, hi, by simpa [Lock.Same] using hnew⟩
    · obtain ⟨j, hj, hentry⟩ := h.entered g' hg'
      refine ⟨j, hj, ?_⟩
      grind [Lock.Same]
  · have := h.exclusion
    grind [Locks.Exclusion, Lock.Same]

lemma Locks.Good.step (a : LockCall) (h : s.Good) (ha : s.Unshared a) : (s.step a).Good := by
  cases a with
  | acquire g =>
    obtain ⟨hkey, halone⟩ := ha
    -- with no other exclusive holder, the request meets no other holder at all
    have hother (hx : ∀ g' ∈ s.held, g.Same g' → g'.type = .exclusive → g'.txId = g.txId) :
        ∀ g' ∈ s.held, g.Same g' → g.type = .exclusive ∨ g'.type = .exclusive →
          g'.txId = g.txId := by
      rintro g' hg' hsame (hexcl | hexcl)
      · by_contra hne
        exact hne (hx { g' with type := .exclusive } (halone hexcl g' hg' hsame hne) hsame rfl)
      · exact hx g' hg' hsame hexcl
    rcases lockAcquire_cases s.table g with ⟨i, hi, hs, htx, heq⟩ | ⟨i, hi, hs, htx, heq⟩ |
      ⟨hno, ⟨i, hi, hfree, heq⟩ | ⟨-, heq⟩⟩
    · simpa [Locks.step, heq] using h
    · obtain ⟨hact, hsame, -⟩ := hs
      have hown := h.granted i hi hact
      have hgood := h.enter hi
        (m := if g.type = .exclusive then .exclusive else (s.table i).type)
        (by grind) (by grind) ?_ (hother fun g' hg' hsame' hexcl => ?_)
      · rcases hsame with ⟨ho, hk⟩
        simpa [Locks.step, heq, htx, ho, hk, hact] using hgood
      · by_cases hx : g.type = .exclusive
        · rw [if_pos hx, ← hx]
          exact mem_cons_self ..
        · rw [if_neg hx, ← htx, hsame.1, hsame.2]
          exact mem_cons_of_mem _ hown
      · have := h.exclusion g' hg' _ hown hexcl
        grind [Lock.Same]
    · have hgood := h.enter hi (by grind) (fun h => h)
        (mem_cons_self ..) (hother fun g' hg' hsame hexcl => by
          obtain ⟨j, hj, hact, -, hsame', hx⟩ := h.entered g' hg'
          refine absurd ⟨hact, ?_, .inl (hx hexcl)⟩ (hno j hj)
          exact ⟨hsame.1.trans hsame'.1, hsame.2.trans hsame'.2⟩)
      simpa [Locks.step, heq, take_of_length_le (show g.key.length ≤ recordKeyLen - 1 by omega)]
        using hgood
    · simpa [Locks.step, heq] using h
  | release tx =>
    refine ⟨fun i hi hact => ?_, fun g hg => ?_, fun a ha b hb => ?_⟩
    · have := h.granted i hi
      simp only [Locks.step, lockReleaseTx] at hact ⊢
      grind
    · obtain ⟨hg, htx⟩ := mem_filter.1 hg
      obtain ⟨i, hi, hentry⟩ := h.entered g hg
      refine ⟨i, hi, ?_⟩
      simp only [Locks.step, lockReleaseTx]
      grind
    · exact h.exclusion a (mem_filter.1 ha).1 b (mem_filter.1 hb).1

/-- **Row locks exclude.**  In a run in which no EXCLUSIVE request meets another transaction
that holds the record SHARED only, an exclusive holder is the only one, and a request is
refused only for another's exclusive lock or for want of an entry. -/
theorem locks_exclude (calls : List LockCall)
    (hrun : Always Locks.step Locks.Unshared .init calls) :
    (run Locks.step .init calls).Exclusion ∧ ∀ g : Lock,
      ((lockAcquire (run Locks.step .init calls).table g).2 = .conflict →
        ∃ g' ∈ (run Locks.step .init calls).held,
          g.Same g' ∧ g'.txId ≠ g.txId ∧ g'.type = .exclusive) ∧
      ((lockAcquire (run Locks.step .init calls).table g).2 = .tableFull →
        ∀ i < lockMaxEntries, ((run Locks.step .init calls).table i).active = true) := by
  have hinit : Locks.init.Good := ⟨by simp [Locks.init], by simp [Locks.init], by
    simp [Locks.init, Locks.Exclusion]⟩
  have hgood := run_induction hinit (fun t a h => h.step a) hrun
  refine ⟨hgood.exclusion, fun g => ?_⟩
  rcases lockAcquire_cases (run Locks.step .init calls).table g with
    ⟨i, hi, ⟨hact, hsame, hx⟩, htx, heq⟩ | ⟨i, hi, hs, htx, heq⟩ |
      ⟨-, ⟨i, hi, hfree, heq⟩ | ⟨hfull, heq⟩⟩
  · refine ⟨fun _ => ?_, by simp [heq]⟩
    exact ⟨_, hgood.granted i hi hact, hsame, htx, hx.resolve_right htx⟩
  · simp [heq]
  · simp [heq]
  · exact ⟨by simp [heq], fun _ => hfull⟩

theorem locks_exclude_upgrade :
    let calls := [.acquire ⟨1, 7, [97], .shared⟩, .acquire ⟨2, 7, [97], .shared⟩, .release 2,
      .acquire ⟨1, 7, [97], .exclusive⟩]
    (lockAcquire (run Locks.step .init calls).table ⟨2, 7, [97], .shared⟩).2 = .conflict ∧
      (run Locks.step .init calls).Exclusion := by
  intro calls
  exact ⟨by decide +kernel, (locks_exclude calls ⟨⟨by decide, by simp⟩, ⟨by decide, by simp⟩,
    trivial, ⟨by decide, by decide +kernel⟩, trivial⟩).1⟩

/-- A SHARED holder is not noticed by an EXCLUSIVE request. -/
theorem exclusive_beside_shared : ¬(run Locks.step .init
    [.acquire ⟨1, 7, [97], .shared⟩, .acquire ⟨2, 7, [97], .exclusive⟩]).Exclusion := by
  unfold Locks.Exclusion
  decide +kernel

end AeroSLS.Record
