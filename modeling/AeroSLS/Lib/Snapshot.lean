import AeroSLS.Lib.Version
import Mathlib.Data.Set.Insert

namespace AeroSLS.Version

open List Function Option

variable {K V : Type} {t : ℕ} {v : Option V} {snap : ℕ → ℕ}

inductive Event (K V : Type)
  | begin (t : ℕ)
  | write (t : ℕ) (k : K) (v : Option V)
  | commit (t : ℕ)
  | rollback (t : ℕ)

structure Isolation (K V : Type) where
  committed : K → Option V
  snapshot : ℕ → K → Option V
  writes : ℕ → K → Option (Option V)

namespace Isolation

def read (σ : Isolation K V) (t : ℕ) (k : K) : Option V := (σ.writes t k).getD (σ.snapshot t k)

/-- No transaction has begun yet. -/
def start (committed : K → Option V) : Isolation K V :=
  ⟨committed, fun _ _ => none, fun _ _ => none⟩

variable [DecidableEq K]

def step (σ : Isolation K V) : Event K V → Isolation K V
  | .begin t =>
    { σ with
      snapshot := update σ.snapshot t σ.committed
      writes := update σ.writes t fun _ => none }
  | .write t k v => { σ with writes := update σ.writes t (update (σ.writes t) k (some v)) }
  | .commit t => { σ with committed := fun k => (σ.writes t k).getD (σ.committed k) }
  | .rollback _ => σ

/-- What a transaction has not written stays as its snapshot has it. -/
theorem step_unwritten {σ : Isolation K V} {e : Event K V} (he : e ≠ .begin t)
    (hw : (σ.step e).writes t k = none) :
    σ.writes t k = none ∧ (σ.step e).snapshot t k = σ.snapshot t k := by
  cases e with
  | begin u =>
    have hne : t ≠ u := fun heq => he (heq ▸ rfl)
    simp only [step, update_of_ne hne] at hw ⊢
    exact ⟨hw, trivial⟩
  | write u j =>
    by_cases hu : t = u
    · subst hu
      by_cases hj : k = j
      · subst hj
        simp [step] at hw
      · simpa [step, hj] using hw
    · simpa [step, hu] using hw
  | commit | rollback => exact ⟨hw, rfl⟩

lemma steps_unwritten {σ : Isolation K V} {es : List (Event K V)} (hes : .begin t ∉ es)
    (hw : (es.foldl step σ).writes t k = none) :
    σ.writes t k = none ∧ (es.foldl step σ).snapshot t k = σ.snapshot t k := by
  induction es generalizing σ with
  | nil => exact ⟨hw, rfl⟩
  | cons e es ih => grind [step_unwritten]

end Isolation

/-- `live` are the open transactions, `seq` the number of the next commit. -/
structure Pool (K V : Type) where
  hist : K → History V
  live : Set ℕ
  snap : ℕ → ℕ
  seq : ℕ

/-- One write of `t` to a row it sees, or to a row that is not there. -/
inductive Writes (t snap : ℕ) : Option V → History V → History V → Prop
  | insert (v : V) : Writes t snap (some v) [] [Cell.fresh t v]
  | replace (A : History V) (c : Cell V) (v : V) (hc : c.stop = none)
      (hseen : c.start.seen ⟨t, snap⟩ = true) :
      Writes t snap (some v) (A ++ [c]) (A ++ [c.supersede t, Cell.fresh t v])
  | erase (A : History V) (c : Cell V) (hc : c.stop = none)
      (hseen : c.start.seen ⟨t, snap⟩ = true) :
      Writes t snap none (A ++ [c]) (A ++ [c.supersede t])

/-- Transaction 0 does not exist, so reader 0 sees the committed state only. -/
inductive Pool.Step (P P' : Pool K V) : Event K V → Prop
  | begin (t : ℕ) (h0 : t ≠ 0) (ht : t ∉ P.live) (hhist : P'.hist = P.hist)
      (hlive : P'.live = insert t P.live) (hself : P'.snap t = P.seq - 1)
      (hsnap : ∀ u ∈ P.live, P'.snap u = P.snap u) (hseq : P'.seq = P.seq) : Step P P' (.begin t)
  | write (t : ℕ) (k : K) (v : Option V) (ht : t ∈ P.live)
      (hw : Writes t (P.snap t) v (P.hist k) (P'.hist k))
        (hother : ∀ j, j ≠ k → P'.hist j = P.hist j)
      (hlive : P'.live = P.live) (hsnap : P'.snap = P.snap) (hseq : P'.seq = P.seq) :
      Step P P' (.write t k v)
  | commit (t : ℕ) (ht : t ∈ P.live) (hhist : ∀ k, P'.hist k = Version.commit t P.seq (P.hist k))
      (hlive : P'.live = P.live \ {t}) (hsnap : ∀ u ∈ P'.live, P'.snap u = P.snap u)
      (hseq : P'.seq = P.seq + 1) : Step P P' (.commit t)
  | rollback (t : ℕ) (ht : t ∈ P.live) (hhist : ∀ k, P'.hist k = Version.rollback t (P.hist k))
      (hlive : P'.live = P.live \ {t}) (hsnap : ∀ u ∈ P'.live, P'.snap u = P.snap u)
      (hseq : P'.seq = P.seq) : Step P P' (.rollback t)

namespace Pool

variable {P P' : Pool K V} {σ : Isolation K V} {e : Event K V} {es : List (Event K V)}

/-- What every reachable pool satisfies. -/
structure Inv (P : Pool K V) : Prop where
  sound : ∀ k, Sound P.snap (P.hist k)
  pending : ∀ k t, .pending t ∈ stamps (P.hist k) → t ∈ P.live
  committed : ∀ k c, .committed c ∈ stamps (P.hist k) → c < P.seq
  snap_lt : ∀ t ∈ P.live, P.snap t < P.seq
  zero : 0 ∉ P.live
  seq_pos : 0 < P.seq

lemma stamps_write {snap : ℕ} (hw : Writes t snap v H H') :
    st ∈ stamps H' ↔ st = .pending t ∨ st ∈ stamps H := by
  cases hw with
  | insert => simp [stamps, Cell.fresh]
  | replace A c v hc _ =>
    have hold : stamps [c] = [c.start] := by simp [stamps, hc]
    have hnew : stamps [c.supersede t, Cell.fresh t v] = [c.start, .pending t, .pending t] := rfl
    rw [stamps_append, stamps_append, hold, hnew]
    simp only [mem_append, mem_cons]
    tauto
  | erase A c hc _ =>
    have hold : stamps [c] = [c.start] := by simp [stamps, hc]
    have hnew : stamps [c.supersede t] = [c.start, .pending t] := rfl
    rw [stamps_append, stamps_append, hold, hnew]
    simp only [mem_append, mem_cons]
    tauto

lemma sound_write (hw : Writes t (snap t) v H H') (h : Sound snap H) : Sound snap H' := by
  cases hw with
  | insert v => exact ⟨by simp [Cell.fresh], by simp, trivial⟩
  | replace A c v _ hseen => exact h.replace hseen
  | erase A c _ hseen => exact h.supersede hseen

lemma pending_commit {seq : ℕ} :
    .pending u ∈ stamps (Version.commit t seq H) ↔ u ≠ t ∧ .pending u ∈ stamps H := by
  rw [mem_stamps_commit]
  constructor
  · rintro ⟨st, hst, heq⟩
    cases st with
    | committed => cases heq
    | pending w => grind [Stamp.commit]
  · rintro ⟨hne, hst⟩
    exact ⟨_, hst, if_neg hne⟩

lemma Inv.step (h : P.Inv) (hs : P.Step P' e) : P'.Inv := by
  obtain ⟨hist, live, snap, seq⟩ := P'
  cases hs with
  | begin t h0 ht hhist hlive hself hsnap hseq =>
    dsimp only at *
    subst hhist hlive hseq
    have hpos := h.seq_pos
    refine ⟨fun k => ?_, fun k u hu => .inr (h.pending k u hu), h.committed,
      fun u hu => ?_, ?_, hpos⟩
    · exact (h.sound k).congr fun u hu => hsnap u (h.pending k u hu)
    · rcases Set.mem_insert_iff.mp hu with rfl | hold
      · show snap u < P.seq
        omega
      · exact (hsnap u hold).trans_lt (h.snap_lt u hold)
    · rw [Set.mem_insert_iff, not_or]
      exact ⟨h0.symm, h.zero⟩
  | write t k v ht hw hother hlive hsnap hseq =>
    subst hlive hsnap hseq
    have hstamps : ∀ j st, st ∈ stamps (hist j) → st = .pending t ∨ st ∈ stamps (P.hist j) := by
      intro j st hst
      by_cases hj : j = k
      · subst hj
        exact (stamps_write hw).mp hst
      · grind
    refine ⟨fun j => ?_, fun j u hu => ?_, fun j c hc => ?_, h.snap_lt, h.zero, h.seq_pos⟩
    · by_cases hj : j = k
      · subst hj
        exact sound_write hw (h.sound j)
      · exact (congrArg (Sound P.snap) (hother j hj)).mpr (h.sound j)
    · grind [h.pending]
    · rcases hstamps j _ hc with heq | hold
      · cases heq
      · exact h.committed j c hold
  | commit t ht hhist hlive hsnap hseq =>
    obtain rfl := funext hhist
    subst hlive hseq
    have hlt := h.snap_lt t ht
    have hpending : ∀ k u, .pending u ∈ stamps (Version.commit t P.seq (P.hist k)) →
        u ∈ P.live \ {t} := by
      intro k u hu
      rw [pending_commit] at hu
      exact ⟨h.pending k u hu.2, hu.1⟩
    refine ⟨fun k => ?_, hpending, fun k c hc => ?_, fun u hu => ?_, fun hz => h.zero hz.1,
      Nat.succ_pos _⟩
    · have hcommitted : Sound P.snap (Version.commit t P.seq (P.hist k)) :=
        (h.sound k).commit hlt.le fun u _ => le_rfl
      exact hcommitted.congr fun u hu => hsnap u (hpending k u hu)
    · obtain ⟨st, hst, heq⟩ := mem_stamps_commit.mp hc
      cases st with
      | committed =>
        cases heq
        exact Nat.lt_succ_of_lt (h.committed k c hst)
      | pending u => grind [Stamp.commit]
    · exact (hsnap u hu).trans_lt (Nat.lt_succ_of_lt (h.snap_lt u hu.1))
  | rollback t ht hhist hlive hsnap hseq =>
    obtain rfl := funext hhist
    subst hlive hseq
    have hrolled : ∀ k u, .pending u ∈ stamps (Version.rollback t (P.hist k)) →
        u ∈ P.live \ {t} := by
      intro k u hu
      refine ⟨h.pending k u (stamps_rollback_subset hu), fun heq => ?_⟩
      cases heq
      exact not_pending_rollback hu
    refine ⟨fun k => ?_, hrolled, fun k c hc => h.committed k c (stamps_rollback_subset hc),
      fun u hu => (hsnap u hu).trans_lt (h.snap_lt u hu.1), fun hz => h.zero hz.1, h.seq_pos⟩
    exact (h.sound k).rollback.congr fun u hu => hsnap u (hrolled k u hu)

/-- The pool shows what the abstract machine says. -/
structure Refines (P : Pool K V) (σ : Isolation K V) : Prop where
  latest : ∀ k, view ⟨0, P.seq - 1⟩ (P.hist k) = σ.committed k
  reads : ∀ t ∈ P.live, ∀ k, view ⟨t, P.snap t⟩ (P.hist k) = σ.read t k
  writes : ∀ t ∈ P.live, ∀ k, .pending t ∈ stamps (P.hist k) ↔ σ.writes t k ≠ none

lemma view_of_not_pending (ht : .pending t ∉ stamps H)
    (hu : .pending u ∉ stamps H) : view ⟨t, n⟩ H = view ⟨u, n⟩ H := by
  apply view_congr
  intro st hst
  cases st with
  | committed => rfl
  | pending w => grind [Stamp.seen]

lemma view_of_snap
    (h : ∀ c, .committed c ∈ stamps H → (c ≤ n ↔ c ≤ m)) : view ⟨t, n⟩ H = view ⟨t, m⟩ H := by
  apply view_congr
  intro st hst
  cases st with
  | committed c => simpa [Stamp.seen] using h c hst
  | pending => rfl

lemma view_write (hw : Writes t (snap t) v H H') (h : Sound snap H) :
    view ⟨t, snap t⟩ H' = v ∧ ∀ r : Reader, t ≠ r.txn → view r H' = view r H := by
  cases hw with
  | insert => simp [view, Cell.visible, Cell.stopped, Cell.fresh, Stamp.seen]
  | replace A c v hc hseen =>
    refine ⟨h.view_replace hseen, fun r hr => ?_⟩
    have happend :
        A ++ [c.supersede t, Cell.fresh t v] = A ++ [c.supersede t] ++ [Cell.fresh t v] := by
      simp
    rw [happend, view_append_fresh_of_ne hr, view_supersede_of_ne hr hc]
  | erase A c hc hseen => exact ⟨h.view_supersede hseen, fun r hr => view_supersede_of_ne hr hc⟩

variable [DecidableEq K]

section

variable (h : P.Refines σ) (hi : P.Inv)
include h hi

lemma Refines.begin (hs : P.Step P' (.begin t)) : P'.Refines (σ.step (.begin t)) := by
  obtain ⟨hist, live, snap, seq⟩ := P'
  cases hs with | begin _ _ ht hhist hlive hself hsnap hseq =>
  dsimp only at *
  subst hhist hlive hseq
  have hnone : ∀ k, .pending t ∉ stamps (P.hist k) := fun k hk => ht (hi.pending k t hk)
  have hzero : ∀ k, .pending 0 ∉ stamps (P.hist k) := fun k hk => hi.zero (hi.pending k 0 hk)
  refine ⟨h.latest, fun u hu k => ?_, fun u hu k => ?_⟩
  · dsimp only at hu ⊢
    by_cases hut : u = t
    · subst hut
      rw [hself, view_of_not_pending (hnone k) (hzero k), h.latest k]
      simp [Isolation.read, Isolation.step]
    · have hold : u ∈ P.live := (Set.mem_insert_iff.mp hu).resolve_left hut
      rw [hsnap u hold, h.reads u hold k]
      simp [Isolation.read, Isolation.step, update_of_ne hut]
  · by_cases hut : u = t
    · subst hut
      simpa [Isolation.step] using hnone k
    · have hold : u ∈ P.live := (Set.mem_insert_iff.mp hu).resolve_left hut
      simpa [Isolation.step, update_of_ne hut] using h.writes u hold k

lemma Refines.write (hs : P.Step P' (.write t k v)) : P'.Refines (σ.step (.write t k v)) := by
  obtain ⟨hist, live, snap, seq⟩ := P'
  cases hs with | write _ _ _ ht hw hother hlive hsnap hseq =>
  dsimp only at *
  subst hlive hsnap hseq
  obtain ⟨hself, hothers⟩ := view_write hw (hi.sound k)
  have ht0 : t ≠ 0 := fun heq => hi.zero (heq ▸ ht)
  refine ⟨fun j => ?_, fun u hu j => ?_, fun u hu j => ?_⟩
  all_goals by_cases hj : j = k
  · subst hj
    exact (hothers ⟨0, P.seq - 1⟩ ht0).trans (h.latest j)
  · exact (congrArg _ (hother j hj)).trans (h.latest j)
  · subst hj
    by_cases hut : u = t
    · subst hut
      rw [hself]
      simp [Isolation.read, Isolation.step]
    · rw [hothers ⟨u, P.snap u⟩ (Ne.symm hut), h.reads u hu j]
      simp [Isolation.read, Isolation.step, update_of_ne hut]
  · dsimp only
    rw [hother j hj, h.reads u hu j]
    by_cases hut : u = t
    · subst hut
      simp [Isolation.read, Isolation.step, update_of_ne hj]
    · simp [Isolation.read, Isolation.step, update_of_ne hut]
  · subst hj
    rw [stamps_write hw]
    by_cases hut : u = t
    · subst hut
      simp [Isolation.step]
    · simpa [Isolation.step, update_of_ne hut, hut] using h.writes u hu j
  · dsimp only
    rw [hother j hj]
    by_cases hut : u = t
    · subst hut
      simpa [Isolation.step, update_of_ne hj] using h.writes u hu j
    · simpa [Isolation.step, update_of_ne hut] using h.writes u hu j

lemma Refines.commit (hs : P.Step P' (.commit t)) : P'.Refines (σ.step (.commit t)) := by
  obtain ⟨hist, live, snap, seq⟩ := P'
  cases hs with | commit _ ht hhist hlive hsnap hseq =>
  dsimp only at *
  obtain rfl := funext hhist
  subst hlive hseq
  have hlt := hi.snap_lt t ht
  refine ⟨fun k => ?_, fun u hu k => ?_, fun u hu k => ?_⟩
  · show view ⟨0, P.seq⟩ (Version.commit t P.seq (P.hist k)) = (σ.writes t k).getD (σ.committed k)
    by_cases hpend : .pending t ∈ stamps (P.hist k)
    · -- all of this row's history is committed or the work of `t`
      obtain ⟨w, hwrote⟩ := ne_none_iff_exists'.mp ((h.writes t ht k).mp hpend)
      have hread := h.reads t ht k
      rw [Isolation.read, hwrote, getD_some] at hread
      rw [(hi.sound k).view_commit hlt.le hpend le_rfl, hread, hwrote, getD_some]
    have hwrote : σ.writes t k = none := not_not.mp fun hne => hpend ((h.writes t ht k).mpr hne)
    rw [commit_of_not_pending hpend, hwrote, ← h.latest k]
    apply view_of_snap
    intro c hc
    have := hi.committed k c hc
    omega
  · have hut : t ≠ u := Ne.symm hu.2
    dsimp only
    rw [hsnap u hu, view_commit_of_ne hut (hi.snap_lt u hu.1), h.reads u hu.1 k]
    rfl
  · rw [pending_commit, h.writes u hu.1 k]
    exact and_iff_right hu.2

lemma Refines.rollback (hs : P.Step P' (.rollback t)) : P'.Refines (σ.step (.rollback t)) := by
  obtain ⟨hist, live, snap, seq⟩ := P'
  cases hs with | rollback _ ht hhist hlive hsnap hseq =>
  dsimp only at *
  obtain rfl := funext hhist
  subst hlive hseq
  have ht0 : t ≠ 0 := fun heq => hi.zero (heq ▸ ht)
  refine ⟨fun k => (view_rollback_of_ne ht0).trans (h.latest k), fun u hu k => ?_, fun u hu k => ?_⟩
  · have hut : t ≠ u := Ne.symm hu.2
    dsimp only
    rw [hsnap u hu, view_rollback_of_ne hut]
    exact h.reads u hu.1 k
  · refine Iff.trans ⟨stamps_rollback_subset, fun hpend => ?_⟩ (h.writes u hu.1 k)
    dsimp only
    rw [rollback_of_not_pending]
    · exact hpend
    · exact fun hpt => hu.2 ((hi.sound k).pending_unique hpend hpt)

lemma Refines.step (hs : P.Step P' e) : P'.Refines (σ.step e) := by
  cases e with
  | begin => exact h.begin hi hs
  | write => exact h.write hi hs
  | commit => exact h.commit hi hs
  | rollback => exact h.rollback hi hs

end

inductive Steps : Pool K V → List (Event K V) → Pool K V → Prop
  | nil (P : Pool K V) : Steps P [] P
  | cons {P P' P'' : Pool K V} {e : Event K V} {es : List (Event K V)} (hs : P.Step P' e)
      (hrest : Steps P' es P'') : Steps P (e :: es) P''

omit [DecidableEq K] in
lemma Steps.single (hs : P.Step P' e) : Steps P [e] P' := .cons hs (.nil _)

lemma Refines.steps (hs : Steps P es P') (h : P.Refines σ) (hi : P.Inv) :
    P'.Refines (es.foldl Isolation.step σ) := by
  induction hs generalizing σ with
  | nil => exact h
  | cons hs _ ih => exact ih (h.step hi hs) (hi.step hs)

omit [DecidableEq K] in
lemma Steps.induction {I : Pool K V → Prop} (hs : Steps P es P') (h0 : I P) (hi : P.Inv)
    (hstep : ∀ Q Q' e, e ∈ es → Q.Inv → Q.Step Q' e → I Q → I Q') : I P' := by
  induction hs with
  | nil => exact h0
  | cons hs _ ih => grind [hi.step]

omit [DecidableEq K]

/-- Pending work stays until its transaction ends. -/
theorem Step.pending (hs : P.Step P' e) (hi : P.Inv)
    (ht : .pending t ∈ stamps (P.hist k)) : .pending t ∈ stamps (P'.hist k) ∨
      (e = .commit t ∧ .committed P.seq ∈ stamps (P'.hist k)) ∨ e = .rollback t := by
  cases hs with
  | begin u _ _ hhist =>
    left
    rwa [hhist]
  | write u j v _ hw hother =>
    left
    by_cases hj : k = j
    · subst hj
      exact (stamps_write hw).mpr (.inr ht)
    · rw [hother k hj]
      exact ht
  | commit u _ hhist =>
    rw [hhist]
    by_cases hut : t = u
    · subst hut
      exact .inr (.inl ⟨rfl, mem_stamps_commit.mpr ⟨_, ht, if_pos rfl⟩⟩)
    · exact .inl (pending_commit.mpr ⟨hut, ht⟩)
  | rollback u _ hhist =>
    by_cases hut : t = u
    · subst hut
      exact .inr (.inr rfl)
    left
    rw [hhist, rollback_of_not_pending]
    · exact ht
    · exact fun hu => hut ((hi.sound k).pending_unique ht hu)

theorem Step.committed (hs : P.Step P' e) (hi : P.Inv) {c : ℕ}
    (hc : .committed c ∈ stamps (P.hist k)) : .committed c ∈ stamps (P'.hist k) := by
  cases hs with
  | begin u _ _ hhist => rwa [hhist]
  | write u j v _ hw hother =>
    by_cases hj : k = j
    · subst hj
      exact (stamps_write hw).mpr (.inr hc)
    · rw [hother k hj]
      exact hc
  | commit u _ hhist =>
    rw [hhist]
    exact mem_stamps_commit.mpr ⟨_, hc, rfl⟩
  | rollback u _ hhist =>
    rw [hhist]
    exact (hi.sound k).committed_rollback hc

lemma Step.live (hs : P.Step P' e) (hu : u ∈ P'.live) :
    e = .begin u ∨ (u ∈ P.live ∧ P'.snap u = P.snap u) := by
  cases hs with
  | begin | write | commit | rollback => grind

/-- The version `t` sees has been superseded by `u`, which has not ended. -/
def Blocked (P : Pool K V) (t : ℕ) (k : K) (u : ℕ) : Prop :=
  ∃ c ∈ P.hist k, c.visible ⟨t, P.snap t⟩ = true ∧ c.stop = some (.pending u)

/-- Only the end of either transaction changes that. -/
theorem Step.blocked (hs : P.Step P' e)
    (ht : t ∈ P.live) (ht' : t ∈ P'.live) (hc : e ≠ .commit u) (hr : e ≠ .rollback u)
    (hb : P.Blocked t k u) : P'.Blocked t k u := by
  obtain ⟨c, hmem, hvis, hstop⟩ := hb
  have hsnap : P'.snap t = P.snap t := by
    rcases hs.live ht' with rfl | ⟨-, hsnap⟩
    · cases hs with
      | begin _ _ hnot => exact absurd ht hnot
    · exact hsnap
  have hseen : c.start.seen ⟨t, P.snap t⟩ = true := by
    rw [Cell.visible, Bool.and_eq_true] at hvis
    exact hvis.1
  -- the start is committed or the reader's own, so no other end touches it
  have hstart : ∀ w, w ≠ t → c.start ≠ .pending w := by grind [Stamp.seen]
  refine ⟨c, ?_, by rw [hsnap]; exact hvis, hstop⟩
  cases hs with
  | begin w _ _ hhist => rwa [hhist]
  | write w j v _ hw hother _ _ _ =>
    by_cases hj : k = j
    · subst hj
      have hkeep : ∀ {A : History V} {d : Cell V}, d.stop = none → c ∈ A ++ [d] → c ∈ A := by grind
      generalize P.hist k = H at hw hmem
      generalize P'.hist k = H' at hw
      cases hw with
      | insert => cases hmem
      | replace _ _ _ hd _ | erase _ _ hd _ => exact mem_append_left _ (hkeep hd hmem)
    · rw [hother k hj]
      exact hmem
  | commit w _ hhist hlive _ _ =>
    have hwt : w ≠ t := by grind
    have hwu : u ≠ w := fun heq => hc (heq ▸ rfl)
    rw [hhist]
    have hsame : c.commit w P.seq = c := by
      have hst : c.start.commit w P.seq = c.start := by
        cases hcs : c.start with
        | committed => rfl
        | pending x =>
          have hxw : x ≠ w := fun heq => hstart w hwt (heq ▸ hcs)
          exact if_neg hxw
      have hsp : c.stop.map (·.commit w P.seq) = c.stop := by
        rw [hstop]
        exact congrArg some (if_neg hwu)
      rw [Cell.commit, hst, hsp]
    rw [← hsame]
    exact mem_map_of_mem hmem
  | rollback w _ hhist hlive _ _ =>
    have hwt : w ≠ t := by grind
    have hwu : u ≠ w := fun heq => hr (heq ▸ rfl)
    rw [hhist]
    have hsame : c.reopen w = c := by grind [Cell.reopen]
    rw [← hsame]
    exact mem_map_of_mem (mem_filter.mpr ⟨hmem, by simpa using hstart w hwt⟩)

lemma Steps.touched (hs : Steps P es P') (hi : P.Inv) (hes : ∀ e ∈ es, ∃ k v, e = .write t k v) :
    P'.hist k = P.hist k ∨ .pending t ∈ stamps (P'.hist k) := by
  have hinv : ∀ (Q Q' : Pool K V) (e : Event K V), e ∈ es → Q.Inv → Q.Step Q' e →
      (Q.hist k = P.hist k ∨ .pending t ∈ stamps (Q.hist k)) →
      (Q'.hist k = P.hist k ∨ .pending t ∈ stamps (Q'.hist k)) := by
    rintro Q Q' e he hQ hstep hold
    obtain ⟨j, v, rfl⟩ := hes e he
    cases hstep with
    | write _ _ _ _ hw hother =>
      by_cases hj : k = j
      · subst hj
        exact .inr ((stamps_write hw).mpr (.inl rfl))
      · rw [hother k hj]
        exact hold
  exact hs.induction (.inl rfl) hi hinv

/-- A row that was among the writes of one transaction holds its pending work. -/
theorem Steps.written (hs : Steps P es P') (hi : P.Inv) (hes : ∀ e ∈ es, ∃ k v, e = .write t k v)
    (hmem : .write t k v ∈ es) : .pending t ∈ stamps (P'.hist k) := by
  induction hs with
  | nil => cases hmem
  | @cons P P1 P' e es hstep hrest ih =>
    have hes' : ∀ e ∈ es, ∃ k v, e = .write t k v := fun e he => hes e (mem_cons_of_mem _ he)
    have hi' := hi.step hstep
    rcases mem_cons.mp hmem with rfl | hlater
    · cases hstep with
      | write _ _ _ _ hw =>
        have hfirst := (stamps_write hw).mpr (.inl rfl)
        rcases hrest.touched hi' hes' with hsame | hpend
        · rw [hsame]
          exact hfirst
        · exact hpend
    · exact ih hi' hes' hlater

end Pool

end AeroSLS.Version
