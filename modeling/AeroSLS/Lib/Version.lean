import Mathlib.Algebra.Group.Nat.Defs
import Mathlib.Tactic.Common
import Mathlib.Data.List.Basic

namespace AeroSLS.Version

open List

inductive Stamp
  | committed (seq : ℕ)
  | pending (txn : ℕ)
  deriving DecidableEq

structure Cell (V : Type) where
  val : V
  start : Stamp
  stop : Option Stamp
  deriving DecidableEq

abbrev History (V : Type) := List (Cell V)

structure Reader where
  txn : ℕ
  snap : ℕ

def Stamp.seen (r : Reader) : Stamp → Bool
  | committed c => c ≤ r.snap
  | pending t => t = r.txn

variable {V : Type}

def Cell.stopped (r : Reader) (c : Cell V) : Bool := c.stop.any (·.seen r)

def Cell.visible (r : Reader) (c : Cell V) : Bool := c.start.seen r && !c.stopped r

/-- The value a reader sees. -/
def view (r : Reader) (H : History V) : Option V := (H.find? (·.visible r)).map (·.val)

/-- How stamps may follow each other, `snap` being the open snapshots: a transaction supersedes
only what it sees. -/
def Stamp.Before (snap : ℕ → ℕ) : Stamp → Stamp → Prop
  | committed c, committed c' => c ≤ c'
  | committed c, pending t => c ≤ snap t
  | pending t, pending t' => t = t'
  | pending _, committed _ => False

/-- Each version stops where the next one starts, and stamps only go forward. -/
def Sound (snap : ℕ → ℕ) : History V → Prop
  | [] => True
  | c :: cs => (∀ st ∈ c.stop, c.start.Before snap st) ∧
      (∀ d ∈ cs.head?, c.stop = some d.start) ∧ Sound snap cs

section Readers

variable {snap : ℕ → ℕ} {t : ℕ} {H : History V} {a b : Stamp}

lemma Stamp.Before.seen (h : a.Before snap b) (hb : b.seen ⟨t, snap t⟩ = true) :
    a.seen ⟨t, snap t⟩ = true := by
  cases a with
  | committed =>
    cases b with
    | committed =>
      simp only [Stamp.seen, decide_eq_true_eq] at hb ⊢
      exact Nat.le_trans h hb
    | pending =>
      simp only [Stamp.seen, decide_eq_true_eq] at hb ⊢
      subst hb
      exact h
  | pending t' =>
    cases b with
    | committed => exact h.elim
    | pending t'' =>
      obtain rfl : t' = t'' := h
      exact hb

lemma Sound.not_visible (h : Sound snap (c :: H)) (hc : c.start.seen ⟨t, snap t⟩ = false) :
    ∀ d ∈ c :: H, d.start.seen ⟨t, snap t⟩ = false := by
  induction H generalizing c with
  | nil => simpa using hc
  | cons d H ih =>
    have hd : d.start.seen ⟨t, snap t⟩ = false := by
      have hbefore := h.1 d.start (by rw [h.2.1 d rfl]; rfl)
      by_contra hseen
      rw [Bool.not_eq_false] at hseen
      rw [hbefore.seen hseen] at hc
      cases hc
    intro e he
    rcases mem_cons.mp he with rfl | hmem
    · exact hc
    · exact ih h.2.2 hd e hmem

theorem Sound.visible_unique (h : Sound snap H)
    (hH : H = A ++ d :: B) (hd : d.visible ⟨t, snap t⟩ = true) :
    (∀ e ∈ A, e.visible ⟨t, snap t⟩ = false) ∧ ∀ e ∈ B, e.visible ⟨t, snap t⟩ = false := by
  subst hH
  induction A with
  | nil =>
    refine ⟨by simp, ?_⟩
    intro e he
    rcases B with _ | ⟨f, B⟩
    · cases he
    have hstop := h.2.1 f rfl
    have hf : f.start.seen ⟨t, snap t⟩ = false := by grind [Cell.visible, Cell.stopped]
    rw [Cell.visible, h.2.2.not_visible hf e he, Bool.false_and]
  | cons f A ih =>
    obtain ⟨hA, hB⟩ := ih h.2.2
    refine ⟨?_, hB⟩
    intro e he
    rcases mem_cons.mp he with rfl | hmem
    · -- the version after `e` starts at a stamp the reader sees
      have hnext : ∃ g, (A ++ d :: B).head? = some g ∧ g.start.seen ⟨t, snap t⟩ = true := by
        rcases A with _ | ⟨g, A⟩
        · rw [Cell.visible, Bool.and_eq_true] at hd
          exact ⟨d, rfl, hd.1⟩
        refine ⟨g, rfl, ?_⟩
        by_contra hg
        rw [Bool.not_eq_true] at hg
        have hdstart := h.2.2.not_visible hg d (by simp)
        rw [Cell.visible, hdstart] at hd
        cases hd
      obtain ⟨g, hg, hseen⟩ := hnext
      rw [Cell.visible, Cell.stopped, h.2.1 g hg]
      simp [hseen]
    · exact hA e hmem

end Readers

section Views

variable {snap : ℕ → ℕ} {t : ℕ} {H : History V}

lemma Sound.view_eq_some (h : Sound snap H) (hc : c ∈ H) (hv : c.visible ⟨t, snap t⟩ = true) :
    view ⟨t, snap t⟩ H = some c.val := by
  obtain ⟨A, B, rfl⟩ := append_of_mem hc
  have hA := (h.visible_unique rfl hv).1
  have hnone : A.find? (·.visible ⟨t, snap t⟩) = none := by grind
  rw [view, find?_append, hnone, Option.none_or, find?_cons_of_pos hv, Option.map_some]

lemma exists_of_view (h : view r H = some v) : ∃ c ∈ H, c.visible r ∧ c.val = v := by
  rw [view, Option.map_eq_some_iff] at h
  obtain ⟨c, hfind, hval⟩ := h
  exact ⟨c, mem_of_find?_eq_some hfind, find?_some hfind, hval⟩

end Views

namespace Stamp

variable {snap : ℕ → ℕ} {a b : Stamp}

lemma Before.refl (a : Stamp) : a.Before snap a := by
  cases a with
  | committed n => exact Nat.le_refl n
  | pending t => exact Eq.refl t

lemma Before.pending_eq (h : (pending t).Before snap b) : b = pending t := by
  cases b with
  | committed => exact h.elim
  | pending => exact congrArg pending (Eq.symm h)

lemma Before.trans (h : a.Before snap b) (h' : b.Before snap c) : a.Before snap c := by
  cases b with
  | pending => rwa [h'.pending_eq]
  | committed =>
    cases a with
    | pending => exact h.elim
    | committed => cases c <;> exact Nat.le_trans h h'

end Stamp

def stamps (H : History V) : List Stamp := H.flatMap fun c => c.start :: c.stop.toList

section Stamps

variable {snap : ℕ → ℕ} {t : ℕ} {H : History V}

lemma start_mem_stamps (hc : c ∈ H) : c.start ∈ stamps H :=
  mem_flatMap.mpr ⟨c, hc, mem_cons_self ..⟩

lemma stop_mem_stamps (hc : c ∈ H) (hst : c.stop = some st) : st ∈ stamps H :=
  mem_flatMap.mpr ⟨c, hc, by simp [hst]⟩

lemma view_congr (h : ∀ st ∈ stamps H, st.seen r' = st.seen r) : view r' H = view r H := by
  have hfilter : H.filter (·.visible r') = H.filter (·.visible r) := by
    apply filter_congr
    intro c hc
    rw [Cell.visible, Cell.visible, Cell.stopped, Cell.stopped, h _ (start_mem_stamps hc)]
    cases hstop : c.stop with
    | none => rfl
    | some st => rw [Option.any_some, Option.any_some, h st (stop_mem_stamps hc hstop)]
  rw [view, view, ← head?_filter, ← head?_filter, hfilter]

@[simp] lemma stamps_append (H H' : History V) : stamps (H ++ H') = stamps H ++ stamps H' := by
  simp [stamps]

/-- Only the snapshots of transactions with pending work matter. -/
theorem Sound.congr (h : Sound snap H)
    (hsnap : ∀ t, .pending t ∈ stamps H → snap' t = snap t) : Sound snap' H := by
  induction H with
  | nil => trivial
  | cons c H ih =>
    refine ⟨fun st hst => ?_, h.2.1, ih h.2.2 fun t ht => hsnap t ?_⟩
    · have hb := h.1 st hst
      cases st with
      | committed => cases hc : c.start <;> rw [hc] at hb <;> exact hb
      | pending t =>
        have ht := hsnap t (stop_mem_stamps (mem_cons_self ..) hst)
        cases hc : c.start with
        | committed n =>
          rw [hc] at hb
          show n ≤ snap' t
          rwa [ht]
        | pending => rwa [hc] at hb
    · exact mem_append_right _ ht

lemma Sound.before_of_mem (h : Sound snap (c :: H)) (hst : st ∈ stamps (c :: H)) :
    c.start.Before snap st := by
  induction H generalizing c with
  | nil =>
    have hcase : st = c.start ∨ c.stop = some st := by simpa [stamps] using hst
    rcases hcase with rfl | hstop
    · exact .refl _
    · exact h.1 st hstop
  | cons d H ih =>
    have hd := h.1 d.start (h.2.1 d rfl)
    have hcase : st = c.start ∨ c.stop = some st ∨ st ∈ stamps (d :: H) := by
      simpa [stamps] using hst
    rcases hcase with rfl | hstop | hmem
    · exact .refl _
    · exact h.1 st hstop
    · exact hd.trans (ih h.2.2 hmem)

/-- Two stamps of one history are ordered one way or the other. -/
theorem Sound.before_or (h : Sound snap H) (ha : a ∈ stamps H) (hb : b ∈ stamps H) :
    a.Before snap b ∨ b.Before snap a := by
  induction H with
  | nil => cases ha
  | cons c H ih =>
    have hcases : ∀ st ∈ stamps (c :: H), st = c.start ∨ c.stop = some st ∨ st ∈ stamps H := by
      simp [stamps]
    -- a stop is the start of the next version, or the last stamp there is
    have hstop : ∀ st, c.stop = some st → ∀ st' ∈ stamps H, st.Before snap st' := by
      intro st hst st' hst'
      cases H with
      | nil => cases hst'
      | cons d =>
        obtain rfl : st = d.start := Option.some.inj (hst.symm.trans (h.2.1 d rfl))
        exact h.2.2.before_of_mem hst'
    rcases hcases a ha with rfl | hastop | hamem
    · exact .inl (h.before_of_mem hb)
    · rcases hcases b hb with rfl | hbstop | hbmem
      · exact .inr (h.before_of_mem ha)
      · obtain rfl := Option.some.inj (hastop.symm.trans hbstop)
        exact .inl (.refl _)
      · exact .inl (hstop a hastop b hbmem)
    · rcases hcases b hb with rfl | hbstop | hbmem
      · exact .inr (h.before_of_mem ha)
      · exact .inr (hstop b hbstop a hamem)
      · exact ih h.2.2 hamem hbmem

lemma Sound.seen_of_pending (h : Sound snap H) (ht : .pending t ∈ stamps H)
    (hst : st ∈ stamps H) : st.seen ⟨t, snap t⟩ = true := by
  have hself : (Stamp.pending t).seen ⟨t, snap t⟩ = true := by simp [Stamp.seen]
  rcases h.before_or hst ht with hb | hb
  · exact hb.seen hself
  · rw [hb.pending_eq]
    exact hself

end Stamps

section Write

variable {snap : ℕ → ℕ} {t : ℕ}

/-- The version as `t` leaves it when it deletes or replaces it. -/
def Cell.supersede (t : ℕ) (c : Cell V) : Cell V := { c with stop := some (.pending t) }

/-- A version `t` has just written. -/
def Cell.fresh (t : ℕ) (v : V) : Cell V := ⟨v, .pending t, none⟩

lemma sound_append_cons : Sound snap (A ++ c :: B) ↔
    Sound snap (A ++ [c]) ∧ Sound snap (c :: B) := by
  induction A with
  | nil =>
    constructor
    · exact fun h => ⟨⟨h.1, by simp, trivial⟩, h⟩
    · exact fun h => h.2
  | cons a A ih => grind [Sound]

lemma Sound.last_of_stop_none (h : Sound snap (A ++ c :: B)) (hc : c.stop = none) : B = [] := by
  have hcB := (sound_append_cons.mp h).2
  rcases B with _ | ⟨d, B⟩
  · rfl
  have hstop := hcB.2.1 d rfl
  rw [hc] at hstop
  cases hstop

lemma Sound.supersede (h : Sound snap (A ++ [c])) (hseen : c.start.seen ⟨t, snap t⟩ = true) :
    Sound snap (A ++ [c.supersede t]) := by
  have hbefore : c.start.Before snap (.pending t) := by
    cases hc : c.start with
    | committed | pending => simpa [Stamp.seen, Stamp.Before, hc] using hseen
  induction A with
  | nil =>
    refine ⟨fun st hst => ?_, by simp, trivial⟩
    obtain rfl := Option.some.inj hst
    exact hbefore
  | cons a A ih =>
    refine ⟨h.1, fun d hd => ?_, ih h.2.2⟩
    cases A with
    | nil =>
      obtain rfl := Option.some.inj hd
      exact h.2.1 c rfl
    | cons => exact h.2.1 d hd

lemma Sound.replace (h : Sound snap (A ++ [c])) (hseen : c.start.seen ⟨t, snap t⟩ = true) :
    Sound snap (A ++ [c.supersede t, Cell.fresh t v]) := by
  have hclosed := h.supersede hseen
  rw [sound_append_cons]
  refine ⟨hclosed, (sound_append_cons.mp hclosed).2.1,
    fun d hd => ?_, by simp [Cell.fresh], by simp,
    trivial⟩
  obtain rfl := Option.some.inj hd
  rfl

lemma view_supersede_of_ne (hr : t ≠ r.txn) (hc : c.stop = none) :
    view r (A ++ [c.supersede t]) = view r (A ++ [c]) := by
  have hvis : (c.supersede t).visible r = c.visible r := by
    simp [Cell.visible, Cell.stopped, Cell.supersede, Stamp.seen, hr, hc]
  simp only [view, find?_append, find?_singleton, hvis]
  cases hfind : A.find? (·.visible r) with
  | some => simp
  | none => cases c.visible r <;> rfl

lemma view_append_fresh_of_ne (hr : t ≠ r.txn) : view r (A ++ [Cell.fresh t v]) = view r A := by
  have hvis : (Cell.fresh t v).visible r = false := by
    simp [Cell.visible, Cell.fresh, Stamp.seen, hr]
  simp [view, hvis]

/-- The writer itself no longer sees what it superseded. -/
theorem Sound.view_supersede (h : Sound snap (A ++ [c]))
    (hseen : c.start.seen ⟨t, snap t⟩ = true) : view ⟨t, snap t⟩ (A ++ [c.supersede t]) = none := by
  have hsound := h.supersede hseen
  rcases hview : view ⟨t, snap t⟩ (A ++ [c.supersede t]) with _ | v
  · rfl
  obtain ⟨d, hd, hvis, -⟩ := exists_of_view hview
  -- every version before the last one stops at a stamp `t` sees
  have hpend : .pending t ∈ stamps (A ++ [c.supersede t]) :=
    stop_mem_stamps (c := c.supersede t) (by simp) rfl
  have hstop : ∃ st, d.stop = some st := by
    rcases mem_append.mp hd with hA | hlast
    · obtain ⟨A1, A2, rfl⟩ := append_of_mem hA
      rw [append_assoc] at hsound
      have htail := (sound_append_cons.mp hsound).2
      cases A2 with
      | nil => exact ⟨_, htail.2.1 _ rfl⟩
      | cons e => exact ⟨_, htail.2.1 e rfl⟩
    · rw [mem_singleton.mp hlast]
      exact ⟨_, rfl⟩
  obtain ⟨st, hst⟩ := hstop
  have hsees := hsound.seen_of_pending hpend (stop_mem_stamps hd hst)
  rw [Cell.visible, Cell.stopped, hst, Option.any_some, hsees, Bool.not_true,
    Bool.and_false] at hvis
  cases hvis

lemma Sound.view_replace (h : Sound snap (A ++ [c])) (hseen : c.start.seen ⟨t, snap t⟩ = true) :
    view ⟨t, snap t⟩ (A ++ [c.supersede t, Cell.fresh t v]) = some v := by
  have hvis : (Cell.fresh t v).visible ⟨t, snap t⟩ = true := by
    simp [Cell.visible, Cell.stopped, Cell.fresh, Stamp.seen]
  exact (h.replace hseen).view_eq_some (by simp) hvis

end Write

def Stamp.commit (t seq : ℕ) : Stamp → Stamp
  | committed c => committed c
  | pending t' => if t' = t then committed seq else pending t'

def Cell.commit (t seq : ℕ) (c : Cell V) : Cell V :=
  { c with start := c.start.commit t seq, stop := c.stop.map (·.commit t seq) }

def commit (t seq : ℕ) (H : History V) : History V := H.map (·.commit t seq)

section Commit

variable {snap : ℕ → ℕ} {t : ℕ} {H : History V}

lemma Stamp.Before.commit {a b : Stamp} (h : a.Before snap b) (ht : snap t ≤ seq)
    (hsnap : ∀ u, u ≠ t → snap u ≤ snap' u) : (a.commit t seq).Before snap' (b.commit t seq) := by
  cases a with
  | committed =>
    cases b with
    | committed => exact h
    | pending u =>
      rw [Stamp.commit, Stamp.commit]
      split_ifs with hu
      · subst hu
        exact Nat.le_trans h ht
      · exact Nat.le_trans h (hsnap u hu)
  | pending =>
    rw [h.pending_eq]
    exact .refl _

lemma Sound.commit (h : Sound snap H) (ht : snap t ≤ seq)
    (hsnap : ∀ u, u ≠ t → snap u ≤ snap' u) : Sound snap' (Version.commit t seq H) := by
  induction H with
  | nil => trivial
  | cons c H ih =>
    refine ⟨fun st hst => ?_, fun d hd => ?_, ih h.2.2⟩
    · obtain ⟨st0, hst0, rfl⟩ := Option.map_eq_some_iff.mp hst
      exact (h.1 st0 hst0).commit ht hsnap
    cases H with
    | nil => cases hd
    | cons e =>
      obtain rfl := Option.some.inj hd
      simp [Cell.commit, h.2.1 e rfl]

lemma view_commit_of_ne (hr : t ≠ r.txn) (hseq : r.snap < seq) :
    view r (commit t seq H) = view r H := by
  have hseen : ∀ st : Stamp, (st.commit t seq).seen r = st.seen r := by
    intro st
    cases st with
    | committed => rfl
    | pending u => grind [Stamp.commit, Stamp.seen]
  have hvis : ∀ c : Cell V, (c.commit t seq).visible r = c.visible r := by
    grind [Cell.visible, Cell.stopped, Cell.commit]
  rw [view, commit, find?_map]
  have hfun : (fun c : Cell V => c.visible r) ∘ Cell.commit t seq = fun c => c.visible r :=
    funext hvis
  rw [hfun, Option.map_map]
  rfl

/-- A snapshot taken after the commit of `t` sees what `t` saw, wherever `t`
wrote. -/
theorem Sound.view_commit (h : Sound snap H) (ht : snap t ≤ seq)
    (hpend : .pending t ∈ stamps H) (hr : seq ≤ r.snap) :
    view r (Version.commit t seq H) = view ⟨t, snap t⟩ H := by
  have hseen : ∀ st ∈ stamps H, (st.commit t seq).seen r = st.seen ⟨t, snap t⟩ := by
    intro st hst
    have hsees := h.seen_of_pending hpend hst
    rw [hsees]
    cases st with
    | committed n => grind [Stamp.seen, Stamp.commit]
    | pending =>
      simp only [Stamp.seen, decide_eq_true_eq] at hsees
      subst hsees
      simpa [Stamp.seen, Stamp.commit] using hr
  have hvis : ∀ c ∈ H, (c.commit t seq).visible r = c.visible ⟨t, snap t⟩ := by
    intro c hc
    rw [Cell.visible, Cell.visible, Cell.stopped, Cell.stopped, Cell.commit,
      hseen _ (start_mem_stamps hc)]
    cases hstop : c.stop with
    | none => simp
    | some st => simp [hseen st (stop_mem_stamps hc hstop)]
  have hfilter : H.filter ((fun c : Cell V => c.visible r) ∘ Cell.commit t seq) =
      H.filter (·.visible ⟨t, snap t⟩) := filter_congr hvis
  rw [view, view, Version.commit, find?_map, ← head?_filter, ← head?_filter, hfilter,
    Option.map_map]
  rfl

lemma commit_of_not_pending (h : .pending t ∉ stamps H) : commit t seq H = H := by
  have hstamp : ∀ st ∈ stamps H, st.commit t seq = st := by
    intro st hst
    cases st with
    | committed => rfl
    | pending u => grind [Stamp.commit]
  rw [commit, map_congr_left, map_id]
  intro c hc
  rw [Cell.commit, hstamp _ (start_mem_stamps hc)]
  cases hstop : c.stop with
  | none => cases c; simp_all
  | some st =>
    rw [Option.map_some, hstamp st (stop_mem_stamps hc hstop), ← hstop]
    rfl

lemma mem_stamps_commit :
    st ∈ stamps (commit t seq H) ↔ ∃ st0 ∈ stamps H, st0.commit t seq = st := by
  have hcell : ∀ c : Cell V, (c.commit t seq).start :: (c.commit t seq).stop.toList =
      (c.start :: c.stop.toList).map (·.commit t seq) := by
    intro c
    cases hstop : c.stop <;> simp [Cell.commit, hstop]
  have hmap : stamps (commit t seq H) = (stamps H).map (·.commit t seq) := by
    simp only [stamps, commit, flatMap_map, hcell, map_flatMap]
  rw [hmap, mem_map]

end Commit

def Cell.reopen (t : ℕ) (c : Cell V) : Cell V :=
  if c.stop = some (.pending t) then { c with stop := none } else c

def rollback (t : ℕ) (H : History V) : History V :=
  (H.filter fun c => c.start ≠ .pending t).map (·.reopen t)

section Rollback

variable {snap : ℕ → ℕ} {t : ℕ} {H : History V}

lemma Cell.reopen_start (c : Cell V) : (c.reopen t).start = c.start := by
  unfold Cell.reopen
  split_ifs <;> rfl

lemma Sound.rollback_of_pending (h : Sound snap (c :: H)) (hc : c.start = .pending t) :
    rollback t (c :: H) = [] := by
  have hall : ∀ d ∈ c :: H, d.start = .pending t := by
    intro d hd
    have hb := h.before_of_mem (start_mem_stamps hd)
    rw [hc] at hb
    exact hb.pending_eq
  rw [rollback, map_eq_nil_iff, filter_eq_nil_iff]
  intro d hd
  simp [hall d hd]

lemma rollback_cons_of_ne (hc : c.start ≠ .pending t) :
    rollback t (c :: H) = c.reopen t :: rollback t H := by
  rw [rollback, filter_cons_of_pos (by simpa using hc)]
  rfl

lemma Sound.rollback (h : Sound snap H) : Sound snap (Version.rollback t H) := by
  induction H with
  | nil => trivial
  | cons c H ih =>
    by_cases hc : c.start = .pending t
    · rw [h.rollback_of_pending hc]
      trivial
    rw [rollback_cons_of_ne hc]
    by_cases hstop : c.stop = some (.pending t)
    · -- what `t` put behind this version goes with it
      have hrest : Version.rollback t H = [] := by
        cases H with
        | nil => rfl
        | cons d =>
          have hd := h.2.1 d rfl
          exact h.2.2.rollback_of_pending (Option.some.inj (hd.symm.trans hstop))
      rw [hrest, Cell.reopen, if_pos hstop]
      exact ⟨by simp, by simp, trivial⟩
    · rw [Cell.reopen, if_neg hstop]
      refine ⟨h.1, fun d hd => ?_, ih h.2.2⟩
      rcases H with _ | ⟨e, H⟩
      · cases hd
      have he := h.2.1 e rfl
      have hne : e.start ≠ .pending t := fun heq => hstop (heq ▸ he)
      rw [rollback_cons_of_ne hne] at hd
      obtain rfl := Option.some.inj hd
      rw [Cell.reopen_start, he]

/-- The others never saw what is taken back. -/
theorem view_rollback_of_ne (hr : t ≠ r.txn) : view r (rollback t H) = view r H := by
  have hvis : ∀ d : Cell V, (d.reopen t).visible r = d.visible r := by
    grind [Cell.visible, Cell.stopped, Stamp.seen, Cell.reopen]
  have hval : ∀ d : Cell V, (d.reopen t).val = d.val := by
    intro d
    unfold Cell.reopen
    split_ifs <;> rfl
  induction H with
  | nil => rfl
  | cons c H ih =>
    by_cases hc : c.start = .pending t
    · have hinv : c.visible r = false := by simp [Cell.visible, hc, Stamp.seen, hr]
      have hskip : rollback t (c :: H) = rollback t H := by
        rw [rollback, filter_cons_of_neg (by simp [hc])]
        rfl
      rw [hskip, ih, view, view, find?_cons_of_neg (by simp [hinv])]
    rw [rollback_cons_of_ne hc]
    by_cases hcv : c.visible r
    · rw [view, view, find?_cons_of_pos (by rw [hvis]; exact hcv),
        find?_cons_of_pos hcv, Option.map_some, Option.map_some, hval]
    · rw [view, view, find?_cons_of_neg (by rw [hvis]; exact hcv), find?_cons_of_neg hcv]
      exact ih

lemma not_pending_rollback : .pending t ∉ stamps (rollback t H) := by
  intro hmem
  obtain ⟨c, hc, hst⟩ := mem_flatMap.mp hmem
  obtain ⟨d, hd, rfl⟩ := mem_map.mp hc
  have hstart : d.start ≠ .pending t := by simpa using (mem_filter.mp hd).2
  rcases mem_cons.mp hst with heq | hstop
  · rw [Cell.reopen_start] at heq
    exact hstart heq.symm
  · grind [Cell.reopen]

lemma rollback_of_not_pending (h : .pending t ∉ stamps H) : rollback t H = H := by
  have hfilter : (H.filter fun c => c.start ≠ .pending t) = H := by
    rw [filter_eq_self]
    intro c hc
    have hne : c.start ≠ .pending t := by
      intro heq
      rw [← heq] at h
      exact h (start_mem_stamps hc)
    simpa using hne
  rw [rollback, hfilter, map_congr_left, map_id]
  intro c hc
  exact if_neg fun hstop => h (stop_mem_stamps hc hstop)

lemma stamps_rollback_subset (h : st ∈ stamps (rollback t H)) : st ∈ stamps H := by
  obtain ⟨c, hc, hst⟩ := mem_flatMap.mp h
  obtain ⟨d, hd, rfl⟩ := mem_map.mp hc
  have hdH := (mem_filter.mp hd).1
  rcases mem_cons.mp hst with rfl | hstop
  · rw [Cell.reopen_start]
    exact start_mem_stamps hdH
  · grind [Cell.reopen, stop_mem_stamps]

lemma Sound.committed_rollback (h : Sound snap H) (hn : .committed n ∈ stamps H) :
    .committed n ∈ stamps (Version.rollback t H) := by
  obtain ⟨c, hc, hst⟩ := mem_flatMap.mp hn
  have hstart : c.start ≠ .pending t := by
    intro hpend
    obtain ⟨A, B, rfl⟩ := append_of_mem hc
    have hb := (sound_append_cons.mp h).2.before_of_mem
      (show .committed n ∈ stamps (c :: B) from mem_append_left _ hst)
    rwa [hpend] at hb
  have hmem : c.reopen t ∈ Version.rollback t H :=
    mem_map_of_mem (mem_filter.mpr ⟨hc, by simpa using hstart⟩)
  rcases mem_cons.mp hst with heq | hstop
  · rw [heq, ← Cell.reopen_start c]
    exact start_mem_stamps hmem
  · grind [Cell.reopen, stop_mem_stamps]

lemma Sound.pending_unique (h : Sound snap H) (ht : .pending t ∈ stamps H)
    (hu : .pending u ∈ stamps H) : t = u := by
  rcases h.before_or ht hu with hb | hb
  · exact hb
  · exact Eq.symm hb

end Rollback

end AeroSLS.Version
