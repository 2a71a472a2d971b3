import AeroSLS.Lib.Snapshot

namespace AeroSLS.Version

open Function

variable {K V : Type}

/-- Who sees the start of the last version sees every stamp of the history. -/
theorem Sound.seen_of_last
    (h : Sound snap (A ++ [c])) (hc : c.stop = none) (hseen : c.start.seen ⟨t, snap t⟩ = true) :
    ∀ st ∈ stamps (A ++ [c]), st.seen ⟨t, snap t⟩ = true := by
  induction A with
  | nil => grind [stamps]
  | cons a A ih =>
    intro st hst
    have hrest := ih h.2.2
    have hlast : c.start ∈ stamps (a :: (A ++ [c])) := start_mem_stamps (by simp)
    have hcase : st = a.start ∨ a.stop = some st ∨ st ∈ stamps (A ++ [c]) := by
      simpa [stamps] using hst
    rcases hcase with rfl | hstop | hmem
    · exact (h.before_of_mem hlast).seen hseen
    · -- the stop is the start of the next version
      obtain ⟨d, hd⟩ : ∃ d, d ∈ (A ++ [c]).head? := by cases A <;> simp
      obtain rfl : st = d.start := Option.some.inj (hstop.symm.trans (h.2.1 d hd))
      exact hrest _ (start_mem_stamps (List.mem_of_mem_head? hd))
    · exact hrest st hmem

namespace Pool

variable {P P' : Pool K V}

open Classical in
/-- What is left of row `k` if the transactions in `S` commit and the others roll
back. -/
noncomputable def world (P : Pool K V) (S : Set ℕ) (k : K) : Option V :=
  if h : ∃ t ∈ S, .pending t ∈ stamps (P.hist k) then view ⟨h.choose, P.snap h.choose⟩ (P.hist k)
  else view ⟨0, P.seq - 1⟩ (P.hist k)

lemma Inv.world_of_pending (hi : P.Inv) (ht : t ∈ S) (hp : .pending t ∈ stamps (P.hist k)) :
    P.world S k = view ⟨t, P.snap t⟩ (P.hist k) := by
  have hex : ∃ t ∈ S, .pending t ∈ stamps (P.hist k) := ⟨t, ht, hp⟩
  rw [world, dif_pos hex, (hi.sound k).pending_unique hex.choose_spec.2 hp]

lemma world_of_not_pending (h : ∀ t ∈ S, .pending t ∉ stamps (P.hist k)) :
    P.world S k = view ⟨0, P.seq - 1⟩ (P.hist k) :=
  dif_neg fun ⟨t, ht, hp⟩ => h t ht hp

lemma world_empty : P.world ∅ k = view ⟨0, P.seq - 1⟩ (P.hist k) :=
  world_of_not_pending fun _ ht => ht.elim

lemma world_congr (hi : P.Inv) (hi' : P'.Inv)
    (hpend : ∀ u, (u ∈ S' ∧ .pending u ∈ stamps (P'.hist k)) ↔
      (u ∈ S ∧ .pending u ∈ stamps (P.hist k)))
    (hview : ∀ u ∈ S, .pending u ∈ stamps (P.hist k) →
      view ⟨u, P'.snap u⟩ (P'.hist k) = view ⟨u, P.snap u⟩ (P.hist k))
    (hlatest : (∀ u ∈ S, .pending u ∉ stamps (P.hist k)) →
      view ⟨0, P'.seq - 1⟩ (P'.hist k) = view ⟨0, P.seq - 1⟩ (P.hist k)) :
    P'.world S' k = P.world S k := by
  by_cases hex : ∃ u ∈ S, .pending u ∈ stamps (P.hist k)
  · grind [hi'.world_of_pending, hi.world_of_pending]
  · grind [world_of_not_pending]

section Step

variable (hi : P.Inv)
include hi

lemma Inv.world_begin (hs : P.Step P' (.begin t)) : P'.world S = P.world S := by
  have hi' := hi.step hs
  cases hs with
  | begin _ _ _ hhist _ _ hsnap hseq =>
    funext k
    refine world_congr hi hi' (fun u => by rw [hhist]) (fun u _ hp => ?_) fun _ => ?_
    · rw [hhist, hsnap u (hi.pending k u hp)]
    · rw [hhist, hseq]

lemma Inv.world_commit (hs : P.Step P' (.commit t)) : P'.world S = P.world (insert t S) := by
  have hi' := hi.step hs
  cases hs with
  | commit _ ht hhist hlive hsnap hseq =>
    funext k
    have hlt := hi.snap_lt t ht
    by_cases hpend : .pending t ∈ stamps (P.hist k)
    · -- nobody else works on this row, and what `t` did is committed now
      have hnone : ∀ u ∈ S, .pending u ∉ stamps (P'.hist k) := by
        intro u _ hu
        rw [hhist, pending_commit] at hu
        exact hu.1 ((hi.sound k).pending_unique hu.2 hpend)
      rw [world_of_not_pending hnone, hi.world_of_pending (Set.mem_insert t S) hpend, hhist, hseq,
        Nat.add_sub_cancel]
      exact (hi.sound k).view_commit hlt.le hpend le_rfl
    · have hsame : P'.hist k = P.hist k := by rw [hhist, commit_of_not_pending hpend]
      refine world_congr hi hi' (fun u => ?_) (fun u _ hp => ?_) fun _ => ?_
      · grind
      · have hne : u ≠ t := fun heq => hpend (heq ▸ hp)
        have hu : u ∈ P'.live := by
          rw [hlive]
          exact ⟨hi.pending k u hp, hne⟩
        rw [hsame, hsnap u hu]
      · rw [hsame, hseq]
        apply view_of_snap
        intro c hc
        have := hi.committed k c hc
        omega

lemma Inv.world_rollback (hs : P.Step P' (.rollback t)) : P'.world S = P.world (S \ {t}) := by
  have hi' := hi.step hs
  cases hs with
  | rollback _ ht hhist hlive hsnap hseq =>
    funext k
    have ht0 : t ≠ 0 := fun heq => hi.zero (heq ▸ ht)
    have hlatest : view ⟨0, P'.seq - 1⟩ (P'.hist k) = view ⟨0, P.seq - 1⟩ (P.hist k) := by
      rw [hhist, hseq, view_rollback_of_ne ht0]
    by_cases hpend : .pending t ∈ stamps (P.hist k)
    · have hnone : ∀ u ∈ S \ {t}, .pending u ∉ stamps (P.hist k) := fun u hu hp =>
        hu.2 ((hi.sound k).pending_unique hp hpend)
      have hnone' : ∀ u ∈ S, .pending u ∉ stamps (P'.hist k) := by
        intro u _ hp
        rw [hhist] at hp
        obtain rfl := (hi.sound k).pending_unique (stamps_rollback_subset hp) hpend
        exact not_pending_rollback hp
      rw [world_of_not_pending hnone, world_of_not_pending hnone', hlatest]
    · have hsame : P'.hist k = P.hist k := by rw [hhist, rollback_of_not_pending hpend]
      refine world_congr hi hi' (fun u => ?_) (fun u hu hp => ?_) fun _ => hlatest
      · grind
      have hu : u ∈ P'.live := by
        rw [hlive]
        exact ⟨hi.pending k u hp, hu.2⟩
      rw [hsame, hsnap u hu]

lemma Inv.world_write [DecidableEq K] (hs : P.Step P' (.write t k v)) (ht : t ∈ S) :
    P'.world S = update (P.world S) k v := by
  have hi' := hi.step hs
  cases hs with
  | write _ _ _ _ hw hother _ hsnap hseq =>
    funext j
    by_cases hj : j = k
    · subst hj
      rw [update_self, hi'.world_of_pending ht ((stamps_write hw).mpr (.inl rfl)), hsnap]
      exact (view_write hw (hi.sound j)).1
    rw [update_of_ne hj]
    refine world_congr hi hi' (fun u => by rw [hother j hj]) (fun u _ _ => ?_) fun _ => ?_
    · rw [hother j hj, hsnap]
    · rw [hother j hj, hseq]

lemma Inv.world_write_of_notMem (hs : P.Step P' (.write t k v)) (ht : t ∉ S) :
    P'.world S = P.world S := by
  have hi' := hi.step hs
  cases hs with
  | write _ _ _ hlive hw hother _ hsnap hseq =>
    have ht0 : t ≠ 0 := fun heq => hi.zero (heq ▸ hlive)
    funext j
    by_cases hj : j = k
    · subst hj
      have hothers := (view_write hw (hi.sound j)).2
      refine world_congr hi hi' (fun u => ?_) (fun u hu _ => ?_) fun _ => ?_
      · rw [stamps_write hw]
        constructor
        · grind
        · exact fun h => ⟨h.1, .inr h.2⟩
      · grind
      · rw [hseq]
        exact hothers _ ht0
    · grind [world_congr]

/-- Only who sees the last version of a row may write it, so where the writer commits the row is
as seen. -/
theorem Inv.world_writer (hs : P.Step P' (.write t k v)) (ht : t ∈ S) :
    P.world S k = view ⟨t, P.snap t⟩ (P.hist k) := by
  by_cases hpend : .pending t ∈ stamps (P.hist k)
  · exact hi.world_of_pending ht hpend
  have hseen : ∀ st ∈ stamps (P.hist k), st.seen ⟨t, P.snap t⟩ = true := by
    cases hs with
    | write _ _ _ _ hw =>
      have hsound := hi.sound k
      generalize P.hist k = H at hw hsound
      generalize P'.hist k = H' at hw
      cases hw with
      | insert => exact fun st hst => absurd hst (by simp [stamps])
      | replace _ _ _ hc hstart | erase _ _ hc hstart => exact hsound.seen_of_last hc hstart
  have hnone : ∀ u, .pending u ∉ stamps (P.hist k) := by grind [Stamp.seen]
  rw [world_of_not_pending fun u _ => hnone u, view_of_not_pending (hnone 0) hpend]
  apply view_of_snap
  intro c hc
  have hle : c ≤ P.snap t := by simpa [Stamp.seen] using hseen _ hc
  have hlt := hi.committed k c hc
  omega

end Step

/-- What a world holds is a version no committed transaction has replaced or deleted, and
no transaction of the world. -/
theorem Inv.world_cell (hi : P.Inv) (hx : P.world S k = some x) :
    ∃ c ∈ P.hist k, c.val = x ∧ ∀ st, c.stop = some st → ∃ u ∉ S, st = .pending u := by
  by_cases hex : ∃ u ∈ S, .pending u ∈ stamps (P.hist k)
  · obtain ⟨u, hu, hp⟩ := hex
    rw [hi.world_of_pending hu hp] at hx
    obtain ⟨c, hc, hvis, hval⟩ := exists_of_view hx
    refine ⟨c, hc, hval, fun st hst => ?_⟩
    rw [Cell.visible, Cell.stopped, hst, Option.any_some,
      (hi.sound k).seen_of_pending hp (stop_mem_stamps hc hst)] at hvis
    simp at hvis
  · rw [world_of_not_pending fun u hu hp => hex ⟨u, hu, hp⟩] at hx
    obtain ⟨c, hc, hvis, hval⟩ := exists_of_view hx
    refine ⟨c, hc, hval, fun st hst => ?_⟩
    have hmem := stop_mem_stamps hc hst
    cases st with
    | committed n =>
      have hlt := hi.committed k n hmem
      have hle : n ≤ P.seq - 1 := by omega
      rw [Cell.visible, Cell.stopped, hst] at hvis
      simp [Stamp.seen, hle] at hvis
    | pending u => exact ⟨u, fun hu => hex ⟨u, hu, hmem⟩, rfl⟩

/-- A property of states holds however the open transactions end. -/
def Ensures (P : Pool K V) (Φ : (K → Option V) → Prop) : Prop := ∀ S, Φ (P.world S)

variable [DecidableEq K]

lemma Ensures.step (h : P.Ensures Φ) (hi : P.Inv) (hs : P.Step P' e)
    (hwrite : ∀ t k v, e = .write t k v → ∀ S, t ∈ S → Φ (update (P.world S) k v)) :
    P'.Ensures Φ := by
  intro S
  cases e with
  | begin =>
    rw [hi.world_begin hs]
    exact h S
  | write t k v =>
    by_cases ht : t ∈ S
    · rw [hi.world_write hs ht]
      exact hwrite t k v rfl S ht
    · rw [hi.world_write_of_notMem hs ht]
      exact h S
  | commit =>
    rw [hi.world_commit hs]
    exact h _
  | rollback =>
    rw [hi.world_rollback hs]
    exact h _

end Pool

end AeroSLS.Version
