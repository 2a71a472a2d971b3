import AeroSLS.Frames.Pool

namespace AeroSLS.Frames

open Machine Function List

structure Ledger where
  pool : Pool
  held : ℕ → Option ℕ := fun _ => none

def Call.partition : Call → ℕ
  | .plain _ => 0
  | .single p _ _ | .contiguous p _ _ _ | .free _ p | .freeContiguous _ _ p | .setQuota p _
  | .reclaimAll p => p

/-- The frame goes back: by its address, or in a sweep of the partition that holds it. -/
def Ledger.Returns (l : Ledger) (c : Call) (f : ℕ) : Bool :=
  match c with
  | .reclaimAll p => p < partitionMax && l.held f = some p
  | _ => f ∈ (call l.pool c).2.2

def Ledger.step (l : Ledger) (c : Call) : Ledger where
  pool := (call l.pool c).1
  held f := if f ∈ (call l.pool c).2.1 then some c.partition
    else if l.Returns c f then none else l.held f

/-- The number of frames that the partition holds. -/
def count (held : ℕ → Option ℕ) (p : ℕ) : ℕ :=
  ((Finset.range totalFrames).filter fun f => held f = some p).card

/-- A free is of the caller's own frames; a sweep finds none of the partition's frames in the
hull of the contiguous reservations and, for the system, all reserved frames machine-owned. -/
def Ledger.Proper (l : Ledger) : Call → Prop
  | .free addr p => l.held (addr / frameSize) = some p
  | .freeContiguous base n p => ∀ a ∈ runAddrs base n, l.held (a / frameSize) = some p
  | .reclaimAll p => ∀ f, (l.held f = some p → frameIsMachineOwned l.pool f = false) ∧
      (p = 0 → f ≠ 0 → l.pool.reserved f = true → frameIsMachineOwned l.pool f = true)
  | _ => True

structure Ledger.Balanced (l : Ledger) : Prop where
  used : ∀ f, l.pool.used f = (l.pool.reserved f || (l.held f).isSome)
  apart : ∀ f, l.pool.reserved f = true → l.held f = none
  owner : ∀ f, l.pool.owner f = (l.held f).getD 0
  range : ∀ f, l.held f ≠ none → f ≠ 0 ∧ f < totalFrames
  limit : ∀ f, l.pool.reservedAbove ≤ f → f < totalFrames → l.pool.reserved f = true
  usage : ∀ p, l.pool.usage p = count l.held p

variable {F : List ℕ} {p : ℕ} {l : Ledger}

lemma count_take (hd : F.Nodup) (hF : ∀ f ∈ F, m f = none ∧ f < totalFrames) :
    count (fun f => if f ∈ F then some p else m f) = update (count m) p (count m p + F.length) := by
  funext q
  by_cases hq : q = p
  · subst hq
    rw [update_self, count, count, ← toFinset_card_of_nodup hd, ← Finset.card_union_of_disjoint]
    · refine congrArg Finset.card (Finset.ext fun f => ?_)
      simp only [Finset.mem_filter, Finset.mem_range, Finset.mem_union, mem_toFinset]
      grind
    · rw [Finset.disjoint_left]
      simp only [Finset.mem_filter, mem_toFinset]
      grind
  · rw [update_of_ne hq, count, count]
    refine congrArg Finset.card (Finset.filter_congr fun f _ => ?_)
    grind

lemma Ledger.Balanced.unheld (h : l.Balanced) (hf : l.pool.used f = false) : l.held f = none := by
  have := h.used f
  cases hheld : l.held f <;> grind

lemma Ledger.Balanced.take (h : l.Balanced) {r : Pool × List ℕ} (hr : Takes l.pool p r) :
    Ledger.Balanced ⟨r.1, fun f => if f ∈ r.2 then some p else l.held f⟩ := by
  obtain ⟨w, F, hw, hF, hd⟩ := hr
  have hnone : ∀ f ∈ F, l.held f = none ∧ f < totalFrames := fun f hf =>
    ⟨h.unheld (hF f hf).1, (hF f hf).2.2.2⟩
  have hfree : ∀ f, w f → l.held f = none := fun f hf => h.unheld (hw f hf)
  obtain ⟨hused, hapart, howner, hrange, hlimit, husage⟩ := h
  refine ⟨fun f => ?_, fun f hf => ?_, fun f => ?_, fun f hf => ?_, fun f hf hlt => ?_, fun q => ?_⟩
  · grind [charge]
  · dsimp only [charge] at hf ⊢
    grind
  · grind [charge]
  · grind [charge]
  · grind [charge]
  · refine Eq.trans ?_ (congrFun (count_take hd hnone) q).symm
    dsimp only [charge]
    by_cases hq : q = p
    · rw [hq, update_self, update_self, husage]
    · rw [update_of_ne hq, update_of_ne hq, husage]

lemma Ledger.Balanced.give (h : l.Balanced) (as : List ℕ)
    (has : ∀ a ∈ as, l.held (a / frameSize) = some p) :
    Ledger.Balanced ⟨(freeFor l.pool as p).1,
      fun f => if decide (f ∈ (freeFor l.pool as p).2) then none else l.held f⟩ := by
  simp only [decide_eq_true_eq]
  obtain ⟨hd, hfrom, hshape⟩ := freeRaw_spec as l.pool
  unfold freeFor
  split_ifs
  · simpa using h
  dsimp only
  generalize (freeRaw as l.pool).2 = F at hd hfrom hshape ⊢
  have hF : ∀ f ∈ F, l.held f = some p := by grind
  -- what is given back could be taken again
  have hcount := count_take (p := p) (m := fun f => if f ∈ F then none else l.held f) hd
    fun f hf => ⟨if_pos hf, (h.range f (by simp [hF f hf])).2⟩
  have hback : (fun f => if f ∈ F then some p else if f ∈ F then none else l.held f) = l.held := by
    grind
  rw [hback] at hcount
  obtain ⟨hused, hapart, howner, hrange, hlimit, husage⟩ := h
  rw [hshape]
  refine ⟨fun f => ?_, fun f hf => ?_, fun f => ?_, fun f hf => ?_, fun f hf hlt => ?_, fun q => ?_⟩
  · grind
  · grind
  · grind
  · grind
  · grind
  · have hq := congrFun hcount q
    dsimp only
    by_cases hqp : q = p
    · rw [hqp, update_self, husage, congrFun hcount p, update_self]
      omega
    · rw [update_of_ne hqp] at hq ⊢
      rw [husage, hq]

lemma length_scan (sp : ℕ) (top : Bool) (k : ℕ) (s : Pool) : (scan sp top k s).2.length ≤ 1 := by
  induction k generalizing s with
  | zero => exact Nat.zero_le 1
  | succ k ih =>
    rw [scan]
    generalize (if top then k else totalFrames - 1 - k) = f
    split_ifs
    · exact ih _
    · exact ih _
    · exact le_rfl

lemma Ledger.Balanced.step (c : Call) (h : l.Balanced) (hc : l.Proper c) : (l.step c).Balanced := by
  cases c with
  | plain | single => simpa [Ledger.step, call, Returns, Call.partition] using h.take takes_allocate
  | contiguous =>
    simpa [Ledger.step, call, Returns, Call.partition] using h.take takes_contiguous
  | free a => exact h.give [a] (by simpa [Proper] using hc)
  | freeContiguous => exact h.give _ hc
  | setQuota =>
    obtain ⟨hused, hapart, howner, hrange, hlimit, husage⟩ := h
    simp only [Ledger.step, call, Returns]
    split_ifs <;> exact ⟨by simpa using hused, by simpa using hapart, by simpa using howner,
      by simpa using hrange, hlimit, by simpa using husage⟩
  | reclaimAll p =>
    simp only [Ledger.step, call, Returns]
    split_ifs with hp
    · simpa [Nat.not_lt.2 hp] using h
    have hiff : ∀ f, reclaims l.pool p f = decide (l.held f = some p) := by
      intro f
      have := h.used f
      have := h.owner f
      have := h.range f
      have := hc f
      cases hf : l.held f <;> grind [reclaims]
    obtain ⟨hused, hapart, howner, hrange, hlimit, husage⟩ := h
    simp only [reclaimAll, hiff, Nat.not_le.1 hp]
    refine ⟨fun f => ?_, fun f hf => ?_, fun f => ?_, fun f hf => ?_, hlimit, fun q => ?_⟩
    · grind
    · grind
    · grind
    · grind
    · by_cases hq : q = p
      · simp [hq, count]
      · simp only [update_of_ne hq, husage, count]
        refine congrArg Finset.card (Finset.filter_congr fun f _ => ?_)
        grind

/-- **The frame allocator is safe** if frees are of the caller's own frames and a sweep finds
its partition's frames, and no reserved ones. -/
theorem frames_accounted (b : List BootCall) (calls : List Call)
    (hrun : Always Ledger.step Ledger.Proper ⟨bootPool b, fun _ => none⟩ calls) :
    let l := run Ledger.step ⟨bootPool b, fun _ => none⟩ calls
    (∀ f, l.pool.used f = (l.pool.reserved f || (l.held f).isSome)) ∧
    (∀ f, l.held f ≠ none → f < totalFrames ∧ f < l.pool.reservedAbove) ∧
    (∀ p, l.pool.usage p = count l.held p) ∧
    ∀ c, (∀ f ∈ (call l.pool c).2.1, l.held f = none) ∧ ((call l.pool c).2.1 ≠ [] →
      (∀ sp, c ≠ .plain sp) → l.pool.quota c.partition ≠ 0 →
        (l.step c).pool.usage c.partition ≤ l.pool.quota c.partition) := by
  have hb := booted_bootPool b
  have hinit : Ledger.Balanced ⟨bootPool b, fun _ => none⟩ := by
    refine ⟨fun f => ?_, fun _ _ => rfl, fun f => congrFun hb.owner f, by simp, fun f hf hlt => ?_,
      fun p => ?_⟩
    · simp [hb.reserved]
    · rw [hb.reserved]
      exact hb.limit f hf hlt
    · simp [hb.usage, count]
  have hl := run_induction hinit (fun t c h hc => h.step c hc) hrun
  dsimp only
  generalize run Ledger.step ⟨bootPool b, fun _ => none⟩ calls = l at hl
  refine ⟨hl.used, fun f hf => ?_, hl.usage, fun c => ?_⟩
  · have := hl.range f hf
    have := hl.limit f
    have := hl.apart f
    grind
  have htake {p r} (hr : Takes l.pool p r) : (∀ f ∈ r.2, l.held f = none) ∧
      r.1.usage p = l.pool.usage p + r.2.length := by
    obtain ⟨w, F, -, hF, -⟩ := hr
    exact ⟨fun f hf => hl.unheld (hF f hf).1, by simp [charge]⟩
  cases c with
  | plain sp => exact ⟨(htake takes_allocate).1, fun _ h => absurd rfl (h sp)⟩
  | single p sp top =>
    obtain ⟨hnone, husage⟩ := htake takes_allocate
    refine ⟨hnone, fun hne _ hq => ?_⟩
    have := length_scan sp top totalFrames l.pool
    simp only [call, Ledger.step, Call.partition] at hne hq ⊢
    rw [husage]
    unfold allocate at hne ⊢
    grind [charge]
  | contiguous p n align sp =>
    obtain ⟨hnone, husage⟩ := htake takes_contiguous
    refine ⟨hnone, fun hne _ hq => ?_⟩
    simp only [call, Ledger.step, Call.partition] at hne hq ⊢
    rw [husage]
    unfold allocateContiguous at hne ⊢
    split_ifs at hne ⊢ with hbad
    · exact absurd rfl hne
    · split at hne <;> grind [charge, length_range']
  | free | freeContiguous | setQuota | reclaimAll => simp [call]

/-- Two frames are allocated, one is freed, and a sweep takes the other. -/
theorem frames_accounted_sweep :
    let l := run Ledger.step ⟨bootPool [.below 8192], fun _ => none⟩
      [.single 1 0 true, .single 1 0 true, .free (1048574 * 4096) 1]
    l.held 1048575 = some 1 ∧
      (l.step (.reclaimAll 1)).pool.usage 1 = count (l.step (.reclaimAll 1)).held 1 := by
  have hheld : (run Ledger.step ⟨bootPool [.below 8192], fun _ => none⟩
      [.single 1 0 true, .single 1 0 true]).held (1048574 * 4096 / frameSize) = some 1 := by
    decide +kernel
  refine ⟨by decide +kernel, (frames_accounted [.below 8192]
    [.single 1 0 true, .single 1 0 true, .free (1048574 * 4096) 1, .reclaimAll 1]
    ⟨trivial, trivial, hheld, fun f => ⟨fun hf => ?_, nofun⟩, trivial⟩).2.2.1 1⟩
  let pool := bootPool [.below 8192]
  have hfirst : (allocate pool 1 0 true false).2 = [1048575] := by decide +kernel
  have hsecond : (allocate (allocate pool 1 0 true false).1 1 0 true false).2 = [1048574] := by
    decide +kernel
  have hframe : f = 1048575 ∨ f = 1048574 := by
    simp only [Ledger.step, call, pool, hfirst, hsecond] at hf
    grind
  rcases hframe with rfl | rfl <;> decide +kernel

/-- A range above the image counts as reserved, and a sweep of the system partition frees it. -/
theorem reserved_range_swept : ¬∀ f,
    (run Ledger.step ⟨bootPool [.below 8192, .range 20480 24576], fun _ => none⟩
      [.reclaimAll 0]).pool.reserved f = true →
    (run Ledger.step ⟨bootPool [.below 8192, .range 20480 24576], fun _ => none⟩
      [.reclaimAll 0]).pool.used f = true := by
  intro h
  have h5 := h 5 (by decide +kernel)
  revert h5
  decide +kernel

end AeroSLS.Frames
