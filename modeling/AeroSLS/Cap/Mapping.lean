import AeroSLS.Cap.Sending

namespace AeroSLS.Cap

open Bytes Function Register Chain List

variable {env : Env} {s : State} {cr3 vaddr n : ℕ}

lemma unmapPages_succ : unmapPages s cr3 vaddr (n + 1) =
    capArchUnmapPage (unmapPages s cr3 vaddr n) cr3 (vaddr + n * pageBytes) := by
  simp [unmapPages, range_succ]

/-- The pages that a mapping of `npages` pages at `vaddr` covers. -/
def Covers (vaddr npages v : ℕ) : Prop :=
  ∃ p < npages, v = vaddr + p * pageBytes

instance (vaddr npages v : ℕ) : Decidable (Covers vaddr npages v) :=
  inferInstanceAs (Decidable (∃ p < npages, v = vaddr + p * pageBytes))

lemma covers_succ : Covers vaddr (n + 1) v ↔ Covers vaddr n v ∨ v = vaddr + n * pageBytes := by
  constructor
  · rintro ⟨p, hp, rfl⟩
    rcases Nat.lt_succ_iff_lt_or_eq.1 hp with hlt | rfl
    · exact .inl ⟨p, hlt, rfl⟩
    · exact .inr rfl
  · rintro (⟨p, hp, rfl⟩ | rfl)
    · exact ⟨p, hp.trans (Nat.lt_succ_self n), rfl⟩
    · exact ⟨n, Nat.lt_succ_self n, rfl⟩

def clearedPages (pages : ℕ → ℕ → Option ℕ) (cr3 vaddr n : ℕ) : ℕ → ℕ → Option ℕ := fun r v =>
  if r = cr3 ∧ Covers vaddr n v then none else pages r v

/-- The pages of a range from the `lo`-th to the `hi`-th mapped. -/
def mappedPages (pages : ℕ → ℕ → Option ℕ) (cr3 vaddr paddr lo hi : ℕ) : ℕ → ℕ → Option ℕ :=
  fun r v => if r = cr3 ∧ Covers vaddr hi v ∧ ¬Covers vaddr lo v then some (paddr + (v - vaddr))
    else pages r v

/-- The unmap loop clears the pages of the range and nothing else. -/
theorem unmapPages_eq (hcr3 : cr3 ≠ 0) :
    unmapPages s cr3 vaddr n = { s with pages := clearedPages s.pages cr3 vaddr n } := by
  induction n with
  | zero =>
    have hsame : clearedPages s.pages cr3 vaddr 0 = s.pages := by
      funext r v
      simp [clearedPages, Covers]
    rw [hsame]
    rfl
  | succ n ih =>
    rw [unmapPages_succ, ih]
    simp only [capArchUnmapPage, hcr3, if_false, State.mk.injEq, true_and, and_true]
    funext r v
    by_cases hr : r = cr3
    · subst hr
      by_cases hv : v = vaddr + n * pageBytes
      · subst hv
        simp [clearedPages, covers_succ]
      · simp [clearedPages, covers_succ, hv]
    · simp [clearedPages, hr]

lemma unmapPages_zero : unmapPages s 0 vaddr n = s := by
  induction n with
  | zero => rfl
  | succ n ih => rw [unmapPages_succ, ih]; rfl

variable (s cr3 vaddr n) in
lemma exists_unmapPages : ∃ pages, unmapPages s cr3 vaddr n = { s with pages } := by
  by_cases hcr3 : cr3 = 0
  · exact ⟨s.pages, by rw [hcr3, unmapPages_zero]⟩
  · exact ⟨_, unmapPages_eq hcr3⟩

lemma not_covers_self : ¬Covers vaddr i (vaddr + i * pageBytes) := by
  rintro ⟨p, hp, heq⟩
  have : p * pageBytes < i * pageBytes := Nat.mul_lt_mul_of_pos_right hp (by decide)
  omega

lemma covers_self (h : i < j) : Covers vaddr j (vaddr + i * pageBytes) := ⟨i, h, rfl⟩

lemma mappedPages_step (h : i < hi) :
    mappedPages (update pages cr3 (update (pages cr3) (vaddr + i * pageBytes)
      (some (paddr + i * pageBytes)))) cr3 vaddr paddr (i + 1) hi =
      mappedPages pages cr3 vaddr paddr i hi := by
  funext r v
  by_cases hr : r = cr3
  · subst hr
    by_cases hv : v = vaddr + i * pageBytes
    · subst hv
      simp [mappedPages, covers_self h, not_covers_self]
    · simp [mappedPages, covers_succ, hv]
  · simp [mappedPages, hr]

lemma clearedPages_step {n q : ℕ} (h : i < n) :
    clearedPages (update pages cr3 (update (pages cr3) (vaddr + i * pageBytes) (some q)))
      cr3 vaddr n =
      clearedPages pages cr3 vaddr n := by
  funext r v
  by_cases hr : r = cr3
  · subst hr
    by_cases hv : v = vaddr + i * pageBytes
    · subst hv
      simp [clearedPages, covers_self h]
    · simp [clearedPages, hv]
  · simp [clearedPages, hr]

theorem mapPages_eq (hcr3 : cr3 ≠ 0) : ∀ (s : State) (i : ℕ),
    mapPages s cr3 vaddr paddr archFails left i =
      ({ s with pages := mappedPages s.pages cr3 vaddr paddr i (i + left) }, true) ∨
    ∃ j, mapPages s cr3 vaddr paddr archFails left i =
      ({ s with pages := clearedPages s.pages cr3 vaddr (i + j) }, false) := by
  induction left with
  | zero =>
    intro s i
    left
    have hsame : mappedPages s.pages cr3 vaddr paddr i (i + 0) = s.pages := by
      funext r v
      simp [mappedPages]
    rw [hsame]
    rfl
  | succ left ih =>
    intro s i
    simp only [mapPages]
    split_ifs
    · exact .inr ⟨0, by rw [unmapPages_eq hcr3, Nat.add_zero]⟩
    rcases ih (capArchMapPage s cr3 (vaddr + i * pageBytes) (paddr + i * pageBytes)) (i + 1) with
      h | ⟨j, h⟩
    · grind [capArchMapPage, mappedPages_step]
    right
    refine ⟨j + 1, ?_⟩
    rw [h, show i + (j + 1) = i + 1 + j by omega]
    simp only [capArchMapPage, clearedPages_step (show i < i + 1 + j by omega)]

lemma modMap_calm : Calm s (s.modMap ti i f) := calm_modTable fun _ => ⟨rfl, rfl, rfl⟩

variable (s cr3 ti i) in
lemma dropMap_eq : ∃ pages, dropMap s cr3 ti i =
    { s with pages }.modMap ti i fun m => { m with active := false } := by
  obtain ⟨pages, hp⟩ := exists_unmapPages s cr3 ((s.tables ti).maps i).vaddr
    ((s.tables ti).maps i).npages
  exact ⟨pages, by rw [dropMap, hp]⟩

lemma dropMap_calm : Calm s (dropMap s cr3 ti i) := by
  obtain ⟨pages, heq⟩ := dropMap_eq s cr3 ti i
  rw [heq]
  refine Calm.trans ?_ modMap_calm
  exact calm_of_eq rfl rfl rfl rfl

lemma dropMap_drop : Drop env R s (dropMap s cr3 ti i) := by
  obtain ⟨pages, heq⟩ := dropMap_eq s cr3 ti i
  refine .aside dropMap_calm ?_ ?_ <;> rw [heq]
  · rfl
  · exact ⟨rfl, rfl, fun _ => rfl, rfl, rfl⟩

lemma dropMap_maps : ((dropMap s cr3 ti i).tables tj).maps j =
    if tj = ti ∧ j = i then { (s.tables ti).maps i with active := false }
    else (s.tables tj).maps j := by
  obtain ⟨pages, heq⟩ := dropMap_eq s cr3 ti i
  rw [heq]
  by_cases ht : tj = ti
  · subst ht
    by_cases hj : j = i
    · subst hj
      simp [State.modMap, State.modTable]
    · simp [State.modMap, State.modTable, hj]
  · simp [State.modMap, State.modTable, ht]

lemma capTableUnmapObject_drops : Drops env R s (capTableUnmapObject env s ti o) ∧
    (capTableUnmapObject env s ti o).objects = s.objects := by
  unfold capTableUnmapObject
  refine foldlRecOn (motive := fun s' : State => Drops env R s s' ∧ s'.objects = s.objects) _ _
    ⟨.refl, rfl⟩ ?_
  rintro s1 ⟨hs, hobj⟩ i -
  dsimp only
  split_ifs
  · obtain ⟨pages, heq⟩ := dropMap_eq s1 (env.procCr3 (s.tables ti).pid) ti i
    exact ⟨hs.tail dropMap_drop, by rw [heq]; exact hobj⟩
  · exact ⟨hs, hobj⟩

lemma capMap_shifts (h : Ready R s) (hidx : capIdx < capTableEntries) :
    Shifts env R s (capMap env s pid capIdx vaddr flags archFails).1 := by
  refine tabled_shifts h (fun _ _ hnone => by simp [not_valid_of_none (hnone capIdx hidx)])
    fun ti hown => guard_chain fun _ => guard_chain fun _ => guard_chain fun _ =>
      guard_chain fun _ =>
      guard_chain fun _ => guard_chain fun _ => ?_
  split
  · exact .refl
  refine guard_chain fun _ => guard_chain fun _ => guard_chain fun _ => guard_chain fun _ =>
    guard_chain fun hcr3 => .single (.drop ?_)
  rcases mapPages_eq hcr3 s 0 with hmap | ⟨j, hmap⟩
  · rw [hmap]
    dsimp only
    split
    · exact .unread
    · dsimp only
      refine .aside (Calm.trans ?_ modMap_calm) rfl ⟨rfl, rfl, fun _ => rfl, rfl, rfl⟩
      exact calm_of_eq rfl rfl rfl rfl
  · rw [hmap]
    exact .unread

lemma capUnmap_shifts (h : Ready R s) : Shifts env R s (capUnmap env s pid capIdx vaddr).1 := by
  rcases capTableIndex_bound env R h pid with htab | ⟨s1, ti, htab, hown, hs, h1, -⟩
  · rw [capUnmap, htab]
  rw [capUnmap, htab]
  dsimp only
  split
  · exact hs
  · exact hs.tail (.drop dropMap_drop)

end AeroSLS.Cap
