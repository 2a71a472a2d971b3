import Mathlib.Combinatorics.Pigeonhole
import Mathlib.Order.Interval.Finset.Nat
import AeroSLS.Cap.Calls

namespace AeroSLS.Cap

open Function

variable {env : Env} {s s' : State} {t : CapTable} {len v n : ℕ}

def devMmapUserLimit : ℕ := 0x800000000000
def devMmapWindowBase : ℕ := 0x100000000

def devMmapsOverlap (t : CapTable) (vaddr npages : ℕ) : Bool :=
  (List.range capMapMax).any fun i =>
    (t.maps i).active && vaddr < ((t.maps i).vaddr + (t.maps i).npages * pageBytes) % 2 ^ 64 &&
      (t.maps i).vaddr < (vaddr + npages * pageBytes) % 2 ^ 64

/-- The scan of `k_dev_mmap`, for `n` windows: both of its breaks leave with the first free one. -/
def scanWindow (t : CapTable) (len : ℕ) : ℕ → ℕ → ℕ
  | 0, vaddr => vaddr
  | n + 1, vaddr =>
    if devMmapsOverlap t vaddr len then scanWindow t len n (vaddr + pageBytes) else vaddr

/-- The hint where it can be used, or else the first free window. -/
def pickWindow (t : CapTable) (len vaddrHint : ℕ) : ℕ :=
  if devMmapWindowBase ≤ vaddrHint ∧ vaddrHint % pageBytes = 0 ∧
      (vaddrHint + len * pageBytes) % 2 ^ 64 ≤ devMmapUserLimit ∧
      !devMmapsOverlap t vaddrHint len then vaddrHint
  else scanWindow t len ((devMmapUserLimit - devMmapWindowBase) / pageBytes) devMmapWindowBase

def kDevMmap (env : Env) (s : State) (pid slot flags vaddrHint : ℕ) (archFails : ℕ → Bool) :
    State × Except CapErr ℕ :=
  if 4 ≤ flags then (s, .error .range)
  else
    match chanTableForPid s pid with
    | none => (s, .error .notfound)
    | some ti =>
      let t := s.tables ti
      let w := t.slots slot
      let ob := s.objects w.obj
      if capTableEntries ≤ slot then (s, .error .range)
      else if !capWordValid w then (s, .error .revoked)
      else if w.ty ≠ .dev then (s, .error .type)
      else if !(w.hasPerm capPermR || w.hasPerm capPermW) then (s, .error .rights)
      else if capObjectMax ≤ w.obj ∨ ob.active = false ∨ ob.kind ≠ .dev then (s, .error .type)
      else if w.len = 0 ∨ ob.npages * pageBytes < w.off + w.len * pageBytes then
        (s, .error .range)
      else
        match (List.range capMapMax).find? fun i =>
          (t.maps i).active && (t.maps i).objId == w.obj with
        | some i => (s, .ok (t.maps i).vaddr)
        | none =>
          let vaddr := pickWindow t w.len vaddrHint
          if env.procCr3 pid = 0 then (s, .error .state)
          else
            match mapPages s (env.procCr3 pid) vaddr (ob.physBase + w.off) archFails w.len 0 with
            | (s, false) => (s, .error .nomem)
            | (s, true) =>
              match (List.range capMapMax).find? fun i => !(t.maps i).active with
              | none => (s, .error .space)
              | some i =>
                (s.modMap ti i fun _ =>
                  { objId := w.obj, capSlot := slot, npages := w.len, vaddr, active := true },
                  .ok vaddr)

lemma scanWindow_free (hk : k < n) (hfree : devMmapsOverlap t (v + k * pageBytes) len = false) :
    devMmapsOverlap t (scanWindow t len n v) len = false ∧ v ≤ scanWindow t len n v ∧
      scanWindow t len n v ≤ v + k * pageBytes := by
  induction n generalizing v k with
  | zero => omega
  | succ n ih =>
    rw [scanWindow]
    split_ifs with hov
    · rcases k with _ | k
      · simp [hov] at hfree
      rw [Nat.add_mul, Nat.one_mul] at hfree ⊢
      have hrest := ih (v := v + pageBytes) (k := k) (by omega) (by grind)
      exact ⟨hrest.1, by omega, by omega⟩
    · exact ⟨by simpa using hov, le_rfl, Nat.le_add_right ..⟩

theorem exists_free (hmaps : ∀ i < capMapMax, (t.maps i).npages < 2 ^ 16) (hlen : len < 2 ^ 12) :
    ∃ k < 2 ^ 23 + 1, devMmapsOverlap t (devMmapWindowBase + k * pageBytes) len = false := by
  by_contra! hall
  have hex : ∀ k < 2 ^ 23 + 1, ∃ i < capMapMax,
      devMmapWindowBase + k * pageBytes < (t.maps i).vaddr + (t.maps i).npages * pageBytes ∧
      (t.maps i).vaddr < devMmapWindowBase + k * pageBytes + len * pageBytes := by
    intro k hk
    have hov := hall k hk
    simp only [devMmapsOverlap, ne_eq, Bool.not_eq_false, List.any_eq_true, List.mem_range,
      Bool.and_eq_true, decide_eq_true_eq] at hov
    obtain ⟨i, hi, ⟨-, hlo⟩, hhi⟩ := hov
    exact ⟨i, hi, hlo.trans_le (Nat.mod_le ..), hhi.trans_le (Nat.mod_le ..)⟩
  choose! f hf using hex
  obtain ⟨i, -, hcard⟩ := Finset.exists_lt_card_fiber_of_mul_lt_card_of_maps_to
    (s := Finset.range (2 ^ 23 + 1)) (n := 2 ^ 17)
    (fun k hk => Finset.mem_range.2 (hf k (Finset.mem_range.1 hk)).1) (by simp [capMapMax])
  obtain ⟨a, ha, hmin⟩ := Finset.exists_min_image _ id (Finset.card_pos.1 (Nat.zero_lt_of_lt hcard))
  -- the windows that overlap the same record lie close together
  have hnear : (Finset.range (2 ^ 23 + 1)).filter (f · = i) ⊆ Finset.Ico a (a + 2 ^ 17) := by
    intro k hk
    have hak := hmin k hk
    rw [Finset.mem_filter, Finset.mem_range] at ha hk
    obtain ⟨hi, hk, -⟩ := hk.2 ▸ hf k hk.1
    obtain ⟨-, -, ha⟩ := ha.2 ▸ hf a ha.1
    have := hmaps i hi
    simp only [Finset.mem_Ico, pageBytes, id] at *
    omega
  have := Finset.card_le_card hnear
  simp only [Nat.card_Ico] at this
  omega

/-- The fields have their widths. -/
structure CapTable.Widths (t : CapTable) (slot : ℕ) : Prop where
  npages : ∀ i < capMapMax, (t.maps i).npages < 2 ^ 16
  len : (t.slots slot).len < 2 ^ 12

/-- The hint passes the test of `k_dev_mmap`, but the window there ends behind the last address. -/
def CapTable.HintWraps (t : CapTable) (len vaddrHint : ℕ) : Prop :=
  devMmapWindowBase ≤ vaddrHint ∧ vaddrHint % pageBytes = 0 ∧
    (vaddrHint + len * pageBytes) % 2 ^ 64 ≤ devMmapUserLimit ∧
    devMmapsOverlap t vaddrHint len = false ∧ 2 ^ 64 ≤ vaddrHint + len * pageBytes

/-- The window lies in the user's half above the identity map, apart from every window on
record. -/
structure CapTable.Window (t : CapTable) (v len : ℕ) : Prop where
  low : devMmapWindowBase ≤ v
  high : v + len * pageBytes ≤ devMmapUserLimit
  apart : ∀ i < capMapMax, (t.maps i).active →
    v + len * pageBytes ≤ (t.maps i).vaddr ∨ (t.maps i).vaddr + (t.maps i).npages * pageBytes ≤ v

lemma window_of_free (hmaps : ∀ i < capMapMax, (t.maps i).npages < 2 ^ 16)
    (hfree : devMmapsOverlap t v len = false) (hlow : devMmapWindowBase ≤ v)
    (hhigh : v + len * pageBytes ≤ devMmapUserLimit) : t.Window v len := by
  refine ⟨hlow, hhigh, fun i hi hact => ?_⟩
  have hno := List.any_eq_false.1 hfree i (List.mem_range.2 hi)
  have := hmaps i hi
  simp only [hact, Bool.true_and, Bool.and_eq_true, decide_eq_true_eq, not_and] at hno
  simp only [pageBytes, devMmapUserLimit] at *
  omega

lemma CapTable.Widths.window (h : t.Widths slot)
    (hwrap : ¬t.HintWraps (t.slots slot).len vaddrHint) :
    t.Window (pickWindow t (t.slots slot).len vaddrHint) (t.slots slot).len := by
  have hlen := h.len
  unfold pickWindow
  split_ifs with hhint
  · obtain ⟨hlow, hpage, hhigh, hfree⟩ := hhint
    have hfree : devMmapsOverlap t vaddrHint (t.slots slot).len = false := by simpa using hfree
    have hend : vaddrHint + (t.slots slot).len * pageBytes < 2 ^ 64 := by
      by_contra hge
      exact hwrap ⟨hlow, hpage, hhigh, hfree, Nat.not_lt.mp hge⟩
    rw [Nat.mod_eq_of_lt hend] at hhigh
    exact window_of_free h.npages hfree hlow hhigh
  · obtain ⟨k, hk, hfree⟩ := exists_free h.npages h.len
    obtain ⟨hfree, hlow, hhigh⟩ := scanWindow_free
      (n := (devMmapUserLimit - devMmapWindowBase) / pageBytes)
      (by simp only [devMmapUserLimit, devMmapWindowBase, pageBytes]; omega) hfree
    refine window_of_free h.npages hfree hlow ?_
    simp only [devMmapUserLimit, devMmapWindowBase, pageBytes] at *
    omega

lemma CapTable.HintWraps.not_window (h : t.HintWraps len vaddrHint) :
    ¬t.Window (pickWindow t len vaddrHint) len := by
  obtain ⟨hlow, hpage, hhigh, hfree, hend⟩ := h
  intro hw
  have hpick : pickWindow t len vaddrHint = vaddrHint := by
    rw [pickWindow, if_pos ⟨hlow, hpage, hhigh, by rw [hfree]; rfl⟩]
  have := hw.high
  rw [hpick] at this
  simp only [devMmapUserLimit] at this
  omega

/-- The device region that the word grants is mapped at `v`, in a window of its own. -/
structure DevMapped (s' : State) (t : CapTable) (w : CapWord) (ob : CapObject) (cr3 v : ℕ) :
    Prop where
  window : t.Window v w.len
  inside : w.off + w.len * pageBytes ≤ ob.npages * pageBytes
  pages : ∀ p < w.len, s'.pages cr3 (v + p * pageBytes) = some (ob.physBase + w.off + p * pageBytes)

/-- On an error no page is mapped that was not; else the region was mapped before, or is now. -/
def DevOutcome (s s' : State) (cr3 pid slot : ℕ) : Except CapErr ℕ → Prop
  | .error _ => ∀ r v, s'.pages r v = s.pages r v ∨ s'.pages r v = none
  | .ok v => ∃ ti, chanTableForPid s pid = some ti ∧
    let t := s.tables ti
    let w := t.slots slot
    (∃ i < capMapMax, (t.maps i).active ∧ (t.maps i).objId = w.obj) ∨
      DevMapped s' t w (s.objects w.obj) cr3 v

/-- The call passes its checks, for an object without a record, and goes on to map pages. -/
structure DevReady (env : Env) (s : State) (pid slot flags ti : ℕ) (w : CapWord) (ob : CapObject) :
    Prop where
  flags_lt : flags < 4
  table : chanTableForPid s pid = some ti
  slot_lt : slot < capTableEntries
  word : (s.tables ti).slots slot = w
  valid : capWordValid w = true
  dev : w.ty = .dev
  perms : (w.hasPerm capPermR || w.hasPerm capPermW) = true
  object : s.objects w.obj = ob
  live : w.obj < capObjectMax ∧ ob.active = true ∧ ob.kind = .dev
  range : 0 < w.len ∧ w.off + w.len * pageBytes ≤ ob.npages * pageBytes
  unmapped : ∀ i < capMapMax, ((s.tables ti).maps i).active = true →
    ((s.tables ti).maps i).objId ≠ w.obj
  cr3 : env.procCr3 pid ≠ 0

/-- A call that gets no further changes nothing. -/
lemma kDevMmap_unready (h : ∀ ti w ob, ¬DevReady env s pid slot flags ti w ob)
    (vaddrHint : ℕ) (archFails : ℕ → Bool) (cr3 : ℕ) :
    (kDevMmap env s pid slot flags vaddrHint archFails).1 = s ∧
      DevOutcome s s cr3 pid slot (kDevMmap env s pid slot flags vaddrHint archFails).2 := by
  unfold kDevMmap
  split
  · exact ⟨rfl, fun _ _ => .inl rfl⟩
  rename_i hflags
  split
  · exact ⟨rfl, fun _ _ => .inl rfl⟩
  rename_i ti hti
  dsimp only
  iterate 6
    split
    · exact ⟨rfl, fun _ _ => .inl rfl⟩
  rename_i hslot hvalid hdev hperms hobject hrange
  split
  · rename_i i hold
    have hact := List.find?_some hold
    simp only [Bool.and_eq_true, beq_iff_eq] at hact
    exact ⟨rfl, ti, hti, .inl ⟨i, List.mem_range.1 (List.mem_of_find?_eq_some hold), hact⟩⟩
  rename_i hnew
  split
  · exact ⟨rfl, fun _ _ => .inl rfl⟩
  rename_i hcr3
  refine absurd ?_ (h ti ((s.tables ti).slots slot) (s.objects ((s.tables ti).slots slot).obj))
  refine ⟨by omega, hti, by omega, rfl, by simpa using hvalid, by simpa using hdev,
    by simpa [imp_iff_not_or] using hperms, rfl, ?_, by omega, fun i hi hact => ?_, hcr3⟩
  · simpa [not_or] using hobject
  · simpa [hact] using List.find?_eq_none.1 hnew i (List.mem_range.2 hi)

lemma mapPages_snd (h : mapPages s cr3 vaddr paddr archFails n i = (s', b)) :
    b = true ↔ ∀ p < n, archFails (i + p) = false := by
  induction n generalizing s i with
  | zero =>
    obtain rfl : true = b := congrArg Prod.snd h
    simp
  | succ n ih =>
    rw [mapPages] at h
    split_ifs at h with hfail
    · obtain rfl : false = b := congrArg Prod.snd h
      refine iff_of_false Bool.false_ne_true fun hall => ?_
      simpa [hfail] using hall 0 (Nat.succ_pos n)
    · rw [ih h, Nat.forall_lt_succ_left]
      simp [hfail, Nat.add_assoc, Nat.add_comm 1]

section Ready

variable {w : CapWord} {ob : CapObject} (h : DevReady env s pid slot flags ti w ob)
include h

/-- From there a page fails and the mapped ones are cleared, or all are mapped and a record is
searched for. -/
lemma DevReady.kDevMmap_cases (hv : pickWindow (s.tables ti) w.len vaddrHint = v)
    (hpages : mappedPages s.pages (env.procCr3 pid) v (ob.physBase + w.off) 0 w.len = pages) :
    ((∃ p < w.len, archFails p = true) ∧ ∃ j, kDevMmap env s pid slot flags vaddrHint archFails =
      ({ s with pages := clearedPages s.pages (env.procCr3 pid) v j }, .error .nomem)) ∨
    ((∀ p < w.len, archFails p = false) ∧ (∀ i < capMapMax, ((s.tables ti).maps i).active = true) ∧
      kDevMmap env s pid slot flags vaddrHint archFails = ({ s with pages }, .error .space)) ∨
    (∀ p < w.len, archFails p = false) ∧ ∃ i < capMapMax, ((s.tables ti).maps i).active = false ∧
      kDevMmap env s pid slot flags vaddrHint archFails =
        (({ s with pages } : State).modMap ti i fun _ =>
          { objId := w.obj, capSlot := slot, npages := w.len, vaddr := v, active := true },
            .ok v) := by
  subst hpages hv
  obtain ⟨hflags, htable, hslot, rfl, hvalid, hdev, hperms, rfl, hlive, hrange, hnew, hcr3⟩ := h
  have hnone : (List.range capMapMax).find? (fun i => ((s.tables ti).maps i).active &&
      ((s.tables ti).maps i).objId == ((s.tables ti).slots slot).obj) = none := by
    refine List.find?_eq_none.2 fun i hi => ?_
    simpa using hnew i (List.mem_range.1 hi)
  rw [kDevMmap, if_neg (Nat.not_le.2 hflags), htable]
  dsimp only
  rw [if_neg (Nat.not_le.2 hslot), if_neg (by simp [hvalid]), if_neg (by simp [hdev]),
    if_neg (by simp [hperms]), if_neg (by simp [hlive]), if_neg (by omega), hnone]
  rw [if_neg hcr3]
  rcases mapPages_eq hcr3 s 0 with heq | ⟨j, heq⟩
  · have hall : ∀ p < ((s.tables ti).slots slot).len, archFails p = false := by
      simpa only [Nat.zero_add] using (mapPages_snd heq).1 rfl
    rw [heq, Nat.zero_add]
    refine .inr ?_
    dsimp only
    split
    · rename_i hfull
      refine .inl ⟨hall, fun i hi => ?_, rfl⟩
      simpa using List.find?_eq_none.1 hfull i (List.mem_range.2 hi)
    · rename_i i hfree
      exact .inr ⟨hall, i, List.mem_range.1 (List.mem_of_find?_eq_some hfree),
        by simpa using List.find?_some hfree, rfl⟩
  · rw [heq]
    refine .inl ⟨?_, 0 + j, rfl⟩
    by_contra! hall
    cases (mapPages_snd heq).2 fun p hp => by simpa using hall p hp

lemma DevReady.withPages (pages : ℕ → ℕ → Option ℕ) :
    DevReady env { s with pages } pid slot flags ti w ob :=
  ⟨h.flags_lt, h.table, h.slot_lt, h.word, h.valid, h.dev, h.perms, h.object, h.live, h.range,
    h.unmapped, h.cr3⟩

end Ready

lemma mappedPages_at (hp : p < n) : mappedPages pages cr3 v paddr 0 n cr3 (v + p * pageBytes) =
    some (paddr + p * pageBytes) := by
  have hnone : ¬Covers v 0 (v + p * pageBytes) := by simp [Covers]
  simp [mappedPages, covers_self hp, hnone]

/-- A device gets a window of its own, or an error leaves nothing mapped, if and only if the
call does not get to map pages, or fails to map one, or has a record for them and no hint that
wraps. -/
theorem kDevMmap_outcome_iff
    (hw : ∀ ti, chanTableForPid s pid = some ti → (s.tables ti).Widths slot) :
    (∀ pages, DevOutcome { s with pages }
        (kDevMmap env { s with pages } pid slot flags vaddrHint archFails).1
          (env.procCr3 pid) pid slot
        (kDevMmap env { s with pages } pid slot flags vaddrHint archFails).2) ↔
      ∀ ti w ob, DevReady env s pid slot flags ti w ob → (∃ p < w.len, archFails p = true) ∨
        (∃ i < capMapMax, ((s.tables ti).maps i).active = false) ∧
          ¬(s.tables ti).HintWraps w.len vaddrHint := by
  constructor
  · intro hout ti w ob h
    have hout := hout fun _ _ => none
    rcases (h.withPages fun _ _ => none).kDevMmap_cases rfl rfl with
      ⟨hfail, -⟩ | ⟨-, -, heq⟩ | ⟨-, i, hi, hfree, heq⟩
    · exact .inl hfail
    · -- the first page of the window stays mapped
      rw [heq] at hout
      have hfirst : mappedPages (fun _ _ => none) (env.procCr3 pid)
          (pickWindow (s.tables ti) w.len vaddrHint) (ob.physBase + w.off) 0 w.len (env.procCr3 pid)
            (pickWindow (s.tables ti) w.len vaddrHint + 0 * pageBytes) = some _ :=
        mappedPages_at h.range.1
      rcases hout (env.procCr3 pid) (pickWindow (s.tables ti) w.len vaddrHint + 0 * pageBytes) with
        hsame | hnone
      · cases hfirst.symm.trans hsame
      · cases hfirst.symm.trans hnone
    · refine .inr ⟨⟨i, hi, hfree⟩, fun hwrap => ?_⟩
      rw [heq] at hout
      obtain ⟨ti', hti', hout⟩ := hout
      obtain rfl : ti = ti' := Option.some.inj (h.table.symm.trans hti')
      obtain rfl := h.word
      rcases hout with ⟨j, hj, hact, hobj⟩ | hmapped
      · exact h.unmapped j hj hact hobj
      · exact hwrap.not_window hmapped.window
  · intro hcond pages
    by_cases hready : ∃ ti w ob, DevReady env s pid slot flags ti w ob
    · obtain ⟨ti, w, ob, h⟩ := hready
      have hgood := hcond ti w ob h
      rcases (h.withPages pages).kDevMmap_cases rfl rfl with
        ⟨-, j, heq⟩ | ⟨hall, hfull, -⟩ | ⟨hall, i, hi, hfree, heq⟩
      · rw [heq]
        intro r v
        simp only [clearedPages]
        split_ifs
        · exact .inr rfl
        · exact .inl rfl
      · rcases hgood with ⟨p, hp, hfail⟩ | ⟨⟨i, hi, hfree⟩, -⟩
        · simp [hall p hp] at hfail
        · exact absurd (hfull i hi) (by simp [hfree])
      · rw [heq]
        have hwrap : ¬(s.tables ti).HintWraps w.len vaddrHint := by
          rcases hgood with ⟨p, hp, hfail⟩ | ⟨-, hwrap⟩
          · simp [hall p hp] at hfail
          · exact hwrap
        obtain rfl := h.word
        obtain rfl := h.object
        exact ⟨ti, h.table, .inr ⟨(hw ti h.table).window hwrap, h.range.2, fun p hp =>
          mappedPages_at hp⟩⟩
    · have hun : ∀ ti w ob, ¬DevReady env { s with pages } pid slot flags ti w ob :=
        fun ti w ob h => hready ⟨ti, w, ob, h.withPages s.pages⟩
      obtain ⟨hsame, hout⟩ := kDevMmap_unready hun vaddrHint archFails (env.procCr3 pid)
      rw [hsame]
      exact hout

/-- A process with a device of one page. -/
def deviceHeld : State := step sampleEnv (capInit 0x200000) (.mintDev 100 0xfe000000 4096 3)

theorem kDevMmap_at_hint :
    let q := kDevMmap sampleEnv deviceHeld 100 0 0 0x200000000 fun _ => false
    q.2 = .ok 0x200000000 ∧
      DevOutcome deviceHeld q.1 (sampleEnv.procCr3 100) 100 0 q.2 := by
  refine ⟨by decide +kernel, (kDevMmap_outcome_iff (s := deviceHeld) fun ti hti => ?_).2
    (fun ti w ob h => ?_) deviceHeld.pages⟩
  · obtain rfl : 1 = ti := Option.some.inj hti
    exact ⟨fun _ _ => show 0 < 2 ^ 16 by decide, by decide⟩
  · obtain rfl : 1 = ti := Option.some.inj h.table
    obtain rfl := h.word
    refine .inr ⟨⟨0, by decide, rfl⟩, fun hwrap => ?_⟩
    have := hwrap.2.2.2.2
    revert this
    decide

/-- The last page of the address space is taken for a window, and with no record left the
page stays mapped. -/
theorem kDevMmap_wraps :
    (kDevMmap sampleEnv deviceHeld 100 0 0 (2 ^ 64 - 4096) fun _ => false).2 =
      .ok (2 ^ 64 - 4096) ∧
    let s := deviceHeld.modTable 1 fun t => { t with maps := fun _ =>
      { objId := 1, capSlot := 0, npages := 0, vaddr := 0, active := true } }
    let q := kDevMmap sampleEnv s 100 0 0 0 fun _ => false
    q.2 = .error .space ∧ q.1.pages 101 devMmapWindowBase = some 0xfe000000 := by
  decide +kernel

end AeroSLS.Cap
