import Mathlib.Data.Finset.Card
import Mathlib.Data.List.Range
import Mathlib.Logic.Function.Basic
import AeroSLS.Lib.Machine

namespace AeroSLS.Frames

open Machine Function List

def totalFrames : ℕ := 1048576
def frameSize : ℕ := 4096
def partitionMax : ℕ := 256

structure Pool where
  used : ℕ → Bool := fun _ => false
  owner : ℕ → ℕ := fun _ => 0
  usage : ℕ → ℕ := fun _ => 0
  quota : ℕ → ℕ := fun _ => 0
  reserved : ℕ → Bool := fun _ => false
  reservedBelow : ℕ := 0
  reservedAbove : ℕ := totalFrames
  contigLo : ℕ := totalFrames
  contigHi : ℕ := 0

variable (s : Pool)

def frameIsMachineOwned (f : ℕ) : Bool :=
  f < s.reservedBelow || s.reservedAbove ≤ f || (s.contigLo ≤ f && f < s.contigHi)

def markUsed (lo hi : ℕ) : Pool :=
  { s with
    used := fun f => s.used f || (lo ≤ f && f < hi && f < totalFrames)
    reserved := fun f => s.reserved f || (!s.used f && lo ≤ f && f < hi && f < totalFrames) }

def roundUp (addr : ℕ) : ℕ := min ((addr + frameSize - 1) % 2 ^ 64 / frameSize) totalFrames

def reserveBelow (endAddr : ℕ) : Pool :=
  { markUsed s 0 (roundUp endAddr) with reservedBelow := max s.reservedBelow (roundUp endAddr) }

def reserveRange (lo hi : ℕ) : Pool :=
  if hi ≤ lo then s
  else { markUsed s (lo / frameSize) (roundUp hi) with
    reservedBelow := if lo / frameSize = 0 then max s.reservedBelow (roundUp hi)
      else s.reservedBelow }

def limitRam (top : ℕ) : Pool :=
  if top = 0 ∨ totalFrames ≤ top / frameSize then s
  else { markUsed s (top / frameSize) totalFrames with
    reservedAbove := min s.reservedAbove (top / frameSize) }

def findRun (free : ℕ → Bool) (n align : ℕ) : ℕ → ℕ → Option ℕ
  | 0, _ => none
  | k + 1, start =>
    if totalFrames < start + n then none
    else if (range' start n).all free then some start
    else findRun free n align k (start + align)

def alignOk (align : ℕ) : Bool := align ≠ 0 && (align &&& (align - 1)) = 0

def reserveContiguous (n align : ℕ) : Pool :=
  if n = 0 ∨ totalFrames < n ∨ alignOk align = false then s
  else match findRun (fun f => !s.used f) n align totalFrames align with
    | none => s
    | some start => { markUsed s start (start + n) with
        contigLo := min s.contigLo start, contigHi := max s.contigHi (start + n) }

def frameContains (f addr : ℕ) : Bool :=
  addr ≠ 0 && f * frameSize ≤ addr && addr < f * frameSize + frameSize

/-- The search of `alloc_raw_frame` from either end. A free frame with the live stack in it is
withheld. -/
def scan (sp : ℕ) (top : Bool) : ℕ → Pool → Pool × List ℕ
  | 0, s => (s, [])
  | k + 1, s =>
    let f := if top then k else totalFrames - 1 - k
    if f = 0 ∨ s.used f then scan sp top k s
    else if frameContains f sp then scan sp top k
      { s with used := update s.used f true, reserved := update s.reserved f true }
    else (s, [f])

/-- The frames that were found are marked and charged to the partition. -/
def charge (p : ℕ) (r : Pool × List ℕ) : Pool × List ℕ :=
  ({ r.1 with
    used := fun f => r.1.used f || f ∈ r.2
    owner := fun f => if f ∈ r.2 then p else r.1.owner f
    usage := update r.1.usage p (r.1.usage p + r.2.length) }, r.2)

/-- A frame for the partition; `plain` is `allocate_physical_ram_frame`, which does not look at
the quota. -/
def allocate (p sp : ℕ) (top plain : Bool) : Pool × List ℕ :=
  if partitionMax ≤ p ∨ plain = false ∧ s.quota p ≠ 0 ∧ s.quota p ≤ s.usage p then (s, [])
  else charge p (scan sp top totalFrames s)

def allocateContiguous (p n align sp : ℕ) : Pool × List ℕ :=
  if partitionMax ≤ p ∨ n = 0 ∨ totalFrames < n ∨ alignOk align = false ∨
    s.quota p ≠ 0 ∧ s.quota p < s.usage p + n then (s, [])
  else match findRun (fun f => !s.used f && !frameContains f sp) n align totalFrames align with
    | none => (s, [])
    | some start => charge p (s, range' start n)

def freeRaw : List ℕ → Pool → Pool × List ℕ
  | [], s => (s, [])
  | a :: as, s =>
    let f := a / frameSize
    if a % frameSize ≠ 0 ∨ f = 0 ∨ totalFrames ≤ f ∨ s.used f = false then freeRaw as s
    else
      let r := freeRaw as { s with used := update s.used f false, owner := update s.owner f 0 }
      (r.1, f :: r.2)

/-- Free the addresses and take what was freed off the partition's count. -/
def freeFor (as : List ℕ) (p : ℕ) : Pool × List ℕ :=
  if partitionMax ≤ p then (s, [])
  else
    let r := freeRaw as s
    ({ r.1 with usage := update s.usage p (s.usage p - r.2.length) }, r.2)

/-- The addresses of `free_contiguous_frames_for_partition`. -/
def runAddrs (base n : ℕ) : List ℕ :=
  if base % frameSize ≠ 0 ∨ base / frameSize = 0 ∨
    totalFrames < (base / frameSize + n) % 2 ^ 64 then []
  else (range n).map fun i => (base / frameSize + i) * frameSize % 2 ^ 64

/-- The sweep of `partition_reclaim_all_frames` takes the frame. -/
def reclaims (p f : ℕ) : Bool :=
  f ≠ 0 && f < totalFrames && !frameIsMachineOwned s f && s.owner f = p && s.used f

def reclaimAll (p : ℕ) : Pool :=
  { s with
    used := fun f => s.used f && !reclaims s p f
    owner := fun f => if reclaims s p f then 0 else s.owner f
    usage := update s.usage p 0 }

/-- The boot calls; `frame_pool_init` is a `below` for the image and a `range` for the stack. -/
inductive BootCall
  | below (endAddr : ℕ)
  | range (lo hi : ℕ)
  | limit (top : ℕ)
  | contiguous (n align : ℕ)

def boot : BootCall → Pool
  | .below e => reserveBelow s e
  | .range lo hi => reserveRange s lo hi
  | .limit top => limitRam s top
  | .contiguous n align => reserveContiguous s n align

inductive Call
  | plain (sp : ℕ)
  | single (p sp : ℕ) (top : Bool)
  | contiguous (p n align sp : ℕ)
  | free (addr p : ℕ)
  | freeContiguous (base n p : ℕ)
  | setQuota (p q : ℕ)
  | reclaimAll (p : ℕ)

/-- The pool after a call, the frames it hands out and those it takes back by address. -/
def call : Call → Pool × List ℕ × List ℕ
  | .plain sp => ((allocate s 0 sp false true).1, (allocate s 0 sp false true).2, [])
  | .single p sp top => ((allocate s p sp top false).1, (allocate s p sp top false).2, [])
  | .contiguous p n align sp =>
    ((allocateContiguous s p n align sp).1, (allocateContiguous s p n align sp).2, [])
  | .free addr p => ((freeFor s [addr] p).1, [], (freeFor s [addr] p).2)
  | .freeContiguous base n p =>
    ((freeFor s (runAddrs base n) p).1, [], (freeFor s (runAddrs base n) p).2)
  | .setQuota p q =>
    (if partitionMax ≤ p then s else { s with quota := update s.quota p q }, [], [])
  | .reclaimAll p => (if partitionMax ≤ p then s else reclaimAll s p, [], [])

variable {s} {F : List ℕ}

/-- The free frames in `F` go to the partition, after some free frames were withheld. -/
inductive Takes (s : Pool) (p : ℕ) : Pool × List ℕ → Prop
  | mk (w : ℕ → Bool) (F : List ℕ) (hw : ∀ f, w f = true → s.used f = false)
    (hF : ∀ f ∈ F, s.used f = false ∧ w f = false ∧ f ≠ 0 ∧ f < totalFrames) (hd : F.Nodup) :
    Takes s p (charge p ({ s with
      used := fun f => s.used f || w f, reserved := fun f => s.reserved f || w f }, F))

lemma takes_nil : Takes s p (s, []) := by
  have h := Takes.mk (s := s) (p := p) (fun _ => false) [] (by simp) (by simp) nodup_nil
  simpa [charge] using h

lemma takes_scan (hk : k ≤ totalFrames) (s : Pool) : Takes s p (charge p (scan sp top k s)) := by
  induction k generalizing s with
  | zero => simpa [charge, scan] using takes_nil
  | succ k ih =>
    rw [scan]
    generalize hf : (if top then k else totalFrames - 1 - k) = f
    split_ifs with hskip hstack
    · exact ih (by omega) s
    · have h := ih (by omega)
        { s with used := update s.used f true, reserved := update s.reserved f true }
      generalize charge p (scan ..) = r at h
      obtain ⟨w, F, hw, hF, hd⟩ := h
      convert Takes.mk (fun g => w g || g = f) F ?_ ?_ hd using 3
      all_goals grind
    · have h := Takes.mk (s := s) (p := p) (fun _ => false) [f] (by simp) (by grind) (by simp)
      simpa using h

lemma takes_allocate : Takes s p (allocate s p sp top plain) := by
  unfold allocate
  split_ifs
  · exact takes_nil
  · exact takes_scan le_rfl s

lemma findRun_spec {free : ℕ → Bool} {n align k start r : ℕ} (hpos : start ≠ 0)
    (h : findRun free n align k start = some r) :
    ∀ f ∈ range' r n, free f ∧ f ≠ 0 ∧ f < totalFrames := by
  induction k generalizing start with
  | zero => cases h
  | succ k ih =>
    simp only [findRun] at h
    split_ifs at h with hend hrun
    · cases h
      intro f hf
      have := all_eq_true.1 hrun f hf
      grind
    · exact ih (by omega) h

lemma takes_contiguous : Takes s p (allocateContiguous s p n align sp) := by
  unfold allocateContiguous
  split_ifs with hbad
  · exact takes_nil
  split
  · exact takes_nil
  next start hrun =>
  have hspec := findRun_spec (by grind [alignOk]) hrun
  have h := Takes.mk (s := s) (p := p) (fun _ => false) (range' start n) (by simp) (by grind)
    nodup_range'
  simpa using h

/-- The address is that of a frame that is not refused. -/
def Freeable (a : ℕ) : Prop :=
  a % frameSize = 0 ∧ a / frameSize ≠ 0 ∧ a / frameSize < totalFrames

/-- The frames that were freed were in use, and come from the addresses. -/
lemma freeRaw_spec (as : List ℕ) (s : Pool) :
    (freeRaw as s).2.Nodup ∧ (∀ f ∈ (freeRaw as s).2, s.used f ∧
      ∃ a ∈ as, Freeable a ∧ a / frameSize = f) ∧ (freeRaw as s).1 = { s with
        used := fun f => s.used f && f ∉ (freeRaw as s).2
        owner := fun f => if f ∈ (freeRaw as s).2 then 0 else s.owner f } := by
  induction as generalizing s with
  | nil => simp [freeRaw]
  | cons a as ih =>
    rw [freeRaw]
    split_ifs with hbad
    · grind
    obtain ⟨hnodup, hused, hshape⟩ := ih { s with
      used := update s.used (a / frameSize) false, owner := update s.owner (a / frameSize) 0 }
    refine ⟨nodup_cons.2 ⟨fun hf => ?_, hnodup⟩, ?_, ?_⟩
    · simpa using (hused _ hf).1
    · intro f hf
      rcases mem_cons.1 hf with rfl | hf
      · grind [Freeable]
      · have := hused f hf
        grind
    · rw [hshape]
      congr 1 <;> funext g <;> grind

def bootPool (b : List BootCall) : Pool := run boot {} b

structure Booted (s : Pool) : Prop where
  reserved : s.reserved = s.used
  owner : s.owner = fun _ => 0
  usage : s.usage = fun _ => 0
  limit : ∀ f, s.reservedAbove ≤ f → f < totalFrames → s.used f = true

lemma Booted.markUsed (h : Booted s) (lo hi : ℕ) : Booted (markUsed s lo hi) := by
  refine ⟨?_, h.owner, h.usage, fun f hf hlt => ?_⟩
  · simp only [Frames.markUsed, h.reserved]
    grind
  · simp [Frames.markUsed, h.limit f hf hlt]

lemma booted_bootPool (b : List BootCall) : Booted (bootPool b) := by
  refine run_induction (P := fun _ _ => True) ⟨rfl, rfl, rfl, ?_⟩ ?_ (always_of_forall (by simp))
  · intro f hf hlt
    exact absurd hlt (Nat.not_lt.2 hf)
  intro t c h _
  cases c with
  | below e =>
    have hm := h.markUsed 0 (roundUp e)
    exact ⟨hm.reserved, hm.owner, hm.usage, hm.limit⟩
  | range lo hi =>
    have hm := h.markUsed (lo / frameSize) (roundUp hi)
    simp only [boot, reserveRange]
    split_ifs
    · exact h
    · exact ⟨hm.reserved, hm.owner, hm.usage, hm.limit⟩
    · exact ⟨hm.reserved, hm.owner, hm.usage, hm.limit⟩
  | limit top =>
    have hm := h.markUsed (top / frameSize) totalFrames
    simp only [boot, limitRam]
    split_ifs
    · exact h
    · refine ⟨hm.reserved, hm.owner, hm.usage, fun f hf hlt => ?_⟩
      have := h.limit f
      grind [markUsed]
  | contiguous n =>
    simp only [boot, reserveContiguous]
    split_ifs
    · exact h
    split
    · exact h
    · next start _ =>
      have hm := h.markUsed start (start + n)
      exact ⟨hm.reserved, hm.owner, hm.usage, hm.limit⟩

def Withheld (b : List BootCall) (f : ℕ) : Prop :=
  (bootPool b).used f = true ∨ (bootPool b).reservedAbove ≤ f

/-- A free that is not refused names no frame of `R`, and a sweep of the system partition finds
them all machine-owned. -/
def Spares (R : ℕ → Prop) (s : Pool) : Call → Prop
  | .free addr p => p < partitionMax → Freeable addr → ¬R (addr / frameSize)
  | .freeContiguous base n p => p < partitionMax →
    ∀ a ∈ runAddrs base n, Freeable a → ¬R (a / frameSize)
  | .reclaimAll p => p = 0 → ∀ f, f ≠ 0 → f < totalFrames → R f → frameIsMachineOwned s f = true
  | _ => True

def step (s : Pool) (c : Call) : Pool := (call s c).1

lemma spares_step {R : ℕ → Prop} (hc : Spares R s c)
    (hR : ∀ f, R f → f < totalFrames → s.used f ∧ s.owner f = 0) :
    ∀ f, R f → f < totalFrames → (step s c).used f ∧ (step s c).owner f = 0 := by
  have htake {p r} (h : Takes s p r) :
      ∀ f, R f → f < totalFrames → r.1.used f ∧ r.1.owner f = 0 := by
    obtain ⟨w, F, hw, hF, -⟩ := h
    grind [charge]
  have hgive (as : List ℕ) (p : ℕ)
      (has : p < partitionMax → ∀ a ∈ as, Freeable a → ¬R (a / frameSize)) : ∀ f, R f →
      f < totalFrames → (freeFor s as p).1.used f ∧ (freeFor s as p).1.owner f = 0 := by
    obtain ⟨-, hfrom, hshape⟩ := freeRaw_spec as s
    unfold freeFor
    split_ifs with hp
    · exact hR
    have has := has (Nat.not_le.1 hp)
    simp only [hshape]
    grind
  intro f hf hlt
  cases c with
  | plain | single => exact htake takes_allocate f hf hlt
  | contiguous => exact htake takes_contiguous f hf hlt
  | free a p => exact hgive [a] p (by simpa [Spares] using hc) f hf hlt
  | freeContiguous base n p => exact hgive _ p hc f hf hlt
  | setQuota p q => grind [step, call]
  | reclaimAll p =>
    simp only [step, call]
    grind [reclaimAll, reclaims, Spares]

/-- **Withheld memory stays withheld** if no free names a withheld frame, and the system
partition is swept only when all of them are machine-owned. -/
theorem withheld_stays (b : List BootCall) (calls : List Call)
    (hrun : Always step (Spares (Withheld b)) (bootPool b) calls) (f : ℕ) (hf : Withheld b f) :
    (f < totalFrames → (run step (bootPool b) calls).used f = true) ∧
      ∀ c, f ∉ (call (run step (bootPool b) calls) c).2.1 := by
  have hb := booted_bootPool b
  have hstart : ∀ f, Withheld b f → f < totalFrames →
      (bootPool b).used f = true ∧ (bootPool b).owner f = 0 := fun f hf hlt =>
    ⟨hf.elim id fun h => hb.limit f h hlt, congrFun hb.owner f⟩
  have hkept := run_induction (I := fun s => ∀ f, Withheld b f → f < totalFrames →
    s.used f = true ∧ s.owner f = 0) hstart (fun t c h hc => spares_step hc h) hrun
  refine ⟨fun hlt => (hkept f hf hlt).1, fun c hout => ?_⟩
  have htake {p r} (h : Takes (run step (bootPool b) calls) p r) : f ∉ r.2 := by
    obtain ⟨w, F, -, hF, -⟩ := h
    intro hmem
    obtain ⟨hfree, -, -, hlt⟩ := hF f hmem
    rw [(hkept f hf hlt).1] at hfree
    cases hfree
  cases c with
  | plain | single => exact htake takes_allocate hout
  | contiguous p n align sp => exact htake takes_contiguous hout
  | free | freeContiguous | setQuota | reclaimAll => cases hout

/-- The image is reserved below; a frame is allocated and freed, and the system is swept. -/
theorem withheld_stays_image : Withheld [.below 8192] 1 ∧
    (run step (bootPool [.below 8192])
      [.single 1 0 true, .free (1048575 * 4096) 1, .reclaimAll 0]).used 1 = true := by
  have hf : Withheld [.below 8192] 1 := .inl (by decide +kernel)
  refine ⟨hf,
    (withheld_stays [.below 8192] [.single 1 0 true, .free (1048575 * 4096) 1, .reclaimAll 0]
    ⟨trivial, fun _ _ => ?_, fun _ f _ hlt hw => ?_, trivial⟩ 1 hf).1 (by decide)⟩
  · rintro (h | h) <;> revert h <;> decide +kernel
  · have himage : f < 2 := by
      rcases hw with h | h
      · simp [bootPool, run, boot, reserveBelow, markUsed, roundUp, frameSize, totalFrames] at h
        omega
      · exact absurd hlt (Nat.not_lt.2 h)
    have hbelow : (step (step (bootPool [.below 8192]) (.single 1 0 true))
        (.free (1048575 * 4096) 1)).reservedBelow = 2 := by decide +kernel
    simp [frameIsMachineOwned, hbelow, himage]

/-- A range above the image is freed by a sweep of the system partition, and by a free of
anybody. -/
theorem reserved_range_freed : Withheld [.below 8192, .range 20480 24576] 5 ∧
    (step (bootPool [.below 8192, .range 20480 24576]) (.reclaimAll 0)).used 5 = false ∧
      (step (bootPool [.below 8192, .range 20480 24576]) (.free 20480 7)).used 5 = false :=
  ⟨.inl (by decide +kernel), by decide +kernel, by decide +kernel⟩

end AeroSLS.Frames
