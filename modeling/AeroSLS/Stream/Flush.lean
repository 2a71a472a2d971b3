import Mathlib.Data.List.Basic
import Mathlib.Order.Nat

namespace AeroSLS.Stream

open List

def streamMaxFrames : ℕ := 16384

/-- What a flush reads of a stream; a frame that is not in memory is `none`. -/
structure StreamEntry (Page : Type*) where
  frames : Fin streamMaxFrames → Option Page
  framesUsed : UInt32
  lbaBase : UInt64

/-- Why a flush has no result: it read past the array of frames, or it did not end. -/
inductive Fault
  | pastFrames
  | unfinished
  deriving DecidableEq

/-- The variables of the loop, and the writes it has issued. -/
structure Flush (Page : Type*) where
  run : List Page
  runStart : UInt32
  flushed : ℕ
  writes : List (UInt64 × List Page)

variable {Page : Type*} (se : StreamEntry Page) (max : ℕ) (accepts : UInt64 → List Page → Bool)

/-- The open run is written.  A write that fails is not counted. -/
def Flush.flush (s : Flush Page) : Flush Page :=
  let lba := se.lbaBase + s.runStart.toUInt64 * 8
  { s with
    run := []
    flushed := if accepts lba s.run then s.flushed + s.run.length else s.flushed
    writes := s.writes ++ [(lba, s.run)] }

def Flush.append (s : Flush Page) (fi : UInt32) (page : Page) : Flush Page :=
  { s with runStart := if s.run = [] then fi else s.runStart, run := s.run ++ [page] }

/-- One pass of the loop, with the frame it has found. -/
def Flush.pass (s : Flush Page) (fi : UInt32) : Option Page → Flush Page
  | some page =>
    let s := s.append fi page
    if s.run.length = max then s.flush se accepts else s
  | none => if s.run.length = max ∨ 0 < s.run.length then s.flush se accepts else s

def StreamEntry.frameAt (fi : UInt32) : Except Fault (Option Page) :=
  if fi < se.framesUsed then
    if h : fi.toNat < streamMaxFrames then .ok (se.frames ⟨fi.toNat, h⟩) else .error .pastFrames
  else .ok none

def streamFlushLoop : ℕ → UInt32 → Flush Page → Except Fault (Flush Page)
  | 0, _, _ => .error .unfinished
  | fuel + 1, fi, s =>
    if fi ≤ se.framesUsed then
      match se.frameAt fi with
      | .error e => .error e
      | .ok frame => streamFlushLoop fuel (fi + 1) (s.pass se max accepts fi frame)
    else .ok s

def streamFlushFrames (fuel : ℕ) : Except Fault (Flush Page) :=
  streamFlushLoop se max accepts fuel 0 ⟨[], 0, 0, []⟩

/-- The pages of a write, each with the sector it goes to. -/
def pagesAt (w : UInt64 × List Page) : List (UInt64 × Page) :=
  w.2.mapIdx fun k page => (w.1 + 8 * .ofNat k, page)

def StreamEntry.placed (i : ℕ) : Option (UInt64 × Page) :=
  if h : i < streamMaxFrames then
    (se.frames ⟨i, h⟩).map fun page => (se.lbaBase + 8 * .ofNat i, page)
  else none

structure Flushing (n : ℕ) (s : Flush Page) : Prop where
  pages : s.writes.flatMap pagesAt ++ pagesAt (se.lbaBase + s.runStart.toUInt64 * 8, s.run) =
    (range n).filterMap se.placed
  recent : s.run ≠ [] → s.runStart.toNat + s.run.length = n

/-- No write is empty or longer than a transfer, and the open run can take a page. -/
structure Fits (s : Flush Page) : Prop where
  room : s.run.length < max
  sizes : ∀ w ∈ s.writes, 0 < w.2.length ∧ w.2.length ≤ max

variable {se max accepts} {n fuel : ℕ} {fi : UInt32} {s : Flush Page}

lemma Flushing.flush (h : Flushing se n s) : Flushing se n (s.flush se accepts) where
  pages := by
    rw [← h.pages]
    simp [Flush.flush, pagesAt]
  recent := absurd rfl

lemma sector_add (lba : UInt64) {start : UInt32} (h : start.toNat + k = n) :
    lba + start.toUInt64 * 8 + 8 * .ofNat k = lba + 8 * .ofNat n := by
  have hstart : start.toUInt64 = .ofNat start.toNat := by simp
  rw [hstart, ← h, UInt64.ofNat_add, UInt64.mul_comm _ 8, UInt64.mul_add, UInt64.add_assoc]

lemma Flushing.append (h : Flushing se n s) (hfi : fi.toNat = n)
    (hplaced : se.placed n = some (se.lbaBase + 8 * .ofNat n, page)) :
    Flushing se (n + 1) (s.append fi page) := by
  -- the run goes on, or starts here
  have hstart : (s.append fi page).runStart.toNat + s.run.length = n ∧
      pagesAt (se.lbaBase + (s.append fi page).runStart.toUInt64 * 8, s.run) =
        pagesAt (se.lbaBase + s.runStart.toUInt64 * 8, s.run) := by
    simp only [Flush.append]
    split_ifs with hrun
    · simp [hrun, pagesAt, hfi]
    · exact ⟨h.recent hrun, rfl⟩
  have hrun : (s.append fi page).run = s.run ++ [page] := rfl
  refine ⟨?_, fun _ => ?_⟩
  · have hlast : pagesAt (se.lbaBase + (s.append fi page).runStart.toUInt64 * 8,
        (s.append fi page).run) =
          pagesAt (se.lbaBase + s.runStart.toUInt64 * 8, s.run) ++
            [(se.lbaBase + 8 * .ofNat n, page)] := by
      rw [hrun, ← hstart.2, ← sector_add _ hstart.1]
      simp only [pagesAt, mapIdx_concat]
    rw [hlast, ← append_assoc, range_succ, filterMap_append, ← h.pages]
    simp [Flush.append, hplaced]
  · rw [hrun, length_append, length_singleton, ← Nat.add_assoc, hstart.1]

lemma Flushing.close (h : Flushing se n s) (max : ℕ) (accepts : UInt64 → List Page → Bool)
    (fi : UInt32) : Flushing se n (s.pass se max accepts fi none) ∧
      (s.pass se max accepts fi none).run = [] := by
  unfold Flush.pass
  dsimp only
  split_ifs with hflush
  · exact ⟨h.flush, rfl⟩
  · exact ⟨h, length_eq_zero_iff.1 (by omega)⟩

lemma Flushing.pass (h : Flushing se n s) (hfi : fi.toNat = n) (hn : n < streamMaxFrames) :
    Flushing se (n + 1) (s.pass se max accepts fi (se.frames ⟨n, hn⟩)) := by
  cases hframe : se.frames ⟨n, hn⟩ with
  | none =>
    obtain ⟨hclose, hrun⟩ := h.close max accepts fi
    refine ⟨?_, absurd hrun⟩
    rw [hclose.pages, range_succ, filterMap_append]
    simp [StreamEntry.placed, hn, hframe]
  | some page =>
    have hplaced : se.placed n = some (se.lbaBase + 8 * .ofNat n, page) := by
      simp [StreamEntry.placed, hn, hframe]
    have happend := h.append hfi hplaced
    unfold Flush.pass
    dsimp only
    split_ifs
    · exact happend.flush
    · exact happend

lemma Fits.pass (h : Fits max s) (frame : Option Page) :
    Fits max (s.pass se max accepts fi frame) := by
  have hflush : ∀ t : Flush Page, t.writes = s.writes → 0 < t.run.length → t.run.length ≤ max →
      Fits max (t.flush se accepts) := by
    intro t hwrites hpos hle
    refine ⟨Nat.lt_of_lt_of_le hpos hle, fun w hw => ?_⟩
    rcases mem_append.mp hw with hold | hnew
    · exact h.sizes w (hwrites ▸ hold)
    · obtain rfl := mem_singleton.mp hnew
      exact ⟨hpos, hle⟩
  have hroom := h.room
  unfold Flush.pass
  cases frame with
  | none =>
    split_ifs with hopen
    · exact hflush s rfl (by omega) hroom.le
    · exact h
  | some page =>
    have hlen : (s.append fi page).run.length = s.run.length + 1 := by simp [Flush.append]
    dsimp only
    split_ifs with hfull
    · exact hflush _ rfl (by omega) hfull.le
    · exact ⟨by omega, h.sizes⟩

/-- The counter does not wrap below the size of the array. -/
lemma toNat_succ (hfi : fi.toNat ≤ streamMaxFrames) : (fi + 1).toNat = fi.toNat + 1 := by
  simp only [streamMaxFrames] at hfi
  rw [UInt32.toNat_add]
  show (fi.toNat + 1) % 2 ^ 32 = _
  omega

lemma streamFlushLoop_ok (accepts : UInt64 → List Page → Bool)
    (hused : se.framesUsed.toNat ≤ streamMaxFrames)
    (hfi : fi.toNat ≤ se.framesUsed.toNat) (hfuel : se.framesUsed.toNat + 2 ≤ fi.toNat + fuel)
    (h : Flushing se fi.toNat s) (hfits : 0 < max → Fits max s) :
    ∃ t, streamFlushLoop se max accepts fuel fi s = .ok t ∧
      Flushing se se.framesUsed.toNat t ∧ t.run = [] ∧ (0 < max → Fits max t) := by
  induction fuel generalizing fi s with
  | zero => omega
  | succ fuel ih =>
    have hnext : (fi + 1).toNat = fi.toNat + 1 := toNat_succ (hfi.trans hused)
    rw [streamFlushLoop, if_pos (UInt32.le_iff_toNat_le.mpr hfi), StreamEntry.frameAt]
    rcases Nat.lt_or_eq_of_le hfi with hlt | heq
    · have hin : fi.toNat < streamMaxFrames := Nat.lt_of_lt_of_le hlt hused
      rw [if_pos (UInt32.lt_iff_toNat_lt.mpr hlt), dif_pos hin]
      exact ih (by omega) (by omega) (hnext ▸ h.pass rfl hin) fun hmax =>
        (hfits hmax).pass _
    · -- the last pass closes the open run
      obtain ⟨hclose, hrun⟩ := h.close max accepts fi
      have hend : ¬ fi + 1 ≤ se.framesUsed := by
        rw [UInt32.le_iff_toNat_le]
        omega
      rw [if_neg (by rw [UInt32.lt_iff_toNat_lt]; omega)]
      cases fuel with
      | zero => omega
      | succ fuel =>
        refine ⟨_, ?_, heq ▸ hclose, hrun, fun hmax => (hfits hmax).pass none⟩
        show streamFlushLoop se max accepts (fuel + 1) (fi + 1) _ = _
        rw [streamFlushLoop, if_neg hend]

/-- With more frames in use than there are, some pass reads past the array. -/
lemma streamFlushLoop_past (hused : streamMaxFrames < se.framesUsed.toNat)
    (hfi : fi.toNat ≤ streamMaxFrames) (hfuel : streamMaxFrames < fi.toNat + fuel) :
    streamFlushLoop se max accepts fuel fi s = .error .pastFrames := by
  induction fuel generalizing fi s with
  | zero => omega
  | succ fuel ih =>
    rw [streamFlushLoop, if_pos (UInt32.le_iff_toNat_le.mpr (by omega)), StreamEntry.frameAt,
      if_pos (UInt32.lt_iff_toNat_lt.mpr (by omega))]
    by_cases hin : fi.toNat < streamMaxFrames
    · have hnext : (fi + 1).toNat = fi.toNat + 1 := toNat_succ hin.le
      rw [dif_pos hin]
      exact ih (by omega) (by omega)
    · rw [dif_neg hin]

lemma streamFlushLoop_more (h : streamFlushLoop se max accepts fuel fi s = .ok t)
    (hle : fuel ≤ fuel') : streamFlushLoop se max accepts fuel' fi s = .ok t := by
  induction fuel generalizing fuel' fi s with
  | zero => cases h
  | succ fuel ih =>
    obtain ⟨k, rfl⟩ := Nat.exists_eq_add_of_le' (Nat.le_trans (Nat.le_add_left 1 fuel) hle)
    rw [streamFlushLoop] at h ⊢
    split_ifs at h ⊢
    · split at h
      · cases h
      · exact ih h (Nat.le_of_succ_le_succ hle)
    · exact h

variable (se max accepts)

/-- The flush ends, and every populated frame is written once, to its own place, and nothing
else, in writes that fit a transfer: if and only if no more frames are in use than there are. -/
theorem flush_writes_frames_once_iff :
    (∃ s, (∀ fuel, se.framesUsed.toNat + 2 ≤ fuel → streamFlushFrames se max accepts fuel = .ok s) ∧
      s.writes.flatMap pagesAt = (range se.framesUsed.toNat).filterMap se.placed ∧
      (0 < max → ∀ w ∈ s.writes, 0 < w.2.length ∧ w.2.length ≤ max)) ↔
    se.framesUsed.toNat ≤ streamMaxFrames := by
  constructor
  · rintro ⟨s, hs, -⟩
    by_contra hused
    have hpast : streamFlushFrames se max accepts (se.framesUsed.toNat + 2) = .error .pastFrames :=
      streamFlushLoop_past (Nat.not_le.mp hused) (Nat.zero_le _) (by omega)
    cases hpast.symm.trans (hs _ le_rfl)
  · intro hused
    have hstart : Flushing se (0 : UInt32).toNat ⟨[], 0, 0, []⟩ := ⟨rfl, absurd rfl⟩
    obtain ⟨t, ht, hflushed, hrun, hfits⟩ := streamFlushLoop_ok accepts hused (Nat.zero_le _)
      (Nat.le_of_eq (Nat.zero_add _).symm) hstart fun hmax => ⟨hmax, nofun⟩
    have hpages := hflushed.pages
    rw [hrun] at hpages
    exact ⟨t, fun fuel hfuel => streamFlushLoop_more ht hfuel, (append_nil _).symm.trans hpages,
      fun hmax => (hfits hmax).sizes⟩

/-- A stream without a frame in memory, with one more in use than the array has. -/
theorem flush_past_frames :
    streamFlushFrames (⟨fun _ => none, 16385, 0⟩ : StreamEntry Unit) 32 (fun _ _ => true) 16387 =
      .error .pastFrames :=
  streamFlushLoop_past (by decide) (Nat.zero_le _) (by decide)

end AeroSLS.Stream
