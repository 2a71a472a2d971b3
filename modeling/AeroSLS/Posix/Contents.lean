import AeroSLS.Posix.Ownership

namespace AeroSLS.Posix

open AeroSLS.Bytes AeroSLS.Crash AeroSLS.Machine List Function

variable {sb : Superblock} {d d' : Disk} {x x' : Inode} {i k n offset : ℕ} {files : ℕ → List UInt8}

/-- The bytes of `buf` from `offset` on, the others as they were, and zeros in between. -/
def overwrite (c : List UInt8) (offset : ℕ) (buf : List UInt8) : List UInt8 :=
  (range (max c.length (offset + buf.length))).map fun pos =>
    if offset ≤ pos ∧ pos < offset + buf.length then buf.getD (pos - offset) 0 else c.getD pos 0

/-- The first `len` bytes, or all of them and zeros up to there. -/
def resized (c : List UInt8) (len : ℕ) : List UInt8 := (range len).map fun pos => c.getD pos 0

inductive FileOp
  | write (ino offset : ℕ) (buf : List UInt8)
  | truncate (ino len : ℕ)

def FileOp.apply (files : ℕ → List UInt8) : FileOp → ℕ → List UInt8
  | .write ino offset buf => update files ino (overwrite (files ino) offset buf)
  | .truncate ino len => update files ino (resized (files ino) len)

def FileOp.toFsOp : FileOp → FsOp
  | .write ino offset buf => .write ino offset buf
  | .truncate ino len => .truncate ino len

def fileStep (sb : Superblock) (d : Disk) (op : FileOp) : Disk := fsStep sb d op.toFsOp

/-- A file without holes. -/
def Dense (d : Disk) (x : Inode) : Prop := ∀ k < x.nblocks, d.slot x k ≠ 0

lemma contents_getD : (d.contents x).getD pos 0 = if pos < x.size then d.byte x pos else 0 := by
  unfold Disk.contents
  split_ifs with h <;> simp [h]

lemma contents_length : (d.contents x).length = x.size := by
  simp [Disk.contents]

lemma contents_congr (hsize : x'.size = x.size)
    (hbyte : ∀ pos < x.size, d'.byte x' pos = d.byte x pos) : d'.contents x' = d.contents x := by
  unfold Disk.contents
  rw [hsize]
  apply map_congr_left
  intro pos hpos
  exact hbyte pos (mem_range.1 hpos)

theorem read_eq (hS : Sound sb K d) (hi : K i) (hty : (d.inodes i).ty = some .file)
    (hdense : Dense d (d.inodes i)) :
    d.read sb i offset n = .ok (((d.contents (d.inodes i)).drop offset).take n) := by
  have hmax := size_le_of_nblocks (hS.size i hi)
  have hrun : d.read sb i offset n = if (d.inodes i).size ≤ offset then .ok []
      else d.readLoop (d.inodes i) offset (min n ((d.inodes i).size - offset))
        (min n ((d.inodes i).size - offset)) 0 := by
    unfold Disk.read
    rw [inode_ok hS hi (by rw [hty]; exact fun h => by cases h)]
    change (if (d.inodes i).ty ≠ some .file then _ else _) = _
    rw [if_neg (not_not.2 hty)]
    rfl
  rw [hrun]
  split_ifs with hle
  · have hnil : (d.contents (d.inodes i)).drop offset = [] :=
      drop_eq_nil_of_le (by rw [contents_length]; exact hle)
    rw [hnil, take_nil]
  rw [readLoop_eq _ 0 (by omega) _ (Nat.zero_le _) (by omega)]
  · congr 1
    apply ext_getElem
    · simp [Disk.contents]
    · simp [Disk.contents]
  · intro pos _ hpos
    exact hdense _ (lt_blocksFor (by omega))

def Disk.Regular (sb : Superblock) (d : Disk) (i : ℕ) : Prop :=
  d.Live sb i ∧ (d.inodes i).ty = some .file

instance : Decidable (d.Regular sb i) := inferInstanceAs (Decidable (_ ∧ _))

structure Faithful (sb : Superblock) (R : ℕ → Prop) (d : Disk) (files : ℕ → List UInt8) : Prop where
  sound : Sound sb (d.Live sb) d
  regular : ∀ i, d.Regular sb i ↔ R i
  dense : ∀ i, R i → Dense d (d.inodes i)
  bytes : ∀ i, R i → d.contents (d.inodes i) = files i

/-- Only file `i` has changed. -/
theorem Faithful.update (h : Faithful sb R d files)
    (hbits : ∀ j, d'.map (8 * sb.split + j) = d.map (8 * sb.split + j))
    (hothers : Others sb i d d') (hsound : Sound sb (d.Live sb) d')
    (hmode : (d'.inodes i).mode = (d.inodes i).mode) (hdense : Dense d' (d'.inodes i))
    (hbytes : d'.contents (d'.inodes i) = c) : Faithful sb R d' (update files i c) := by
  have hlive := live_of_bits hbits
  constructor
  · rwa [hlive]
  · intro j
    rw [← h.regular]
    unfold Disk.Regular
    rw [hlive]
    apply and_congr_right
    intro hj
    by_cases hji : j = i
    · unfold Inode.ty
      rw [hji, hmode]
    · rw [(hothers j hj hji).1]
  · intro j hj
    by_cases hji : j = i
    · rw [hji]
      exact hdense
    obtain ⟨hsame, hun⟩ := hothers j ((h.regular j).2 hj).1 hji
    rw [hsame]
    intro k hk
    rw [hun.slot]
    exact h.dense j hj k hk
  · intro j hj
    by_cases hji : j = i
    · rw [hji, update_self]
      exact hbytes
    · obtain ⟨hsame, hun⟩ := hothers j ((h.regular j).2 hj).1 hji
      rw [hsame, update_of_ne hji, ← h.bytes j hj]
      exact contents_congr rfl hun.reads.byte

lemma Faithful.put (h : Faithful sb R d files)
    (hg : Grown sb (d.Live sb) i n d (d.inodes i) d' x') (hdense : Dense d' { x' with size := n })
    (hbytes : d'.contents { x' with size := n } = c) :
    Faithful sb R (d'.put i x' n) (Function.update files i c) := by
  have hbits : ∀ j, (d'.put i x' n).map (8 * sb.split + j) = d.map (8 * sb.split + j) := hg.bits
  apply h.update hbits hg.others_put hg.sound
  · rw [put_inodes_self]
    exact hg.mode
  · rw [put_inodes_self]
    exact hdense
  · rw [put_inodes_self]
    exact hbytes

lemma Wrote.dense (h : Wrote sb K i n d x offset offset (offset + buf.length) b d' x')
    (hn : n = max x.size (offset + buf.length)) (hdense : Dense d x)
    (hfirst : if buf = [] then blocksFor offset ≤ x.nblocks else offset / blockSize ≤ x.nblocks) :
    Dense d' { x' with size := n } := by
  intro k hk
  rw [nblocks_size] at hk
  change d'.slot x' k ≠ 0
  by_cases hold : k < x.nblocks
  · rw [h.slot k (hdense k hold)]
    exact hdense k hold
  -- a new block, so some byte of the buffer lies in it
  have hpos : 0 < buf.length ∧ offset / blockSize ≤ k := by grind [Inode.nblocks]
  have hin : max offset (blockSize * k) < offset + buf.length ∧
      max offset (blockSize * k) / blockSize = k := by
    unfold Inode.nblocks blocksFor blockSize at *
    omega
  rw [← hin.2]
  exact h.slots _ (le_max_left _ _) hin.1

lemma Wrote.contents
    (h : Wrote sb K i n d x offset offset (offset + buf.length) (Buf.ofList buf) d' x')
    (hn : n = max x.size (offset + buf.length))
    (hzero : ∀ pos, x.size ≤ pos → pos < offset → d.byte x pos = 0) :
    d'.contents { x' with size := n } = overwrite (d.contents x) offset buf := by
  unfold overwrite
  rw [contents_length, ← hn]
  change (range n).map (d'.byte x') = _
  apply map_congr_left
  intro pos hpos
  rw [mem_range] at hpos
  rw [h.byte pos (lt_blocksFor hpos), contents_getD]
  split_ifs with hin hlt
  · rfl
  · rfl
  · exact hzero pos (by omega) (by omega)

lemma Filled.dense (h : Filled sb K i n d x d' x') (hdense : Dense d x)
    (hslots : ∀ k, x.nblocks ≤ k → k < blocksFor n → d'.slot x' k ≠ 0) :
    Dense d' { x' with size := n } := by
  intro k hk
  change d'.slot x' k ≠ 0
  obtain hold | hnew := Nat.lt_or_ge k x.nblocks
  · rw [h.slot k (hdense k hold)]
    exact hdense k hold
  · exact hslots k hnew hk

lemma Filled.contents (h : Filled sb K i n d x d' x')
    (hzero : ∀ pos, x.size ≤ pos → pos < n → d.byte x pos = 0) :
    d'.contents { x' with size := n } = resized (d.contents x) n := by
  change (range n).map (d'.byte x') = _
  apply map_congr_left
  intro pos hpos
  rw [mem_range] at hpos
  rw [h.byte (lt_blocksFor hpos), contents_getD]
  split_ifs with hlt
  · rfl
  · exact hzero pos (Nat.not_lt.1 hlt) hpos

lemma slot_of_blocks (h : d'.blocks = d.blocks) : d'.slot x k = d.slot x k :=
  slot_congr (fun _ => by rw [h]) (fun _ => by rw [h]) k

lemma shrunk_dense (hblocks : d'.blocks = d.blocks) (hlen : len < x.size) (hdense : Dense d x) :
    Dense d' { x.shrunk (blocksFor len) with size := len } := by
  intro k hk
  rw [nblocks_size] at hk
  have hold : k < x.nblocks := Nat.lt_of_lt_of_le hk (blocksFor_mono hlen.le)
  change d'.slot (x.shrunk (blocksFor len)) k ≠ 0
  rw [slot_shrunk hk, slot_of_blocks hblocks]
  exact hdense k hold

lemma shrunk_contents (hblocks : d'.blocks = d.blocks) (hlen : len < x.size) :
    d'.contents { x.shrunk (blocksFor len) with size := len } = resized (d.contents x) len := by
  have hslot : ∀ k < blocksFor len, d'.slot (x.shrunk (blocksFor len)) k = d.slot x k := by
    intro k hk
    rw [slot_shrunk hk, slot_of_blocks hblocks]
  change (range len).map (d'.byte (x.shrunk (blocksFor len))) = _
  apply map_congr_left
  intro pos hpos
  rw [mem_range] at hpos
  rw [contents_getD, if_pos (by omega)]
  unfold Disk.byte Disk.block
  rw [hslot _ (lt_blocksFor hpos), hblocks]

/-- The file is in use, and the call leaves no gap: only zeros between the old end and what is
written. -/
def FileOp.Fills (sb : Superblock) (d : Disk) : FileOp → Prop
  | .write ino offset buf =>
    d.Live sb ino ∧
    Fresh d (d.inodes ino) (max (d.inodes ino).size (offset + buf.length)) ∧
    (∀ pos < offset, (d.inodes ino).size ≤ pos → d.byte (d.inodes ino) pos = 0) ∧
    if buf = [] then blocksFor offset ≤ (d.inodes ino).nblocks
    else offset / blockSize ≤ (d.inodes ino).nblocks
  | .truncate ino len =>
    d.Live sb ino ∧ ((d.inodes ino).size ≤ len → Fresh d (d.inodes ino) len ∧
      ∀ pos < len, (d.inodes ino).size ≤ pos → d.byte (d.inodes ino) pos = 0)

instance (op : FileOp) : Decidable (op.Fills sb d) := by
  cases op <;> unfold FileOp.Fills <;> infer_instance

/-- The call returns. -/
def FileOp.Succeeds (sb : Superblock) (d : Disk) (op : FileOp) : Prop :=
  (op.toFsOp.prog sb d).res = .ok ()

instance (op : FileOp) : Decidable (op.Succeeds sb d) :=
  inferInstanceAs (Decidable ((op.toFsOp.prog sb d).res = .ok ()))

lemma wp_file (hc : sb.Covered) (h : Faithful sb R d files) (op : FileOp) (hop : op.Fills sb d) :
    wp (fun _ => True) (op.toFsOp.prog sb) (fun _ d' => Faithful sb R d' (op.apply files))
      (fun _ _ => True) d := by
  cases op with
  | write ino offset buf =>
    obtain ⟨hlive, hfresh, hzero, hfirst⟩ := hop
    change wp _ (do let _ ← Posix.write sb ino offset buf) _ _ d
    rw [wp_bind]
    apply wp_writeCall hc h.sound hlive rfl rfl hfresh
    · exact fun _ => trivial
    · exact fun _ _ _ => trivial
    · exact fun _ _ _ _ => trivial
    · intro d' x' hty _ hw
      have hR := (h.regular ino).1 ⟨hlive, hty⟩
      refine ⟨trivial, wp_pure.2 ?_⟩
      rw [FileOp.apply, ← h.bytes ino hR]
      exact h.put hw.toGrown (hw.dense rfl (h.dense ino hR) hfirst)
        (hw.contents rfl fun pos h1 h2 => hzero pos h2 h1)
  | truncate ino len =>
    obtain ⟨hlive, hgrow⟩ := hop
    apply wp_truncateCall hc h.sound hlive rfl fun hle => (hgrow hle).1
    · exact fun _ => trivial
    · exact fun _ _ _ _ _ => trivial
    · exact fun _ _ _ _ _ _ => trivial
    · intro d' x' hty hle hf hslots
      have hR := (h.regular ino).1 ⟨hlive, hty⟩
      refine ⟨trivial, ?_⟩
      rw [FileOp.apply, ← h.bytes ino hR]
      exact h.put hf.toGrown (hf.dense (h.dense ino hR) hslots)
        (hf.contents fun pos h1 h2 => (hgrow hle).2 pos h2 h1)
    · exact fun _ _ _ _ => trivial
    · intro d' hty hlt hcl
      have hR := (h.regular ino).1 ⟨hlive, hty⟩
      have hbits : ∀ j, (d'.put ino ((d.inodes ino).shrunk (blocksFor len)) len).map
          (8 * sb.split + j) = d.map (8 * sb.split + j) := hcl.bits
      refine ⟨trivial, ?_⟩
      rw [FileOp.apply, ← h.bytes ino hR]
      apply h.update hbits hcl.others_put hcl.sound_put
      · rw [put_inodes_self]
        rfl
      · rw [put_inodes_self]
        exact shrunk_dense hcl.blocks hlt (h.dense ino hR)
      · rw [put_inodes_self]
        exact shrunk_contents hcl.blocks hlt

lemma faithful_run (hc : sb.Covered) (h : Faithful sb R d files)
    (hops : Always (fileStep sb) (fun d op => op.Succeeds sb d ∧ op.Fills sb d) d ops) :
    Faithful sb R (run (fileStep sb) d ops) (run FileOp.apply files ops) := by
  induction ops generalizing d files with
  | nil => exact h
  | cons op ops ih =>
    obtain ⟨⟨hok, hfills⟩, hops⟩ := hops
    exact ih (wp_ok (wp_file hc h op hfills) hok) hops

/-- After every run of calls that return and leave no gaps, a read returns what the
abstract files say. -/
theorem read_run (hc : sb.Covered) (hS : Sound sb (d.Live sb) d)
    (hdense : ∀ i, d.Regular sb i → Dense d (d.inodes i)) (ops : List FileOp)
    (hops : Always (fileStep sb) (fun d op => op.Succeeds sb d ∧ op.Fills sb d) d ops)
    (hi : d.Regular sb i) (offset n : ℕ) :
    (run (fileStep sb) d ops).read sb i offset n =
      .ok (((run FileOp.apply (fun i => d.contents (d.inodes i)) ops i).drop offset).take n) := by
  have h0 : Faithful sb (d.Regular sb) d fun i => d.contents (d.inodes i) :=
    ⟨hS, fun _ => Iff.rfl, hdense, fun _ _ => rfl⟩
  have h := faithful_run hc h0 hops
  obtain ⟨hlive, hty⟩ := (h.regular i).2 hi
  rw [read_eq h.sound hlive hty (h.dense i hi), h.bytes i hi]

def twoFiles : Disk :=
  run (fsStep small) small.empty [.createFile 2 [97] 0o644, .createFile 2 [98] 0o644]

/-- The files grow in turn, over several blocks. -/
def growingOps : List FileOp :=
  [.write 3 0 [1, 2, 3], .write 4 0 [9], .truncate 3 5, .truncate 4 600, .write 3 4 [7, 7]]

set_option maxRecDepth 100000 in
theorem read_run_growingOps :
    (run (fileStep small) twoFiles growingOps).read small 3 1 10 = .ok [2, 3, 0, 7, 7] := by
  have hops : Always (fsStep small) (fun d op => op.Safe small d) small.empty
      [.createFile 2 [97] 0o644, .createFile 2 [98] 0o644] := by decide +kernel
  obtain ⟨hc, hgood⟩ := run_good formatV2_small (by decide) (by unfold MapFits; decide) hops
  have hempty : ∀ i ≤ 64, twoFiles.Regular small i → (twoFiles.inodes i).nblocks = 0 := by
    decide +kernel
  have hdense : ∀ i, twoFiles.Regular small i → Dense twoFiles (twoFiles.inodes i) := by
    intro i hi k hk
    rw [hempty i hi.1.2.1 hi] at hk
    exact absurd hk (Nat.not_lt_zero k)
  have hfile : twoFiles.Regular small 3 := by decide +kernel
  have hread := read_run hc hgood.sound hdense growingOps (by decide +kernel) hfile 1 10
  decide +kernel

set_option maxRecDepth 100000 in
/-- Bytes that a `truncate` has cut off come back, and a write behind the end leaves a hole. -/
theorem read_regrown : (Always (fileStep small) (fun d op => op.Succeeds small d) twoFiles
      [.write 3 0 [1, 2, 3], .truncate 3 1, .truncate 3 3] ∧
    (run (fileStep small) twoFiles [.write 3 0 [1, 2, 3], .truncate 3 1, .truncate 3 3]).read
      small 3 0 3 =
      .ok [1, 2, 3] ∧
    run FileOp.apply (fun _ => []) [.write 3 0 [1, 2, 3], .truncate 3 1, .truncate 3 3] 3 =
      [1, 0, 0]) ∧
    (Always (fileStep small) (fun d op => op.Succeeds small d) twoFiles [.write 4 1024 [5]] ∧
    (run (fileStep small) twoFiles [.write 4 1024 [5]]).read small 4 0 1 = .error .inval) := by
  decide +kernel

end AeroSLS.Posix
