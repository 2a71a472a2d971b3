import AeroSLS.Lib.Machine
import AeroSLS.Posix.Updates

namespace AeroSLS.Posix

open AeroSLS.Bytes AeroSLS.Crash AeroSLS.Machine Function Disk

variable {sb : Superblock} {d d' : Disk} {x : Inode} {b i k n total : ℕ} {α : Type}

inductive FsOp
  | createFile (parent : ℕ) (name : Name) (mode : ℕ)
  | createDir (parent : ℕ) (name : Name) (mode : ℕ)
  | write (ino offset : ℕ) (buf : List UInt8)
  | truncate (ino len : ℕ)
  | unlink (parent : ℕ) (name : Name)
  | rmdir (parent : ℕ) (name : Name)
  | rename (oldParent : ℕ) (oldName : Name) (newParent : ℕ) (newName : Name)

def FsOp.prog (sb : Superblock) : FsOp → Fs Unit
  | .createFile parent name mode => do let _ ← Posix.createFile sb parent name mode
  | .createDir parent name mode => do let _ ← Posix.createDir sb parent name mode
  | .write ino offset buf => do let _ ← Posix.write sb ino offset buf
  | .truncate ino len => Posix.truncate sb ino len
  | .unlink parent name => Posix.unlink sb parent name
  | .rmdir parent name => Posix.rmdir sb parent name
  | .rename oldParent oldName newParent newName =>
    Posix.rename sb oldParent oldName newParent newName

/-- The disk after a call that returned or failed. -/
def fsStep (sb : Superblock) (d : Disk) (op : FsOp) : Disk := (op.prog sb d).last

instance : Decidable (Fresh d x n) :=
  decidable_of_iff (∀ k < blocksFor n, x.nblocks ≤ k → d.slot x k = 0)
    ⟨fun h k h1 h2 => h k h2 h1, fun h k h1 h2 => h k h2 h1⟩

def Plain (name : Name) : Prop := name ≠ dot ∧ name ≠ dotdot

instance (name : Name) : Decidable (Plain name) := inferInstanceAs (Decidable (_ ∧ _))

/-- The inodes are in use, "." and ".." are not removed, and a file grows only over
pointers that are empty. -/
def FsOp.Safe (sb : Superblock) (d : Disk) : FsOp → Prop
  | .createFile parent _ _ | .createDir parent _ _ | .unlink parent _ => d.Proper sb parent
  | .rmdir parent name => d.Proper sb parent ∧ Plain name
  | .rename oldParent oldName newParent _ =>
    d.Proper sb oldParent ∧ d.Proper sb newParent ∧ Plain oldName
  | .write ino offset buf =>
    d.Proper sb ino ∧ Fresh d (d.inodes ino) (max (d.inodes ino).size (offset + buf.length))
  | .truncate ino len => d.Proper sb ino ∧ ((d.inodes ino).size ≤ len → Fresh d (d.inodes ino) len)

instance (op : FsOp) : Decidable (op.Safe sb d) := by
  cases op <;> unfold FsOp.Safe <;> infer_instance

/-- Whether a crash in the middle of the call leaves a recoverable store. -/
def FsOp.Shrinks (d : Disk) : FsOp → Prop
  | .truncate ino len => len < (d.inodes ino).size
  | _ => False

/-- What a call that returned has made of the directory graph. -/
def FsOp.Done (g g' : Graph) : FsOp → Prop
  | .createFile parent name _ => ∃ i, g.Created parent name .file i g'
  | .createDir parent name _ => ∃ i, g.Created parent name .dir i g'
  | .write .. | .truncate .. => g' = g
  | .unlink parent name => ∃ e, g.Removed parent name e g' ∧ e.ino ∉ g.dirs
  | .rmdir parent name => ∃ e, g.Removed parent name e g' ∧ e.ino ∈ g.dirs ∧
    ∀ t f, g.link e.ino t = some f → f.name = dot ∨ f.name = dotdot
  | .rename oldParent oldName newParent newName =>
    (oldParent = newParent ∧ oldName = newName) ∧ g' = g ∨
    g.Moved oldParent oldName newParent newName g'

/-- After a failure a new inode may have no name, or the one that was to be moved may have lost
it. -/
def FsOp.Failed (g g' : Graph) : FsOp → Prop
  | .createFile .. | .createDir .. => g.Leaked g'
  | .rename oldParent oldName newParent newName =>
    g' = g ∨ g.Lost oldParent oldName newParent newName g'
  | _ => g' = g

lemma wp_discard {P : Disk → Prop} (h : wp C m (fun _ d' => P d') E d) :
    wp C (do let _ ← m) (fun _ d' => P d') E d :=
  wp_seqE h (fun _ _ h => wp_pure.2 h) fun _ _ h => h

lemma wp_inode_error {f : Inode → Fs α} {Q : α → Disk → Prop} {e : Errno}
    (h : d.inode sb i = .error e) (hE : E e d) :
    wp C (inode sb i >>= f) Q E d := by
  rwa [wp_bind, inode, wp_attempt, h]

lemma wp_prog (hc : sb.Covered) (h : Good sb d) (op : FsOp) (hop : op.Safe sb d) :
    wp (fun d' => ¬op.Shrinks d → Recoverable sb d') (op.prog sb)
      (fun _ d' => Good sb d' ∧ op.Done (d.graph sb) (d'.graph sb))
      (fun _ d' => Good sb d' ∧ op.Failed (d.graph sb) (d'.graph sb)) d := by
  have hmono : ∀ {m : Fs Unit} {Q E}, wp (Recoverable sb) m Q E d →
      wp (fun d' => ¬op.Shrinks d → Recoverable sb d') m Q E d := fun hm =>
    wp_mono hm (fun _ hr _ => hr) (fun _ _ h => h) fun _ _ h => h
  cases op with
  | createFile =>
    exact hmono (wp_discard (wp_imp (wp_createFile hc h hop) fun i _ h => ⟨h.1, i, h.2⟩))
  | createDir =>
    exact hmono (wp_discard (wp_imp (wp_createDir hc h hop) fun i _ h => ⟨h.1, i, h.2⟩))
  | write ino =>
    obtain ⟨hproper, hfresh⟩ := hop
    cases hino : d.inode sb ino with
    | error => exact hmono (wp_discard (wp_inode_error hino ⟨h, rfl⟩))
    | ok => exact hmono (wp_discard (wp_write_good hc h (hproper.live hino).1 rfl hfresh))
  | truncate ino =>
    obtain ⟨hproper, hfresh⟩ := hop
    cases hino : d.inode sb ino with
    | error => exact hmono (wp_inode_error hino ⟨h, rfl⟩)
    | ok =>
      exact wp_mono (wp_truncate_good hc h (hproper.live hino).1 hfresh)
        (fun d' hr hs => hr (Nat.not_lt.1 hs)) (fun _ _ h => h) fun _ _ h => h
  | unlink =>
    refine hmono (wp_mono (wp_unlink hc h hop) (fun _ h => h) (fun _ _ h => h) ?_)
    rintro _ _ rfl
    exact ⟨h, rfl⟩
  | rmdir =>
    refine hmono (wp_mono (wp_rmdir hc h hop.1 hop.2) (fun _ h => h) (fun _ _ h => h) ?_)
    rintro _ _ rfl
    exact ⟨h, rfl⟩
  | rename =>
    exact hmono (wp_rename hc h hop.1 hop.2.1 hop.2.2)

/-- The sizes for which the inode half of the map fits behind the block half, the two being
rounded together. -/
def MapFits (total : ℕ) : Prop := ¬(4025 ≤ total % 4096 ∧ total % 4096 ≤ 4031)

lemma layout_eq (h : v2Layout total formatInodeCount = some sb) :
    sb.inodeCount = 64 ∧ sb.rootInode = 2 ∧ sb.totalBlocks = total ∧
      sb.allocBlocks = ((total + 72) / 8 + 511) / 512 ∧ sb.dataStart = sb.allocBlocks + 9 ∧
      sb.dataStart + 1 < total := by
  unfold v2Layout formatInodeCount at h
  dsimp only at h
  split_ifs at h with hsmall
  cases h
  rw [not_or, Nat.not_le] at hsmall
  dsimp only
  omega

lemma covered_of_layout (h : v2Layout total formatInodeCount = some sb) (hsmall : total < 2 ^ 32)
    (hfits : MapFits total) : sb.Covered := by
  obtain ⟨hcount, hroot, htotal, halloc, hstart, hlt⟩ := layout_eq h
  unfold MapFits at hfits
  refine ⟨hroot, by omega, by omega, by omega, by omega, by omega, ?_⟩
  unfold Superblock.split
  omega

lemma foldl_bitmapSet (m : Bitmap) (map : ℕ → Bool) (l : List ℕ) :
    l.foldl (bitmapSet m) map c =
      (map c || decide (∃ b ∈ l, b / 8 < m.len ∧ 8 * m.base + b = c)) := by
  induction l generalizing map with
  | nil => simp
  | cons b l ih =>
    rw [List.foldl_cons, ih]
    unfold bitmapSet bitmapPut
    by_cases hb : b / 8 < m.len
    · by_cases hcb : c = 8 * m.base + b
      · subst hcb
        simp [hb]
      · simp [hb, update_of_ne hcb, Ne.symm hcb]
    · simp [hb]

lemma formatMap_eq (hc : sb.Covered) : formatMap sb c ↔
    c ≤ sb.dataStart ∨ 8 * sb.split ≤ c ∧ c ≤ 8 * sb.split + 2 := by
  have hregion := hc.region
  have hcount := hc.count
  have hblock : ∀ b, b ≤ sb.dataStart → b / 8 < sb.blockBits.len := fun b hb =>
    block_in_map (by omega)
  have hinode : ∀ b, b ≤ 2 → b / 8 < sb.inodeBits.len := fun b hb => inode_in_map hc (by omega)
  have hbase : sb.blockBits.base = 0 := rfl
  have hbase' : sb.inodeBits.base = sb.split := rfl
  unfold formatMap
  rw [foldl_bitmapSet, foldl_bitmapSet]
  simp only [Bool.or_eq_true, decide_eq_true_eq, List.mem_range, Bool.false_or]
  constructor
  · rintro (⟨b, hb, -, rfl⟩ | ⟨b, hb, -, rfl⟩) <;> omega
  · rintro (hle | hle)
    · exact .inl ⟨c, by omega, hblock c hle, by omega⟩
    · exact .inr ⟨c - 8 * sb.split, by omega, hinode _ (by omega), by omega⟩

/-- The disk that `format_v2` writes. -/
def Superblock.empty (sb : Superblock) : Disk where
  map := formatMap sb
  inodes := update (fun _ => Inode.zero) 2 (Posix.rootInode sb.dataStart)
  blocks := update (fun _ => Buf.zero) sb.dataStart rootBlock

lemma formatV2_eq (h : formatV2 total = some (sb, d)) :
    v2Layout total formatInodeCount = some sb ∧ d = sb.empty := by
  unfold formatV2 at h
  rcases hlay : v2Layout total formatInodeCount with _ | sb' <;> rw [hlay] at h
  · cases h
  cases h
  exact ⟨rfl, rfl⟩

section empty

variable (hc : sb.Covered)

lemma empty_root : sb.empty.inodes 2 = rootInode sb.dataStart := by
  simp [Superblock.empty]

include hc in
lemma empty_live : sb.empty.Live sb i ↔ i = 2 := by
  have hregion := hc.region
  have hsplit := totalBlocks_le_split sb
  have hcount := hc.count
  change 2 ≤ i ∧ i ≤ sb.inodeCount ∧ formatMap sb (8 * sb.split + i) ↔ _
  rw [formatMap_eq hc]
  omega

lemma empty_slot : sb.empty.slot (rootInode sb.dataStart) k = if k = 0 then
    sb.dataStart else 0 := by
  unfold slot Inode.indirectFor rootInode
  by_cases hk : k = 0
  · subst hk
    rfl
  · split_ifs
    · grind
    all_goals first | rfl | contradiction

lemma nblocks_root : (rootInode b).nblocks = 1 := by
  change blocksFor (2 * direntSize) = 1
  decide

lemma entries_root : (rootInode b).entries = 2 := Nat.mul_div_cancel 2 (by decide)

include hc in
lemma empty_byte (hpos : pos < 2 * direntSize) :
    sb.empty.byte (rootInode sb.dataStart) pos = rootBlock pos := by
  have hstart := hc.start
  have hdiv : pos / blockSize = 0 := Nat.div_eq_of_lt (by unfold direntSize blockSize at *; omega)
  have hmod : pos % blockSize = pos := Nat.mod_eq_of_lt (by unfold direntSize blockSize at *; omega)
  have hblock : sb.empty.blocks sb.dataStart = rootBlock := by simp [Superblock.empty]
  unfold byte block
  rw [hdiv, hmod, empty_slot, if_pos rfl, if_neg (by omega), hblock]

include hc in
lemma empty_dot :
    sb.empty.entry (rootInode sb.dataStart) 0 = ⟨dot, 2, FileType.dir.dt, direntSize⟩ := by
  rw [← entry_dotEntry cutName_dot (by decide : 2 < 2 ^ 32)]
  apply entry_congr
  intro j hj
  dsimp only
  have hin : (Buf.zero.copy 0 (encodeDirent (dotEntry dot 2)) direntSize) (0 + j) =
      encodeDirent (dotEntry dot 2) j := Buf.copy_inside hj
  rw [Nat.zero_add] at hin
  rw [empty_byte hc (by omega), Nat.mul_zero, Nat.zero_add, rootBlock,
    Buf.copy_outside (.inl hj), hin]

include hc in
lemma empty_dotdot :
    sb.empty.entry (rootInode sb.dataStart) 1 = ⟨dotdot, 2, FileType.dir.dt, direntSize⟩ := by
  rw [← entry_dotEntry cutName_dotdot (by decide : 2 < 2 ^ 32)]
  apply entry_congr
  intro j hj
  dsimp only
  rw [empty_byte hc (by omega), Nat.mul_one, rootBlock, Buf.copy_inside hj]

include hc in
lemma empty_dirOk : DirOk sb.empty (rootInode sb.dataStart) := by
  have hstart := hc.start
  refine ⟨⟨?_, fun k hk => ?_, fun s hs => ?_⟩, fun k hk => ?_⟩
  · rw [entries_root]
    rfl
  · grind [nblocks_root, empty_slot]
  · grind [entries_root, empty_dot, empty_dotdot]
  · rw [nblocks_root] at hk
    rw [empty_slot, if_neg (by omega)]

lemma empty_ref (hne : sb.empty.ref (rootInode sb.dataStart) p ≠ 0) :
    p = .data 0 ∧ sb.empty.ref (rootInode sb.dataStart) p = sb.dataStart := by
  cases p with
  | data k => grind [empty_slot, ref]
  | ind | ind2 => exact absurd rfl hne

include hc in
lemma empty_sound : Sound sb (sb.empty.Live sb) sb.empty := by
  have hroot : ∀ {i p}, sb.empty.Live sb i → sb.empty.ref (sb.empty.inodes i) p ≠ 0 →
      i = 2 ∧ p = .data 0 ∧ sb.empty.ref (sb.empty.inodes i) p = sb.dataStart := by
    intro i p hi hne
    obtain rfl := (empty_live hc).1 hi
    exact ⟨rfl, empty_ref hne⟩
  refine ⟨⟨?_, ?_⟩, fun b hb => (formatMap_eq hc).2 (.inl hb.le), fun i hi => hi, fun i hi => ?_⟩
  · intro ⟨i, p⟩ hi hne
    obtain ⟨-, -, heq⟩ := hroot hi hne
    unfold refs
    rw [heq]
    exact ⟨le_rfl, hc.region, (formatMap_eq hc).2 (.inl le_rfl)⟩
  · intro ⟨i, p⟩ hi ⟨j, q⟩ hj hne heq
    obtain ⟨rfl, rfl, -⟩ := hroot hi hne
    rw [heq] at hne
    obtain ⟨rfl, rfl, -⟩ := hroot hj hne
    rfl
  · obtain rfl := (empty_live hc).1 hi
    rw [empty_root, nblocks_root]
    decide

include hc in
lemma good_empty : Good sb sb.empty := by
  have hty : (sb.empty.inodes 2).ty = some .dir := by
    change FileType.ofMode (sIfdir ||| 0o755) = _
    decide
  have hlink : ∀ i s, (sb.empty.graph sb).link i s = none := by
    intro i s
    rw [Option.eq_none_iff_forall_not_mem]
    intro e he
    obtain ⟨⟨hi, -⟩, h2, hlt, -⟩ := graph_link.1 he
    obtain rfl := (empty_live hc).1 hi
    rw [empty_root, entries_root] at hlt
    omega
  refine ⟨⟨empty_sound hc, ⟨(empty_live hc).2 rfl, hty, ?_⟩, fun i hi => ?_⟩, ?_⟩
  · exact fun h => by cases h
  · obtain rfl := (empty_live hc).1 hi
    refine ⟨.inr hty, fun _ => ?_, fun _ _ => ?_⟩
    · exact empty_dirOk hc
    · rw [empty_root, entries_root]
      exact ⟨le_rfl, empty_dot hc, 2, by decide, empty_dotdot hc⟩
  · constructor <;> intro i s e <;> simp [hlink]

end empty

def Disk.Refers (d : Disk) (x : Inode) : Place → ℕ → Prop
  | .data k, b => k < x.nblocks ∧ d.blockAddrOpt x k = .ok (some b)
  | .ind, b => x.indirect = b ∧ b ≠ 0
  | .ind2, b => x.indirect2 = b ∧ b ≠ 0

lemma Disk.Refers.ref (h : d.Refers x p b) : d.ref x p = b ∧ b ≠ 0 := by
  cases p with
  | data k =>
    obtain ⟨hk, haddr⟩ := h
    by_cases hmax : k < maxBlocksV2
    · grind [blockAddrOpt_eq, ref_data]
    · grind [blockAddrOpt, maxBlocksV2]
  | ind | ind2 => exact h

/-- A block that a live inode refers to lies in the data region, has its bit set and no other
owner. -/
def Disk.Owned (sb : Superblock) (d : Disk) : Prop :=
  ∀ i p b, d.Live sb i → d.Refers (d.inodes i) p b →
    (sb.dataStart ≤ b ∧ b < sb.totalBlocks) ∧ d.map b = true ∧
      ∀ j q, d.Live sb j → d.Refers (d.inodes j) q b → j = i ∧ q = p

lemma Sound.owned (h : Sound sb (d.Live sb) d) : d.Owned sb := by
  intro i p b hi href
  obtain ⟨rfl, hne⟩ := href.ref
  obtain ⟨hlow, htotal, hbit⟩ := h.ref_lt hi hne
  refine ⟨⟨hlow, htotal⟩, hbit, fun j q hj href' => ?_⟩
  obtain ⟨heq, -⟩ := href'.ref
  exact h.ref_inj hj hi (heq ▸ hne) heq

lemma run_good (hf : formatV2 total = some (sb, d)) (hsmall : total < 2 ^ 32)
    (hfits : MapFits total) (hops : Always (fsStep sb) (fun d op => op.Safe sb d) d ops) :
    sb.Covered ∧ Good sb (run (fsStep sb) d ops) := by
  obtain ⟨hlay, rfl⟩ := formatV2_eq hf
  have hc := covered_of_layout hlay hsmall hfits
  refine ⟨hc, run_induction (good_empty hc) (fun d op h hop => ?_) hops⟩
  exact wp_last (wp_mono (wp_prog hc h op hop) (fun _ h => h) (fun _ _ h => h.1) fun _ _ h => h.1)

/-- Every run of safe calls keeps the blocks with their owners. -/
theorem run_owned (hf : formatV2 total = some (sb, d)) (hsmall : total < 2 ^ 32)
    (hfits : MapFits total) (ops : List FsOp)
    (hops : Always (fsStep sb) (fun d op => op.Safe sb d) d ops) :
    (run (fsStep sb) d ops).Owned sb :=
  (run_good hf hsmall hfits hops).2.sound.owned

/-- The directories of a store that is used by safe calls are a graph: records name inodes in
use, of the type they say, no inode has two names, and every call changes the graph as it should
or fails with at most a name lost or an inode without one. -/
theorem run_refines_graph (hf : formatV2 total = some (sb, d)) (hsmall : total < 2 ^ 32)
    (hfits : MapFits total) (ops : List FsOp)
    (hops : Always (fsStep sb) (fun d op => op.Safe sb d) d ops) (d' : Disk)
    (hd' : run (fsStep sb) d ops = d') : (d'.graph sb).Ok ∧ ∀ op : FsOp, op.Safe sb d' →
      (∀ r, (op.prog sb d').res = .ok r → op.Done (d'.graph sb) ((fsStep sb d' op).graph sb)) ∧
      ∀ e, (op.prog sb d').res = .error e →
        op.Failed (d'.graph sb) ((fsStep sb d' op).graph sb) := by
  obtain ⟨hc, hgood⟩ := run_good hf hsmall hfits hops
  rw [hd'] at hgood
  refine ⟨hgood.names, fun op hop => ?_⟩
  have hwp := wp_prog hc hgood op hop
  exact ⟨fun r hr => (wp_ok hwp hr).2, fun e he => (wp_error hwp he).2⟩

/-- A file is made, written, cut short and moved into a new directory; another one comes
and goes. -/
def tidyRun : List FsOp :=
  [.createFile 2 [97] 0o644, .write 3 0 (List.replicate 700 7), .truncate 3 100,
    .createDir 2 [98] 0o755,
    .rename 2 [97] 4 [99], .createFile 2 [97] 0o644, .write 5 10 [1, 2, 3], .unlink 2 [97]]

/-- A file is cut to one block and grows again. -/
def regrowRun : List FsOp :=
  [.createFile 2 [97] 0o644, .write 3 0 (List.replicate 1024 7), .truncate 3 512, .truncate 3 1024]

def small : Superblock where
  inodeCount := 64
  inodeStart := 2
  dataStart := 10
  rootInode := 2
  totalBlocks := 14
  allocStart := 1
  allocBlocks := 1

lemma formatV2_small : formatV2 14 = some (small, small.empty) := rfl

set_option maxRecDepth 100000 in
theorem run_owned_tidyRun : (run (fsStep small) small.empty tidyRun).Live small 3 ∧
    (run (fsStep small) small.empty tidyRun).Owned small := by
  refine ⟨by decide +kernel, run_owned formatV2_small (by decide) (by unfold MapFits; decide) _ ?_⟩
  decide +kernel

set_option maxRecDepth 100000 in
theorem tidyRun_refines_graph : (run (fsStep small) small.empty tidyRun).Live small 4 ∧
    ((run (fsStep small) small.empty tidyRun).graph small).Ok := by
  refine ⟨by decide +kernel,
    (run_refines_graph formatV2_small (by decide) (by unfold MapFits; decide)
    _ ?_ _ rfl).1⟩
  decide +kernel

set_option maxRecDepth 100000 in
/-- The pointer behind the end was not cleared, so the file takes back a block that is
free. -/
theorem not_owned_regrowRun : ¬(run (fsStep small) small.empty regrowRun).Owned small := by
  intro h
  have hlive : (run (fsStep small) small.empty regrowRun).Live small 3 := by decide +kernel
  have hsize : 1 < ((run (fsStep small) small.empty regrowRun).inodes 3).nblocks := by
    decide +kernel
  have haddr : (run (fsStep small) small.empty regrowRun).blockAddrOpt
      ((run (fsStep small) small.empty regrowRun).inodes 3) 1 = .ok (some 12) := by decide +kernel
  obtain ⟨-, hbit, -⟩ := h 3 (.data 1) 12 hlive ⟨hsize, haddr⟩
  revert hbit
  decide +kernel

end AeroSLS.Posix
