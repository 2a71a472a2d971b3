import AeroSLS.Posix.Growing

namespace AeroSLS.Posix

open AeroSLS.Bytes AeroSLS.Crash

variable {d : Disk} {x : Inode}

section

variable (h : Grown sb K i n d x d' x')
include h

lemma indirectFor_eq (h0 : (x.indirectFor k).1 ≠ 0) : x'.indirectFor k = x.indirectFor k := by
  unfold Inode.indirectFor at h0 ⊢
  split_ifs at h0 ⊢
  · rw [h.ind h0]
  · rw [h.ind2 h0]

lemma Grown.slot_record : d'.slot x k = 0 ∧ d.slot x k = 0 ∨ d'.slot x k = d'.slot x' k := by
  by_cases hdir : k < ndirectV2
  · grind [slot_direct, h.slot]
  · by_cases hmax : k < maxBlocksV2
    · grind [slot_indirect, indirectFor_eq]
    · grind [Disk.slot]

lemma Grown.slot_record_of_ne (hne : d.slot x k ≠ 0) : d'.slot x k = d.slot x k := by
  obtain ⟨-, h0⟩ | heq := h.slot_record
  · exact absurd h0 hne
  · rw [heq, h.slot k hne]

lemma Grown.tail_record (hk : blocksFor n ≤ k) : d'.slot x k = d.slot x k := by
  obtain ⟨h0, h0'⟩ | heq := h.slot_record
  · rw [h0, h0']
  · rw [heq, h.tail k hk]

end

theorem Grown.sound_record (h : Grown sb K i n d (d.inodes i) d' x')
    (hn : (d.inodes i).nblocks ≤ blocksFor n) : Sound sb K d' := by
  have hmap : d'.map = (d'.put i x' n).map := rfl
  apply h.sound.mono hmap (fun _ hj => hj)
  · intro j p hj hne
    by_cases hji : j = i
    · subst hji
      rw [put_ref_self]
      rw [h.inodes] at hne ⊢
      cases p with
      | data k =>
        have hk : k < (d.inodes j).nblocks := by
          by_contra hk
          exact hne (if_neg hk)
        rw [ref_data hk] at hne ⊢
        rw [ref_data (by rw [nblocks_size]; omega), slot_size]
        obtain ⟨h0, -⟩ | heq := h.slot_record
        · exact absurd h0 hne
        · exact heq.symm
      | ind => exact h.ind hne
      | ind2 => exact h.ind2 hne
    · rw [put_ref_ne hji]
  · intro j hj
    have := h.sound.size j hj
    by_cases hji : j = i
    · grind [put_inodes_self, nblocks_size, h.inodes]
    · rwa [put_inodes_ne hji] at this

lemma Filled.block_record (h : Filled sb K i n d x d' x') (hk : k < blocksFor n) :
    d'.block x k = d.block x k := by
  obtain ⟨h0, h0'⟩ | heq := h.slot_record
  · rw [Disk.block, if_pos h0, Disk.block, if_pos h0']
  · rw [← h.block k hk, Disk.block, Disk.block, heq]

/-- A file may be given a new size if the pointers up to it are empty. -/
theorem Sound.enlarge (h : Sound sb K d) (hn : blocksFor n ≤ maxBlocksV2)
    (hempty : ∀ k, (d.inodes i).nblocks ≤ k → k < blocksFor n → d.slot (d.inodes i) k = 0) :
    Sound sb K (d.put i (d.inodes i) n) := by
  have hmap : (d.put i (d.inodes i) n).map = d.map := rfl
  apply h.mono hmap (fun _ hj => hj)
  · intro j p hj hne
    by_cases hji : j = i
    · subst hji
      rw [put_ref_self] at hne ⊢
      cases p with
      | data k =>
        have hk : k < blocksFor n := by
          by_contra hk
          exact hne (if_neg hk)
        have hkn : k < Inode.nblocks { d.inodes j with size := n } := hk
        rw [ref_data hkn] at hne ⊢
        refine ref_data ?_
        by_contra hge
        exact hne (hempty k (by omega) hk)
      | ind | ind2 => rfl
    · rw [put_ref_ne hji]
  · intro j hj
    by_cases hji : j = i
    · subst hji
      rwa [put_inodes_self]
    · rw [put_inodes_ne hji]
      exact h.size j hj

lemma readLoop_eq (turns done : ℕ) (hmax : offset + N ≤ maxFileBytesV2)
    (hslots : ∀ pos, offset ≤ pos → pos < offset + N → d.slot x (pos / blockSize) ≠ 0)
    (hdone : done ≤ N) (hturns : N ≤ done + turns) : d.readLoop x offset N turns done =
      .ok ((List.range' (offset + done) (N - done)).map (d.byte x)) := by
  induction turns generalizing done with
  | zero =>
    obtain rfl : done = N := by omega
    simp [Disk.readLoop]
  | succ turns ih =>
    unfold Disk.readLoop
    split_ifs with hlt
    · have hne := hslots (offset + done) (by omega) (by omega)
      have hk : (offset + done) / blockSize < maxBlocksV2 := by
        unfold maxFileBytesV2 at hmax
        exact Nat.div_lt_of_lt_mul (by rw [Nat.mul_comm]; omega)
      have haddr : d.blockAddr x ((offset + done) / blockSize) =
          .ok (d.slot x ((offset + done) / blockSize)) := by
        rw [Disk.blockAddr, blockAddrOpt_eq hk, if_neg hne]
      generalize htake : min (blockSize - (offset + done) % blockSize) (N - done) = take
      have hpos : 0 < take := by
        unfold blockSize at htake
        omega
      have hrest := ih (done + take) (by omega) (by omega)
      dsimp only
      rw [htake, haddr, hrest]
      dsimp only
      congr 1
      -- the chunk of this turn, read through the block it lies in
      have hchunk : (List.range' ((offset + done) % blockSize) take).map
          (d.blocks (d.slot x ((offset + done) / blockSize))) =
          (List.range' (offset + done) take).map (d.byte x) := by
        apply List.ext_getElem
        · simp
        intro t h1 h2
        have ht : t < take := by simpa using h1
        have hdiv : (offset + done + t) / blockSize = (offset + done) / blockSize := by
          unfold blockSize at *
          omega
        have hmod : (offset + done + t) % blockSize = (offset + done) % blockSize + t := by
          unfold blockSize at *
          omega
        simp [Disk.byte, hdiv, hmod, Disk.block, hne]
      rw [hchunk, ← List.map_append]
      congr 1
      have hsplit : N - done = take + (N - (done + take)) := by omega
      rw [hsplit, ← List.range'_append]
      congr 2
      omega
    · obtain rfl : done = N := by omega
      simp

/-- The contents of a file, up to its end. -/
def Disk.contents (d : Disk) (x : Inode) : List UInt8 := (List.range x.size).map (d.byte x)

lemma size_le_of_nblocks (h : x.nblocks ≤ maxBlocksV2) : x.size ≤ maxFileBytesV2 := by
  unfold Inode.nblocks blocksFor blockSize at h
  unfold maxFileBytesV2 blockSize
  omega

lemma readFileBytes_eq (hsize : x.nblocks ≤ maxBlocksV2)
    (hdense : ∀ k < x.nblocks, d.slot x k ≠ 0) : d.readFileBytes x = .ok (d.contents x) := by
  have hmax := size_le_of_nblocks hsize
  unfold Disk.readFileBytes Disk.contents
  rw [readLoop_eq x.size 0 (by omega) _ (by omega) (by omega), Nat.sub_zero, List.range_eq_range']
  intro pos _ hpos
  exact hdense _ (lt_blocksFor (by omega))

end AeroSLS.Posix
