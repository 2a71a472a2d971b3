import AeroSLS.Posix.Directories

namespace AeroSLS.Posix

open AeroSLS.Bytes AeroSLS.Crash List Function

variable {d : Disk}

/-- The pointers between the end of the file and a new end are empty. -/
def Fresh (d : Disk) (x : Inode) (n : ℕ) : Prop :=
  ∀ k, x.nblocks ≤ k → k < blocksFor n → d.slot x k = 0

lemma Wrote.of_filled (h : Filled sb K i n d x d' x')
    (h' : Wrote sb K i n d' x' offset lo hi buf d'' x'') :
    Wrote sb K i n d x offset lo hi buf d'' x'' := by
  refine ⟨h.toGrown.trans h'.toGrown, fun pos hpos => ?_, h'.slots⟩
  rw [h'.byte pos hpos, h.byte hpos]

lemma Partly.of_filled_partly (h : Filled sb K i n d x d' x')
    (h' : Partly sb K i n d' x' lo hi d'') : Partly sb K i n d x lo hi d'' := by
  obtain ⟨x2, hgrown, hbyte⟩ := h'
  refine ⟨x2, h.toGrown.trans hgrown, fun pos hpos hout => ?_⟩
  rw [hbyte pos hpos hout, h.byte hpos]

lemma blocksFor_le_max (h : n ≤ maxFileBytesV2) : blocksFor n ≤ maxBlocksV2 := by
  unfold maxFileBytesV2 at h
  unfold blocksFor blockSize at *
  omega

lemma inode_eq (h : d.inode sb i = .ok x) : d.inodes i = x := by
  unfold Disk.inode at h
  split_ifs at h
  exact Except.ok.inj h

/-- Bits of blocks have been cleared that nothing in `V` refers to. -/
structure Cleared (sb : Superblock) (K : ℕ → Prop) (V d d' : Disk) : Prop where
  inodes : d'.inodes = d.inodes
  blocks : d'.blocks = d.blocks
  bits : ∀ j, d'.map (8 * sb.split + j) = d.map (8 * sb.split + j)
  sound : Sound sb K { V with map := d'.map }

lemma Cleared.refl (h : Sound sb K { V with map := d.map }) : Cleared sb K V d d :=
  ⟨rfl, rfl, fun _ => rfl, h⟩

/-- A block may be given back: it lies in the data region and `V` does not refer to it. -/
structure Loose (sb : Superblock) (K : ℕ → Prop) (V : Disk) (b : ℕ) : Prop where
  low : sb.dataStart ≤ b
  total : b < sb.totalBlocks
  free : ∀ j p, K j → V.ref (V.inodes j) p ≠ b

section

variable (hc : sb.Covered) (h : Cleared sb K V d d')
include hc h

lemma wp_freeLoose (hb : Loose sb K V b) :
    wp (Cleared sb K V d) (freeBlock sb b) (fun _ d'' => Cleared sb K V d d'') E d' := by
  have hsplit := totalBlocks_le_split sb
  have hlow := hb.low
  have htotal := hb.total
  have hstart := hc.start
  have hstep : ∀ m, (∀ c, c ≠ b → m c = d'.map c) → Cleared sb K V d { d' with map := m } := by
    intro m hm
    refine ⟨h.inodes, h.blocks, fun j => ?_, ?_⟩
    · rw [← h.bits]
      exact hm _ (by omega)
    · exact h.sound.clear hb.low hb.total hb.free hm
  apply wp_freeBlock hc hb.total (by omega) hstep
  exact hstep _ fun c hcb => update_of_ne hcb ..

lemma wp_freeFileBlock (hblk : blk < maxBlocksV2)
    (hslot : d.slot x blk ≠ 0 → Loose sb K V (d.slot x blk)) :
    wp (Cleared sb K V d) (freeFileBlock sb x blk) (fun _ d'' => Cleared sb K V d d'') E d' := by
  have hsame : d'.slot x blk = d.slot x blk :=
    slot_congr (fun _ => by rw [h.blocks]) (fun _ => by rw [h.blocks]) blk
  unfold freeFileBlock
  rw [wp_bind, wp_attempt, blockAddrOpt_eq hblk, hsame]
  split_ifs with h0
  · exact wp_pure.2 h
  · exact wp_freeLoose hc h (hslot h0)

lemma wp_freeFileBlocks (hblks : ∀ blk ∈ blks, blk < maxBlocksV2)
    (hslot : ∀ blk ∈ blks, d.slot x blk ≠ 0 → Loose sb K V (d.slot x blk)) :
    wp (Cleared sb K V d) (Prog.each (freeFileBlock sb x) blks)
      (fun _ d'' => Cleared sb K V d d'') E d' := by
  induction blks generalizing d' with
  | nil => exact wp_pure.2 h
  | cons blk blks ih =>
    apply wp_seq (wp_freeFileBlock hc h (hblks blk (mem_cons_self ..))
      (hslot blk (mem_cons_self ..))) _
    intro _ d1 h1
    exact ih h1 (fun c hmem => hblks c (mem_cons_of_mem _ hmem))
      fun c hmem => hslot c (mem_cons_of_mem _ hmem)

lemma wp_freeWhen (hb : b ≠ 0 → Loose sb K V b) :
    wp (Cleared sb K V d) (Prog.when (b ≠ 0) (freeBlock sb b))
      (fun _ d'' => Cleared sb K V d d'') E d' := by
  rw [wp_when]
  exact ⟨fun hne => wp_freeLoose hc h (hb hne), fun _ => h⟩

end

/-- The record that a shrink leaves. -/
def Inode.shrunk (x : Inode) (keep : ℕ) : Inode :=
  { x with
    indirect := if keep ≤ ndirectV2 then 0 else x.indirect
    indirect2 := if keep ≤ ndirectV2 + nindirect then 0 else x.indirect2 }

lemma slot_shrunk (hk : k < keep) : d.slot (x.shrunk keep) k = d.slot x k := by
  unfold Disk.slot Inode.indirectFor Inode.shrunk
  split_ifs <;> first | rfl | omega

/-- The shrunk file refers to nothing that it has not referred to before. -/
theorem ref_shrunk (hlen : len < x.size)
    (hne : d.ref { x.shrunk (blocksFor len) with size := len } p ≠ 0) :
    d.ref { x.shrunk (blocksFor len) with size := len } p = d.ref x p := by
  cases p with
  | data k =>
    have hk : k < blocksFor len := by
      by_contra hk
      exact hne (if_neg hk)
    have hk' : k < x.nblocks := by
      unfold Inode.nblocks blocksFor blockSize at *
      omega
    rw [ref_data hk, ref_data hk']
    exact slot_shrunk hk
  | ind =>
    change (if blocksFor len ≤ ndirectV2 then 0 else x.indirect) ≠ 0 at hne
    change (if blocksFor len ≤ ndirectV2 then 0 else x.indirect) = x.indirect
    split_ifs at hne ⊢
    · exact absurd rfl hne
    · rfl
  | ind2 =>
    change (if blocksFor len ≤ ndirectV2 + nindirect then 0 else x.indirect2) ≠ 0 at hne
    change (if blocksFor len ≤ ndirectV2 + nindirect then 0 else x.indirect2) = x.indirect2
    split_ifs at hne ⊢
    · exact absurd rfl hne
    · rfl

lemma Sound.shrunk (hS : Sound sb K d) (hx : d.inodes i = x) (hlen : len < x.size) :
    Sound sb K (d.put i (x.shrunk (blocksFor len)) len) := by
  refine hS.mono rfl (fun _ hj => hj) ?_ ?_
  · intro j p hj hne
    by_cases hji : j = i
    · grind [put_ref_self, ref_shrunk]
    · rw [put_ref_ne hji]
  intro j hj
  have hsize := hS.size j hj
  by_cases hji : j = i
  · grind [put_inodes_self, Inode.nblocks, blocksFor, blockSize]
  · rw [put_inodes_ne hji]
    exact hsize

lemma Sound.loose_shrunk (hS : Sound sb K d) (hi : K i) (hx : d.inodes i = x)
    (hlen : len < x.size) (hne : d.ref x p ≠ 0)
    (hgone : d.ref { x.shrunk (blocksFor len) with size := len } p = 0) :
    Loose sb K (d.put i (x.shrunk (blocksFor len)) len) (d.ref x p) := by
  subst hx
  obtain ⟨hlow, htotal, -⟩ := hS.ref_lt hi hne
  refine ⟨hlow, htotal, fun j q hj heq => ?_⟩
  by_cases hji : j = i
  · grind [put_ref_self, ref_shrunk, hS.ref_inj]
  · grind [put_ref_ne, hS.ref_inj]

/-- The data blocks past the new end may be given back. -/
lemma Sound.loose_cut (hS : Sound sb K d) (hi : K i) (hx : d.inodes i = x) (hlen : len < x.size)
    (hblk : blk ∈ range' (blocksFor len) (x.nblocks - blocksFor len)) : blk < maxBlocksV2 ∧
      (d.slot x blk ≠ 0 →
        Loose sb K (d.put i (x.shrunk (blocksFor len)) len) (d.slot x blk)) := by
  have hsize := hx ▸ hS.size i hi
  rw [mem_range'_1] at hblk
  refine ⟨by omega, fun hne => ?_⟩
  have hdata : d.ref x (.data blk) = d.slot x blk := ref_data (by omega)
  rw [← hdata] at hne ⊢
  exact hS.loose_shrunk hi hx hlen hne (if_neg (by rw [nblocks_size]; omega))

theorem wp_dropPointer {c : Prop} [Decidable c] (hc : sb.Covered) (h : Cleared sb K V d d')
    (hb : c → b ≠ 0 → Loose sb K V b) (hx : b = 0 → x' = x) :
    wp (Cleared sb K V d) (if c ∧ b ≠ 0 then do
        freeBlock sb b
        pure x'
      else pure x)
      (fun r d'' => Cleared sb K V d d'' ∧ r = if c then x' else x) E d' := by
  split_ifs with hcond hkeep hkeep
  · exact wp_seq (wp_freeLoose hc h (hb hcond.1 hcond.2)) fun _ _ h => wp_pure.2 ⟨h, rfl⟩
  · exact absurd hcond.1 hkeep
  · refine wp_pure.2 ⟨h, (hx ?_).symm⟩
    by_contra hne
    exact hcond ⟨hkeep, hne⟩
  · exact wp_pure.2 ⟨h, rfl⟩

lemma wp_storeInodeBit (hc : sb.Covered) (hi : i ≤ sb.inodeCount)
    (hC : ∀ m, (∀ c, c ≠ 8 * sb.split + i → m c = d.map c) → C { d with map := m })
    (hQ : Q () { d with map := update d.map (8 * sb.split + i) v }) :
    wp C (storeAllocMap sb (bitmapPut v sb.inodeBits d.map i)) Q E d := by
  have hput : bitmapPut v sb.inodeBits d.map i = update d.map (8 * sb.split + i) v := by
    unfold bitmapPut
    rw [if_pos (inode_in_map hc hi)]
    rfl
  rw [hput]
  apply wp_storeAllocMap
  · grind
  · intro c hcov
    apply update_of_ne
    have := hc.covers
    omega
  · exact hQ

lemma Sound.inodeBit (hc : sb.Covered) (h : Sound sb K d) (hi : ¬K i)
    (hm : ∀ c, c ≠ 8 * sb.split + i → m c = d.map c) : Sound sb K { d with map := m } := by
  have hsplit := totalBlocks_le_split sb
  have hregion := hc.region
  apply h.withMap
  · grind [h.low]
  · intro j p hj hne
    have := h.ref_lt hj hne
    rw [hm _ (by omega)]
    exact this.2.2
  · intro j hj
    have hji : j ≠ i := fun heq => hi (heq ▸ hj)
    rw [hm _ (by omega)]
    exact (h.live j hj).2.2

lemma Sound.setInode (h : Sound sb K d) (hi : ¬K i) (y : Inode) : Sound sb K (d.setInode i y) := by
  have hne : ∀ j, K j → (d.setInode i y).inodes j = d.inodes j := by
    intro j hj
    apply update_of_ne
    rintro rfl
    exact hi hj
  refine h.mono rfl (fun _ hj => hj) ?_ ?_
  · intro j p hj _
    rw [hne j hj]
    cases p <;> rfl
  · intro j hj
    rw [hne j hj]
    exact h.size j hj

lemma nblocks_fresh : (Inode.fresh mode).nblocks = 0 := by
  change blocksFor 0 = 0
  decide

lemma ref_fresh : d.ref (Inode.fresh mode) p = 0 := by
  cases p with
  | data => simp [Disk.ref, nblocks_fresh]
  | ind | ind2 => rfl

theorem Sound.addInode (h : Sound sb K d) (h2 : 2 ≤ i) (hcount : i ≤ sb.inodeCount)
    (hbit : d.map (8 * sb.split + i)) (hrec : d.inodes i = Inode.fresh mode) :
    Sound sb (fun j => K j ∨ j = i) d := by
  have hzero : ∀ p, d.ref (d.inodes i) p = 0 := fun p => by
    rw [hrec]
    exact ref_fresh
  have hold : ∀ j p, K j ∨ j = i → d.ref (d.inodes j) p ≠ 0 → K j := by grind
  constructor
  · exact h.own.mono (fun q hq hne => ⟨hold q.1 q.2 hq hne, rfl⟩) fun _ _ _ hgood => hgood
  · exact h.low
  · rintro j (hj | rfl)
    · exact h.live j hj
    · exact ⟨h2, hcount, hbit⟩
  · rintro j (hj | rfl)
    · exact h.size j hj
    · rw [hrec, nblocks_fresh]
      exact Nat.zero_le _

/-- The bit of a free inode is set, then its record is cleared; until then it is none of `K`. -/
theorem wp_allocInode (hc : sb.Covered) {Q : ℕ → Disk → Prop} (hnone : E .nospc d)
    (hC : ∀ i m, 2 ≤ i → i ≤ sb.inodeCount → d.map (8 * sb.split + i) = false →
      (∀ c, c ≠ 8 * sb.split + i → m c = d.map c) → C { d with map := m })
    (hQ : ∀ i, 2 ≤ i → i ≤ sb.inodeCount → d.map (8 * sb.split + i) = false →
      C ({ d with map := update d.map (8 * sb.split + i) true }.setInode i (.fresh mode)) ∧
      Q i ({ d with map := update d.map (8 * sb.split + i) true }.setInode i (.fresh mode))) :
    wp C (allocInode sb mode) Q E d := by
  unfold allocInode
  rw [wp_bind, wp_gets]
  split
  · exact wp_fail.2 hnone
  rename_i i hfind
  obtain ⟨h2, hstop, hget⟩ := bitmapFindClear_some hfind
  have hcount : i ≤ sb.inodeCount := by omega
  have hclear : d.map (8 * sb.split + i) = false := by
    unfold bitmapGet at hget
    rwa [decide_eq_true (inode_in_map hc hcount)] at hget
  rw [wp_bind]
  apply wp_storeInodeBit hc hcount
  · exact fun m hm => hC i m h2 hcount hclear hm
  · rw [wp_bind, writeInode, wp_write, wp_pure]
    exact hQ i h2 hcount hclear

lemma Sound.loose (hS : Sound sb K d) (hi : K i) (hx : d.inodes i = x) (hne : d.ref x p ≠ 0) :
    Loose sb (fun j => K j ∧ j ≠ i) d (d.ref x p) := by
  subst hx
  obtain ⟨hlow, htotal, -⟩ := hS.ref_lt hi hne
  refine ⟨hlow, htotal, fun j q hj heq => ?_⟩
  exact hj.2 (hS.ref_inj hi hj.1 hne heq.symm).1.symm

lemma Sound.without (hS : Sound sb K d) (i : ℕ) : Sound sb (fun j => K j ∧ j ≠ i) d :=
  hS.mono rfl (fun _ hj => hj.1) (fun _ _ _ _ => rfl) fun j hj => hS.size j hj.1

/-- What is left of a file: only its bit. -/
structure Gone (sb : Superblock) (K : ℕ → Prop) (i : ℕ) (d d' : Disk) : Prop where
  inodes : d'.inodes = d.inodes
  blocks : d'.blocks = d.blocks
  bits : ∀ j, j ≠ i → d'.map (8 * sb.split + j) = d.map (8 * sb.split + j)
  sound : Sound sb (fun j => K j ∧ j ≠ i) d'

section

variable (hc : sb.Covered) (hS : Sound sb K d) (hi : K i) (hx : d.inodes i = x)
include hc hS hi hx

lemma wp_writeCall {buf : List UInt8} {Q : ℕ → Disk → Prop}
    (hn : n = max x.size (offset + buf.length)) (hfresh : Fresh d x n)
    (hE0 : ∀ e, E e d)
    (hC : ∀ d', x.ty = some .file →
      Partly sb K i n d x offset (offset + buf.length) d' → C d')
    (hE : ∀ e d', x.ty = some .file →
      Partly sb K i n d x offset (offset + buf.length) d' → E e d')
    (hQ : ∀ d' x', x.ty = some .file → offset + buf.length ≤ maxFileBytesV2 →
      Wrote sb K i n d x offset offset (offset + buf.length) (Buf.ofList buf) d' x' →
      C (d'.put i x' n) ∧ Q buf.length (d'.put i x' n)) : wp C (write sb i offset buf) Q E d := by
  subst hx
  unfold write inode
  rw [wp_bind, wp_attempt]
  rcases hino : d.inode sb i with e | x
  · exact hE0 e
  obtain rfl := inode_eq hino
  dsimp only
  by_cases hty : (d.inodes i).ty = some .file
  · rw [if_neg (not_not.2 hty)]
    by_cases hbig : maxFileBytesV2 < offset + buf.length
    · rw [if_pos hbig]
      exact wp_fail.2 (hE0 _)
    rw [if_neg hbig]
    have hsize := size_le_of_nblocks (hS.size i hi)
    have hput := hS.enlarge (blocksFor_le_max (by omega : n ≤ maxFileBytesV2)) hfresh
    rw [wp_bind, wp_gets, wp_bind]
    apply wp_mono (wp_reserveBlocks hc hput)
    · exact fun d1 h1 => hC d1 hty (.of_filled (h1.filled hput hi))
    · intro rs d1 ⟨h1, hR1⟩
      have hfill := h1.filled hput hi
      rw [wp_bind]
      apply wp_mono (wp_writeLoop hc hi hfill.sound hR1 (by omega) _ 0 (Nat.zero_le _) (by omega))
      · exact fun d2 h2 => hC d2 hty (.of_filled_partly hfill h2)
      · intro r d2 h2
        have hw := Wrote.of_filled hfill h2
        obtain ⟨hC', hQ'⟩ := hQ d2 r.1 hty (by omega) hw
        rw [wp_bind, writeInode, wp_write, wp_pure, hw.size, ← hn]
        exact ⟨hC', hQ'⟩
      · exact fun e d2 h2 => hE e d2 hty (.of_filled_partly hfill h2)
    · exact fun _ _ h => h.elim
  · rw [if_pos hty]
    exact wp_fail.2 (hE0 _)

/-- The blocks past the new end are given back, and the indirect blocks that are left
without a use. -/
theorem wp_shrink (hlen : len < x.size) :
    let V := d.put i (x.shrunk (blocksFor len)) len
    wp (Cleared sb K V d) (resizeBlocks sb x len)
      (fun r d' => Cleared sb K V d d' ∧ r = x.shrunk (blocksFor len)) E d := by
  intro V
  have hstart : Cleared sb K V d d := .refl (hS.shrunk hx hlen)
  have hcut : ∀ blk ∈ range' (blocksFor len) (x.nblocks - blocksFor len), _ := fun blk hblk =>
    hS.loose_cut hi hx hlen hblk
  have hind : blocksFor len ≤ ndirectV2 → x.indirect ≠ 0 →
      Loose sb K V x.indirect := fun hkeep hne =>
    hS.loose_shrunk hi hx hlen (p := .ind) hne (if_pos hkeep)
  have hind2 : blocksFor len ≤ ndirectV2 + nindirect → x.indirect2 ≠ 0 →
      Loose sb K V x.indirect2 := fun hkeep hne =>
    hS.loose_shrunk hi hx hlen (p := .ind2) hne (if_pos hkeep)
  unfold resizeBlocks
  rw [if_pos hlen]
  apply wp_seq (wp_freeFileBlocks hc hstart (fun blk hblk => (hcut blk hblk).1)
    fun blk hblk => (hcut blk hblk).2) _
  intro _ d1 h1
  refine wp_seq (wp_dropPointer hc h1 hind fun h0 => by rw [← h0]) ?_
  intro y d2 ⟨h2, hy⟩
  have hy2 : y.indirect2 = x.indirect2 := by
    rw [hy]
    split_ifs <;> rfl
  refine wp_imp (wp_dropPointer hc h2 (hy2 ▸ hind2) fun h0 => by rw [← h0]) ?_
  rintro _ d3 ⟨h3, rfl⟩
  refine ⟨h3, ?_⟩
  rw [hy]
  unfold Inode.shrunk
  split_ifs <;> rfl

lemma wp_grow (hlen : x.size ≤ len) (hmax : len ≤ maxFileBytesV2)
    (hfresh : Fresh d x len) :
    wp (fun d'' => ∃ x'', Filled sb K i len d x d'' x'') (resizeBlocks sb x len)
      (fun x' d' => Filled sb K i len d x d' x' ∧
        ∀ k, x.nblocks ≤ k → k < blocksFor len → d'.slot x' k ≠ 0)
      (fun _ d'' => ∃ x'', Filled sb K i len d x d'' x'') d := by
  subst hx
  have hput := hS.enlarge (blocksFor_le_max hmax) hfresh
  have hR : Spares sb K (d.put i (d.inodes i) len) [] := ⟨nodup_nil, fun b hb => by cases hb⟩
  unfold resizeBlocks
  rw [if_neg (by omega)]
  apply wp_imp (wp_growLoop hc hi hput hR fun blk hblk => ?_) _
  · grind
  · rw [mem_range'_1] at hblk
    omega

lemma wp_truncateCall (hfresh : x.size ≤ len → Fresh d x len)
    (hE0 : ∀ e, E e d)
    (hfillC : ∀ d' x', x.ty = some .file → x.size ≤ len →
      Filled sb K i len d x d' x' → C d')
    (hfillE : ∀ e d' x', x.ty = some .file → x.size ≤ len →
      Filled sb K i len d x d' x' → E e d')
    (hfill : ∀ d' x', x.ty = some .file → x.size ≤ len →
      Filled sb K i len d x d' x' →
      (∀ k, x.nblocks ≤ k → k < blocksFor len → d'.slot x' k ≠ 0) →
      C (d'.put i x' len) ∧ Q () (d'.put i x' len))
    (hclearC : ∀ d', x.ty = some .file → len < x.size →
      Cleared sb K (d.put i (x.shrunk (blocksFor len)) len) d d' → C d')
    (hclear : ∀ d', x.ty = some .file → len < x.size →
      Cleared sb K (d.put i (x.shrunk (blocksFor len)) len) d d' →
      C (d'.put i (x.shrunk (blocksFor len)) len) ∧
        Q () (d'.put i (x.shrunk (blocksFor len)) len)) :
    wp C (truncate sb i len) Q E d := by
  subst hx
  unfold truncate inode
  rw [wp_bind, wp_attempt]
  rcases hino : d.inode sb i with e | x
  · exact hE0 e
  obtain rfl := inode_eq hino
  dsimp only
  by_cases hty : (d.inodes i).ty = some .file
  · rw [if_neg (not_not.2 hty)]
    by_cases hmax : maxFileBytesV2 < len
    · rw [if_pos hmax]
      exact wp_fail.2 (hE0 _)
    rw [if_neg hmax, wp_bind]
    obtain hlen | hlen := Nat.lt_or_ge len (d.inodes i).size
    · refine wp_mono (wp_shrink hc hS hi rfl hlen) (fun d' h => hclearC d' hty hlen h) ?_
        fun _ _ h => h
      rintro _ d' ⟨h, rfl⟩
      rw [writeInode, wp_write]
      exact hclear d' hty hlen h
    refine wp_mono (wp_grow hc hS hi rfl hlen (Nat.not_lt.1 hmax) (hfresh hlen)) ?_ ?_ ?_
    · rintro d' ⟨x', h⟩
      exact hfillC d' x' hty hlen h
    · rintro x' d' ⟨h, hslots⟩
      rw [writeInode, wp_write]
      exact hfill d' x' hty hlen h hslots
    · rintro e d' ⟨x', h⟩
      exact hfillE e d' x' hty hlen h
  · rw [if_pos hty]
    exact wp_fail.2 (hE0 _)

lemma wp_freeFile (hC : ∀ d', Gone sb K i d d' → C d')
    (hQ : ∀ d', Gone sb K i d d' → d'.map (8 * sb.split + i) = false → Q () d') :
    wp C (freeFile sb i x) Q E d := by
  have hsize := hx ▸ hS.size i hi
  obtain ⟨-, hcount, -⟩ := hS.live i hi
  have hstart : Cleared sb (fun j => K j ∧ j ≠ i) d d d := .refl (hS.without i)
  have hgone : ∀ d', Cleared sb (fun j => K j ∧ j ≠ i) d d d' → Gone sb K i d d' := by
    intro d' h
    refine ⟨h.inodes, h.blocks, fun j _ => h.bits j, ?_⟩
    have hsame : d' = { d with map := d'.map } := by rw [← h.inodes, ← h.blocks]
    rw [hsame]
    exact h.sound
  have hslot : ∀ blk ∈ range x.nblocks, d.slot x blk ≠ 0 →
      Loose sb (fun j => K j ∧ j ≠ i) d (d.slot x blk) := by
    intro blk hblk hne
    have hdata : d.ref x (.data blk) = d.slot x blk :=
      ref_data (mem_range.1 hblk)
    rw [← hdata] at hne ⊢
    exact hS.loose hi hx hne
  unfold freeFile
  rw [wp_bind]
  refine wp_mono (wp_freeFileBlocks hc hstart (fun blk hblk => ?_) hslot)
    (fun d' h => hC d' (hgone d' h)) ?_ fun _ _ h => h
  · have := mem_range.1 hblk
    omega
  intro _ d1 h1
  rw [wp_bind]
  refine wp_mono (wp_freeWhen hc h1 fun hne => hS.loose hi hx (p := .ind) hne)
    (fun d' h => hC d' (hgone d' h)) ?_ fun _ _ h => h
  intro _ d2 h2
  rw [wp_bind]
  refine wp_mono (wp_freeWhen hc h2 fun hne => hS.loose hi hx (p := .ind2) hne)
    (fun d' h => hC d' (hgone d' h)) ?_ fun _ _ h => h
  intro _ d3 h3
  -- last, the bit of the inode
  have h4 := hgone d3 h3
  have hlast : ∀ m, (∀ c, c ≠ 8 * sb.split + i → m c = d3.map c) →
      Gone sb K i d { d3 with map := m } := by
    intro m hm
    refine ⟨h4.inodes, h4.blocks, fun j hj => ?_, ?_⟩
    · rw [← h4.bits j hj]
      exact hm _ (by omega)
    · exact h4.sound.inodeBit hc (fun h => h.2 rfl) hm
  unfold freeInode
  rw [wp_bind, wp_gets]
  apply wp_storeInodeBit hc hcount
  · exact fun m hm => hC _ (hlast m hm)
  · exact hQ _ (hlast _ fun c hcb => update_of_ne hcb ..) (update_self ..)

end

end AeroSLS.Posix
