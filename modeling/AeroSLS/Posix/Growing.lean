import AeroSLS.Posix.Owning

namespace AeroSLS.Posix

open AeroSLS.Bytes AeroSLS.Crash List Function

variable {d d' : Disk} {buf : Buf}

lemma cell_copy (hd' : d' = d.setBlock ib ((d.blocks ib).copy (idx * 4) (leBytes b) 4)) :
    d'.cell ib idx = b % 256 ^ 4 ∧ ∀ idx', idx' ≠ idx → d'.cell ib idx' = d.cell ib idx' := by
  have hblock : d'.blocks ib = (d.blocks ib).copy (idx * 4) (leBytes b) 4 := hd' ▸ update_self ..
  constructor
  · rw [Disk.cell, hblock, readLE_congr Buf.copy_agree, readLE_leBytes]
  · intro idx' h
    rw [Disk.cell, hblock]
    exact readLE_congr (Buf.copy_agree_of_disjoint (by omega))

lemma cell_zero (h : d.blocks ib = Buf.zero) : d.cell ib idx = 0 := by
  rw [Disk.cell, h]
  simp [readLE, Buf.zero, Buf.at]

lemma slot_direct (hk : k < ndirectV2) : d.slot x k = x.blocks k := if_pos hk

lemma slot_indirect (hlow : ¬k < ndirectV2) (hk : k < maxBlocksV2) :
    d.slot x k = if (x.indirectFor k).1 = 0 then 0
      else d.cell (x.indirectFor k).1 (x.indirectFor k).2 := by
  rw [Disk.slot, if_neg hlow, if_pos hk]

/-- The place of the indirect pointer for block `blk`. -/
def indPlace (blk : ℕ) : Place := if blk < ndirectV2 + nindirect then .ind else .ind2

lemma ref_indPlace : d.ref x (indPlace blk) = (x.indirectFor blk).1 := by
  unfold indPlace Inode.indirectFor
  split_ifs <;> rfl

lemma indPlace_ne_data : indPlace blk ≠ .data k := by
  unfold indPlace
  split_ifs <;> exact fun h => by cases h

structure Grown (sb : Superblock) (K : ℕ → Prop) (i n : ℕ) (d : Disk) (x : Inode) (d' : Disk)
    (x' : Inode) : Prop where
  sound : Sound sb K (d'.put i x' n)
  inodes : d'.inodes = d.inodes
  bits : ∀ j, d'.map (8 * sb.split + j) = d.map (8 * sb.split + j)
  record : { x' with blocks := x.blocks, indirect := x.indirect, indirect2 := x.indirect2 } = x
  slot : ∀ k, d.slot x k ≠ 0 → d'.slot x' k = d.slot x k
  tail : ∀ k, blocksFor n ≤ k → d'.slot x' k = d.slot x k
  ind : x.indirect ≠ 0 → x'.indirect = x.indirect
  ind2 : x.indirect2 ≠ 0 → x'.indirect2 = x.indirect2
  others : ∀ j, K j → j ≠ i → Untouched d d' (d.inodes j)

lemma Grown.refl (h : Sound sb K (d.put i x n)) : Grown sb K i n d x d x :=
  ⟨h, rfl, fun _ => rfl, rfl, fun _ _ => rfl, fun _ _ => rfl, fun _ => rfl, fun _ => rfl,
    fun _ _ _ => .refl d _⟩

lemma Grown.trans (h : Grown sb K i n d x d' x') (h' : Grown sb K i n d' x' d'' x'') :
    Grown sb K i n d x d'' x'' where
  sound := h'.sound
  inodes := h'.inodes.trans h.inodes
  bits j := (h'.bits j).trans (h.bits j)
  record := by
    have h1 := h.record
    rwa [← h'.record] at h1
  slot k hk := by
    have h1 := h.slot k hk
    rw [h'.slot k (h1 ▸ hk), h1]
  tail k hk := (h'.tail k hk).trans (h.tail k hk)
  ind hne := by
    have h1 := h.ind hne
    rw [h'.ind (h1 ▸ hne), h1]
  ind2 hne := by
    have h1 := h.ind2 hne
    rw [h'.ind2 (h1 ▸ hne), h1]
  others j hj hji := by
    have h1 := h'.others j hj hji
    rw [h.inodes] at h1
    exact (h.others j hj hji).trans h1

lemma Grown.size (h : Grown sb K i n d x d' x') : x'.size = x.size := by
  have := congrArg Inode.size h.record
  exact this

lemma Grown.mode (h : Grown sb K i n d x d' x') : x'.mode = x.mode := by
  have := congrArg Inode.mode h.record
  exact this

/-- Nothing but holes has changed, and these still read as zeros. -/
structure Filled (sb : Superblock) (K : ℕ → Prop) (i n : ℕ) (d : Disk) (x : Inode) (d' : Disk)
    (x' : Inode) : Prop extends Grown sb K i n d x d' x' where
  block : ∀ k < blocksFor n, d'.block x' k = d.block x k

lemma Filled.refl (h : Sound sb K (d.put i x n)) : Filled sb K i n d x d x :=
  ⟨.refl h, fun _ _ => rfl⟩

lemma Filled.trans (h : Filled sb K i n d x d' x') (h' : Filled sb K i n d' x' d'' x'') :
    Filled sb K i n d x d'' x'' :=
  ⟨h.toGrown.trans h'.toGrown, fun k hk => (h'.block k hk).trans (h.block k hk)⟩

section

variable (h : Sound sb K (d.put i x n)) (hi : K i)
include h hi

lemma Sound.put_ref_lt (hne : d.ref { x with size := n } p ≠ 0) :
    sb.dataStart ≤ d.ref { x with size := n } p ∧ d.ref { x with size := n } p < sb.totalBlocks ∧
      d.map (d.ref { x with size := n } p) := by
  have := h.ref_lt hi (p := p)
  rw [put_ref_self] at this
  exact this hne

lemma Sound.put_ref_inj (hne : d.ref { x with size := n } p ≠ 0)
    (heq : d.ref { x with size := n } p = d.ref { x with size := n } q) : p = q := by
  have := h.ref_inj hi hi (p := p) (q := q)
  rw [put_ref_self, put_ref_self] at this
  exact (this hne heq).2

lemma Sound.ref_ne_put (hj : K j) (hji : j ≠ i) (hne : d.ref (d.inodes j) q ≠ 0) :
    d.ref (d.inodes j) q ≠ d.ref { x with size := n } p := by
  intro heq
  have := h.ref_inj hj hi (p := q) (q := p)
  rw [put_ref_ne hji, put_ref_self] at this
  exact hji (this hne heq).1

end

lemma Taken.filled (h : Taken sb d d') (hS : Sound sb K (d.put i x n)) (hi : K i) :
    Filled sb K i n d x d' x := by
  have hself : Untouched d d' { x with size := n } :=
    untouched_of_blocks fun p hne => h.blocks _ (hS.put_ref_lt hi hne).2.2
  refine ⟨⟨(h.put i x n).sound hS, h.inodes, h.bits, rfl, fun k _ => hself.slot k,
    fun k _ => hself.slot k, fun _ => rfl, fun _ => rfl, fun j hj hji => ?_⟩, hself.block⟩
  apply untouched_of_blocks
  intro p hne
  apply h.blocks
  have := (hS.ref_lt hj (p := p))
  rw [put_ref_ne hji] at this
  exact (this hne).2.2

section

variable {K : ℕ → Prop} {x x' : Inode} (hmap : d'.map = d.map) (hinodes : d'.inodes = d.inodes)
  (hself : d'.ref { x' with size := n } p0 = b)
  (hrest : ∀ p, p ≠ p0 → d'.ref { x' with size := n } p = d.ref { x with size := n } p)
  (hothers : ∀ j, K j → j ≠ i → Untouched d d' (d.inodes j))
include hmap hinodes hself hrest hothers

/-- A spare block goes to one place of the inode. -/
theorem Sound.plug (hS : Sound sb K (d.put i x n)) (hb : Spare sb K (d.put i x n) b) :
    Sound sb K (d'.put i x' n) := by
  have hrefs : ∀ q, K q.1 → q ≠ (i, p0) → (d'.put i x' n).refs q = (d.put i x n).refs q := by
    intro ⟨j, p⟩ hj hq
    unfold Disk.refs
    by_cases hji : j = i
    · grind [put_ref_self]
    · rw [put_ref_ne hji, put_ref_ne hji, hinodes]
      exact (hothers j hj hji).ref p
  constructor
  · have hplug : (d'.put i x' n).refs (i, p0) = b := by rw [Disk.refs, put_ref_self, hself]
    have hown := hS.own.plug (fun q hq => hb.free q.1 q.2 hq) hplug
      (hrefs) ⟨hb.low, hb.total, hb.held⟩
    refine hown.mono (fun q hq _ => ⟨hq, rfl⟩) fun q hq _ hgood => ?_
    change _ ∧ _ ∧ d'.map _
    rwa [hmap]
  · intro c hlow
    change d'.map c
    rw [hmap]
    exact hS.low c hlow
  · intro j hj
    change _ ∧ _ ∧ d'.map _
    rw [hmap]
    exact hS.live j hj
  · intro j hj
    have := hS.size j hj
    by_cases hji : j = i
    · subst hji
      rw [put_inodes_self] at this ⊢
      exact this
    · rw [put_inodes_ne hji] at this ⊢
      rwa [hinodes]

theorem Spares.plug (hR : Spares sb K (d.put i x n) (b :: rs))
    (hblocks : ∀ c ∈ rs, d'.blocks c = d.blocks c) : Spares sb K (d'.put i x' n) rs := by
  obtain ⟨hnotin, hnd⟩ := nodup_cons.1 hR.1
  refine ⟨hnd, fun c hc => ?_⟩
  have hsp := hR.2 c (mem_cons_of_mem _ hc)
  refine ⟨hsp.low, hsp.total, ?_, fun j p hj => ?_, ?_⟩
  · change d'.map c
    rw [hmap]
    exact hsp.held
  · have hfree := hsp.free j p hj
    by_cases hji : j = i
    · grind [put_ref_self]
    · rw [put_ref_ne hji] at hfree ⊢
      rwa [hinodes, (hothers j hj hji).ref]
  · exact (hblocks c hc).trans hsp.zero

end

section

variable (hS : Sound sb K (d.put i x n)) (hR : Spares sb K (d.put i x n) (b :: rs))
include hS hR

/-- A file whose references are as they were, but for a hole that is no longer one. -/
theorem filled_of_plug (p0 : Place) (hp0 : ∀ k, p0 = .data k → k < blocksFor n)
    (hmap : d'.map = d.map) (hinodes : d'.inodes = d.inodes)
    (hrecord : { x' with blocks := x.blocks, indirect := x.indirect, indirect2 := x.indirect2 } = x)
    (hself : d'.ref { x' with size := n } p0 = b) (hempty : d.ref { x with size := n } p0 = 0)
    (hslot : ∀ k, p0 ≠ .data k → d'.slot x' k = d.slot x k)
    (hind : p0 ≠ .ind → x'.indirect = x.indirect) (hind2 : p0 ≠ .ind2 → x'.indirect2 = x.indirect2)
    (hothers : ∀ j, K j → j ≠ i → Untouched d d' (d.inodes j))
    (hrs : ∀ c ∈ b :: rs, d'.blocks c = d.blocks c)
    (hdata : ∀ k < blocksFor n, d.slot x k ≠ 0 → d'.blocks (d.slot x k) = d.blocks (d.slot x k)) :
    Filled sb K i n d x d' x' ∧ Spares sb K (d'.put i x' n) rs := by
  have hb := hR.2 b (mem_cons_self ..)
  have hrest : ∀ p, p ≠ p0 → d'.ref { x' with size := n } p = d.ref { x with size := n } p := by
    intro p hp
    cases p with
    | data k => exact congrArg (fun s => if k < blocksFor n then s else 0) (hslot k hp.symm)
    | ind => exact hind hp.symm
    | ind2 => exact hind2 hp.symm
  have hhole : ∀ k, p0 = .data k → d.slot x k = 0 := by
    rintro k rfl
    rwa [ref_data (hp0 k rfl)] at hempty
  refine ⟨⟨⟨hS.plug hmap hinodes hself hrest hothers hb, hinodes, fun j => by rw [hmap], hrecord,
    fun k hk => hslot k fun h => hk (hhole k h),
    fun k hk => hslot k fun h => absurd (hp0 k h) (Nat.not_lt.2 hk), fun hne => ?_, fun hne => ?_,
    hothers⟩, fun k hk => ?_⟩,
    hR.plug hmap hinodes hself hrest hothers fun c hc => hrs c (mem_cons_of_mem _ hc)⟩
  · refine hind fun h => hne ?_
    rwa [h] at hempty
  · refine hind2 fun h => hne ?_
    rwa [h] at hempty
  · unfold Disk.block
    by_cases hp : p0 = .data k
    · -- the one hole that was filled
      have hk' : d'.slot x' k = b := by
        rw [← hself, hp, ref_data hk]
        rfl
      rw [hk', hhole k hp, hrs b (mem_cons_self ..), if_pos (Eq.refl 0)]
      split_ifs
      · rfl
      · exact hb.zero
    · rw [hslot k hp]
      split_ifs with h0
      · rfl
      · exact hdata k hk h0

lemma fill_direct (hdir : blk < ndirectV2) (hblk : blk < blocksFor n) (h0 : x.blocks blk = 0)
    (hx' : x' = { x with blocks := update x.blocks blk b }) :
    Filled sb K i n d x d x' ∧ Spares sb K (d.put i x' n) rs := by
  subst hx'
  refine filled_of_plug hS hR (.data blk) (fun k h => ?_) rfl rfl rfl ?_ ?_ (fun k hk => ?_)
    (fun _ => rfl) (fun _ => rfl) (fun j _ _ => .refl d _) (fun _ _ => rfl) fun _ _ _ => rfl
  · cases h
    exact hblk
  · rw [ref_data hblk, slot_size, slot_direct hdir]
    exact update_self ..
  · rw [ref_data hblk, slot_size, slot_direct hdir, h0]
  · unfold Disk.slot
    dsimp only
    rw [update_of_ne fun h : k = blk => hk (h ▸ rfl)]
    rfl

lemma fill_indirect (h0 : (x.indirectFor blk).1 = 0) :
    Filled sb K i n d x d (x.setIndirectFor blk b) ∧
      Spares sb K (d.put i (x.setIndirectFor blk b) n) rs := by
  have hzero := (hR.2 b (mem_cons_self ..)).zero
  have hcell : ∀ idx, d.cell b idx = 0 := fun idx => cell_zero hzero
  -- the new indirect block is empty, so no pointer is gained through it
  have hslot : ∀ k, d.slot (x.setIndirectFor blk b) k = d.slot x k := by
    intro k
    unfold Inode.indirectFor at h0
    unfold Disk.slot Inode.indirectFor Inode.setIndirectFor
    split_ifs at h0 ⊢ with hblk hk hk' hk'' <;> simp_all
  refine filled_of_plug hS hR (indPlace blk) (fun k h => (indPlace_ne_data h).elim) rfl rfl
    ?_ ?_ ?_ (fun k _ => hslot k) (fun hp => ?_) (fun hp => ?_) (fun j _ _ => .refl d _)
    (fun _ _ => rfl) fun _ _ _ => rfl
  · unfold Inode.setIndirectFor
    split_ifs <;> rfl
  · rw [ref_indPlace]
    unfold Inode.setIndirectFor Inode.indirectFor
    split_ifs <;> rfl
  · rw [ref_indPlace]
    exact h0
  · unfold indPlace at hp
    unfold Inode.setIndirectFor
    split_ifs at hp ⊢
    · exact absurd rfl hp
    · rfl
  · unfold indPlace at hp
    unfold Inode.setIndirectFor
    split_ifs at hp ⊢
    · rfl
    · exact absurd rfl hp

lemma fill_cell (hc : sb.Covered) (hi : K i) (hlow : ¬blk < ndirectV2) (hblk : blk < blocksFor n)
    (hmax : blk < maxBlocksV2) (hind : (x.indirectFor blk).1 ≠ 0)
    (h0 : d.cell (x.indirectFor blk).1 (x.indirectFor blk).2 = 0) : let ib := (x.indirectFor blk).1
    let d' := d.setBlock ib ((d.blocks ib).copy ((x.indirectFor blk).2 * 4) (leBytes b) 4)
    Filled sb K i n d x d' x ∧ Spares sb K (d'.put i x n) rs ∧ d'.slot x blk = b := by
  intro ib d'
  have hib : d.ref { x with size := n } (indPlace blk) = ib := ref_indPlace
  have hibne : d.ref { x with size := n } (indPlace blk) ≠ 0 := by rwa [hib]
  have hblocks : ∀ c, c ≠ ib → d'.blocks c = d.blocks c := fun c hc => update_of_ne hc ..
  have hself : d'.slot x blk = b := by
    rw [slot_indirect hlow hmax, if_neg hind]
    refine (cell_copy rfl).1.trans (Nat.mod_eq_of_lt ?_)
    have h1 := (hR.2 b (mem_cons_self ..)).total
    have h2 := hc.small
    omega
  have hslot : ∀ k, k ≠ blk → d'.slot x k = d.slot x k := by
    intro k hk
    by_cases hdir : k < ndirectV2
    · rw [slot_direct hdir, slot_direct hdir]
    by_cases hkmax : k < maxBlocksV2
    · rw [slot_indirect hdir hkmax, slot_indirect hdir hkmax]
      split_ifs with hk0
      · rfl
      by_cases hsame : (x.indirectFor k).1 = ib
      · rw [hsame]
        apply (cell_copy rfl).2
        -- the same indirect block, so another entry of it
        intro hidx
        have hplace : indPlace k = indPlace blk := by
          refine hS.put_ref_inj hi ?_ ?_
          · rw [ref_indPlace]
            exact hk0
          · rw [ref_indPlace, ref_indPlace]
            exact hsame
        unfold indPlace at hplace
        unfold Inode.indirectFor at hidx
        split_ifs at hplace hidx <;> omega
      · rw [Disk.cell, Disk.cell, hblocks _ hsame]
    · rw [Disk.slot, if_neg hdir, if_neg hkmax, Disk.slot, if_neg hdir, if_neg hkmax]
  have hfilled : Filled sb K i n d x d' x ∧ Spares sb K (d'.put i x n) rs :=
    filled_of_plug hS hR (.data blk) (fun k h => ?_) rfl rfl rfl
      (by rw [ref_data hblk, slot_size, hself]) ?_ (fun k hk => hslot k fun h => hk (h ▸ rfl))
      (fun _ => rfl) (fun _ => rfl) ?_ ?_ ?_
  · exact ⟨hfilled.1, hfilled.2, hself⟩
  · cases h
    exact hblk
  · rw [ref_data hblk, slot_size, slot_indirect hlow hmax, if_neg hind, h0]
  · grind [untouched_of_blocks, hS.ref_ne_put]
  · intro c hmem
    apply hblocks
    rintro rfl
    apply (hR.2 _ hmem).free i (indPlace blk) hi
    rw [put_ref_self, hib]
  · intro k hk hne
    apply hblocks
    intro heq
    have hplace : indPlace blk = .data k := by
      apply hS.put_ref_inj hi hibne
      rw [hib, ref_data hk, slot_size, heq]
    exact indPlace_ne_data hplace

end

/-- Byte `pos` of a file, past its end and in holes as well. -/
def Disk.byte (d : Disk) (x : Inode) (pos : ℕ) : UInt8 :=
  d.block x (pos / blockSize) (pos % blockSize)

lemma Filled.byte (h : Filled sb K i n d x d' x') (hpos : pos / blockSize < blocksFor n) :
    d'.byte x' pos = d.byte x pos := by
  rw [Disk.byte, h.block _ hpos, Disk.byte]

theorem grown_setBlock (hi : K i) (hS : Sound sb K (d.put i x n))
    (hR : Spares sb K (d.put i x n) rs) (hblk : blk < blocksFor n) (hne : d.slot x blk ≠ 0)
    (hd' : d' = d.setBlock (d.slot x blk) bytes) : Grown sb K i n d x d' x ∧
      Spares sb K (d'.put i x n) rs ∧
      ∀ k < blocksFor n, d'.block x k = if k = blk then bytes else d.block x k := by
  have href : d.ref { x with size := n } (.data blk) = d.slot x blk := ref_data hblk
  have hblocks : ∀ c, c ≠ d.slot x blk → d'.blocks c = d.blocks c :=
    hd' ▸ fun c hc => update_of_ne hc ..
  have hinodes : d'.inodes = d.inodes := hd' ▸ rfl
  -- the block is no indirect block of the file
  have hind : ∀ p, (∀ k, p ≠ .data k) → d.ref { x with size := n } p ≠ 0 →
      d'.blocks (d.ref { x with size := n } p) = d.blocks (d.ref { x with size := n } p) := by
    intro p hp hpne
    apply hblocks
    intro heq
    exact hp blk (hS.put_ref_inj hi hpne (heq.trans href.symm))
  have hslot : ∀ k, d'.slot x k = d.slot x k := by
    refine slot_congr (fun h => hind .ind (fun _ h => by cases h) h) fun h => ?_
    exact hind .ind2 (fun _ h => by cases h) h
  have hothers : ∀ j, K j → j ≠ i → Untouched d d' (d.inodes j) := by
    intro j hj hji
    apply untouched_of_blocks
    intro p hpne
    apply hblocks
    rw [← href]
    exact hS.ref_ne_put hi hj hji hpne
  have hrefs : ∀ j p, K j → (d.put i x n).ref ((d.put i x n).inodes j) p =
      (d'.put i x n).ref ((d'.put i x n).inodes j) p := by
    intro j p hj
    by_cases hji : j = i
    · subst hji
      rw [put_ref_self, put_ref_self]
      cases p with
      | data k => exact congrArg (fun s => if k < blocksFor n then s else 0) (hslot k).symm
      | ind | ind2 => rfl
    · rw [put_ref_ne hji, put_ref_ne hji, hinodes]
      exact ((hothers j hj hji).ref p).symm
  refine ⟨⟨?_, hinodes, fun _ => hd' ▸ rfl, rfl, fun k _ => hslot k, fun k _ => hslot k,
    fun _ => rfl,
    fun _ => rfl, hothers⟩, ?_, ?_⟩
  · exact hS.mono (hd' ▸ rfl) (fun _ h => h) (fun j p hj _ => hrefs j p hj) (hd' ▸ hS.size)
  · refine ⟨hR.1, fun c hmem => ?_⟩
    have hsp := hR.2 c hmem
    refine ⟨hsp.low, hsp.total, hd' ▸ hsp.held, fun j p hj => hrefs j p hj ▸ hsp.free j p hj, ?_⟩
    refine (hblocks c ?_).trans hsp.zero
    rintro rfl
    apply hsp.free i (.data blk) hi
    rw [put_ref_self, href]
  · intro k hk
    unfold Disk.block
    rw [hslot]
    by_cases hkb : k = blk
    · rw [if_pos hkb, hkb, if_neg hne, hd']
      exact update_self ..
    split_ifs with h0
    · rfl
    apply hblocks
    intro heq
    have hplace : Place.data k = .data blk := by
      apply hS.put_ref_inj hi
      · rw [ref_data hk]
        exact h0
      · rw [ref_data hk, href]
        exact heq
    exact hkb (by cases hplace; rfl)

lemma byte_copy {done take : ℕ} (htake : (offset + done) % blockSize + take ≤ blockSize)
    (hblock : ∀ k < blocksFor n, d'.block x' k = if k = (offset + done) / blockSize then
        (d.block x k).copy ((offset + done) % blockSize) (buf.at done) take
      else d.block x k) (hpos : pos / blockSize < blocksFor n) : d'.byte x' pos =
      if offset + done ≤ pos ∧ pos < offset + done + take then buf (pos - offset)
      else d.byte x pos := by
  unfold Disk.byte
  rw [hblock _ hpos]
  unfold blockSize at *
  by_cases hk : pos / 512 = (offset + done) / 512
  · grind [Buf.copy, Buf.at_apply]
  · rw [if_neg hk, if_neg (by omega)]

/-- The state of a write that stopped somewhere: only bytes of its range may differ. -/
def Partly (sb : Superblock) (K : ℕ → Prop) (i n : ℕ) (d : Disk) (x : Inode) (lo hi : ℕ)
    (d' : Disk) : Prop :=
  ∃ x', Grown sb K i n d x d' x' ∧
    ∀ pos, pos / blockSize < blocksFor n → pos < lo ∨ hi ≤ pos → d'.byte x' pos = d.byte x pos

/-- The bytes from `lo` to `hi` come from `buf`, the others are as they were. -/
structure Wrote (sb : Superblock) (K : ℕ → Prop) (i n : ℕ) (d : Disk) (x : Inode) (offset lo hi : ℕ)
    (buf : Buf) (d' : Disk) (x' : Inode) : Prop extends Grown sb K i n d x d' x' where
  byte : ∀ pos, pos / blockSize < blocksFor n → d'.byte x' pos =
    if lo ≤ pos ∧ pos < hi then buf (pos - offset) else d.byte x pos
  slots : ∀ pos, lo ≤ pos → pos < hi → d'.slot x' (pos / blockSize) ≠ 0

lemma Wrote.nothing (hS : Sound sb K (d.put i x n)) : Wrote sb K i n d x offset lo lo buf d x := by
  refine ⟨.refl hS, fun pos _ => ?_, fun pos h1 h2 => absurd h1 (by omega)⟩
  rw [if_neg (by omega)]

section

variable (hlo : lo ≤ mid) (hmid : mid ≤ hi) (h : Wrote sb K i n d x offset lo mid buf d' x')
include hlo hmid h

lemma Wrote.trans (h' : Wrote sb K i n d' x' offset mid hi buf d'' x'') :
    Wrote sb K i n d x offset lo hi buf d'' x'' := by
  refine ⟨h.toGrown.trans h'.toGrown, fun pos hpos => ?_, fun pos h1 h2 => ?_⟩
  · grind [h'.byte, h.byte]
  · grind [h'.slot, h.slots, h'.slots]

lemma Partly.of_wrote (h' : Partly sb K i n d' x' mid hi d'') : Partly sb K i n d x lo hi d'' := by
  obtain ⟨x2, hgrown, hbyte⟩ := h'
  refine ⟨x2, h.toGrown.trans hgrown, fun pos hpos hout => ?_⟩
  rw [hbyte pos hpos (by omega), h.byte pos hpos, if_neg (by omega)]

end

lemma Partly.of_filled (h : Filled sb K i n d x d' x') : Partly sb K i n d x lo hi d' :=
  ⟨x', h.toGrown, fun _ hpos _ => h.byte hpos⟩

lemma lt_blocksFor (h : pos < n) : pos / blockSize < blocksFor n := by
  unfold blocksFor blockSize
  omega

lemma Spare.ne_zero (hc : sb.Covered) (hb : Spare sb K d b) : b ≠ 0 := by
  have h1 := hb.low
  have h2 := hc.start
  omega

lemma wp_allocBlock_filled (hc : sb.Covered) (hi : K i)
    (h : Filled sb K i n d x d' x') (hR : Spares sb K (d'.put i x' n) rs) :
    wp (fun d'' => ∃ x'', Filled sb K i n d x d'' x'') (allocBlock sb rs)
      (fun r d'' => Filled sb K i n d x d'' x' ∧ Spares sb K (d''.put i x' n) (r.1 :: r.2) ∧
        Taken sb d' d'') (fun _ d'' => d'' = d') d' := by
  apply wp_mono (wp_allocBlock hc h.sound hR)
  · exact fun d'' ht => ⟨x', h.trans (ht.filled h.sound hi)⟩
  · exact fun r d'' ht => ⟨h.trans (ht.1.filled h.sound hi), ht.2, ht.1⟩
  · exact fun _ _ h => h

section

variable (hc : sb.Covered) (hi : K i) (hS : Sound sb K (d.put i x n))
  (hR : Spares sb K (d.put i x n) rs)
include hc hi hS hR

lemma wp_ensureIndirect :
    wp (fun d'' => ∃ x'', Filled sb K i n d x d'' x'') (ensureIndirect sb x blk rs)
      (fun r d' => Filled sb K i n d x d' r.2.1 ∧ Spares sb K (d'.put i r.2.1 n) r.2.2 ∧
        (r.2.1.indirectFor blk).1 = r.1 ∧ r.1 ≠ 0 ∧ Taken sb d d')
      (fun _ d'' => d'' = d ∧ (x.indirectFor blk).1 = 0) d := by
  unfold ensureIndirect
  split_ifs with h0
  · apply wp_seqE (wp_allocBlock_filled hc hi (.refl hS) hR) _ fun _ _ h => ⟨h, h0⟩
    intro ⟨b, rs'⟩ d1 ⟨h1, hR1, htaken⟩
    obtain ⟨h2, hR2⟩ := fill_indirect h1.sound hR1 h0
    refine wp_pure.2 ⟨h1.trans h2, hR2, ?_, (hR1.2 b (mem_cons_self ..)).ne_zero hc, htaken⟩
    unfold Inode.setIndirectFor Inode.indirectFor
    split_ifs <;> rfl
  · exact wp_pure.2 ⟨.refl hS, hR, rfl, h0, .refl sb d⟩

/-- The block is there afterwards. A failure comes before any pointer is written, and only at a
hole. -/
theorem wp_ensureBlock (hblk : blk < blocksFor n) :
    wp (fun d'' => ∃ x'', Filled sb K i n d x d'' x'') (ensureBlock sb x blk rs)
      (fun r d' => Filled sb K i n d x d' r.2.1 ∧ Spares sb K (d'.put i r.2.1 n) r.2.2 ∧
        d'.slot r.2.1 blk = r.1 ∧ r.1 ≠ 0) (fun _ d'' => Taken sb d d'' ∧ d.slot x blk = 0) d := by
  have hmax : blk < maxBlocksV2 := by
    have := hS.size i hi
    rw [put_inodes_self, nblocks_size] at this
    omega
  unfold ensureBlock
  by_cases hdir : blk < ndirectV2
  · split_ifs with h0
    · apply wp_seqE (wp_allocBlock_filled hc hi (.refl hS) hR) _
        fun _ _ h => ⟨h ▸ .refl sb d, (slot_direct hdir).trans h0⟩
      intro ⟨b, rs'⟩ d1 ⟨h1, hR1, _⟩
      obtain ⟨h2, hR2⟩ := fill_direct h1.sound hR1 hdir hblk h0 rfl
      refine wp_pure.2 ⟨h1.trans h2, hR2, ?_, (hR1.2 b (mem_cons_self ..)).ne_zero hc⟩
      rw [slot_direct hdir]
      exact update_self ..
    · exact wp_pure.2 ⟨.refl hS, hR, slot_direct hdir, h0⟩
  · rw [if_neg hdir, if_pos hmax]
    apply wp_seqE (wp_ensureIndirect hc hi hS hR) _ fun _ _ h =>
      ⟨h.1 ▸ .refl sb d, by rw [slot_indirect hdir hmax, if_pos h.2]⟩
    intro ⟨ib, x1, rs1⟩ d1 ⟨h1, hR1, hib, hne, htaken1⟩
    dsimp only at h1 hR1 hib hne ⊢
    subst hib
    rw [wp_bind, readBlock, wp_gets]
    by_cases hptr :
      readLE ((d1.blocks (x1.indirectFor blk).1).at ((x1.indirectFor blk).2 * 4)) 4 = 0
    · have hhole : d.slot x blk = 0 := by
        by_contra hne'
        have hkeep := h1.slot blk hne'
        rw [slot_indirect hdir hmax, if_neg hne] at hkeep
        exact hne' (hkeep.symm.trans hptr)
      rw [if_neg (not_not.2 hptr)]
      apply wp_seqE (wp_allocBlock_filled hc hi h1 hR1) _ fun _ _ h =>
        ⟨h ▸ htaken1, hhole⟩
      intro ⟨b, rs2⟩ d2 ⟨h2, hR2, htaken⟩
      -- the indirect block belongs to the file, so claiming a block has not changed it
      have hkept : d2.blocks (x1.indirectFor blk).1 = d1.blocks (x1.indirectFor blk).1 := by
        have hheld := h1.sound.put_ref_lt hi (p := indPlace blk)
        rw [ref_indPlace] at hheld
        exact htaken.blocks _ (hheld hne).2.2
      have h0 : d2.cell (x1.indirectFor blk).1 (x1.indirectFor blk).2 = 0 := by
        rw [Disk.cell, hkept, hptr]
      obtain ⟨h3, hR3, hslot⟩ := fill_cell h2.sound hR2 hc hi hdir hblk hmax hne h0
      rw [wp_bind, writeBlock, wp_write, ← hkept]
      refine ⟨⟨x1, h2.trans h3⟩, wp_pure.2 ⟨h2.trans h3, hR3, hslot, ?_⟩⟩
      exact (hR2.2 b (mem_cons_self ..)).ne_zero hc
    · rw [if_pos hptr]
      refine wp_pure.2 ⟨h1, hR1, ?_, hptr⟩
      rw [slot_indirect hdir hmax, if_neg hne]
      rfl

lemma wp_growLoop (hblks : ∀ blk ∈ blks, blk < blocksFor n) :
    wp (fun d'' => ∃ x'', Filled sb K i n d x d'' x'') (growLoop sb x rs blks)
      (fun x' d' => Filled sb K i n d x d' x' ∧ ∀ blk ∈ blks, d'.slot x' blk ≠ 0)
      (fun _ d'' => ∃ x'', Filled sb K i n d x d'' x'') d := by
  induction blks generalizing d x rs with
  | nil => exact wp_pure.2 ⟨.refl hS, fun _ h => by cases h⟩
  | cons blk blks ih =>
    apply wp_seqE (wp_ensureBlock hc hi hS hR (hblks blk (mem_cons_self ..))) _
      fun _ _ h => ⟨x, h.1.filled hS hi⟩
    intro ⟨addr, x1, rs1⟩ d1 ⟨h1, hR1, hslot, hne⟩
    apply wp_mono (ih h1.sound hR1 fun c hmem => hblks c (mem_cons_of_mem _ hmem))
    · exact fun _ ⟨x2, h2⟩ => ⟨x2, h1.trans h2⟩
    · intro x2 d2 ⟨h2, hslots⟩
      refine ⟨h1.trans h2, fun c hmem => ?_⟩
      obtain rfl | hmem := mem_cons.1 hmem
      · grind [h2.slot]
      · exact hslots c hmem
    · exact fun _ _ ⟨x2, h2⟩ => ⟨x2, h1.trans h2⟩

theorem wp_writeTurn {done take : ℕ} (hpos : offset + done < n)
    (htake : (offset + done) % blockSize + take ≤ blockSize) {Q : Inode × Reserved → Disk → Prop}
    {C : Disk → Prop} {E : Errno → Disk → Prop} {rest : Inode → Reserved → Fs (Inode × Reserved)}
    (hC : ∀ d' x', Filled sb K i n d x d' x' → C d')
    (hE : ∀ e d', Taken sb d d' → d.slot x ((offset + done) / blockSize) = 0 → E e d')
    (hQ : ∀ x' rs' d', Wrote sb K i n d x offset (offset + done) (offset + done + take) buf d' x' →
      Spares sb K (d'.put i x' n) rs' → C d' ∧ wp C (rest x' rs') Q E d') : wp C (do
      let (addr, x, reserved) ← ensureBlock sb x ((offset + done) / blockSize) rs
      let scratch ← readBlock addr
      writeBlock addr (scratch.copy ((offset + done) % blockSize) (buf.at done) take)
      rest x reserved) Q E d := by
  have hblk := lt_blocksFor hpos
  rw [wp_bind]
  apply wp_mono (wp_ensureBlock hc hi hS hR hblk) (fun _ ⟨x', h⟩ => hC _ x' h) _
    fun _ _ h => hE _ _ h.1 h.2
  intro ⟨addr, x1, rs1⟩ d1 ⟨h1, hR1, hslot, hne⟩
  dsimp only at h1 hR1 hslot hne ⊢
  subst hslot
  rw [wp_bind, readBlock, wp_gets, wp_bind, writeBlock, wp_write]
  have hblock : d1.blocks (d1.slot x1 ((offset + done) / blockSize)) =
      d1.block x1 ((offset + done) / blockSize) := by rw [Disk.block, if_neg hne]
  rw [hblock]
  obtain ⟨h2, hR2, hdata⟩ := grown_setBlock hi h1.sound hR1 hblk hne rfl
  apply hQ _ _ _ _ hR2
  refine ⟨h1.toGrown.trans h2, fun pos hpos' => ?_, fun pos hlo hhi => ?_⟩
  · rw [byte_copy htake _ hpos', h1.byte hpos']
    intro k hk
    rw [hdata k hk]
    split_ifs with hkb
    · rw [hkb]
    · rfl
  · grind [h2.slot, blockSize]

/-- What the loop has written when it is through, and how far it may have come if it is
not. -/
theorem wp_writeLoop {N : ℕ} (hn : offset + N ≤ n) (turns done : ℕ) (hdone : done ≤ N)
    (hturns : N ≤ done + turns) : wp (Partly sb K i n d x (offset + done) (offset + N))
      (writeLoop sb offset buf N turns done x rs)
      (fun r d' => Wrote sb K i n d x offset (offset + done) (offset + N) buf d' r.1)
      (fun _ d' => Partly sb K i n d x (offset + done) (offset + N) d') d := by
  induction turns generalizing done x d rs with
  | zero =>
    obtain rfl : done = N := by omega
    exact wp_pure.2 (.nothing hS)
  | succ turns ih =>
    unfold writeLoop
    split_ifs with hlt
    · dsimp only
      generalize htake : min (blockSize - (offset + done) % blockSize) (N - done) = take
      have hfit : 0 < take ∧ (offset + done) % blockSize + take ≤ blockSize := by
        unfold blockSize at *
        omega
      have hmid : offset + done + take ≤ offset + N := by omega
      apply wp_writeTurn hc hi hS hR (by omega) hfit.2
      · exact fun _ _ h => .of_filled h
      · exact fun _ _ h _ => .of_filled (h.filled hS hi)
      · intro x1 rs1 d1 h1 hR1
        have hrest := ih h1.sound hR1 (done + take) (by omega) (by omega)
        rw [← Nat.add_assoc] at hrest
        refine ⟨.of_wrote (by omega) hmid h1 ⟨x1, .refl h1.sound, fun _ _ _ => rfl⟩, ?_⟩
        apply wp_mono hrest
        · exact fun _ h => .of_wrote (by omega) hmid h1 h
        · exact fun r d2 h => h1.trans (by omega) hmid h
        · exact fun _ _ h => .of_wrote (by omega) hmid h1 h
    · obtain rfl : done = N := by omega
      exact wp_pure.2 (.nothing hS)

end

end AeroSLS.Posix
