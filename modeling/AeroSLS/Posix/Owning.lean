import AeroSLS.Lib.Exclusive
import AeroSLS.Posix.Aerofs

namespace AeroSLS.Posix

open AeroSLS.Bytes AeroSLS.Crash List Function Buf

variable {E : Errno → Disk → Prop} {Q : Unit → Disk → Prop} {map m : ℕ → Bool} {C : Disk → Prop}
  {bs : List ℕ} {start : ℕ}

/-- The map covers every block and every inode, and their numbers fit in 32 bits. -/
structure Superblock.Covered (sb : Superblock) : Prop where
  root : sb.rootInode = 2
  count : 2 ≤ sb.inodeCount
  start : 0 < sb.dataStart
  region : sb.dataStart < sb.totalBlocks
  small : sb.totalBlocks ≤ 2 ^ 32
  few : sb.inodeCount < 2 ^ 32
  covers : 8 * sb.split + sb.inodeCount < 4096 * sb.allocBlocks

variable {sb : Superblock} {d d' : Disk} {x : Inode} {j b k : ℕ}

lemma totalBlocks_le_split (sb : Superblock) : sb.totalBlocks ≤ 8 * sb.split := by
  unfold Superblock.split
  omega

lemma block_in_map (hb : b < sb.totalBlocks) : b / 8 < sb.blockBits.len := by
  change b / 8 < (sb.totalBlocks + 7) / 8
  omega

lemma inode_in_map (hc : sb.Covered) (hi : i ≤ sb.inodeCount) : i / 8 < sb.inodeBits.len := by
  have := hc.covers
  change i / 8 < sb.allocBlocks * 512 - sb.split
  omega

/-- The pointer to block `k` of a file, 0 for a hole. -/
def Disk.slot (d : Disk) (x : Inode) (k : ℕ) : ℕ :=
  if k < ndirectV2 then x.blocks k
  else if k < maxBlocksV2 then
    if (x.indirectFor k).1 = 0 then 0 else d.cell (x.indirectFor k).1 (x.indirectFor k).2
  else 0

lemma blockAddrOpt_eq (hk : k < maxBlocksV2) :
    d.blockAddrOpt x k = .ok (if d.slot x k = 0 then none else some (d.slot x k)) := by
  unfold Disk.blockAddrOpt Disk.slot
  by_cases hdir : k < ndirectV2
  · simp [hdir]
  · by_cases hind : (x.indirectFor k).1 = 0 <;> simp [hdir, hk, hind]

/-- Where an inode holds a reference. -/
inductive Place
  | data (k : ℕ)
  | ind
  | ind2
  deriving DecidableEq

def Disk.ref (d : Disk) (x : Inode) : Place → ℕ
  | .data k => if k < x.nblocks then d.slot x k else 0
  | .ind => x.indirect
  | .ind2 => x.indirect2

def Disk.refs (d : Disk) (q : ℕ × Place) : ℕ := d.ref (d.inodes q.1) q.2

lemma ref_data (hk : k < x.nblocks) : d.ref x (.data k) = d.slot x k := if_pos hk

lemma slot_congr (hind : x.indirect ≠ 0 → d'.blocks x.indirect = d.blocks x.indirect)
    (hind2 : x.indirect2 ≠ 0 → d'.blocks x.indirect2 = d.blocks x.indirect2) (k : ℕ) :
    d'.slot x k = d.slot x k := by
  unfold Disk.slot Disk.cell Inode.indirectFor
  split_ifs with h1 h2 h3 h4 h4
  · rfl
  · rfl
  · rw [hind h4]
  · rfl
  · rw [hind2 h4]
  · rfl

/-- Block `k` of a file as a reader sees it; a hole counts as zeros. -/
def Disk.block (d : Disk) (x : Inode) (k : ℕ) : Buf :=
  if d.slot x k = 0 then Buf.zero else d.blocks (d.slot x k)

/-- A file keeps its pointers and the blocks below its end. -/
structure Untouched (d d' : Disk) (x : Inode) : Prop where
  slot : ∀ k, d'.slot x k = d.slot x k
  block : ∀ k < x.nblocks, d'.block x k = d.block x k

lemma Untouched.refl (d : Disk) (x : Inode) : Untouched d d x := ⟨fun _ => rfl, fun _ _ => rfl⟩

lemma Untouched.trans (h : Untouched d d' x) (h' : Untouched d' d'' x) : Untouched d d'' x where
  slot k := (h'.slot k).trans (h.slot k)
  block k hk := (h'.block k hk).trans (h.block k hk)

lemma Untouched.ref (h : Untouched d d' x) (p : Place) : d'.ref x p = d.ref x p := by
  cases p with
  | data => simp only [Disk.ref, h.slot]
  | ind | ind2 => rfl

lemma untouched_of_blocks
    (h : ∀ p, d.ref x p ≠ 0 → d'.blocks (d.ref x p) = d.blocks (d.ref x p)) : Untouched d d' x := by
  have hslot := slot_congr (h .ind) (h .ind2)
  refine ⟨hslot, fun k hk => ?_⟩
  unfold Disk.block
  rw [hslot]
  split_ifs with h0
  · rfl
  · have hdata := h (.data k)
    rw [ref_data hk] at hdata
    exact hdata h0

structure Sound (sb : Superblock) (K : ℕ → Prop) (d : Disk) : Prop where
  own : Exclusive {q : ℕ × Place | K q.1} d.refs
    fun b => sb.dataStart ≤ b ∧ b < sb.totalBlocks ∧ d.map b = true
  low : ∀ b < sb.dataStart, d.map b = true
  live : ∀ i, K i → 2 ≤ i ∧ i ≤ sb.inodeCount ∧ d.map (8 * sb.split + i) = true
  size : ∀ i, K i → (d.inodes i).nblocks ≤ maxBlocksV2

section

variable (h : Sound sb K d)
include h

lemma Sound.ref_lt (hi : K i) (hne : d.ref (d.inodes i) p ≠ 0) :
    sb.dataStart ≤ d.ref (d.inodes i) p ∧ d.ref (d.inodes i) p < sb.totalBlocks ∧
      d.map (d.ref (d.inodes i) p) := h.own.good (i, p) hi hne

lemma Sound.ref_inj (hi : K i) (hj : K j) (hne : d.ref (d.inodes i) p ≠ 0)
    (heq : d.ref (d.inodes i) p = d.ref (d.inodes j) q) : i = j ∧ p = q := by
  have := h.own.inj (i, p) hi (j, q) hj hne heq
  exact ⟨congrArg Prod.fst this, congrArg Prod.snd this⟩

lemma Sound.withMap (hlow : ∀ b < sb.dataStart, m b)
    (hheld : ∀ i p, K i → d.ref (d.inodes i) p ≠ 0 → m (d.ref (d.inodes i) p))
    (hlive : ∀ i, K i → m (8 * sb.split + i)) : Sound sb K { d with map := m } where
  own := h.own.mono (fun _ hq _ => ⟨hq, rfl⟩)
    fun q hq hne hgood => ⟨hgood.1, hgood.2.1, hheld q.1 q.2 hq hne⟩
  low := hlow
  live i hi := ⟨(h.live i hi).1, (h.live i hi).2.1, hlive i hi⟩
  size := h.size

lemma Sound.withMap_of_le (hm : ∀ b, d.map b → m b) : Sound sb K { d with map := m } :=
  h.withMap (fun b hb => hm b (h.low b hb)) (fun _ _ hi hne => hm _ (h.ref_lt hi hne).2.2)
    fun i hi => hm _ (h.live i hi).2.2

lemma Sound.clear (hlow : sb.dataStart ≤ b) (htotal : b < sb.totalBlocks)
    (hfree : ∀ i p, K i → d.ref (d.inodes i) p ≠ b) (hm : ∀ c, c ≠ b → m c = d.map c) :
    Sound sb K { d with map := m } := by
  have hsplit := totalBlocks_le_split sb
  apply h.withMap
  · grind [h.low]
  · intro i p hi hne
    rw [hm _ (hfree i p hi)]
    exact (h.ref_lt hi hne).2.2
  · intro i hi
    rw [hm _ (by omega)]
    exact (h.live i hi).2.2

lemma Sound.mono (hmap : d'.map = d.map) (hK : ∀ i, K' i → K i)
    (href : ∀ i p, K' i → d'.ref (d'.inodes i) p ≠ 0 →
      d.ref (d.inodes i) p = d'.ref (d'.inodes i) p)
    (hsize : ∀ i, K' i → (d'.inodes i).nblocks ≤ maxBlocksV2) : Sound sb K' d' where
  own := h.own.mono (fun q hq hne => ⟨hK q.1 hq, href q.1 q.2 hq hne⟩)
    fun _ _ _ hgood => by rwa [hmap]
  low b hb := hmap ▸ h.low b hb
  live i hi := hmap ▸ h.live i (hK i hi)
  size := hsize

lemma Sound.withBlocks (hmap : d'.map = d.map) (hinodes : d'.inodes = d.inodes)
    (hblocks : ∀ i p, K i → d.ref (d.inodes i) p ≠ 0 →
      d'.blocks (d.ref (d.inodes i) p) = d.blocks (d.ref (d.inodes i) p)) : Sound sb K d' := by
  apply h.mono hmap fun _ hi => hi
  · intro i p hi _
    rw [hinodes]
    exact ((untouched_of_blocks fun p => hblocks i p hi).ref p).symm
  · intro i hi
    rw [hinodes]
    exact h.size i hi

end

def Disk.put (d : Disk) (i : ℕ) (x : Inode) (n : ℕ) : Disk := d.setInode i { x with size := n }

@[simp] lemma put_inodes_self : (d.put i x n).inodes i = { x with size := n } :=
  update_self ..

lemma put_inodes_ne (h : j ≠ i) : (d.put i x n).inodes j = d.inodes j := update_of_ne h ..

lemma put_ref_self :
    (d.put i x n).ref ((d.put i x n).inodes i) p = d.ref { x with size := n } p := by
  rw [put_inodes_self]
  cases p <;> rfl

lemma put_ref_ne (h : j ≠ i) :
    (d.put i x n).ref ((d.put i x n).inodes j) p = d.ref (d.inodes j) p := by
  rw [put_inodes_ne h]
  cases p <;> rfl

lemma slot_size : d.slot { x with size := n } k = d.slot x k :=
  rfl

lemma nblocks_size : Inode.nblocks { x with size := n } = blocksFor n := rfl

section

variable (hC : ∀ m, (∀ b, m b = d.map b ∨ m b = map b) → C { d with map := m })
include hC

lemma wp_setMapBlocks
    (hQ : Q () { d with map := fun b => if b / 4096 < start + len then map b else d.map b }) :
    wp C (Prog.each (fun k => .write fun d => d.setMapBlock map k) (range' start len)) Q E
      { d with map := fun b => if b / 4096 < start then map b else d.map b } := by
  induction len generalizing start with
  | zero => exact wp_pure.2 hQ
  | succ len ih =>
    have hnext : (Disk.setMapBlock
        { d with map := fun b => if b / 4096 < start then map b else d.map b } map start) =
        { d with map := fun b => if b / 4096 < start + 1 then map b else d.map b } := by
      unfold Disk.setMapBlock
      congr 1
      funext b
      dsimp only
      split_ifs <;> first | rfl | omega
    change wp C (Prog.write (fun d => d.setMapBlock map start) >>= fun _ =>
      Prog.each (fun k => .write fun d => d.setMapBlock map k) (range' (start + 1) len)) Q E _
    rw [wp_bind, wp_write, hnext]
    constructor
    · apply hC
      intro b
      split_ifs
      · exact .inr rfl
      · exact .inl rfl
    · grind

lemma wp_storeAllocMap (hout : ∀ b, 4096 * sb.allocBlocks ≤ b → map b = d.map b)
    (hQ : Q () { d with map := map }) : wp C (storeAllocMap sb map) Q E d := by
  unfold storeAllocMap
  rw [range_eq_range']
  have hstart : d = { d with map := fun b => if b / 4096 < 0 then map b else d.map b } := by simp
  have hstop : (fun b => if b / 4096 < 0 + sb.allocBlocks then map b else d.map b) = map := by grind
  have h := wp_setMapBlocks (E := E) hC (by rwa [hstop])
  rwa [← hstart] at h

end

/-- What claiming blocks does: bits of blocks are set and blocks that were free change. -/
structure Taken (sb : Superblock) (d d' : Disk) : Prop where
  inodes : d'.inodes = d.inodes
  held : ∀ b, d.map b = true → d'.map b = true
  bits : ∀ j, d'.map (8 * sb.split + j) = d.map (8 * sb.split + j)
  blocks : ∀ b, d.map b = true → d'.blocks b = d.blocks b

lemma Taken.refl (sb : Superblock) (d : Disk) : Taken sb d d :=
  ⟨rfl, fun _ h => h, fun _ => rfl, fun _ _ => rfl⟩

lemma Taken.sound (h : Taken sb d d') (hS : Sound sb K d) : Sound sb K d' := by
  have hmap : Sound sb K { d with map := d'.map } := hS.withMap_of_le h.held
  exact hmap.withBlocks rfl h.inodes fun i p hi hne => h.blocks _ (hS.ref_lt hi hne).2.2

lemma Taken.put (h : Taken sb d d') (i : ℕ) (x : Inode) (n : ℕ) :
    Taken sb (d.put i x n) (d'.put i x n) where
  inodes := by
    change update d'.inodes i _ = update d.inodes i _
    rw [h.inodes]
  held := h.held
  bits := h.bits
  blocks := h.blocks

/-- A block that has been claimed and is not in use yet. -/
structure Spare (sb : Superblock) (K : ℕ → Prop) (d : Disk) (b : ℕ) : Prop where
  low : sb.dataStart ≤ b
  total : b < sb.totalBlocks
  held : d.map b = true
  free : ∀ i p, K i → d.ref (d.inodes i) p ≠ b
  zero : d.blocks b = Buf.zero

lemma Taken.refs (h : Taken sb d d') (hS : Sound sb K d) (hi : K i) :
    d'.ref (d'.inodes i) p = d.ref (d.inodes i) p := by
  rw [h.inodes]
  exact (untouched_of_blocks fun p hne => h.blocks _ (hS.ref_lt hi hne).2.2).ref p

lemma bitmapFindClear_some {m : Bitmap} {stop : ℕ} (h : bitmapFindClear m map start stop = some b) :
    start ≤ b ∧ b < stop ∧ bitmapGet m map b = false := by
  have hmem := mem_of_find?_eq_some h
  have hclear := find?_some h
  rw [mem_range'_1] at hmem
  refine ⟨hmem.1, by omega, ?_⟩
  simpa using hclear

lemma bitmapSet_apply (hb : b < sb.totalBlocks) :
    bitmapSet sb.blockBits map b = update map b true := by
  unfold bitmapSet bitmapPut
  rw [if_pos (block_in_map hb)]
  change update map (8 * 0 + b) true = _
  rw [Nat.zero_add]

lemma blockBit_clear (hb : b < sb.totalBlocks)
    (h : bitmapGet sb.blockBits map b = false) : map b = false := by
  unfold bitmapGet at h
  rw [decide_eq_true (block_in_map hb)] at h
  change map (8 * 0 + b) = false at h
  rwa [Nat.zero_add] at h

def Spares (sb : Superblock) (K : ℕ → Prop) (d : Disk) (rs : Reserved) : Prop :=
  rs.Nodup ∧ ∀ b ∈ rs, Spare sb K d b

/-- A free block is not referred to, so it is spare once it is claimed and cleared. -/
theorem Taken.fresh (hc : sb.Covered) (h : Taken sb d d') (hS : Sound sb K d)
    (hfree : d.map b = false)
    (htotal : b < sb.totalBlocks) (hheld : d'.map b) (hzero : d'.blocks b = zero) :
    Spare sb K d' b where
  low := by
    grind [hS.low]
  total := htotal
  held := hheld
  free i p hi := by
    rw [h.refs hS hi]
    intro heq
    by_cases hne : d.ref (d.inodes i) p = 0
    · -- block 0 holds the superblock
      rw [hne] at heq
      rw [← heq, hS.low 0 hc.start] at hfree
      cases hfree
    · rw [← heq, (hS.ref_lt hi hne).2.2] at hfree
      cases hfree
  zero := hzero

/-- The blocks that the search finds are free, and the new map has their bits. -/
theorem claimBlocks_some {want : ℕ} {map' : ℕ → Bool}
    (h : claimBlocks sb want map start = some (bs, map')) :
    bs.Nodup ∧ (∀ b ∈ bs, start ≤ b ∧ b < sb.totalBlocks ∧ map b = false) ∧
      map' = fun b => map b || decide (b ∈ bs) := by
  induction want generalizing map start bs with
  | zero => grind [claimBlocks]
  | succ want ih =>
    unfold claimBlocks at h
    split at h
    · cases h
    rename_i b hfind
    split at h
    · cases h
    rename_i bs' map'' hrest
    obtain ⟨rfl, rfl⟩ : b :: bs' = bs ∧ map'' = map' := by simpa using h
    obtain ⟨hstart, hstop, hget⟩ := bitmapFindClear_some hfind
    have hclear := blockBit_clear hstop hget
    obtain ⟨hnd, hmem, rfl⟩ := ih hrest
    rw [bitmapSet_apply hstop] at hmem ⊢
    refine ⟨nodup_cons.2 ⟨fun hb => ?_, hnd⟩, ?_, ?_⟩
    · have := (hmem b hb).1
      omega
    · grind
    · funext c
      by_cases hc : c = b
      · simp [hc]
      · simp [hc]

lemma wp_zeroBlocks (hC : ∀ f, (∀ c, c ∉ bs → f c = d.blocks c) → C { d with blocks := f })
    (hQ : Q () { d with blocks := fun c => if c ∈ bs then zero else d.blocks c }) :
    wp C (Prog.each (fun b => writeBlock b zero) bs) Q E d := by
  induction bs generalizing d with
  | nil => exact wp_pure.2 (by simpa using hQ)
  | cons b bs ih =>
    change wp C (writeBlock b zero >>= fun _ => Prog.each _ bs) _ E d
    rw [wp_bind, writeBlock, wp_write]
    constructor
    · apply hC
      intro c hc
      rw [mem_cons, not_or] at hc
      exact update_of_ne hc.1 ..
    apply ih
    · intro f hf
      apply hC
      intro c hc
      rw [mem_cons, not_or] at hc
      rw [hf c hc.2]
      exact update_of_ne hc.1 ..
    · have hlast : (fun c => if c ∈ bs then zero else (d.setBlock b zero).blocks c) =
          fun c => if c ∈ b :: bs then zero else d.blocks c := by
        funext c
        by_cases hb : c = b
        · simp [hb, Disk.setBlock]
        · simp [hb, Disk.setBlock]
      rwa [hlast]

lemma taken_of_map
    (hbs : ∀ b ∈ bs, b < sb.totalBlocks)
    (hm : ∀ b, m b = d.map b ∨ m b = (d.map b || decide (b ∈ bs))) :
    Taken sb d { d with map := m } where
  inodes := rfl
  held b hb := by
    grind
  bits j := by
    have hout : 8 * sb.split + j ∉ bs := by grind [totalBlocks_le_split]
    simpa [hout] using hm (8 * sb.split + j)
  blocks _ _ := rfl

theorem wp_reserveBlocks (hc : sb.Covered) (hS : Sound sb K (d.put i x n)) :
    wp (Taken sb d) (reserveBlocks sb want)
      (fun rs d' => Taken sb d d' ∧ Spares sb K (d'.put i x n) rs) (fun _ _ => False) d := by
  have hnone : Spares sb K (d.put i x n) [] := ⟨nodup_nil, fun b hb => by cases hb⟩
  unfold reserveBlocks
  split_ifs
  · exact wp_pure.2 ⟨.refl sb d, hnone⟩
  rw [wp_bind, wp_gets]
  split
  · exact wp_pure.2 ⟨.refl sb d, hnone⟩
  rename_i bs map' hclaim
  obtain ⟨hnd, hbs, rfl⟩ := claimBlocks_some hclaim
  have hlt : ∀ b ∈ bs, b < sb.totalBlocks := fun b hb => (hbs b hb).2.1
  rw [wp_bind]
  apply wp_storeAllocMap
  · exact fun m hm => taken_of_map hlt hm
  · grind [totalBlocks_le_split, hc.covers]
  · -- the map is on the disk; now the blocks are cleared
    have htaken : ∀ f, (∀ c, c ∉ bs → f c = d.blocks c) →
        Taken sb d { d with map := fun b => d.map b || decide (b ∈ bs), blocks := f } := by
      intro f hf
      have hmap := taken_of_map (d := d) hlt fun b => .inr rfl
      refine ⟨rfl, hmap.held, hmap.bits, fun b hb => hf b fun hmem => ?_⟩
      rw [(hbs b hmem).2.2] at hb
      cases hb
    rw [wp_bind]
    apply wp_zeroBlocks
    · exact htaken
    have hlast := htaken (fun c => if c ∈ bs then zero else d.blocks c) fun c hc => if_neg hc
    refine wp_pure.2 ⟨hlast, hnd, fun b hb => ?_⟩
    exact (hlast.put i x n).fresh hc hS (hbs b hb).2.2 (hlt b hb)
      (by simp [Disk.put, hb, Disk.setInode])
      (by simp [Disk.put, hb, Disk.setInode])

lemma wp_allocBlock (hc : sb.Covered) {rs : Reserved} (hS : Sound sb K (d.put i x n))
    (hR : Spares sb K (d.put i x n) rs) : wp (Taken sb d) (allocBlock sb rs)
      (fun r d' => Taken sb d d' ∧ Spares sb K (d'.put i x n) (r.1 :: r.2)) (fun _ d' =>
        d' = d) d := by
  unfold allocBlock
  cases rs with
  | cons => exact wp_pure.2 ⟨.refl sb d, hR⟩
  | nil =>
    rw [wp_bind, wp_gets]
    split
    · exact wp_fail.2 rfl
    rename_i b hfind
    obtain ⟨-, hstop, hget⟩ := bitmapFindClear_some hfind
    have hclear := blockBit_clear hstop hget
    have hset : bitmapSet sb.blockBits d.map b = fun c => d.map c || decide (c ∈ [b]) := by
      rw [bitmapSet_apply hstop]
      funext c
      by_cases hb : c = b <;> simp [hb]
    have hlt : ∀ c ∈ [b], c < sb.totalBlocks := fun c hc => mem_singleton.1 hc ▸ hstop
    rw [hset, wp_bind]
    apply wp_storeAllocMap
    · exact fun m hm => taken_of_map hlt hm
    · grind [totalBlocks_le_split, hc.covers]
    · have hmap := taken_of_map (d := d) hlt fun b => .inr rfl
      have hlast : Taken sb d ({ d with map := fun c => d.map c || decide (c ∈ [b]) }.setBlock b
          zero) := by
        refine ⟨rfl, hmap.held, hmap.bits, fun c hheld => update_of_ne ?_ ..⟩
        rintro rfl
        rw [hclear] at hheld
        cases hheld
      rw [wp_bind, writeBlock, wp_write]
      refine ⟨hlast, wp_pure.2 ⟨hlast, by simp, fun c hmem => ?_⟩⟩
      obtain rfl := mem_singleton.1 hmem
      exact (hlast.put i x n).fresh hc hS hclear hstop
        (by simp [Disk.put, Disk.setInode, Disk.setBlock])
        (by simp [Disk.put, Disk.setInode, Disk.setBlock])

lemma wp_freeBlock (hc : sb.Covered) (hb : b < sb.totalBlocks) (hne : b ≠ 0)
    (hC : ∀ m, (∀ c, c ≠ b → m c = d.map c) → C { d with map := m })
    (hQ : Q () { d with map := update d.map b false }) : wp C (freeBlock sb b) Q E d := by
  have hclear : bitmapClear sb.blockBits d.map b = update d.map b false := by
    unfold bitmapClear bitmapPut
    rw [if_pos (block_in_map hb)]
    change update d.map (8 * 0 + b) false = _
    rw [Nat.zero_add]
  unfold freeBlock
  rw [if_neg hne, wp_bind, wp_gets, hclear]
  apply wp_storeAllocMap
  · grind
  · grind [totalBlocks_le_split, hc.covers]
  · exact hQ

end AeroSLS.Posix
