import AeroSLS.Posix.Reading

namespace AeroSLS.Posix

open AeroSLS.Bytes AeroSLS.Crash DirEntry

/-- What is read back from a record. -/
structure Entry where
  name : Name
  ino : ℕ
  ty : UInt8
  recLen : ℕ
  deriving DecidableEq, Repr

def DirEntry.entry (e : DirEntry) : Entry := ⟨e.nameStr, e.ino, e.ty, e.recLen⟩

lemma entry_congr (h : Buf.Agree direntSize f g) :
    (parseDirent f).entry = (parseDirent g).entry := by
  have hname : cstr f nameMax = cstr g nameMax := cstr_agree (h.mono (by decide))
  have hino : readLE (f.at 56) 4 = readLE (g.at 56) 4 := readLE_congr (h.at (by decide))
  have hty : f 60 = g 60 := h 60 (by decide)
  have hrec : f 61 = g 61 := h 61 (by decide)
  simp only [entry, nameStr, parseDirent, hname, hino, hty, hrec]

lemma entry_encode (hino : e.ino < 2 ^ 32) (hrec : e.recLen < 256) :
    (parseDirent (encodeDirent e)).entry = e.entry := by
  have hname : cstr (encodeDirent e) nameMax = cstr e.name nameMax := by
    apply cstr_agree
    intro j hj
    exact if_pos hj
  have hi : readLE ((encodeDirent e).at 56) 4 = e.ino := by
    have hagree : Buf.Agree 4 ((encodeDirent e).at 56) (leBytes e.ino) := by
      intro j hj
      have h1 : ¬56 + j < nameMax := by
        unfold nameMax
        omega
      have h2 : 56 + j < 60 := by omega
      rw [Buf.at_apply, encodeDirent, if_neg h1, if_pos h2]
      congr 1
      omega
    rw [readLE_congr hagree, readLE_leBytes]
    exact Nat.mod_eq_of_lt hino
  have hr : (UInt8.ofNat e.recLen).toNat = e.recLen := by exact Nat.mod_eq_of_lt hrec
  have h60 : encodeDirent e 60 = e.ty := rfl
  have h61 : encodeDirent e 61 = UInt8.ofNat e.recLen := rfl
  simp only [entry, nameStr, parseDirent, hname, hi, h60, h61, hr]

def Disk.entry (d : Disk) (x : Inode) (s : ℕ) : Entry :=
  (parseDirent fun j => d.byte x (direntSize * s + j)).entry

/-- How many records a directory has. -/
def Inode.entries (x : Inode) : ℕ := x.size / direntSize

structure Listed (d : Disk) (x : Inode) : Prop where
  whole : x.size = direntSize * x.entries
  dense : ∀ k < x.nblocks, d.slot x k ≠ 0
  recs : ∀ s < x.entries, (d.entry x s).recLen = direntSize

/-- A directory in good order; there is nothing behind its end. -/
structure DirOk (d : Disk) (x : Inode) : Prop extends Listed d x where
  tail : ∀ k, x.nblocks ≤ k → d.slot x k = 0

lemma entry_lt_size (h : Listed d x) (hs : s < x.entries) (hj : j < direntSize) :
    direntSize * s + j < x.size := by
  have := h.whole
  unfold direntSize at *
  omega

lemma Listed.entry_untouched (h : Listed d x) (hd : Untouched d d' x) (hs : s < x.entries) :
    d'.entry x s = d.entry x s := by
  apply entry_congr
  intro j hj
  have hlt := entry_lt_size h hs hj
  dsimp only
  rw [Disk.byte, hd.block _ (lt_blocksFor hlt), Disk.byte]

lemma DirOk.untouched (h : DirOk d x) (hd : Untouched d d' x) : DirOk d' x where
  whole := h.whole
  dense k hk := by
    rw [hd.slot]
    exact h.dense k hk
  tail k hk := by
    rw [hd.slot]
    exact h.tail k hk
  recs s hs := by
    rw [h.toListed.entry_untouched hd hs]
    exact h.recs s hs

section

variable (h : Listed d x)
include h

lemma parse_contents (hs : s < x.entries) :
    (parseDirent ((Buf.ofList (d.contents x)).at (direntSize * s))).entry = d.entry x s := by
  apply entry_congr
  intro j hj
  have hlt := entry_lt_size h hs hj
  simp [Buf.at, Buf.ofList, Disk.contents, hlt]

lemma parse_recLen (hs : s < x.entries) :
    (parseDirent ((Buf.ofList (d.contents x)).at (direntSize * s))).recLen = direntSize := by
  have hrec := congrArg Entry.recLen (parse_contents h hs)
  exact hrec.trans (h.recs s hs)

lemma direntNext_contents (hs : s < x.entries) :
    ∃ e, direntNext (d.contents x) (direntSize * s) = some (e, direntSize * (s + 1)) ∧
      e.entry = d.entry x s := by
  have hlen : (d.contents x).length = x.size := by simp [Disk.contents]
  have hwhole := h.whole
  refine ⟨_, ?_, parse_contents h hs⟩
  unfold direntNext
  rw [if_neg (by unfold direntSize at *; omega)]
  dsimp only
  rw [parse_recLen h hs, if_pos le_rfl, Nat.mul_succ]

lemma direntNext_end (hs : x.entries ≤ s) : direntNext (d.contents x) (direntSize * s) = none := by
  have hlen : (d.contents x).length = x.size := by simp [Disk.contents]
  have hwhole := h.whole
  unfold direntNext
  rw [if_pos]
  unfold direntSize at *
  omega

/-- The walk finds the first record with the property. -/
theorem dirFind_cases (g : Entry → Bool) (turns s : ℕ) (hturns : x.entries ≤ s + turns) :
    (dirFind (fun e => g e.entry) (d.contents x) turns (direntSize * s) = none ∧
      ∀ t, s ≤ t → t < x.entries → g (d.entry x t) = false) ∨
    ∃ t e, dirFind (fun e => g e.entry) (d.contents x) turns (direntSize * s) =
        some (direntSize * t, e) ∧
      t < x.entries ∧ e.entry = d.entry x t ∧ g (d.entry x t) ∧
      ∀ u, s ≤ u → u < t → g (d.entry x u) = false := by
  induction turns generalizing s with
  | zero => exact .inl ⟨rfl, fun t h1 h2 => by omega⟩
  | succ turns ih =>
    unfold dirFind
    by_cases hs : s < x.entries
    · obtain ⟨e, hnext, hentry⟩ := direntNext_contents h hs
      rw [hnext]
      dsimp only
      by_cases hg : g e.entry
      · grind
      have hgs : g (d.entry x s) = false := by
        rw [← hentry]
        exact Bool.eq_false_iff.2 hg
      rw [if_neg hg]
      obtain ⟨hnone, hall⟩ | ⟨t, e', hfind, ht, hentry', hgt, hall⟩ := ih (s + 1) (by omega)
      · grind
      · grind
    · grind [direntNext_end]

lemma dirWalk_cases (g : Entry → Bool) : (dirWalk (fun e => g e.entry) (d.contents x) = none ∧
      ∀ t < x.entries, g (d.entry x t) = false) ∨
    ∃ t e, dirWalk (fun e => g e.entry) (d.contents x) = some (direntSize * t, e) ∧
      t < x.entries ∧ e.entry = d.entry x t ∧ g (d.entry x t) ∧
      ∀ u < t, g (d.entry x u) = false := by
  have hlen : (d.contents x).length = x.size := by simp [Disk.contents]
  have hturns : x.entries ≤ 0 + (d.contents x).length := by
    have := h.whole
    unfold direntSize at this
    omega
  obtain ⟨hnone, hall⟩ | ⟨t, e, hfind, ht, hentry, hgt, hall⟩ := dirFind_cases h g _ 0 hturns
  · exact .inl ⟨hnone, fun t ht => hall t (Nat.zero_le t) ht⟩
  · exact .inr ⟨t, e, hfind, ht, hentry, hgt, fun u hu => hall u (Nat.zero_le u) hu⟩

end

lemma inode_ok (hS : Sound sb K d) (hi : K i) (hty : (d.inodes i).ty ≠ none) :
    d.inode sb i = .ok (d.inodes i) := by
  obtain ⟨h2, hcount, -⟩ := hS.live i hi
  unfold Disk.inode
  rw [if_neg (by omega), if_neg hty]

/-- The record that a name is looked up by. -/
def Entry.named (name : Name) (a : Entry) : Bool := a.ino ≠ 0 && a.name = name

lemma readDir_ok (hS : Sound sb K d) (hi : K i) (hdir : Listed d (d.inodes i)) :
    d.readFileBytes (d.inodes i) = .ok (d.contents (d.inodes i)) :=
  readFileBytes_eq (hS.size i hi) hdir.dense

section

variable (hS : Sound sb K d) (hi : K i) (hty : (d.inodes i).ty = some .dir)
  (hdir : Listed d (d.inodes i)) (name : Name)
include hS hi hty hdir name

lemma dirLookup_cases : (d.dirLookup sb i name = .ok none ∧
      ∀ t < (d.inodes i).entries, (d.entry (d.inodes i) t).named name = false) ∨
    ∃ t e, d.dirLookup sb i name = .ok (some (direntSize * t, e)) ∧ t < (d.inodes i).entries ∧
      e.entry = d.entry (d.inodes i) t ∧ (d.entry (d.inodes i) t).named name ∧
      ∀ u < t, (d.entry (d.inodes i) u).named name = false := by
  have hread := readDir_ok hS hi hdir
  have hrun : d.dirLookup sb i name =
      .ok (dirWalk (fun e => Entry.named name e.entry) (d.contents (d.inodes i))) := by
    unfold Disk.dirLookup
    rw [inode_ok hS hi (by rw [hty]; exact fun h => by cases h)]
    change (if (d.inodes i).ty ≠ some .dir then _ else _) = _
    rw [if_neg (not_not.2 hty), hread]
    rfl
  rw [hrun]
  obtain ⟨hnone, hall⟩ | ⟨t, e, hfind, rest⟩ := dirWalk_cases hdir (Entry.named name)
  · exact .inl ⟨by rw [hnone], hall⟩
  · exact .inr ⟨t, e, by rw [hfind], rest⟩

lemma dirEntry_cases : (d.dirEntry sb i name = .error .noent ∧
      ∀ t < (d.inodes i).entries, (d.entry (d.inodes i) t).named name = false) ∨
    ∃ t e, d.dirEntry sb i name = .ok (direntSize * t, e) ∧ t < (d.inodes i).entries ∧
      e.entry = d.entry (d.inodes i) t ∧ (d.entry (d.inodes i) t).named name ∧
      ∀ u < t, (d.entry (d.inodes i) u).named name = false := by
  unfold Disk.dirEntry
  obtain ⟨hnone, hall⟩ | ⟨t, e, hfind, rest⟩ := dirLookup_cases hS hi hty hdir name
  · left
    rw [hnone]
    exact ⟨rfl, hall⟩
  · right
    rw [hfind]
    exact ⟨t, e, rfl, rest⟩

end

lemma wp_writeSlot (hc : sb.Covered) (hi : K i) (hS : Sound sb K (d.put i x n))
    (hn : direntSize * s + direntSize ≤ n) (hC : ∀ d' x', Filled sb K i n d x d' x' → C d')
    (hE : ∀ e d', Taken sb d d' → d.slot x (direntSize * s / blockSize) = 0 → E e d')
    (hQ : ∀ d' x', Wrote sb K i n d x (direntSize * s) (direntSize * s)
      (direntSize * s + direntSize) bytes d' x' → C d' ∧ Q x' d') :
    wp C (writeAt sb x (direntSize * s) bytes direntSize) Q E d := by
  have hR : Spares sb K (d.put i x n) [] := ⟨List.nodup_nil, fun b hb => by cases hb⟩
  -- a record never crosses the end of a block
  have htake : min (blockSize - (direntSize * s + 0) % blockSize) (direntSize - 0) =
      direntSize := by
    unfold blockSize direntSize
    omega
  unfold writeAt
  rw [wp_bind]
  change wp C (writeLoop sb (direntSize * s) bytes direntSize (63 + 1) 0 x []) _ E d
  unfold writeLoop
  dsimp only
  rw [htake]
  apply wp_writeTurn hc hi hS hR
  · unfold direntSize at *
    omega
  · unfold blockSize direntSize
    omega
  · exact hC
  · exact hE
  · grind [wp_pure, writeLoop]

/-- Past the largest file there is no block to write to. -/
theorem wp_writeSlot_fbig (hs : maxBlocksV2 ≤ direntSize * s / blockSize) (hE : E .fbig d) :
    wp C (writeAt sb x (direntSize * s) bytes direntSize) Q E d := by
  unfold writeAt
  rw [wp_bind]
  change wp C (writeLoop sb (direntSize * s) bytes direntSize (63 + 1) 0 x []) _ E d
  unfold writeLoop ensureBlock
  have h1 : ¬(direntSize * s + 0) / blockSize < ndirectV2 := by
    unfold maxBlocksV2 ndirectV2 at *
    rw [Nat.add_zero]
    omega
  have h2 : ¬(direntSize * s + 0) / blockSize < maxBlocksV2 := by
    rw [Nat.add_zero]
    omega
  rw [if_pos (by decide)]
  dsimp only
  rw [if_neg h1, if_neg h2]
  exact wp_fail.2 hE

/-- The records of a directory after one of them was written. -/
theorem Wrote.entry (h : Wrote sb K i n d x (direntSize * s) (direntSize * s)
    (direntSize * s + direntSize) bytes d' x') (ht : direntSize * t + direntSize ≤ n) :
    d'.entry x' t = if t = s then (parseDirent bytes).entry else d.entry x t := by
  split_ifs with hts
  · subst hts
    apply entry_congr
    intro j hj
    dsimp only
    rw [h.byte _ (lt_blocksFor (by omega)), if_pos (by omega)]
    congr 1
    omega
  · apply entry_congr
    intro j hj
    dsimp only
    rw [h.byte _ (lt_blocksFor (by omega)), if_neg]
    unfold direntSize at *
    omega

/-- A reader of the file sees the same bytes. -/
structure Reads (d d' : Disk) (x : Inode) : Prop where
  slot : ∀ k < x.nblocks, d.slot x k ≠ 0 → d'.slot x k ≠ 0
  byte : ∀ pos < x.size, d'.byte x pos = d.byte x pos

lemma Untouched.reads (h : Untouched d d' x) : Reads d d' x where
  slot k _ hne := by rwa [h.slot]
  byte pos hpos := by rw [Disk.byte, h.block _ (lt_blocksFor hpos), Disk.byte]

/-- Every file reads the same, and its record is the same. -/
structure Shown (sb : Superblock) (K : ℕ → Prop) (d d' : Disk) : Prop where
  sound : Sound sb K d'
  inodes : d'.inodes = d.inodes
  bits : ∀ j, d'.map (8 * sb.split + j) = d.map (8 * sb.split + j)
  reads : ∀ j, K j → Reads d d' (d.inodes j)

lemma Taken.untouched (h : Taken sb d d') (hS : Sound sb K d) (hj : K j) :
    Untouched d d' (d.inodes j) :=
  untouched_of_blocks fun _ hne => h.blocks _ (hS.ref_lt hj hne).2.2

/-- While an operation grows a file, bytes past its old end may change. -/
theorem Grown.shown (h : Grown sb K i n d (d.inodes i) d' x')
    (hn : (d.inodes i).nblocks ≤ blocksFor n)
    (hbyte : ∀ pos < (d.inodes i).size, d.slot (d.inodes i) (pos / blockSize) ≠ 0 →
      d'.byte x' pos = d.byte (d.inodes i) pos)
    (hhole : ∀ pos < (d.inodes i).size, d.slot (d.inodes i) (pos / blockSize) = 0 →
      d'.byte (d.inodes i) pos = d.byte (d.inodes i) pos) : Shown sb K d d' := by
  refine ⟨h.sound_record hn, h.inodes, h.bits, fun j hj => ?_⟩
  by_cases hji : j = i
  · subst hji
    constructor
    · intro k _ hne
      rwa [h.slot_record_of_ne hne]
    intro pos hpos
    by_cases hne : d.slot (d.inodes j) (pos / blockSize) = 0
    · exact hhole pos hpos hne
    · rw [← hbyte pos hpos hne, Disk.byte, Disk.byte, Disk.block, Disk.block,
        h.slot_record_of_ne hne, h.slot _ hne]
  · exact (h.others j hj hji).reads

lemma Filled.shown (h : Filled sb K i n d (d.inodes i) d' x')
    (hn : (d.inodes i).nblocks ≤ blocksFor n) : Shown sb K d d' := by
  have hlt : ∀ pos < (d.inodes i).size, pos / blockSize < blocksFor n := fun pos hpos =>
    Nat.lt_of_lt_of_le (lt_blocksFor hpos) hn
  apply h.toGrown.shown hn
  · exact fun pos hpos _ => h.byte (hlt pos hpos)
  · intro pos hpos _
    rw [Disk.byte, h.block_record (hlt pos hpos), Disk.byte]

structure Replaced (sb : Superblock) (K : ℕ → Prop) (i s : ℕ) (a : Entry) (d d' : Disk) : Prop where
  sound : Sound sb K d'
  bits : ∀ j, d'.map (8 * sb.split + j) = d.map (8 * sb.split + j)
  inodes : ∀ j, j ≠ i → d'.inodes j = d.inodes j
  others : ∀ j, K j → j ≠ i → Untouched d d' (d.inodes j)
  mode : (d'.inodes i).mode = (d.inodes i).mode
  size : (d'.inodes i).size = max (d.inodes i).size (direntSize * s + direntSize)
  dir : DirOk d' (d'.inodes i)
  entry : ∀ t < (d'.inodes i).entries,
    d'.entry (d'.inodes i) t = if t = s then a else d.entry (d.inodes i) t

/-- The write of a record that was there before. -/
theorem Wrote.replaced (hdir : DirOk d (d.inodes i)) (hs : s < (d.inodes i).entries)
    (hrec : (parseDirent bytes).recLen = direntSize)
    (h : Wrote sb K i (d.inodes i).size d (d.inodes i) (direntSize * s) (direntSize * s)
      (direntSize * s + direntSize) bytes d' x') :
    Replaced sb K i s (parseDirent bytes).entry d d' := by
  have hwhole := hdir.whole
  have hfit : direntSize * s + direntSize ≤ (d.inodes i).size := by
    unfold direntSize at *
    omega
  have hslot : ∀ k < (d.inodes i).nblocks, d'.slot (d.inodes i) k = d'.slot x' k := by
    intro k hk
    rw [h.slot_record_of_ne (hdir.dense k hk), h.slot k (hdir.dense k hk)]
  have hentry : ∀ t < (d.inodes i).entries, d'.entry (d.inodes i) t =
      if t = s then (parseDirent bytes).entry else d.entry (d.inodes i) t := by
    intro t ht
    rw [← h.entry (by unfold direntSize at *; omega)]
    apply entry_congr
    intro j hj
    have hlt := lt_blocksFor (entry_lt_size hdir.toListed ht hj)
    dsimp only
    rw [Disk.byte, Disk.byte, Disk.block, Disk.block, hslot _ hlt]
  have hsame : d'.inodes i = d.inodes i := by rw [h.inodes]
  refine ⟨h.sound_record le_rfl, h.bits, fun j _ => by rw [h.inodes], h.others, by rw [hsame], ?_,
    ?_, ?_⟩
  · rw [hsame]
    omega
  · rw [hsame]
    refine ⟨⟨hwhole, fun k hk => ?_, fun t ht => ?_⟩, fun k hk => ?_⟩
    · rw [h.slot_record_of_ne (hdir.dense k hk)]
      exact hdir.dense k hk
    · rw [hentry t ht]
      split_ifs
      · exact hrec
      · exact hdir.recs t ht
    · rw [h.tail_record hk]
      exact hdir.tail k hk
  · rw [hsame]
    exact hentry

theorem Wrote.appended (hdir : DirOk d (d.inodes i)) (hs : s ≤ (d.inodes i).entries)
    (hrec : (parseDirent bytes).recLen = direntSize)
    (hn : n = max (d.inodes i).size (direntSize * s + direntSize))
    (h : Wrote sb K i n d (d.inodes i) (direntSize * s) (direntSize * s)
      (direntSize * s + direntSize) bytes d' x') :
    Replaced sb K i s (parseDirent bytes).entry d (d'.put i x' n) := by
  have hwhole := hdir.whole
  have hmult : n = direntSize * (n / direntSize) := by
    unfold direntSize at *
    omega
  have hentries : Inode.entries { x' with size := n } = n / direntSize := rfl
  have hentry : ∀ t < n / direntSize, (d'.put i x' n).entry { x' with size := n } t =
      if t = s then (parseDirent bytes).entry else d.entry (d.inodes i) t := by
    intro t ht
    exact h.entry (by unfold direntSize at *; omega)
  refine ⟨h.sound, h.bits, fun j hj => ?_, fun j hj hji => ?_, ?_, ?_, ?_, ?_⟩
  · rw [put_inodes_ne hj, h.inodes]
  · have := h.others j hj hji
    exact ⟨this.slot, this.block⟩
  · rw [put_inodes_self]
    exact h.mode
  · rw [put_inodes_self]
    exact hn
  · rw [put_inodes_self]
    refine ⟨⟨hmult, fun k hk => ?_, fun t ht => ?_⟩, fun k hk => ?_⟩
    · change d'.slot x' k ≠ 0
      by_cases hold : k < (d.inodes i).nblocks
      · rw [h.slot k (hdir.dense k hold)]
        exact hdir.dense k hold
      -- the block that the new record lies in
      have hblk : direntSize * s / blockSize = k := by
        grind [Inode.nblocks, blocksFor, blockSize, direntSize]
      rw [← hblk]
      exact h.slots _ le_rfl (by unfold direntSize; omega)
    · rw [hentry t ht]
      split_ifs
      · exact hrec
      · apply hdir.recs
        unfold direntSize at *
        omega
    · change d'.slot x' k = 0
      rw [nblocks_size] at hk
      rw [h.tail k hk]
      apply hdir.tail
      unfold Inode.nblocks
      unfold blocksFor blockSize at *
      omega
  · rw [put_inodes_self]
    exact hentry

end AeroSLS.Posix
