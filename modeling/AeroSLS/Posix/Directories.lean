import AeroSLS.Posix.Entries

namespace AeroSLS.Posix

open AeroSLS.Bytes AeroSLS.Crash DirEntry

lemma parse_encode_recLen (hino : e.ino < 2 ^ 32) (hrec : e.recLen = direntSize) :
    (parseDirent (encodeDirent e)).recLen = direntSize := by
  have hentry := entry_encode hino (by rw [hrec]; decide)
  have := congrArg Entry.recLen hentry
  rwa [← hrec]

/-- The name that is read back. -/
def cutName (name : Name) : Name := cstr (Buf.ofList name) nameMax

lemma cutName_dotdot : cutName dotdot = dotdot := by decide

lemma cutName_dot : cutName dot = dot := by decide

/-- A record whose inode number is 0 is free. -/
def Entry.tomb (ty : UInt8) : Entry := ⟨[], 0, ty, direntSize⟩

section

variable {C : Disk → Prop} (hc : sb.Covered) (hS : Sound sb K d) (hi : K i)
  (hdir : DirOk d (d.inodes i)) (hC : ∀ d', Shown sb K d d' → C d')
include hc hS hi hdir hC

/-- A record that exists is overwritten; its block is there, so this cannot fail. -/
theorem wp_writeRecord (hs : s < (d.inodes i).entries) (hino : e.ino < 2 ^ 32)
    (hrec : e.recLen = direntSize) {Q : Inode → Disk → Prop}
    (hQ : ∀ x' d', Replaced sb K i s e.entry d d' → C d' ∧ Q x' d') :
    wp C (writeAt sb (d.inodes i) (direntSize * s) (encodeDirent e) direntSize) Q E d := by
  have hwhole := hdir.whole
  have hentry := entry_encode hino (by rw [hrec]; decide)
  apply wp_writeSlot hc hi (hS.enlarge (hS.size i hi) fun _ hle hlt =>
    absurd hlt (Nat.not_lt.2 hle))
  · unfold direntSize at *
    omega
  · exact fun d' x' h => hC d' (h.shown le_rfl)
  · intro _ _ _ hhole
    exact absurd hhole
      (hdir.dense _ (lt_blocksFor (entry_lt_size hdir.toListed hs (by decide : 0 < direntSize))))
  · intro d' x' h
    have hrep := h.replaced hdir hs (parse_encode_recLen hino hrec)
    rw [hentry] at hrep
    exact hQ x' d' hrep

lemma wp_dirRemove (hty : (d.inodes i).ty = some .dir) (name : Name)
    (hE : (∀ t < (d.inodes i).entries, (d.entry (d.inodes i) t).named name = false) → E .noent d)
    (hQ : ∀ s d', s < (d.inodes i).entries → (d.entry (d.inodes i) s).named name →
      (∀ u < s, (d.entry (d.inodes i) u).named name = false) →
      Replaced sb K i s (.tomb (d.entry (d.inodes i) s).ty) d d' → C d' ∧ Q () d') :
    wp C (dirRemove sb i name) Q E d := by
  unfold dirRemove inode
  rw [wp_bind, wp_attempt, inode_ok hS hi (by rw [hty]; exact fun h => by cases h)]
  dsimp only
  rw [wp_bind, wp_attempt]
  obtain ⟨hnone, hall⟩ | ⟨s, e, hfind, hs, hentry, hnamed, hfirst⟩ :=
    dirEntry_cases hS hi hty hdir.toListed name
  · rw [hnone]
    exact hE hall
  rw [hfind]
  dsimp only
  rw [wp_bind]
  apply wp_writeRecord hc hS hi hdir hC hs (by exact Nat.two_pow_pos 32) rfl
  intro x' d' hrep
  have htomb : entry { name := Buf.zero, ino := 0, ty := e.ty, recLen := direntSize } =
      .tomb (d.entry (d.inodes i) s).ty := by
    rw [← hentry]
    rfl
  rw [htomb] at hrep
  obtain ⟨hC', hQ'⟩ := hQ s d' hs hnamed hfirst hrep
  exact ⟨hC', wp_pure.2 hQ'⟩

lemma wp_appendRecord (hs : s ≤ (d.inodes i).entries) (hino : e.ino < 2 ^ 32)
    (hrec : e.recLen = direntSize) (hE : ∀ e d', Taken sb d d' → E e d')
    (hQ : ∀ d', Replaced sb K i s e.entry d d' → C d' ∧ Q () d') : wp C (do
      let x ← writeAt sb (d.inodes i) (direntSize * s) (encodeDirent e) direntSize
      writeInode i { x with size := max x.size (direntSize * s + direntSize) }) Q E d := by
  have hwhole := hdir.whole
  have hentry := entry_encode hino (by rw [hrec]; decide)
  have hreclen := parse_encode_recLen hino hrec
  generalize hn : max (d.inodes i).size (direntSize * s + direntSize) = n
  have hle : (d.inodes i).nblocks ≤ blocksFor n := by
    unfold Inode.nblocks blocksFor blockSize
    omega
  rw [wp_bind]
  by_cases hmax : blocksFor n ≤ maxBlocksV2
  · have hput := hS.enlarge hmax fun k hk _ => hdir.tail k hk
    apply wp_writeSlot hc hi hput
    · omega
    · exact fun d' x' h => hC d' (h.shown hle)
    · exact fun e d' h _ => hE e d' h
    · intro d' x' h
      have hlast := h.appended hdir hs hreclen hn.symm
      rw [hentry] at hlast
      obtain ⟨hC', hQ'⟩ := hQ _ hlast
      constructor
      · -- the record is written, the new size is not
        obtain hlt | rfl := Nat.lt_or_eq_of_le hs
        · have hsame : n = (d.inodes i).size := by
            unfold direntSize at *
            omega
          subst hsame
          have hrep := h.replaced hdir hlt hreclen
          rw [hentry] at hrep
          exact (hQ _ hrep).1
        · apply hC
          apply h.toGrown.shown hle
          · intro pos hpos _
            rw [h.byte pos (Nat.lt_of_lt_of_le (lt_blocksFor hpos) hle), if_neg (by omega)]
          · intro pos hpos h0
            exact absurd h0 (hdir.dense _ (lt_blocksFor hpos))
      · rw [writeInode, wp_write, h.size, hn]
        exact ⟨hC', hQ'⟩
  · apply wp_writeSlot_fbig
    · have hsize := size_le_of_nblocks (hS.size i hi)
      unfold maxFileBytesV2 at hsize
      unfold blocksFor at hmax
      unfold maxBlocksV2 ndirectV2 nindirect blockSize direntSize at *
      omega
    · exact hE _ _ (.refl sb d)

lemma wp_dirInsert (hty : (d.inodes i).ty = some .dir) (name : Name) (ino : ℕ) (ty : FileType)
    (hino : ino < 2 ^ 32) (hE : ∀ e d', Taken sb d d' → E e d')
    (hQ : ∀ s d', s ≤ (d.inodes i).entries →
      (s < (d.inodes i).entries → (d.entry (d.inodes i) s).ino = 0) →
      Replaced sb K i s ⟨cutName name, ino, ty.dt, direntSize⟩ d d' → C d' ∧ Q () d') :
    wp C (dirInsert sb i name ino ty) Q E d := by
  unfold dirInsert inode
  rw [wp_bind, wp_attempt, inode_ok hS hi (by rw [hty]; exact fun h => by cases h)]
  dsimp only
  rw [if_neg (not_not.2 hty)]
  unfold new
  split_ifs with hname
  · exact wp_fail.2 (hE _ _ (.refl sb d))
  rw [wp_bind, wp_attempt, readDir_ok hS hi hdir.toListed]
  dsimp only
  obtain ⟨hnone, hall⟩ | ⟨s, e, hfind, hs, hentry, hfree, -⟩ :=
    dirWalk_cases hdir.toListed fun a => a.ino = 0
  · have hwalk : dirWalk (fun e => decide (e.ino = 0)) (d.contents (d.inodes i)) = none := hnone
    have hwhole := hdir.whole
    rw [hwalk]
    rw [hwhole]
    apply wp_appendRecord hc hS hi hdir hC le_rfl hino rfl hE
    exact fun d' hrep => hQ _ d' le_rfl (fun h => absurd h (Nat.lt_irrefl _)) hrep
  · have hwalk : dirWalk (fun e => decide (e.ino = 0)) (d.contents (d.inodes i)) =
        some (direntSize * s, e) := hfind
    rw [hwalk]
    apply wp_appendRecord hc hS hi hdir hC hs.le hino rfl hE
    exact fun d' hrep => hQ s d' hs.le (fun _ => by simpa using hfree) hrep

lemma wp_repoint (hty : (d.inodes i).ty ≠ none) (hparent : parent < 2 ^ 32)
    (hnone : (∀ t < (d.inodes i).entries, (d.entry (d.inodes i) t).named dotdot = false) → Q () d)
    (hQ : ∀ s d', s < (d.inodes i).entries → (d.entry (d.inodes i) s).named dotdot →
      (∀ u < s, (d.entry (d.inodes i) u).named dotdot = false) →
      Replaced sb K i s ⟨dotdot, parent, FileType.dir.dt, direntSize⟩ d d' → C d' ∧ Q () d') :
    wp C (repoint sb i parent) Q E d := by
  unfold repoint inode
  rw [wp_bind, wp_attempt, inode_ok hS hi hty]
  dsimp only
  rw [wp_bind, wp_attempt, readDir_ok hS hi hdir.toListed]
  dsimp only
  obtain ⟨hwalk, hall⟩ | ⟨s, e, hwalk, hs, hentry, hnamed, hfirst⟩ :=
    dirWalk_cases hdir.toListed (Entry.named dotdot)
  · have hrun : dirWalk (fun e => decide (e.ino ≠ 0) && decide (e.nameStr = dotdot))
        (d.contents (d.inodes i)) = none := hwalk
    rw [hrun]
    exact wp_pure.2 (hnone hall)
  have hrun : dirWalk (fun e => decide (e.ino ≠ 0) && decide (e.nameStr = dotdot))
      (d.contents (d.inodes i)) = some (direntSize * s, e) := hwalk
  rw [hrun]
  rw [wp_bind]
  apply wp_writeRecord hc hS hi hdir hC hs hparent rfl
  intro x' d' hrep
  have hdots : (dotEntry dotdot parent).entry = ⟨dotdot, parent, FileType.dir.dt, direntSize⟩ := by
    have := cutName_dotdot
    unfold cutName at this
    simp [entry, dotEntry, nameStr, this]
  obtain ⟨hC', hQ'⟩ := hQ s d' hs hnamed hfirst hrep
  exact ⟨hC', wp_pure.2 hQ'⟩

end

end AeroSLS.Posix
