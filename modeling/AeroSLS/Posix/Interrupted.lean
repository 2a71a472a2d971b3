import AeroSLS.Posix.Ownership

namespace AeroSLS.Posix

open AeroSLS.Bytes AeroSLS.Crash AeroSLS.Machine

variable {sb : Superblock} {d d' : Disk}

/-- The inodes that the directories name, from the root on. -/
inductive Disk.Reached (sb : Superblock) (d : Disk) : ℕ → Prop
  | root : d.Reached sb sb.rootInode
  | entry {i : ℕ} {ents : List DirEntry} {e : DirEntry} (hi : d.Reached sb i)
    (hread : d.readDirEntries sb i = .ok ents) (he : e ∈ ents) (hname : Plain e.nameStr) :
    d.Reached sb e.ino

lemma mem_dirList (h : Listed d x) (turns s : ℕ)
    (he : e ∈ dirList (d.contents x) turns (direntSize * s)) :
    ∃ t < x.entries, e.entry = d.entry x t ∧ e.ino ≠ 0 := by
  induction turns generalizing s with
  | zero => cases he
  | succ turns ih =>
    have hlen : (d.contents x).length = x.size := by simp [Disk.contents]
    have hwhole := h.whole
    unfold dirList at he
    rw [hlen] at he
    by_cases hend : x.size < direntSize * s + direntSize
    · rw [if_pos hend] at he
      cases he
    rw [if_neg hend] at he
    have hs : s < x.entries := by
      unfold direntSize at *
      omega
    dsimp only at he
    rw [parse_recLen h hs] at he
    split_ifs at he with hne
    · obtain rfl | he := List.mem_cons.1 he
      · exact ⟨s, hs, parse_contents h hs, hne⟩
      · exact ih (s + 1) he
    · exact ih (s + 1) he

lemma Closed.reached (hc : sb.Covered) (h : Closed sb K d) (hi : d.Reached sb i) : K i := by
  induction hi with
  | root =>
    rw [hc.root]
    exact h.root
  | @entry i ents e _ hread he hname ih =>
    unfold Disk.readDirEntries at hread
    rcases hino : d.inode sb i with e | x
    · rw [hino] at hread
      cases hread
    obtain rfl := inode_eq hino
    rw [hino] at hread
    change (if (d.inodes i).ty ≠ some .dir then _ else _) = _ at hread
    by_cases hty : (d.inodes i).ty = some .dir
    · have hlist := h.listed i ih hty
      rw [if_neg (not_not.2 hty), readDir_ok h.sound ih hlist] at hread
      cases hread
      obtain ⟨t, ht, hentry, hne⟩ := mem_dirList hlist _ 0 he
      have hK := h.names i ih hty t ht
      rw [← hentry] at hK
      exact hK hne hname.1 hname.2
    · rw [if_pos hty] at hread
      cases hread

/-- No block is referred to by two reachable inodes, and their bits and those of their blocks
are set. -/
def Disk.CrashSafe (sb : Superblock) (d : Disk) : Prop :=
  ∀ i, d.Reached sb i → d.Live sb i ∧
    ∀ p b, d.Refers (d.inodes i) p b → d.map b = true ∧
      ∀ j q, d.Reached sb j → d.Refers (d.inodes j) q b → j = i

lemma Sound.crashSafe (h : Sound sb (d.Reached sb) d) : d.CrashSafe sb := by
  intro i hi
  refine ⟨h.live i hi, fun p b href => ?_⟩
  obtain ⟨rfl, hne⟩ := href.ref
  refine ⟨(h.ref_lt hi hne).2.2, fun j q hj href' => ?_⟩
  obtain ⟨heq, -⟩ := href'.ref
  exact (h.ref_inj hj hi (heq ▸ hne) heq).1

lemma Recoverable.crashSafe (hc : sb.Covered) (h : Recoverable sb d) : d.CrashSafe sb := by
  obtain ⟨K, hK⟩ := h
  have hreached : ∀ i, d.Reached sb i → K i := fun i hi => hK.reached hc hi
  exact (hK.sound.mono rfl hreached (fun _ _ _ _ => rfl)
    fun i hi => hK.sound.size i (hreached i hi)).crashSafe

lemma Good.live_of_reached (hc : sb.Covered) (h : Good sb d) (hi : d.Reached sb i) :
    d.Live sb i := by
  have hclosed : Closed sb (d.Live sb) d := by
    refine ⟨h.sound, h.root.1, fun i hi hty => (h.formed i hi).listed hty, ?_⟩
    intro i hi hty s hs hne hdot hdotdot
    obtain ⟨hdots, -⟩ | ⟨-, hlink⟩ := (h.formed i hi).entry_cases hi hty hs rfl hne
    · exact absurd hdots (not_or.2 ⟨hdot, hdotdot⟩)
    · exact (h.names.target i s _ hlink).1
  exact hclosed.reached hc hi

lemma readLoop_withMap (m : ℕ → Bool) (turns done : ℕ) :
    { d with map := m }.readLoop x offset n turns done = d.readLoop x offset n turns done := by
  induction turns generalizing done with
  | zero => rfl
  | succ turns ih =>
    have haddr : ∀ k, { d with map := m }.blockAddr x k = d.blockAddr x k := fun _ => rfl
    simp only [Disk.readLoop, haddr, ih]

/-- What the directories name does not depend on the map. -/
lemma Disk.Reached.withMap (hi : d.Reached sb i) (m : ℕ → Bool) :
    { d with map := m }.Reached sb i := by
  induction hi with
  | root => exact .root
  | @entry i ents e _ hread he hname ih =>
    have hsame : { d with map := m }.readDirEntries sb i = d.readDirEntries sb i := by
      unfold readDirEntries readFileBytes
      simp only [readLoop_withMap]
      rfl
    exact .entry ih (hsame.trans hread) he hname

/-- The places of a file that a cut to `keep` blocks gives up. -/
def Place.Past (keep : ℕ) : Place → Prop
  | .data k => keep ≤ k
  | .ind => keep ≤ ndirectV2
  | .ind2 => keep ≤ ndirectV2 + nindirect

/-- A `truncate` that gives back a block or an indirect block of a file that the directories
name. -/
def FsOp.Frees (sb : Superblock) (d : Disk) : FsOp → Prop
  | .truncate ino len => d.Reached sb ino ∧ (d.inodes ino).ty = some .file ∧
    len < (d.inodes ino).size ∧ ∃ p b, p.Past (blocksFor len) ∧ d.Refers (d.inodes ino) p b
  | _ => False

/-- A record keeps what it does not give up. -/
lemma ref_shrunk_kept (hp : ¬p.Past (blocksFor len)) (hne : d.ref x p ≠ 0) :
    d.ref { x.shrunk (blocksFor len) with size := len } p = d.ref x p := by
  cases p with
  | data k =>
    have hk : k < blocksFor len := Nat.not_le.1 hp
    have hk' : k < x.nblocks := by
      by_contra hge
      exact hne (if_neg hge)
    rw [ref_data hk, ref_data hk']
    exact slot_shrunk hk
  | ind => exact if_neg hp
  | ind2 => exact if_neg hp

lemma Disk.Refers.of_ref (hmax : x.nblocks ≤ maxBlocksV2) (hne : d.ref x p ≠ 0) :
    d.Refers x p (d.ref x p) := by
  cases p with
  | data k =>
    have hk : k < x.nblocks := by
      by_contra hge
      exact hne (if_neg hge)
    rw [ref_data hk] at hne ⊢
    refine ⟨hk, ?_⟩
    rw [blockAddrOpt_eq (hk.trans_le hmax), if_neg hne]
  | ind | ind2 => exact ⟨rfl, hne⟩

/-- Cleared bits do no harm if the file is not named or none of its blocks is given up. -/
lemma Cleared.crashSafe (hc : sb.Covered) (h : Good sb d) (hty : (d.inodes i).ty = some .file)
    (hlen : len < (d.inodes i).size) (hfree : ¬(FsOp.truncate i len).Frees sb d)
    (hcl : Cleared sb (d.Live sb)
      (d.put i ((d.inodes i).shrunk (blocksFor len)) len) d d') : d'.CrashSafe sb := by
  obtain ⟨m, rfl⟩ : ∃ m, d' = { d with map := m } := ⟨d'.map, by rw [← hcl.inodes, ← hcl.blocks]⟩
  have hlive : ∀ j, { d with map := m }.Reached sb j → d.Live sb j := fun j hj =>
    h.live_of_reached hc (hj.withMap d.map)
  apply Sound.crashSafe
  refine hcl.sound.mono rfl hlive (fun j p hj hne => ?_) fun j hj => h.sound.size j (hlive j hj)
  have hsame : { d with map := m }.ref (d.inodes j) p = d.ref (d.inodes j) p := by cases p <;> rfl
  have hput : ∀ y, { (d.put i y len) with map := m }.ref ((d.put i y len).inodes j) p =
      (d.put i y len).ref ((d.put i y len).inodes j) p := by
    intro y
    cases p <;> rfl
  rw [hsame] at hne ⊢
  rw [hput]
  by_cases hji : j = i
  · subst hji
    have hkept : ¬p.Past (blocksFor len) := fun hp => hfree
      ⟨hj.withMap d.map, hty, hlen, p, _, hp, .of_ref (h.sound.size j (hlive j hj)) hne⟩
    rw [put_ref_self, ref_shrunk_kept hkept hne]
  · rw [put_ref_ne hji]

section loses

variable (hc : sb.Covered) (h : Cleared sb K V d d')
include hc h

end loses

end AeroSLS.Posix
