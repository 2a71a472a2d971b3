import AeroSLS.Posix.Naming

namespace AeroSLS.Posix

open AeroSLS.Bytes AeroSLS.Crash Function FileType

variable {sb : Superblock} {d : Disk} {ty : FileType} {e : DirEntry}

lemma Good.grown (h : Good sb d) (hblank : Blank d i) (hn : (d.inodes i).nblocks ≤ blocksFor n)
    (hg : Grown sb (d.Live sb) i n d (d.inodes i) d' x') :
    Good sb d' ∧ d'.graph sb = d.graph sb :=
  ⟨h.of_graph (h.toShape.grown hblank hn hg), (h.toShape.grown hblank hn hg).2⟩

lemma blocksFor_mono {m : ℕ} (h : m ≤ n) : blocksFor m ≤ blocksFor n := by
  unfold blocksFor blockSize
  omega

lemma wp_write_good (hc : sb.Covered) (h : Good sb d) (hi : d.Live sb i) {offset : ℕ}
    {buf : List UInt8} (hn : n = max (d.inodes i).size (offset + buf.length))
    (hfresh : Fresh d (d.inodes i) n) : wp (Recoverable sb) (write sb i offset buf)
      (fun _ d' => Good sb d' ∧ d'.graph sb = d.graph sb)
      (fun _ d' => Good sb d' ∧ d'.graph sb = d.graph sb) d := by
  have hle : (d.inodes i).nblocks ≤ blocksFor n := blocksFor_mono (hn ▸ le_max_left ..)
  have hpart : ∀ d', (d.inodes i).ty = some .file →
      Partly sb (d.Live sb) i n d (d.inodes i) offset (offset + buf.length) d' →
      Good sb d' ∧ d'.graph sb = d.graph sb := by
    intro d' hty ⟨x', hg, _⟩
    exact h.grown (.inl hty) hle hg
  apply wp_writeCall hc h.sound hi rfl hn hfresh
  · exact fun _ => ⟨h, rfl⟩
  · exact fun d' hty hp => (hpart d' hty hp).1.recoverable
  · exact fun _ d' hty hp => hpart d' hty hp
  · intro d' x' hty _ hw
    have hput := h.toShape.put hty hw.toGrown
    exact ⟨(h.of_graph hput).recoverable, h.of_graph hput, hput.2⟩

lemma Good.shrunk (h : Good sb d) (hx : d.inodes i = x) (hty : x.ty = some .file)
    (hcl : Cleared sb (d.Live sb) (d.put i (x.shrunk (blocksFor len)) len) d d') :
    Good sb (d'.put i (x.shrunk (blocksFor len)) len) ∧
      (d'.put i (x.shrunk (blocksFor len)) len).graph sb = d.graph sb := by
  subst hx
  have hty' : ((d'.put i ((d.inodes i).shrunk (blocksFor len)) len).inodes i).ty = some .file := by
    rwa [put_inodes_self]
  have hshape := h.toShape.setFile hty hcl.sound_put hcl.bits hty' hcl.others_put
  exact ⟨h.of_graph hshape, hshape.2⟩

/-- Only a shrinking `truncate` passes through unrecoverable states: it clears bits before the
record is written. -/
theorem wp_truncate_good (hc : sb.Covered) (h : Good sb d) (hi : d.Live sb i)
    (hfresh : (d.inodes i).size ≤ len → Fresh d (d.inodes i) len) :
    wp (fun d' => (d.inodes i).size ≤ len → Recoverable sb d') (truncate sb i len)
      (fun _ d' => Good sb d' ∧ d'.graph sb = d.graph sb)
      (fun _ d' => Good sb d' ∧ d'.graph sb = d.graph sb) d := by
  have hfill : ∀ d' x', (d.inodes i).ty = some .file → (d.inodes i).size ≤ len →
      Filled sb (d.Live sb) i len d (d.inodes i) d' x' →
      Good sb d' ∧ d'.graph sb = d.graph sb := fun d' x' hty hle hf =>
    h.grown (.inl hty) (blocksFor_mono hle) hf.toGrown
  apply wp_truncateCall hc h.sound hi rfl hfresh
  · exact fun _ => ⟨h, rfl⟩
  · exact fun d' x' hty hle hf _ => (hfill d' x' hty hle hf).1.recoverable
  · exact fun _ d' x' hty hle hf => hfill d' x' hty hle hf
  · intro d' x' hty _ hf _
    have hput := h.toShape.put hty hf.toGrown
    exact ⟨fun _ => (h.of_graph hput).recoverable, h.of_graph hput, hput.2⟩
  · exact fun d' _ hlt _ hle => absurd hlt (Nat.not_lt.2 hle)
  · exact fun d' hty _ hcl => ⟨fun _ => (h.shrunk rfl hty hcl).1.recoverable, h.shrunk rfl hty hcl⟩

lemma entry_dotEntry (hname : cutName name = name) (hi : i < 2 ^ 32) :
    (parseDirent (encodeDirent (dotEntry name i))).entry = ⟨name, i, dir.dt, direntSize⟩ := by
  rw [entry_encode hi (by change direntSize < 256; decide)]
  unfold DirEntry.entry DirEntry.nameStr dotEntry
  unfold cutName at hname
  rw [hname]

section

variable (hc : sb.Covered) (h : Good sb d) (hi : d.Live sb i) (hrec : d.inodes i = .fresh mode)
  (hmode : FileType.ofMode mode = some .dir) (hp : d.Live sb p)
include hc h hi hrec hmode hp

/-- A directory without records gets the first two. -/
theorem Good.dots {d1 d2 : Disk} {x1 x2 : Inode}
    (h1 : Wrote sb (d.Live sb) i (2 * direntSize) d (d.inodes i) (direntSize * 0) (direntSize * 0)
      (direntSize * 0 + direntSize) (encodeDirent (dotEntry dot i)) d1 x1)
    (h2 : Wrote sb (d.Live sb) i (2 * direntSize) d1 x1 (direntSize * 1) (direntSize * 1)
      (direntSize * 1 + direntSize) (encodeDirent (dotEntry dotdot p)) d2 x2) :
    Good sb (d2.put i x2 (2 * direntSize)) ∧
      (d2.put i x2 (2 * direntSize)).graph sb = (d.graph sb).setUp i p := by
  have hg := h1.toGrown.trans h2.toGrown
  set d' := d2.put i x2 (2 * direntSize)
  have hself : d'.inodes i = { x2 with size := 2 * direntSize } :=
    put_inodes_self
  have hty : (d.inodes i).ty = some .dir := by rwa [hrec]
  have hty' : (d'.inodes i).ty = (d.inodes i).ty := by
    rw [hself]
    exact congrArg ofMode hg.mode
  have hentries : (d'.inodes i).entries = 2 := by
    rw [hself]
    exact Nat.mul_div_cancel 2 (by decide)
  have h0 : d'.entry (d'.inodes i) 0 = ⟨dot, i, dir.dt, direntSize⟩ := by
    rw [hself]
    change d2.entry x2 0 = _
    rw [h2.entry (by decide), h1.entry (by decide)]
    exact entry_dotEntry cutName_dot (hi.lt hc)
  have hdd : d'.entry (d'.inodes i) 1 = ⟨dotdot, p, dir.dt, direntSize⟩ := by
    rw [hself]
    change d2.entry x2 1 = _
    rw [h2.entry (by decide)]
    exact entry_dotEntry cutName_dotdot (hp.lt hc)
  have hdir : DirOk d' (d'.inodes i) := by
    refine ⟨⟨?_, fun k hk => ?_, fun s hs => ?_⟩, fun k hk => ?_⟩
    · rw [hentries, hself]
      rfl
    · rw [hself, nblocks_size] at hk
      obtain rfl : k = 0 := by
        have hone : blocksFor (2 * direntSize) = 1 := by decide
        omega
      rw [hself]
      exact h2.slots direntSize (by decide) (by decide)
    · grind
    · rw [hself] at hk ⊢
      change d2.slot x2 k = 0
      rw [hg.tail k hk, hrec]
      exact dirOk_fresh.tail k (by rw [nblocks_fresh]; exact Nat.zero_le k)
  have hbits : ∀ j, d'.map (8 * sb.split + j) = d.map (8 * sb.split + j) := hg.bits
  have hothers : Others sb i d d' := hg.others_put
  have hp0 : p ≠ 0 := by
    have := hp.1
    omega
  have hshape : Shape sb d' := by
    refine h.toShape.change hbits hothers hg.sound ⟨.inr (hty'.trans hty), fun _ => hdir, ?_⟩ ?_
    · exact fun _ _ => ⟨by omega, h0, p, hp0, hdd⟩
    · rintro rfl
      exact absurd (by rw [hrec]; rfl) h.root.2.2
  have hlive : d'.Live sb i := (live_of_bit (hg.bits i)).2 hi
  have hup : (d'.graph sb).up i = some p := by rw [graph_up ⟨hlive, hty'.trans hty⟩ (by omega), hdd]
  have hlink : (d'.graph sb).link i = (d.graph sb).link i := by
    funext t
    apply Option.ext
    intro e
    rw [graph_link, graph_link, hrec, entries_fresh]
    exact iff_of_false (fun hl => absurd hl.2.2.1 (by have := hl.2.1; omega))
      fun hl => absurd hl.2.2.1 (Nat.not_lt_zero t)
  have hgraph : d'.graph sb = (d.graph sb).setUp i p := by
    rw [h.toShape.change_graph hbits hothers hty', hup, hlink, update_eq_self]
    rfl
  exact ⟨⟨hshape, hgraph ▸ h.names.setUp i p⟩, hgraph⟩

lemma wp_dots {α : Type} {m : Fs α} {Q : α → Disk → Prop}
    (hE : ∀ e d', Good sb d' → d'.graph sb = d.graph sb → E e d')
    (hQ : ∀ d', Good sb d' → d'.graph sb = (d.graph sb).setUp i p → wp (Recoverable sb) m Q E d') :
    wp (Recoverable sb) (do
      let x ← writeAt sb (d.inodes i) 0 (encodeDirent (dotEntry dot i)) direntSize
      let x ← writeAt sb x direntSize (encodeDirent (dotEntry dotdot p)) direntSize
      writeInode i { x with size := 2 * direntSize }
      m) Q E d := by
  have hput : Sound sb (d.Live sb) (d.put i (d.inodes i) (2 * direntSize)) := by
    apply h.sound.enlarge (by decide)
    intro k hk _
    rw [hrec] at hk ⊢
    exact dirOk_fresh.tail k hk
  have hpart : ∀ d' x', Grown sb (d.Live sb) i (2 * direntSize) d (d.inodes i) d' x' →
      Good sb d' ∧ d'.graph sb = d.graph sb := by
    intro d' x' hg
    apply h.grown (.inr ⟨mode, hrec⟩) _ hg
    rw [hrec, nblocks_fresh]
    exact Nat.zero_le _
  rw [wp_bind]
  change wp _ (writeAt sb (d.inodes i) (direntSize * 0) _ _) _ E d
  apply wp_writeSlot hc hi hput (by decide)
  · exact fun d' x' hf => (hpart d' x' hf.toGrown).1.recoverable
  · exact fun e d' ht _ => hE e d' (h.taken ht).1 (h.taken ht).2
  · intro d1 x1 h1
    refine ⟨(hpart d1 x1 h1.toGrown).1.recoverable, ?_⟩
    rw [wp_bind]
    change wp _ (writeAt sb x1 (direntSize * 1) _ _) _ E d1
    apply wp_writeSlot hc hi h1.sound (by decide)
    · exact fun d' x' hf => (hpart d' x' (h1.toGrown.trans hf.toGrown)).1.recoverable
    · intro e d' ht _
      have hg := hpart d' x1 (h1.toGrown.trans (ht.filled h1.sound hi).toGrown)
      exact hE e d' hg.1 hg.2
    · intro d2 x2 h2
      have hgood := h.dots hc hi hrec hmode hp h1 h2
      refine ⟨(hpart d2 x2 (h1.toGrown.trans h2.toGrown)).1.recoverable, ?_⟩
      rw [wp_bind, writeInode, wp_write]
      exact ⟨hgood.1.recoverable, hQ _ hgood.1 hgood.2⟩

end

/-- An inode that can be read is in use, and a directory has its records. -/
def Disk.Proper (sb : Superblock) (d : Disk) (i : ℕ) : Prop :=
  2 ≤ i ∧ i ≤ sb.inodeCount ∧ (d.inodes i).ty ≠ none →
    d.map (8 * sb.split + i) = true ∧ ((d.inodes i).ty = some .dir → (d.inodes i).size ≠ 0)

instance : Decidable (d.Proper sb i) := inferInstanceAs (Decidable (_ → _))

lemma Disk.Proper.live (h : d.Proper sb i) (hino : d.inode sb i = .ok x) :
    d.Live sb i ∧ (x.ty = some .dir → x.size ≠ 0) := by
  obtain rfl := inode_eq hino
  unfold Disk.inode at hino
  split_ifs at hino with hrange hty
  rw [not_or, Nat.not_lt, Nat.not_lt] at hrange
  obtain ⟨hbit, hsize⟩ := h ⟨hrange.1, hrange.2, hty⟩
  exact ⟨⟨hrange.1, hrange.2, hbit⟩, hsize⟩

lemma fromDt_dir (h : e.ty = dir.dt) : fromDt e.ty = some .dir := by
  rw [h]
  rfl

lemma fromDt_file (h : e.ty = file.dt) : fromDt e.ty = some .file := by
  rw [h]
  rfl

section

variable (h : Good sb d)
include h

lemma Good.ne_root (hi : i ∉ (d.graph sb).live) : i ≠ 2 := by
  rintro rfl
  exact hi h.root.1

variable (hp : d.Proper sb p)
include hp

lemma Good.dir_of_proper (hino : d.inode sb p = .ok x) (hty : x.ty = some .dir) :
    p ∈ (d.graph sb).dirs ∧ ((d.graph sb).up p).isSome := by
  obtain ⟨hlive, hsize⟩ := hp.live hino
  obtain rfl := inode_eq hino
  have hdir : p ∈ (d.graph sb).dirs := ⟨hlive, hty⟩
  exact ⟨hdir, (h.toShape.up_isSome hdir).2 (hsize hty)⟩

theorem Good.found (hent : d.dirEntry sb p name = .ok (at_, e)) :
    p ∈ (d.graph sb).dirs ∧ ((name = dot ∨ name = dotdot) ∧ e.ty = dir.dt ∨
      (name ≠ dot ∧ name ≠ dotdot) ∧ ∃ s, (d.graph sb).Finds p name s e.entry) := by
  obtain ⟨x, hino, hty⟩ := dirEntry_dir hent
  obtain ⟨hdir, -⟩ := h.dir_of_proper hp hino hty
  obtain hnone | ⟨at', e', hok, hcases⟩ := h.toShape.dirEntry_cases hdir
  · rw [hent] at hnone
    cases hnone
  rw [hent] at hok
  cases hok
  exact ⟨hdir, hcases⟩

lemma wp_createCheck {C : Disk → Prop} {Q : Unit → Disk → Prop} (hE : ∀ e, E e d)
    (hQ : p ∈ (d.graph sb).dirs → ((d.graph sb).up p).isSome →
      name ≠ [] ∧ name.length ≤ nameMax ∧ name ≠ dot ∧ name ≠ dotdot →
      (∀ s e, (d.graph sb).link p s = some e → e.name ≠ name) → Q () d) :
    wp C (createCheck sb p name) Q E d := by
  unfold createCheck inode
  split_ifs with hname hdots
  · exact wp_fail.2 (hE _)
  · exact wp_fail.2 (hE _)
  · rw [not_or, not_or, Nat.not_lt] at hname
    rw [not_or] at hdots
    rw [wp_bind, wp_attempt]
    rcases hino : d.inode sb p with e | x
    · exact hE e
    dsimp only
    by_cases hty : x.ty = some .dir
    · obtain ⟨hdir, hup⟩ := h.dir_of_proper hp hino hty
      rw [if_neg (not_not.2 hty), wp_bind, wp_attempt]
      obtain ⟨hnone, -, habsent⟩ | ⟨at_, e, hsome⟩ := h.toShape.dirLookup_cases hdir hup name
      · grind [wp_pure.2]
      · rw [hsome]
        exact wp_fail.2 (hE _)
    · rw [if_pos hty]
      exact wp_fail.2 (hE _)

end

section

variable (hc : sb.Covered) (h : Good sb d)
include hc h

/-- What `unlink` and `rmdir` share: the name goes, then the inode. -/
theorem wp_dropName (hp : p ∈ (d.graph sb).dirs) (hname : name ≠ dot ∧ name ≠ dotdot) {e : Entry}
    (hfinds : (d.graph sb).Finds p name s e) (hi : e.ino = i) (hne : i ≠ p) :
    wp (Recoverable sb) (do
      dirRemove sb p name
      freeFile sb i (d.inodes i))
      (fun _ d' => Good sb d' ∧ (d.graph sb).Removed p name e (d'.graph sb)) E d := by
  subst hi
  obtain ⟨hlive, hroot, -⟩ := h.names.target p s e hfinds.link
  refine wp_seqE (wp_unname hc h hp hname) ?_ ?_
  · intro _ d1 ⟨h1, s', e', hfinds', hgraph, hsame⟩
    obtain ⟨rfl, rfl⟩ := hfinds'.unique hfinds
    rw [← hsame e'.ino hlive hne]
    have hlive1 : e'.ino ∈ (d1.graph sb).live := by rwa [hgraph]
    have hnone : (d1.graph sb).Nameless e'.ino := by
      rw [hgraph]
      exact h.names.nameless_erase hfinds.link
    refine wp_imp (wp_removeNode hc h1 hlive1 hroot hnone) ?_
    intro _ d2 ⟨h2, hgraph2⟩
    rw [hgraph] at hgraph2
    exact ⟨h2, hp, hname, s', hfinds, hgraph2⟩
  · grind [hfinds.named, hfinds.link]

/-- The first half of a move: ".." and the old name. -/
theorem wp_detach (hp : p ∈ (d.graph sb).dirs) (hq : q ∈ (d.graph sb).dirs)
    (hname : name ≠ dot ∧ name ≠ dotdot) {e : Entry} (hfinds : (d.graph sb).Finds p name s e)
    (hty : e.ty = ty.dt) (hi : e.ino = i) :
    wp (Recoverable sb) (Prog.when (ty = .dir) (repoint sb i q))
      (fun _ d1 => wp (Recoverable sb) (dirRemove sb p name)
        (fun _ d2 => Good sb d2 ∧ d2.graph sb = (d.graph sb).detach p s e q) E d1) E d := by
  subst hi
  have hrest : ∀ d1, Good sb d1 → (d1.graph sb).link = (d.graph sb).link →
      (d1.graph sb).dirs = (d.graph sb).dirs →
      (d1.graph sb).setLink p s none = (d.graph sb).detach p s e q →
      wp (Recoverable sb) (dirRemove sb p name)
        (fun _ d2 => Good sb d2 ∧ d2.graph sb = (d.graph sb).detach p s e q) E d1 := by
    intro d1 h1 hlink hdirs hgraph
    have hfinds1 : (d1.graph sb).Finds p name s e := by
      refine ⟨?_, hfinds.named, ?_⟩ <;> rw [hlink]
      · exact hfinds.link
      · exact hfinds.first
    refine wp_mono (wp_unname hc h1 (by rwa [hdirs]) hname) (fun _ h => h) ?_ ?_
    · intro _ d2 ⟨h2, s', e', hfinds', hgraph2, _⟩
      obtain ⟨rfl, rfl⟩ := hfinds'.unique hfinds1
      exact ⟨h2, hgraph2.trans hgraph⟩
    · grind [hfinds.named, hfinds1.link]
  rw [wp_when]
  obtain ⟨-, -, ⟨hfile, -⟩ | ⟨hdt, hdir, hup⟩⟩ := h.names.target p s e hfinds.link
  · have hne : e.ty ≠ dir.dt := by
      rw [hfile]
      decide
    refine ⟨fun hdir => absurd (by rw [hty, hdir]) hne, fun _ => hrest d h rfl rfl ?_⟩
    unfold Graph.detach
    rw [if_neg hne]
  · constructor
    · intro _
      refine wp_imp (wp_setUp hc h hdir hup hq.1) ?_
      intro _ d1 ⟨h1, hgraph⟩
      refine hrest d1 h1 (by rw [hgraph]; rfl) (by rw [hgraph]; rfl) ?_
      unfold Graph.detach
      rw [hgraph, if_pos hdt]
    · intro hne
      refine absurd ?_ hne
      rw [hdt] at hty
      cases ty <;> first | rfl | exact absurd hty (by decide)

variable (hp : d.Proper sb p)
include hp

lemma wp_createFile : wp (Recoverable sb) (createFile sb p name mode)
      (fun i d' => Good sb d' ∧ (d.graph sb).Created p name .file i (d'.graph sb))
      (fun _ d' => Good sb d' ∧ (d.graph sb).Leaked (d'.graph sb)) d := by
  unfold createFile
  rw [wp_bind]
  apply wp_createCheck h hp
  · exact fun _ => ⟨h, .inl rfl⟩
  intro hdir hup hname habsent
  refine wp_seqE (wp_newInode hc h ofMode_reg (.inl rfl)) ?_ ?_
  · intro i d1 ⟨h1, hnew, _, hgraph⟩
    have hlink := wp_link hc h1 hgraph p name .file (Graph.mem_addNode_dirs hdir .file) hup
      (Set.mem_insert i _) (h.ne_root hnew) (.inl ⟨rfl, fun hmem => hnew hmem.1⟩)
      (h.names.nameless hnew)
    refine wp_seqE hlink ?_ ?_
    · intro _ d2 ⟨h2, s, hs, hvacant, hgraph2⟩
      exact wp_pure.2 ⟨h2, hdir, hnew, hname, habsent, s, hs, hvacant, hgraph2⟩
    · exact fun _ d2 ⟨h2, hsame⟩ => ⟨h2, .inr ⟨i, .file, hnew, .inl hsame⟩⟩
  · rintro _ d' rfl
    exact ⟨h, .inl rfl⟩

lemma wp_createDir : wp (Recoverable sb) (createDir sb p name mode)
      (fun i d' => Good sb d' ∧ (d.graph sb).Created p name .dir i (d'.graph sb))
      (fun _ d' => Good sb d' ∧ (d.graph sb).Leaked (d'.graph sb)) d := by
  unfold createDir
  rw [wp_bind]
  apply wp_createCheck h hp
  · exact fun _ => ⟨h, .inl rfl⟩
  intro hdir hup hname habsent
  refine wp_seqE (wp_newInode hc h ofMode_dir (.inr rfl)) ?_ ?_
  · intro i d1 ⟨h1, hnew, hrec, hgraph⟩
    have hi : i ∈ (d1.graph sb).live := by
      rw [hgraph]
      exact Set.mem_insert i _
    have hdir1 : p ∈ (d1.graph sb).dirs := by
      rw [hgraph]
      exact Graph.mem_addNode_dirs hdir .dir
    unfold inode
    rw [wp_bind, wp_attempt, h1.toShape.inode_ok hi]
    apply wp_dots hc h1 hi hrec ofMode_dir hdir1.1
    · exact fun _ d2 h2 hsame => ⟨h2, .inr ⟨i, .dir, hnew, .inl (hsame.trans hgraph)⟩⟩
    intro d2 h2 hgraph2
    rw [hgraph] at hgraph2
    have hne : p ≠ i := by
      rintro rfl
      exact hnew hdir.1
    have hlink := wp_link hc h2 hgraph2 p name .dir (Graph.mem_addNode_dirs hdir .dir) ?_
      (Set.mem_insert i _) (h.ne_root hnew) (.inr ⟨rfl, Set.mem_insert i _, ?_⟩)
      (h.names.nameless hnew)
    · refine wp_seqE hlink ?_ ?_
      · intro _ d3 ⟨h3, s, hs, hvacant, hgraph3⟩
        exact wp_pure.2 ⟨h3, hdir, hnew, hname, habsent, s, hs, hvacant, hgraph3⟩
      · exact fun _ d3 ⟨h3, hsame⟩ => ⟨h3, .inr ⟨i, .dir, hnew, .inr ⟨p, hsame⟩⟩⟩
    · change (update (d.graph sb).up i (some p) p).isSome
      rwa [update_of_ne hne]
    · change (update (d.graph sb).up i (some p) i).isSome
      rw [update_self]
      rfl
  · rintro _ d' rfl
    exact ⟨h, .inl rfl⟩

lemma wp_unlink : wp (Recoverable sb) (unlink sb p name)
      (fun _ d' => Good sb d' ∧ ∃ e, (d.graph sb).Removed p name e (d'.graph sb) ∧
        e.ino ∉ (d.graph sb).dirs)
      (fun _ d' => d' = d) d := by
  unfold unlink
  rw [wp_bind, wp_attempt]
  rcases hent : d.dirEntry sb p name with e | r
  · rfl
  obtain ⟨at_, e⟩ := r
  obtain ⟨hdir, hcases⟩ := h.found hp hent
  dsimp only
  obtain ⟨-, hdt⟩ | ⟨hname, s, hfinds⟩ := hcases
  · rw [if_pos (fromDt_dir hdt)]
    exact wp_fail.2 rfl
  obtain ⟨hlive, -, hfile | hdt⟩ := h.names.target p s _ hfinds.link
  · rw [if_neg (by rw [fromDt_file hfile.1]; exact fun hc => by cases hc)]
    have hread : d.inode sb e.ino = .ok (d.inodes e.ino) := h.toShape.inode_ok hlive
    unfold inode
    rw [wp_bind, wp_attempt, hread]
    have hnot : e.ino ∉ (d.graph sb).dirs := hfile.2
    have hne : e.ino ≠ p := fun heq => hnot (heq ▸ hdir)
    refine wp_imp (wp_dropName hc h hdir hname hfinds rfl hne) ?_
    exact fun _ d' ⟨h', hrem⟩ => ⟨h', _, hrem, hfile.2⟩
  · rw [if_pos (fromDt_dir hdt.1)]
    exact wp_fail.2 rfl

/-- `rmdir` takes only directories in which it sees nothing but "." and "..". -/
theorem wp_rmdir (hname : name ≠ dot ∧ name ≠ dotdot) : wp (Recoverable sb) (rmdir sb p name)
      (fun _ d' => Good sb d' ∧ ∃ e, (d.graph sb).Removed p name e (d'.graph sb) ∧
        e.ino ∈ (d.graph sb).dirs ∧
        ∀ t f, (d.graph sb).link e.ino t = some f → f.name = dot ∨ f.name = dotdot)
      (fun _ d' => d' = d) d := by
  unfold rmdir
  rw [wp_bind, wp_attempt]
  rcases hent : d.dirEntry sb p name with e | r
  · rfl
  obtain ⟨at_, e⟩ := r
  obtain ⟨hdir, hcases⟩ := h.found hp hent
  dsimp only
  obtain ⟨hdots, -⟩ | ⟨-, s, hfinds⟩ := hcases
  · exact absurd hdots (not_or.2 hname)
  obtain ⟨hlive, hroot, hfile | ⟨hdt, hedir, -⟩⟩ := h.names.target p s _ hfinds.link
  · rw [if_pos (by rw [fromDt_file hfile.1]; exact fun hc => by cases hc)]
    exact wp_fail.2 rfl
  have hform := h.formed e.ino hlive
  have hlist := hform.listed hedir.2
  rw [if_neg (not_not.2 (fromDt_dir hdt)), if_neg (by rw [hc.root]; exact hroot)]
  have hread : d.inode sb e.ino = .ok (d.inodes e.ino) := h.toShape.inode_ok hlive
  have hdata : d.readFileBytes (d.inodes e.ino) = .ok (d.contents (d.inodes e.ino)) :=
    readDir_ok h.sound hlive hlist
  unfold inode
  rw [wp_bind, wp_attempt, hread]
  dsimp only
  rw [wp_bind, wp_attempt, hdata]
  dsimp only
  obtain ⟨hwalk, hall⟩ | ⟨t, f, hwalk, -⟩ := dirWalk_cases hlist
    fun a => a.ino ≠ 0 && a.name ≠ dot && a.name ≠ dotdot
  · have hrun : dirWalk (fun e => decide (e.ino ≠ 0) && decide (e.nameStr ≠ dot) &&
        decide (e.nameStr ≠ dotdot)) (d.contents (d.inodes e.ino)) = none := hwalk
    have hempty : ∀ t f, (d.graph sb).link e.ino t = some f → f.name = dot ∨ f.name = dotdot := by
      intro t f hlink
      obtain ⟨-, -, hlt, hf, hne⟩ := graph_link.1 hlink
      have hg := hall t hlt
      rw [hf] at hg
      by_contra hcon
      rw [not_or] at hcon
      simp [hne, hcon] at hg
    -- the directory itself holds the name that is removed
    have hne : e.ino ≠ p := by grind [hfinds.named, hfinds.link]
    rw [hrun]
    refine wp_imp (wp_dropName hc h hdir hname hfinds rfl hne) ?_
    exact fun _ d' ⟨h', hrem⟩ => ⟨h', _, hrem, hedir, hempty⟩
  · have hrun : dirWalk (fun e => decide (e.ino ≠ 0) && decide (e.nameStr ≠ dot) &&
        decide (e.nameStr ≠ dotdot)) (d.contents (d.inodes e.ino)) =
        some (direntSize * t, f) := hwalk
    rw [hrun]
    exact wp_fail.2 rfl

lemma wp_rename {name' : Name} (hq : d.Proper sb q) (hname : name ≠ dot ∧ name ≠ dotdot) :
    wp (Recoverable sb) (rename sb p name q name')
      (fun _ d' => Good sb d' ∧ ((p = q ∧ name = name') ∧ d'.graph sb = d.graph sb ∨
        (d.graph sb).Moved p name q name' (d'.graph sb)))
      (fun _ d' => Good sb d' ∧ (d'.graph sb = d.graph sb ∨
        (d.graph sb).Lost p name q name' (d'.graph sb))) d := by
  unfold rename
  by_cases hlen : name = [] ∨ name' = [] ∨ nameMax < name'.length
  · rw [if_pos hlen]
    exact wp_fail.2 ⟨h, .inl rfl⟩
  rw [if_neg hlen]
  rw [not_or, not_or, Nat.not_lt] at hlen
  by_cases hsame : p = q ∧ name = name'
  · grind [wp_pure.2]
  rw [if_neg hsame, wp_bind, wp_attempt]
  rcases hent : d.dirEntry sb p name with e | r
  · exact ⟨h, .inl rfl⟩
  obtain ⟨at_, e⟩ := r
  obtain ⟨hdir, hcases⟩ := h.found hp hent
  dsimp only
  obtain ⟨hdots, -⟩ | ⟨-, s, hfinds⟩ := hcases
  · exact absurd hdots (not_or.2 hname)
  rw [wp_bind, wp_attempt]
  rcases hlook : d.dirLookup sb q name' with e | r'
  · exact ⟨h, .inl rfl⟩
  obtain ⟨y, hino', hty'⟩ := dirLookup_dir hlook
  obtain ⟨hqdir, hqup⟩ := h.dir_of_proper hq hino' hty'
  obtain ⟨hnone, hdots', habsent⟩ | ⟨at', e', hsome⟩ := h.toShape.dirLookup_cases hqdir hqup name'
  · rw [hlook] at hnone
    cases hnone
    obtain ⟨hlive, hroot, hfits⟩ := h.names.target p s _ hfinds.link
    obtain ⟨ty, hfrom, hdt⟩ : ∃ ty, fromDt e.ty = some ty ∧ e.ty = ty.dt := by
      obtain ⟨hfile, -⟩ | ⟨hdir, -⟩ := hfits
      · exact ⟨.file, fromDt_file hfile, hfile⟩
      · exact ⟨.dir, fromDt_dir hdir, hdir⟩
    rw [hfrom]
    refine wp_seq (wp_detach hc h hdir hqdir hname hfinds hdt rfl) ?_
    intro _ d1 h1
    refine wp_seq h1 ?_
    intro _ d2 ⟨h2, hgraph⟩
    have hfits2 : ((d.graph sb).detach p s e.entry q).Fits
        ⟨cutName name', e.ino, ty.dt, direntSize⟩ := by
      rw [← hdt]
      exact Graph.Fits.detach p s e.entry q hfits
    have hlink := wp_link hc h2 hgraph q name' ty ?_ ?_ ?_ hroot hfits2 ?_
    · refine wp_mono hlink (fun _ h => h) ?_ ?_
      · intro _ d3 ⟨h3, t, ht, hvacant, hgraph3⟩
        refine ⟨h3, .inr ⟨⟨hdir, hqdir⟩, ⟨hlen.2.1, hlen.2.2, hdots'⟩, habsent, s, e.entry, t,
          hfinds, ht, hvacant, ?_⟩⟩
        rw [hgraph3, ← hdt]
        rfl
      · intro _ d3 ⟨h3, hgraph3⟩
        exact ⟨h3, .inr ⟨⟨hdir, hqdir⟩, ⟨hlen.2.1, hlen.2.2, hdots'⟩, habsent, s, e.entry, hfinds,
          hgraph3⟩⟩
    · rw [Graph.detach_dirs]
      exact hqdir
    · grind [Graph.detach_up]
    · rw [Graph.detach_live]
      exact hlive
    · unfold Graph.Nameless
      rw [Graph.detach_link]
      exact h.names.nameless_erase hfinds.link
  · grind [wp_fail.2]

end

end AeroSLS.Posix
