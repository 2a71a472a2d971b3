import AeroSLS.Posix.Files
import AeroSLS.Posix.Graph

namespace AeroSLS.Posix

open AeroSLS.Bytes AeroSLS.Crash Function Disk

variable {sb : Superblock} {d d' : Disk}

def Disk.Live (sb : Superblock) (d : Disk) (i : ℕ) : Prop :=
  2 ≤ i ∧ i ≤ sb.inodeCount ∧ d.map (8 * sb.split + i) = true

instance : Decidable (d.Live sb i) := inferInstanceAs (Decidable (_ ∧ _ ∧ _))

lemma live_of_bit (h : d'.map (8 * sb.split + i) = d.map (8 * sb.split + i)) :
    d'.Live sb i ↔ d.Live sb i := by
  unfold Disk.Live
  rw [h]

lemma live_of_bits (h : ∀ j, d'.map (8 * sb.split + j) = d.map (8 * sb.split + j)) :
    d'.Live sb = d.Live sb := by
  funext j
  exact propext (live_of_bit (h j))

def Disk.graph (sb : Superblock) (d : Disk) : Graph where
  live := {i | d.Live sb i}
  dirs := {i | d.Live sb i ∧ (d.inodes i).ty = some .dir}
  link i s :=
    if (d.Live sb i ∧ (d.inodes i).ty = some .dir) ∧ 2 ≤ s ∧ s < (d.inodes i).entries ∧
      (d.entry (d.inodes i) s).ino ≠ 0 then some (d.entry (d.inodes i) s)
    else none
  up i :=
    if (d.Live sb i ∧ (d.inodes i).ty = some .dir) ∧ 1 < (d.inodes i).entries then
      some (d.entry (d.inodes i) 1).ino
    else none

lemma graph_link : (d.graph sb).link i s = some e ↔
    (d.Live sb i ∧ (d.inodes i).ty = some .dir) ∧ 2 ≤ s ∧ s < (d.inodes i).entries ∧
      d.entry (d.inodes i) s = e ∧ e.ino ≠ 0 := by
  unfold Disk.graph
  dsimp only
  split_ifs with h
  · grind
  · grind

lemma graph_up (hi : d.Live sb i ∧ (d.inodes i).ty = some .dir) (h : 1 < (d.inodes i).entries) :
    (d.graph sb).up i = some (d.entry (d.inodes i) 1).ino := if_pos ⟨hi, h⟩

/-- Seen through its directory entries, an inode is the same. -/
structure Alike (d d' : Disk) (j : ℕ) : Prop where
  ty : (d'.inodes j).ty = (d.inodes j).ty
  size : (d.inodes j).ty = some .dir → (d'.inodes j).size = (d.inodes j).size
  listed : (d.inodes j).ty = some .dir → Listed d' (d'.inodes j)
  entry : (d.inodes j).ty = some .dir → ∀ s < (d.inodes j).entries,
    d'.entry (d'.inodes j) s = d.entry (d.inodes j) s

lemma Alike.entries (h : Alike d d' j) (hty : (d.inodes j).ty = some .dir) :
    (d'.inodes j).entries = (d.inodes j).entries := by
  unfold Inode.entries
  rw [h.size hty]

lemma Alike.of_file (hty : (d.inodes j).ty = some .file) (hty' : (d'.inodes j).ty = some .file) :
    Alike d d' j := by
  have hne : (d.inodes j).ty ≠ some .dir := by
    rw [hty]
    exact fun h => by cases h
  exact ⟨hty'.trans hty.symm, fun h => absurd h hne, fun h => absurd h hne, fun h => absurd h hne⟩

lemma Alike.of_reads (hsame : d'.inodes j = d.inodes j) (h : Reads d d' (d.inodes j))
    (hlist : (d.inodes j).ty = some .dir → Listed d (d.inodes j)) : Alike d d' j := by
  have hentry : ∀ hty : (d.inodes j).ty = some .dir, ∀ s < (d.inodes j).entries,
      d'.entry (d.inodes j) s = d.entry (d.inodes j) s := by
    intro hty s hs
    apply entry_congr
    intro t ht
    exact h.byte _ (entry_lt_size (hlist hty) hs ht)
  refine ⟨by rw [hsame], fun _ => by rw [hsame], fun hty => ?_, fun hty s hs => ?_⟩
  · rw [hsame]
    refine ⟨(hlist hty).whole, fun k hk => h.slot k hk ((hlist hty).dense k hk), fun s hs => ?_⟩
    rw [hentry hty s hs]
    exact (hlist hty).recs s hs
  · rw [hsame]
    exact hentry hty s hs

lemma Alike.refl (hlist : (d.inodes j).ty = some .dir → Listed d (d.inodes j)) : Alike d d j :=
  .of_reads rfl (Untouched.refl d _).reads hlist

section graph

variable (hlive : d'.Live sb j ↔ d.Live sb j) (h : d.Live sb j → Alike d d' j)
include hlive h

lemma dir_alike : d'.Live sb j ∧ (d'.inodes j).ty = some .dir ↔
    d.Live sb j ∧ (d.inodes j).ty = some .dir := by
  rw [hlive]
  exact and_congr_right fun hj => by rw [(h hj).ty]

lemma link_alike : (d'.graph sb).link j = (d.graph sb).link j := by
  funext t
  apply Option.ext
  intro e
  rw [graph_link, graph_link, dir_alike hlive h]
  apply and_congr_right
  intro ⟨hj, hty⟩
  rw [(h hj).entries hty]
  apply and_congr_right
  intro _
  apply and_congr_right
  intro ht
  rw [(h hj).entry hty t ht]

lemma up_alike : (d'.graph sb).up j = (d.graph sb).up j := by
  unfold Disk.graph
  dsimp only
  by_cases hdir : d.Live sb j ∧ (d.inodes j).ty = some .dir
  · have hentries := (h hdir.1).entries hdir.2
    by_cases hlt : 1 < (d.inodes j).entries
    · rw [if_pos ⟨(dir_alike hlive h).2 hdir, by omega⟩, if_pos ⟨hdir, hlt⟩,
        (h hdir.1).entry hdir.2 1 hlt]
    · rw [if_neg fun hc => hlt (by omega), if_neg fun hc => hlt hc.2]
  · rw [if_neg fun hc => hdir ((dir_alike hlive h).1 hc.1), if_neg fun hc => hdir hc.1]

end graph

lemma graph_alike (hlive : ∀ j, d'.Live sb j ↔ d.Live sb j)
    (h : ∀ j, d.Live sb j → Alike d d' j) : d'.graph sb = d.graph sb := by
  ext j : 2
  · exact hlive j
  · exact dir_alike (hlive j) (h j)
  · exact link_alike (hlive j) (h j)
  · exact up_alike (hlive j) (h j)

/-- A file, or a directory that is empty or starts with "." and "..". -/
structure Formed (d : Disk) (i : ℕ) : Prop where
  kind : (d.inodes i).ty = some .file ∨ (d.inodes i).ty = some .dir
  dir : (d.inodes i).ty = some .dir → DirOk d (d.inodes i)
  dots : (d.inodes i).ty = some .dir → (d.inodes i).size ≠ 0 → 2 ≤ (d.inodes i).entries ∧
    d.entry (d.inodes i) 0 = ⟨dot, i, FileType.dir.dt, direntSize⟩ ∧
    ∃ p, p ≠ 0 ∧ d.entry (d.inodes i) 1 = ⟨dotdot, p, FileType.dir.dt, direntSize⟩

lemma Alike.formed (h : Alike d d' i) (hf : Formed d i)
    (hdir : (d.inodes i).ty = some .dir → DirOk d' (d'.inodes i)) : Formed d' i where
  kind := by
    rw [h.ty]
    exact hf.kind
  dir hty := hdir (h.ty ▸ hty)
  dots hty hsize := by
    rw [h.ty] at hty
    rw [h.size hty] at hsize
    obtain ⟨h2, h0, h1⟩ := hf.dots hty hsize
    rw [h.entries hty, h.entry hty 0 (by omega), h.entry hty 1 (by omega)]
    exact ⟨h2, h0, h1⟩

structure Shape (sb : Superblock) (d : Disk) : Prop where
  sound : Sound sb (d.Live sb) d
  root : d.Live sb 2 ∧ (d.inodes 2).ty = some .dir ∧ (d.inodes 2).size ≠ 0
  formed : ∀ i, d.Live sb i → Formed d i

structure Good (sb : Superblock) (d : Disk) : Prop extends Shape sb d where
  names : (d.graph sb).Ok

lemma Formed.listed (h : Formed d i) (hty : (d.inodes i).ty = some .dir) :
    Listed d (d.inodes i) := (h.dir hty).toListed

lemma Shape.alike (h : Shape sb d) (hS : Sound sb (d.Live sb) d')
    (hbits : ∀ j, d'.map (8 * sb.split + j) = d.map (8 * sb.split + j))
    (halike : ∀ j, d.Live sb j → Alike d d' j) (hform : ∀ j, d.Live sb j → Formed d' j) :
    Shape sb d' ∧ d'.graph sb = d.graph sb := by
  have hlive := live_of_bits hbits
  refine ⟨⟨?_, ?_, fun i hi => ?_⟩, graph_alike (fun j => by rw [hlive]) halike⟩
  · rwa [hlive]
  · obtain ⟨h2, hty, hsize⟩ := h.root
    have := halike 2 h2
    rw [hlive, this.ty, this.size hty]
    exact ⟨h2, hty, hsize⟩
  · rw [hlive] at hi
    exact hform i hi

lemma Good.of_graph (h : Good sb d) (hS : Shape sb d' ∧ d'.graph sb = d.graph sb) : Good sb d' :=
  ⟨hS.1, hS.2 ▸ h.names⟩

lemma Alike.of_untouched (hsame : d'.inodes j = d.inodes j) (h : Untouched d d' (d.inodes j))
    (hf : Formed d j) : Alike d d' j := .of_reads hsame h.reads hf.listed

lemma Formed.untouched (hf : Formed d j) (hsame : d'.inodes j = d.inodes j)
    (h : Untouched d d' (d.inodes j)) : Formed d' j := by
  apply (Alike.of_untouched hsame h hf).formed hf
  intro hty
  rw [hsame]
  exact (hf.dir hty).untouched h

lemma Shape.taken (h : Shape sb d) (ht : Taken sb d d') :
    Shape sb d' ∧ d'.graph sb = d.graph sb := by
  have hun : ∀ j, d.Live sb j → Untouched d d' (d.inodes j) := fun j hj => ht.untouched h.sound hj
  apply h.alike (ht.sound h.sound) ht.bits
  · intro j hj
    exact .of_untouched (by rw [ht.inodes]) (hun j hj) (h.formed j hj)
  · intro j hj
    exact (h.formed j hj).untouched (by rw [ht.inodes]) (hun j hj)

/-- Every other live inode keeps its record and its blocks. -/
def Others (sb : Superblock) (i : ℕ) (d d' : Disk) : Prop :=
  ∀ j, d.Live sb j → j ≠ i → d'.inodes j = d.inodes j ∧ Untouched d d' (d.inodes j)

lemma Others.alike (h : Others sb i d d') (hS : Shape sb d) (hj : d.Live sb j) (hji : j ≠ i) :
    Alike d d' j := .of_untouched (h j hj hji).1 (h j hj hji).2 (hS.formed j hj)

section others

variable (h : Shape sb d) (hbits : ∀ j, d'.map (8 * sb.split + j) = d.map (8 * sb.split + j))
  (hothers : Others sb i d d')
include h hbits hothers

lemma Shape.change (hS : Sound sb (d.Live sb) d') (hform : Formed d' i)
    (hroot : i = 2 → (d'.inodes 2).ty = some .dir ∧ (d'.inodes 2).size ≠ 0) : Shape sb d' := by
  have hlive := live_of_bits hbits
  refine ⟨?_, ?_, fun j hj => ?_⟩
  · rwa [hlive]
  · obtain ⟨hl2, hty, hsize⟩ := h.root
    rw [hlive]
    by_cases hi : i = 2
    · exact ⟨hl2, hroot hi⟩
    · rw [(hothers 2 hl2 fun heq => hi heq.symm).1]
      exact ⟨hl2, hty, hsize⟩
  · rw [hlive] at hj
    by_cases hji : j = i
    · exact hji ▸ hform
    · exact (h.formed j hj).untouched (hothers j hj hji).1 (hothers j hj hji).2

lemma Shape.change_graph (hty : (d'.inodes i).ty = (d.inodes i).ty) : d'.graph sb =
    { d.graph sb with
      link := update (d.graph sb).link i ((d'.graph sb).link i)
      up := update (d.graph sb).up i ((d'.graph sb).up i) } := by
  have hlive : ∀ j, d'.Live sb j ↔ d.Live sb j := fun j => live_of_bit (hbits j)
  ext j : 2
  · exact hlive j
  · change d'.Live sb j ∧ _ ↔ d.Live sb j ∧ _
    by_cases hji : j = i
    · rw [hlive, hji, hty]
    · exact dir_alike (hlive j) fun hj => hothers.alike h hj hji
  · grind [link_alike, hothers.alike]
  · dsimp only
    by_cases hji : j = i
    · rw [hji, update_self]
    · rw [update_of_ne hji]
      exact up_alike (hlive j) fun hj => hothers.alike h hj hji

end others

/-- A file whose blocks are being filled, or a directory without records. -/
def Blank (d : Disk) (i : ℕ) : Prop :=
  (d.inodes i).ty = some .file ∨ ∃ mode, d.inodes i = .fresh mode

lemma entries_fresh : (Inode.fresh mode).entries = 0 := Nat.zero_div _

lemma dirOk_fresh : DirOk d (.fresh mode) := by
  refine ⟨⟨?_, fun k hk => ?_, fun s hs => ?_⟩, fun k _ => ?_⟩
  · rw [entries_fresh]
    rfl
  · grind [nblocks_fresh]
  · grind [entries_fresh]
  · unfold slot Inode.indirectFor
    split_ifs <;> first | rfl | contradiction

lemma Alike.of_fresh (h : d.inodes j = .fresh mode) (h' : d'.inodes j = .fresh mode) :
    Alike d d' j := by
  refine ⟨by rw [h, h'], fun _ => by rw [h, h'], fun _ => ?_, fun _ s hs => ?_⟩
  · rw [h']
    exact dirOk_fresh.toListed
  · grind [entries_fresh]

lemma Grown.alike (hg : Grown sb (d.Live sb) i n d (d.inodes i) d' x') (h : Shape sb d)
    (hblank : Blank d i) (hj : d.Live sb j) : Alike d d' j := by
  by_cases hji : j = i
  · subst hji
    obtain hty | ⟨mode, hrec⟩ := hblank
    · exact .of_file hty (by rw [hg.inodes, hty])
    · exact .of_fresh hrec (by rw [hg.inodes, hrec])
  · exact .of_untouched (by rw [hg.inodes]) (hg.others j hj hji) (h.formed j hj)

lemma Shape.grown (h : Shape sb d) (hblank : Blank d i) (hn : (d.inodes i).nblocks ≤ blocksFor n)
    (hg : Grown sb (d.Live sb) i n d (d.inodes i) d' x') :
    Shape sb d' ∧ d'.graph sb = d.graph sb := by
  apply h.alike (hg.sound_record hn) hg.bits
  · exact fun j hj => hg.alike h hblank hj
  intro j hj
  by_cases hji : j = i
  · subst hji
    apply (hg.alike h hblank hj).formed (h.formed j hj)
    intro hty
    rw [hg.inodes]
    obtain hfile | ⟨mode, hrec⟩ := hblank
    · rw [hfile] at hty
      cases hty
    · rw [hrec]
      exact dirOk_fresh
  · exact (h.formed j hj).untouched (by rw [hg.inodes]) (hg.others j hj hji)

lemma Formed.of_file (hty : (d.inodes i).ty = some .file) : Formed d i := by
  have hne : (d.inodes i).ty ≠ some .dir := by
    rw [hty]
    exact fun h => by cases h
  exact ⟨.inl hty, fun h => absurd h hne, fun h => absurd h hne⟩

lemma Shape.setFile (h : Shape sb d) (hfile : (d.inodes i).ty = some .file)
    (hS : Sound sb (d.Live sb) d')
    (hbits : ∀ j, d'.map (8 * sb.split + j) = d.map (8 * sb.split + j))
    (hfile' : (d'.inodes i).ty = some .file) (hothers : Others sb i d d') :
    Shape sb d' ∧ d'.graph sb = d.graph sb := by
  have hi2 : i ≠ 2 := by
    rintro rfl
    rw [h.root.2.1] at hfile
    cases hfile
  refine ⟨h.change hbits hothers hS (.of_file hfile') fun hi => absurd hi hi2, ?_⟩
  apply graph_alike fun j => live_of_bit (hbits j)
  intro j hj
  by_cases hji : j = i
  · subst hji
    exact .of_file hfile hfile'
  · exact hothers.alike h hj hji

lemma Grown.others_put (h : Grown sb (d.Live sb) i n d x d' x') :
    Others sb i d (d'.put i x' n) := by
  intro j hj hji
  have hun := h.others j hj hji
  exact ⟨by rw [put_inodes_ne hji, h.inodes], hun.slot, hun.block⟩

lemma Shape.put (h : Shape sb d) (hfile : (d.inodes i).ty = some .file)
    (hg : Grown sb (d.Live sb) i n d (d.inodes i) d' x') :
    Shape sb (d'.put i x' n) ∧ (d'.put i x' n).graph sb = d.graph sb := by
  apply h.setFile hfile hg.sound hg.bits _ hg.others_put
  rw [put_inodes_self]
  rwa [hg.mode]

lemma Cleared.sound_put (h : Cleared sb K (d.put i y n) d d') : Sound sb K (d'.put i y n) := by
  have hsame : d'.put i y n = { d.put i y n with map := d'.map } := by
    unfold put setInode
    rw [h.inodes, h.blocks]
  rw [hsame]
  exact h.sound

lemma Cleared.others_put (h : Cleared sb K V d d') : Others sb i d (d'.put i y n) := by
  intro j _ hji
  refine ⟨by rw [put_inodes_ne hji, h.inodes], untouched_of_blocks fun _ _ => ?_⟩
  change d'.blocks _ = _
  rw [h.blocks]

def Disk.addInode (sb : Superblock) (d : Disk) (i mode : ℕ) : Disk :=
  { d with map := update d.map (8 * sb.split + i) true }.setInode i (.fresh mode)

lemma addInode_inodes_self : (d.addInode sb i mode).inodes i = .fresh mode := update_self ..

lemma addInode_inodes_ne (h : j ≠ i) : (d.addInode sb i mode).inodes j = d.inodes j :=
  update_of_ne h ..

lemma addInode_live (h2 : 2 ≤ i) (hcount : i ≤ sb.inodeCount) :
    (d.addInode sb i mode).Live sb j ↔ d.Live sb j ∨ j = i := by
  change 2 ≤ j ∧ j ≤ sb.inodeCount ∧ update d.map (8 * sb.split + i) true (8 * sb.split + j) ↔ _
  by_cases hj : j = i
  · grind
  · rw [update_of_ne (by omega)]
    exact ⟨.inl, fun h => h.resolve_right hj⟩

lemma addInode_alike (h : Formed d j) (hji : j ≠ i) : Alike d (d.addInode sb i mode) j :=
  .of_untouched (addInode_inodes_ne hji) ⟨fun _ => rfl, fun _ _ => rfl⟩ h

section addInode

variable (h : Shape sb d) (h2 : 2 ≤ i) (hcount : i ≤ sb.inodeCount)
  (hbit : d.map (8 * sb.split + i) = false) (hmode : FileType.ofMode mode = some ty)

lemma not_live_of_bit (hbit : d.map (8 * sb.split + i) = false) : ¬d.Live sb i := by
  intro hl
  rw [hl.2.2] at hbit
  cases hbit

include h hbit in
lemma Shape.alike_addInode (hj : d.Live sb j) : Alike d (d.addInode sb i mode) j := by
  apply addInode_alike (h.formed j hj)
  rintro rfl
  exact not_live_of_bit hbit hj

include h h2 hcount hbit hmode in
lemma Shape.addInode (hc : sb.Covered) (hty : ty = .file ∨ ty = .dir) :
    Shape sb (d.addInode sb i mode) := by
  have hdead := not_live_of_bit hbit
  have hsound : Sound sb (fun j => d.Live sb j ∨ j = i) (d.addInode sb i mode) := by
    refine Sound.addInode (Sound.setInode ?_ hdead _) h2 hcount ?_ addInode_inodes_self
    · exact h.sound.inodeBit hc hdead fun c hcb => update_of_ne hcb ..
    · exact update_self ..
  have hK : (d.addInode sb i mode).Live sb = fun j => d.Live sb j ∨ j = i := by
    funext j
    exact propext (addInode_live h2 hcount)
  refine ⟨?_, ?_, fun j hj => ?_⟩
  · rwa [hK]
  · obtain ⟨hl2, hty2, hsize⟩ := h.root
    have h2' : Alike d (d.addInode sb i mode) 2 := h.alike_addInode hbit hl2
    rw [hK, h2'.ty, h2'.size hty2]
    exact ⟨.inl hl2, hty2, hsize⟩
  · rw [hK] at hj
    obtain hj | rfl := hj
    · have hji : j ≠ i := fun heq => hdead (heq ▸ hj)
      exact (h.formed j hj).untouched (addInode_inodes_ne hji) ⟨fun _ => rfl, fun _ _ => rfl⟩
    constructor
    · rw [addInode_inodes_self]
      exact hty.imp (fun heq => hmode.trans (congrArg some heq)) fun heq =>
        hmode.trans (congrArg some heq)
    · intro _
      rw [addInode_inodes_self]
      exact dirOk_fresh
    · intro _ hsize
      rw [addInode_inodes_self] at hsize
      exact absurd rfl hsize

include h h2 hcount hbit hmode in
lemma Shape.addInode_graph : (d.addInode sb i mode).graph sb = (d.graph sb).addNode i ty := by
  have hdead := not_live_of_bit hbit
  have hlive : ∀ j, (d.addInode sb i mode).Live sb j ↔ d.Live sb j ∨ j = i := fun j =>
    addInode_live h2 hcount
  have halike : ∀ j, d.Live sb j → Alike d (d.addInode sb i mode) j := fun j hj =>
    h.alike_addInode hbit hj
  have hself : (d.addInode sb i mode).inodes i = .fresh mode := addInode_inodes_self
  generalize d.addInode sb i mode = d' at *
  have hold : ∀ j, j ≠ i → (d'.Live sb j ↔ d.Live sb j) := by grind
  have hentries : (d'.inodes i).entries = 0 := by rw [hself, entries_fresh]
  ext j : 2
  · change d'.Live sb j ↔ j ∈ insert i {k | d.Live sb k}
    rw [hlive]
    exact or_comm
  · change d'.Live sb j ∧ _ ↔ j ∈ if ty = .dir then insert i (d.graph sb).dirs else
      (d.graph sb).dirs
    by_cases hj : j = i
    · subst hj
      have hty : (d'.inodes j).ty = some ty := by rwa [hself]
      rw [hty]
      split_ifs with hdir
      · grind
      · exact ⟨fun hc => absurd (Option.some.inj hc.2) hdir, fun hc => absurd hc.1 hdead⟩
    · rw [dir_alike (hold j hj) (halike j)]
      split_ifs
      · rw [Set.mem_insert_iff, or_iff_right hj]
        rfl
      · rfl
  · by_cases hj : j = i
    · subst hj
      funext t
      change _ = (d.graph sb).link j t
      unfold Disk.graph
      dsimp only
      rw [if_neg fun hc => by have := hc.2.2.1; omega, if_neg fun hc => hdead hc.1.1]
    · exact link_alike (hold j hj) (halike j)
  · by_cases hj : j = i
    · subst hj
      change _ = (d.graph sb).up j
      unfold Disk.graph
      dsimp only
      rw [if_neg fun hc => by have := hc.2; omega, if_neg fun hc => hdead hc.1.1]
    · exact up_alike (hold j hj) (halike j)

end addInode

section replaced

variable (h : Shape sb d) (hi : d.Live sb i) (hty : (d.inodes i).ty = some .dir)
  (hsize : (d.inodes i).size ≠ 0) (hs : s ≤ (d.inodes i).entries)
  (hrep : Replaced sb (d.Live sb) i s a d d')

include hrep in
lemma Replaced.ty_eq : (d'.inodes i).ty = (d.inodes i).ty := congrArg FileType.ofMode hrep.mode

include hrep in
lemma Replaced.entries : (d'.inodes i).entries = max (d.inodes i).entries (s + 1) := by
  have := hrep.size
  unfold Inode.entries direntSize at *
  omega

include hrep in
lemma Replaced.changes : Others sb i d d' := fun j hj hji =>
  ⟨hrep.inodes j hji, hrep.others j hj hji⟩

include hi hty hrep in
lemma Replaced.isDir : d'.Live sb i ∧ (d'.inodes i).ty = some .dir :=
  ⟨(live_of_bit (hrep.bits i)).2 hi, hrep.ty_eq.trans hty⟩

include h hi hty hsize hs hrep in
lemma Shape.replaced
    (hdots : 2 ≤ s ∨ s = 1 ∧ ∃ p, p ≠ 0 ∧ a = ⟨dotdot, p, FileType.dir.dt, direntSize⟩) :
    Shape sb d' := by
  have hty' := hrep.ty_eq.trans hty
  refine h.change hrep.bits hrep.changes hrep.sound ⟨.inr hty', fun _ => hrep.dir, ?_⟩ ?_
  · intro _ _
    obtain ⟨hge, h0, p, hp, h1⟩ := (h.formed i hi).dots hty hsize
    have hentries := hrep.entries
    refine ⟨by omega, ?_, ?_⟩
    · grind [hrep.entry]
    · grind [hrep.entry]
  · grind [hrep.size]

include h hi hty hs hrep in
lemma Shape.replaced_link (h2 : 2 ≤ s) :
    d'.graph sb = (d.graph sb).setLink i s (if a.ino = 0 then none else some a) := by
  have hentries := hrep.entries
  have hdir := hrep.isDir hi hty
  have hup : (d'.graph sb).up i = (d.graph sb).up i := by grind [graph_up, hrep.entry]
  have hlink : (d'.graph sb).link i =
      update ((d.graph sb).link i) s (if a.ino = 0 then none else some a) := by
    funext t
    apply Option.ext
    intro e
    rw [graph_link]
    by_cases hts : t = s
    · grind [hrep.entry]
    rw [update_of_ne hts, graph_link, hentries]
    -- a record other than the new one was there before
    constructor
    · grind [hrep.entry]
    · grind [hrep.entry]
  rw [h.change_graph hrep.bits hrep.changes hrep.ty_eq, hup, hlink, update_eq_self]
  rfl

include h hi hty hsize in
lemma Shape.replaced_up (hrep : Replaced sb (d.Live sb) i 1 a d d') :
    d'.graph sb = (d.graph sb).setUp i a.ino := by
  obtain ⟨hge, -, -⟩ := (h.formed i hi).dots hty hsize
  have hentries := hrep.entries
  have hdir := hrep.isDir hi hty
  have hup : (d'.graph sb).up i = some a.ino := by
    rw [graph_up hdir (by omega), hrep.entry 1 (by omega), if_pos rfl]
  have hlink : (d'.graph sb).link i = (d.graph sb).link i := by
    funext t
    apply Option.ext
    intro e
    rw [graph_link, graph_link]
    apply and_congr (iff_of_true hdir ⟨hi, hty⟩)
    apply and_congr_right
    intro ht2
    have hmax : max (d.inodes i).entries (1 + 1) = (d.inodes i).entries := by omega
    rw [hentries, hmax]
    apply and_congr_right
    intro hlt
    rw [hrep.entry t (by omega), if_neg (by omega)]
  rw [h.change_graph hrep.bits hrep.changes hrep.ty_eq, hup, hlink, update_eq_self]
  rfl

end replaced

section gone

variable (h : Shape sb d) (hg : Gone sb (d.Live sb) i d d')

include hg in
lemma Gone.live_ne (hji : j ≠ i) : d'.Live sb j ↔ d.Live sb j := live_of_bit (hg.bits j hji)

include hg in
lemma Gone.untouched (x : Inode) : Untouched d d' x :=
  untouched_of_blocks fun _ _ => by rw [hg.blocks]

include h hg in
lemma Gone.alike (hj : d.Live sb j) : Alike d d' j :=
  .of_untouched (by rw [hg.inodes]) (hg.untouched _) (h.formed j hj)

include h hg in
lemma Shape.gone (hbit : d'.map (8 * sb.split + i) = false) (hroot : i ≠ 2) : Shape sb d' := by
  have hdead := not_live_of_bit hbit
  have hlive : d'.Live sb = fun j => d.Live sb j ∧ j ≠ i := by
    funext j
    apply propext
    by_cases hji : j = i
    · grind
    · rw [hg.live_ne hji, and_iff_left hji]
  refine ⟨?_, ?_, fun j hj => ?_⟩
  · rw [hlive]
    exact hg.sound
  · grind [hg.inodes, h.root]
  · rw [hlive] at hj
    exact (h.formed j hj.1).untouched (by rw [hg.inodes]) (hg.untouched _)

include h hg in
lemma Shape.gone_graph (hbit : d'.map (8 * sb.split + i) = false) :
    d'.graph sb = (d.graph sb).remove i := by
  have hdead := not_live_of_bit hbit
  ext j : 2
  · change d'.Live sb j ↔ d.Live sb j ∧ j ≠ i
    by_cases hji : j = i
    · grind
    · rw [hg.live_ne hji, and_iff_left hji]
  · change d'.Live sb j ∧ _ ↔ (d.Live sb j ∧ _) ∧ j ≠ i
    by_cases hji : j = i
    · grind
    · rw [dir_alike (hg.live_ne hji) (hg.alike h), and_iff_left hji]
  · change _ = update (d.graph sb).link i (fun _ => none) j
    by_cases hji : j = i
    · subst hji
      rw [update_self]
      funext t
      exact if_neg fun hc => hdead hc.1.1
    · rw [update_of_ne hji]
      exact link_alike (hg.live_ne hji) (hg.alike h)
  · change _ = update (d.graph sb).up i none j
    by_cases hji : j = i
    · subst hji
      rw [update_self]
      exact if_neg fun hc => hdead hc.1.1
    · rw [update_of_ne hji]
      exact up_alike (hg.live_ne hji) (hg.alike h)

end gone

end AeroSLS.Posix
