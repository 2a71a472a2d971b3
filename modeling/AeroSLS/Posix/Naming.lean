import AeroSLS.Posix.Store

namespace AeroSLS.Posix

open AeroSLS.Bytes AeroSLS.Crash

variable {d : Disk}

structure Closed (sb : Superblock) (K : ℕ → Prop) (d : Disk) : Prop where
  sound : Sound sb K d
  root : K 2
  listed : ∀ i, K i → (d.inodes i).ty = some .dir → Listed d (d.inodes i)
  names : ∀ i, K i → (d.inodes i).ty = some .dir → ∀ s < (d.inodes i).entries,
    (d.entry (d.inodes i) s).ino ≠ 0 → (d.entry (d.inodes i) s).name ≠ dot →
    (d.entry (d.inodes i) s).name ≠ dotdot → K (d.entry (d.inodes i) s).ino

def Recoverable (sb : Superblock) (d : Disk) : Prop := ∃ K, Closed sb K d

lemma size_ne_zero_of_entries (h : 0 < (d.inodes i).entries) : (d.inodes i).size ≠ 0 := by
  unfold Inode.entries at h
  intro h0
  rw [h0] at h
  exact Nat.lt_irrefl 0 h

lemma Formed.entry_cases (h : Formed d i) (hi : d.Live sb i) (hty : (d.inodes i).ty = some .dir)
    (hs : s < (d.inodes i).entries) (he : d.entry (d.inodes i) s = e) (hne : e.ino ≠ 0) :
    (e.name = dot ∨ e.name = dotdot) ∧ e.ty = FileType.dir.dt ∧ s < 2 ∨
      2 ≤ s ∧ (d.graph sb).link i s = some e := by
  obtain ⟨-, h0, q, -, h1⟩ := h.dots hty (size_ne_zero_of_entries (Nat.zero_lt_of_lt hs))
  obtain rfl | rfl | h2 : s = 0 ∨ s = 1 ∨ 2 ≤ s := by omega
  · grind
  · grind
  · exact .inr ⟨h2, graph_link.2 ⟨⟨hi, hty⟩, h2, hs, he, hne⟩⟩

/-- The first two records of a directory. -/
lemma Formed.named_dots (h : Formed d i) (hi : d.Live sb i) (hty : (d.inodes i).ty = some .dir)
    (hsize : (d.inodes i).size ≠ 0) : 2 ≤ (d.inodes i).entries ∧
      (d.entry (d.inodes i) 0).named dot ∧ (d.entry (d.inodes i) 1).named dotdot := by
  obtain ⟨hge, h0, q, hq, h1⟩ := h.dots hty hsize
  have hi0 : i ≠ 0 := Nat.ne_of_gt (Nat.zero_lt_of_lt hi.1)
  rw [h0, h1]
  simp [Entry.named, hge, hi0, hq]

lemma Good.recoverable_of (h : Good sb d) (hK : ∀ i, K i → d.Live sb i) (hroot : K 2)
    (hS : Sound sb K d') (halike : ∀ i, K i → Alike d d' i)
    (hclosed : ∀ i s e, K i → (d.graph sb).link i s = some e → K e.ino) : Recoverable sb d' := by
  refine ⟨K, hS, hroot, fun i hi hty => ?_, fun i hi hty s hs hne hdot hdotdot => ?_⟩
  · exact (halike i hi).listed ((halike i hi).ty ▸ hty)
  have hsame := halike i hi
  rw [hsame.ty] at hty
  rw [hsame.entries hty] at hs
  rw [hsame.entry hty s hs] at hne hdot hdotdot ⊢
  obtain ⟨hdots, -, -⟩ | ⟨-, hlink⟩ := (h.formed i (hK i hi)).entry_cases (hK i hi) hty hs rfl hne
  · exact absurd hdots (not_or.2 ⟨hdot, hdotdot⟩)
  · exact hclosed i s _ hi hlink

lemma Good.recoverable_alike (h : Good sb d) (hS : Sound sb (d.Live sb) d')
    (halike : ∀ i, d.Live sb i → Alike d d' i) : Recoverable sb d' :=
  h.recoverable_of (fun _ hi => hi) h.root.1 hS halike fun i s e _ hlink =>
    (h.names.target i s e hlink).1

lemma Good.recoverable (h : Good sb d) : Recoverable sb d :=
  h.recoverable_alike h.sound fun i hi => .refl (h.formed i hi).listed

lemma Good.recoverable_shown (h : Good sb d) (hs : Shown sb (d.Live sb) d d') : Recoverable sb d' :=
  h.recoverable_alike hs.sound fun i hi =>
    .of_reads (by rw [hs.inodes]) (hs.reads i hi) (h.formed i hi).listed

lemma Good.taken (h : Good sb d) (ht : Taken sb d d') : Good sb d' ∧ d'.graph sb = d.graph sb :=
  ⟨h.of_graph (h.toShape.taken ht), (h.toShape.taken ht).2⟩

lemma Shape.inode_ok (h : Shape sb d) (hi : d.Live sb i) : d.inode sb i = .ok (d.inodes i) := by
  apply Posix.inode_ok h.sound hi
  obtain hty | hty := (h.formed i hi).kind <;> rw [hty] <;> exact fun hc => by cases hc

lemma Shape.up_isSome (h : Shape sb d) (hi : i ∈ (d.graph sb).dirs) :
    ((d.graph sb).up i).isSome ↔ (d.inodes i).size ≠ 0 := by
  constructor
  · grind [Disk.graph, size_ne_zero_of_entries]
  intro hsize
  obtain ⟨h2, -, -⟩ := (h.formed i hi.1).dots hi.2 hsize
  rw [graph_up hi (by omega)]
  rfl

lemma Shape.finds_of (h : Shape sb d) (hp : p ∈ (d.graph sb).dirs)
    (hs : s < (d.inodes p).entries) (he : d.entry (d.inodes p) s = e) (hnamed : e.named name)
    (hfirst : ∀ u < s, (d.entry (d.inodes p) u).named name = false) :
    (name = dot ∨ name = dotdot) ∧ e.ty = FileType.dir.dt ∨
      (name ≠ dot ∧ name ≠ dotdot) ∧ 2 ≤ s ∧ (d.graph sb).Finds p name s e := by
  have hne : e.ino ≠ 0 ∧ e.name = name := by simpa [Entry.named] using hnamed
  have hform := h.formed p hp.1
  obtain ⟨hdots, hty, -⟩ | ⟨h2, hlink⟩ := hform.entry_cases hp.1 hp.2 hs he hne.1
  · grind
  -- a later record with one of the two names would not be the first
  obtain ⟨-, h0, h1⟩ := hform.named_dots hp.1 hp.2 (size_ne_zero_of_entries (by omega))
  have hdot : name ≠ dot := by
    rintro rfl
    exact Bool.false_ne_true ((hfirst 0 (by omega)).symm.trans h0)
  have hdotdot : name ≠ dotdot := by
    rintro rfl
    exact Bool.false_ne_true ((hfirst 1 (by omega)).symm.trans h1)
  refine .inr ⟨⟨hdot, hdotdot⟩, h2, hlink, hne.2, fun t ht f hf heq => ?_⟩
  obtain ⟨-, -, -, hf, hfne⟩ := graph_link.1 hf
  have := hfirst t ht
  rw [hf, Entry.named, heq] at this
  simp [hfne] at this

lemma not_linked
    (hall : ∀ t < (d.inodes p).entries, (d.entry (d.inodes p) t).named name = false) (s : ℕ)
    (e : Entry) (hlink : (d.graph sb).link p s = some e) : e.name ≠ name := by
  obtain ⟨-, -, hlt, he, hne⟩ := graph_link.1 hlink
  have := hall s hlt
  rw [he] at this
  rintro rfl
  simp [Entry.named, hne] at this

lemma Shape.dirLookup_cases (h : Shape sb d) (hp : p ∈ (d.graph sb).dirs)
    (hup : ((d.graph sb).up p).isSome) (name : Name) :
    (d.dirLookup sb p name = .ok none ∧ (name ≠ dot ∧ name ≠ dotdot) ∧
      ∀ s e, (d.graph sb).link p s = some e → e.name ≠ name) ∨
    ∃ at_ e, d.dirLookup sb p name = .ok (some (at_, e)) := by
  have hform := h.formed p hp.1
  obtain ⟨hge, h0, h1⟩ := hform.named_dots hp.1 hp.2 ((h.up_isSome hp).1 hup)
  obtain ⟨hnone, hall⟩ | ⟨t, e, hfind, -⟩ :=
    Posix.dirLookup_cases h.sound hp.1 hp.2 (hform.listed hp.2) name
  · refine .inl ⟨hnone, ⟨?_, ?_⟩, not_linked hall⟩
    · rintro rfl
      exact Bool.false_ne_true ((hall 0 (by omega)).symm.trans h0)
    · rintro rfl
      exact Bool.false_ne_true ((hall 1 (by omega)).symm.trans h1)
  · exact .inr ⟨_, e, hfind⟩

lemma dirLookup_dir (h : d.dirLookup sb p name = .ok r) :
    ∃ x, d.inode sb p = .ok x ∧ x.ty = some .dir := by
  unfold Disk.dirLookup at h
  rcases hino : d.inode sb p with e | x
  · rw [hino] at h
    cases h
  refine ⟨x, rfl, ?_⟩
  by_contra hty
  rw [hino] at h
  change (if x.ty ≠ some .dir then _ else _) = _ at h
  rw [if_pos hty] at h
  cases h

lemma dirEntry_dir (h : d.dirEntry sb p name = .ok r) :
    ∃ x, d.inode sb p = .ok x ∧ x.ty = some .dir := by
  unfold Disk.dirEntry at h
  cases hlook : d.dirLookup sb p name with
  | error =>
    rw [hlook] at h
    cases h
  | ok => exact dirLookup_dir hlook

lemma Shape.dirEntry_cases (h : Shape sb d) (hp : p ∈ (d.graph sb).dirs) :
    d.dirEntry sb p name = .error .noent ∨
    ∃ at_ e, d.dirEntry sb p name = .ok (at_, e) ∧
      ((name = dot ∨ name = dotdot) ∧ e.ty = FileType.dir.dt ∨
        (name ≠ dot ∧ name ≠ dotdot) ∧ ∃ s, (d.graph sb).Finds p name s e.entry) := by
  obtain ⟨hnone, -⟩ | ⟨t, e, hfind, ht, hentry, hnamed, hfirst⟩ :=
    Posix.dirEntry_cases h.sound hp.1 hp.2 ((h.formed p hp.1).listed hp.2) name
  · exact .inl hnone
  refine .inr ⟨_, e, hfind, ?_⟩
  obtain hdots | hrest := h.finds_of hp ht hentry.symm (hentry ▸ hnamed) hfirst
  · exact .inl hdots
  · exact .inr ⟨hrest.1, t, hrest.2.2⟩

lemma wp_newInode (hc : sb.Covered) (h : Good sb d)
    (hmode : FileType.ofMode mode = some ty) (hty : ty = .file ∨ ty = .dir) :
    wp (Recoverable sb) (allocInode sb mode)
      (fun i d' => Good sb d' ∧ i ∉ (d.graph sb).live ∧ d'.inodes i = .fresh mode ∧
        d'.graph sb = (d.graph sb).addNode i ty) (fun _ d' => d' = d) d := by
  apply wp_allocInode hc
  · rfl
  · intro i m _ _ hbit hm
    apply h.recoverable_alike (h.sound.inodeBit hc (not_live_of_bit hbit) hm)
    intro j hj
    exact .of_untouched rfl ⟨fun _ => rfl, fun _ _ => rfl⟩ (h.formed j hj)
  · intro i h2 hcount hbit
    have hdead : i ∉ (d.graph sb).live := not_live_of_bit hbit
    have hgraph := h.toShape.addInode_graph h2 hcount hbit hmode
    have hgood : Good sb (d.addInode sb i mode) :=
      ⟨h.toShape.addInode h2 hcount hbit hmode hc hty, hgraph ▸ h.names.addNode hdead ty⟩
    exact ⟨hgood.recoverable, hgood, hdead, addInode_inodes_self, hgraph⟩

lemma ofMode_reg : FileType.ofMode (sIfreg ||| (mode &&& 0o7777)) = some .file := by
  have hbits : (sIfreg ||| (mode &&& 0o7777)) &&& sIfmt = sIfreg := by
    rw [Nat.and_or_distrib_right, Nat.and_assoc]
    change sIfreg ||| (mode &&& 0) = sIfreg
    rw [Nat.and_zero, Nat.or_zero]
  unfold FileType.ofMode
  rw [if_pos hbits]

lemma ofMode_dir : FileType.ofMode (sIfdir ||| (mode &&& 0o7777)) = some .dir := by
  have hbits : (sIfdir ||| (mode &&& 0o7777)) &&& sIfmt = sIfdir := by
    rw [Nat.and_or_distrib_right, Nat.and_assoc]
    change sIfdir ||| (mode &&& 0) = sIfdir
    rw [Nat.and_zero, Nat.or_zero]
  unfold FileType.ofMode
  rw [if_neg (by rw [hbits]; decide), if_pos hbits]

lemma Disk.Live.lt (hc : sb.Covered) (hi : d.Live sb i) : i < 2 ^ 32 :=
  Nat.lt_of_le_of_lt hi.2.1 hc.few

/-- `dir_insert` gives a nameless inode a name, or changes nothing that shows. -/
theorem wp_link (hc : sb.Covered) (h : Good sb d) (hg : d.graph sb = g) (p : ℕ) (name : Name)
    (ty : FileType) (hp : p ∈ g.dirs) (hup : (g.up p).isSome) (hi : i ∈ g.live) (hroot : i ≠ 2)
    (hfits : g.Fits ⟨cutName name, i, ty.dt, direntSize⟩) (hnone : g.Nameless i) :
    wp (Recoverable sb) (dirInsert sb p name i ty)
      (fun _ d' => Good sb d' ∧ ∃ s, 2 ≤ s ∧ g.link p s = none ∧
        d'.graph sb = g.setLink p s (some ⟨cutName name, i, ty.dt, direntSize⟩))
      (fun _ d' => Good sb d' ∧ d'.graph sb = g) d := by
  subst hg
  have hsize := (h.toShape.up_isSome hp).1 hup
  have hform := h.formed p hp.1
  obtain ⟨hge, h0, q, hq, h1⟩ := hform.dots hp.2 hsize
  apply wp_dirInsert hc h.sound hp.1 (hform.dir hp.2) (fun _ => h.recoverable_shown) hp.2 name i ty
    (hi.lt hc)
  · exact fun _ d' ht => h.taken ht
  · intro s d' hs hfree hrep
    -- the first two records are in use
    have h2 : 2 ≤ s := by
      by_contra hlt
      have hzero := hfree (by omega)
      obtain rfl | rfl : s = 0 ∨ s = 1 := by omega
      · rw [h0] at hzero
        have hp0 : p = 0 := hzero
        have := hp.1.1
        omega
      · rw [h1] at hzero
        exact hq hzero
    have hvacant : (d.graph sb).link p s = none := by
      rw [Option.eq_none_iff_forall_not_mem]
      intro e he
      obtain ⟨-, -, hlt, he, hne⟩ := graph_link.1 he
      rw [← he] at hne
      exact hne (hfree hlt)
    have hi0 : i ≠ 0 := by
      have := hi.1
      omega
    have hgraph := h.toShape.replaced_link hp.1 hp.2 hs hrep h2
    rw [if_neg hi0] at hgraph
    have hgood : Good sb d' := ⟨h.toShape.replaced hp.1 hp.2 hsize hs hrep (.inl h2),
        hgraph ▸ h.names.insert hp hi hroot hfits hnone⟩
    exact ⟨hgood.recoverable, hgood, s, h2, hvacant, hgraph⟩

theorem wp_unname (hc : sb.Covered) (h : Good sb d) (hp : p ∈ (d.graph sb).dirs)
    (hname : name ≠ dot ∧ name ≠ dotdot) :
    wp (Recoverable sb) (dirRemove sb p name)
      (fun _ d' => Good sb d' ∧ ∃ s e, (d.graph sb).Finds p name s e ∧
        d'.graph sb = (d.graph sb).setLink p s none ∧
        ∀ j, d.Live sb j → j ≠ p → d'.inodes j = d.inodes j)
      (fun _ d' => d' = d ∧ ∀ s e, (d.graph sb).link p s = some e → e.name ≠ name) d := by
  have hform := h.formed p hp.1
  apply wp_dirRemove hc h.sound hp.1 (hform.dir hp.2) (fun _ => h.recoverable_shown) hp.2 name
  · exact fun hall => ⟨rfl, not_linked hall⟩
  · intro s d' hs hnamed hfirst hrep
    obtain ⟨hdots, -⟩ | ⟨-, h2, hfinds⟩ := h.toShape.finds_of hp hs rfl hnamed hfirst
    · exact absurd hdots (not_or.2 hname)
    have hsize := size_ne_zero_of_entries (Nat.zero_lt_of_lt hs)
    have hgraph := h.toShape.replaced_link hp.1 hp.2 hs.le hrep h2
    have hgood : Good sb d' :=
      ⟨h.toShape.replaced hp.1 hp.2 hsize hs.le hrep (.inl h2), hgraph ▸ h.names.erase p s⟩
    exact ⟨hgood.recoverable, hgood, s, _, hfinds, hgraph, fun j _ hj => hrep.inodes j hj⟩

/-- The ".." of a directory gets a new target. -/
theorem wp_setUp (hc : sb.Covered) (h : Good sb d) (hi : i ∈ (d.graph sb).dirs)
    (hup : ((d.graph sb).up i).isSome) (hp : p ∈ (d.graph sb).live) :
    wp (Recoverable sb) (repoint sb i p)
      (fun _ d' => Good sb d' ∧ d'.graph sb = (d.graph sb).setUp i p) E d := by
  have hsize := (h.toShape.up_isSome hi).1 hup
  have hform := h.formed i hi.1
  obtain ⟨hge, h0, q, hq, h1⟩ := hform.dots hi.2 hsize
  obtain ⟨-, -, hdotdot⟩ := hform.named_dots hi.1 hi.2 hsize
  apply wp_repoint hc h.sound hi.1 (hform.dir hi.2) (fun _ => h.recoverable_shown)
    (by rw [hi.2]; exact fun hc => by cases hc) (Disk.Live.lt hc hp)
  · grind
  · intro s d' hs hnamed hfirst hrep
    -- it is the second record
    obtain rfl : s = 1 := by
      grind [Entry.named, dot, dotdot]
    have hp0 : p ≠ 0 := by
      have := hp.1
      omega
    have hgraph := h.toShape.replaced_up hi.1 hi.2 hsize hrep
    have hgood : Good sb d' :=
      ⟨h.toShape.replaced hi.1 hi.2 hsize hs.le hrep (.inr ⟨rfl, p, hp0, rfl⟩),
        hgraph ▸ h.names.setUp i p⟩
    exact ⟨hgood.recoverable, hgood, hgraph⟩

lemma wp_removeNode (hc : sb.Covered) (h : Good sb d) (hi : i ∈ (d.graph sb).live)
    (hroot : i ≠ 2) (hnone : (d.graph sb).Nameless i) :
    wp (Recoverable sb) (freeFile sb i (d.inodes i))
      (fun _ d' => Good sb d' ∧ d'.graph sb = (d.graph sb).remove i) E d := by
  apply wp_freeFile hc h.sound hi rfl
  · intro d' hg
    apply h.recoverable_of (fun _ hj => hj.1) ⟨h.root.1, hroot.symm⟩ hg.sound
    · exact fun j hj => hg.alike h.toShape hj.1
    · exact fun j s e _ hlink => ⟨(h.names.target j s e hlink).1, hnone j s e hlink⟩
  · intro d' hg hbit
    have hgraph := h.toShape.gone_graph hg hbit
    exact ⟨⟨h.toShape.gone hg hbit hroot, hgraph ▸ h.names.remove hnone⟩, hgraph⟩

end AeroSLS.Posix
