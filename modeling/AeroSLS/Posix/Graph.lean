import AeroSLS.Posix.Directories
import Mathlib.Data.Set.Insert

namespace AeroSLS.Posix

open Function

@[ext] structure Graph where
  live : Set ℕ
  dirs : Set ℕ
  /-- The records from the third on, by directory and position. -/
  link : ℕ → ℕ → Option Entry
  /-- Where ".." points, once a directory has it. -/
  up : ℕ → Option ℕ

namespace Graph

variable {g : Graph} {p s : ℕ} {e : Entry}

/-- A new inode, with nothing in it. -/
def addNode (g : Graph) (i : ℕ) (ty : FileType) : Graph :=
  { g with
    live := insert i g.live
    dirs := if ty = .dir then insert i g.dirs else g.dirs }

def setUp (g : Graph) (i p : ℕ) : Graph := { g with up := update g.up i (some p) }

def setLink (g : Graph) (i s : ℕ) (o : Option Entry) : Graph :=
  { g with link := update g.link i (update (g.link i) s o) }

def remove (g : Graph) (i : ℕ) : Graph where
  live := g.live \ {i}
  dirs := g.dirs \ {i}
  link := update g.link i fun _ => none
  up := update g.up i none

lemma setLink_link : (g.setLink i s o).link j t = if j = i ∧ t = s then o else g.link j t := by
  unfold setLink
  dsimp only
  by_cases hj : j = i
  · subst hj
    rw [update_self]
    by_cases ht : t = s
    · grind
    · rw [update_of_ne ht, if_neg fun h => ht h.2]
  · rw [update_of_ne hj, if_neg fun h => hj h.1]

lemma remove_link (h : (g.remove i).link j t = some e) : j ≠ i ∧ g.link j t = some e := by
  unfold remove at h
  dsimp only at h
  by_cases hj : j = i
  · grind
  · rw [update_of_ne hj] at h
    exact ⟨hj, h⟩

/-- The type that a record says is the type of the inode; a directory with a name has
its "..". -/
def Fits (g : Graph) (e : Entry) : Prop :=
  e.ty = FileType.file.dt ∧ e.ino ∉ g.dirs ∨
    e.ty = FileType.dir.dt ∧ e.ino ∈ g.dirs ∧ (g.up e.ino).isSome

def Nameless (g : Graph) (i : ℕ) : Prop := ∀ j s e, g.link j s = some e → e.ino ≠ i

/-- Records name inodes in use, of the right type, and never the root; no inode has two
names. -/
structure Ok (g : Graph) : Prop where
  source : ∀ i s e, g.link i s = some e → i ∈ g.dirs
  target : ∀ i s e, g.link i s = some e → e.ino ∈ g.live ∧ e.ino ≠ 2 ∧ g.Fits e
  uniq : ∀ i s e j t f, g.link i s = some e → g.link j t = some f → e.ino = f.ino → i = j ∧ s = t

lemma mem_addNode_dirs (hi : i ∈ g.dirs) (ty : FileType) : i ∈ (g.addNode j ty).dirs := by
  unfold addNode
  split_ifs
  · exact Set.mem_insert_of_mem _ hi
  · exact hi

lemma Ok.nameless (h : g.Ok) (hi : i ∉ g.live) : g.Nameless i := by
  rintro j s e hlink rfl
  exact hi (h.target j s e hlink).1

lemma Ok.addNode (h : g.Ok) (hi : i ∉ g.live) (ty : FileType) : (g.addNode i ty).Ok := by
  have hmem : ∀ j, j ≠ i → (j ∈ (g.addNode i ty).dirs ↔ j ∈ g.dirs) := by grind [Graph.addNode]
  have hne := h.nameless hi
  constructor
  · exact fun j s e hlink => mem_addNode_dirs (h.source j s e hlink) ty
  · intro j s e hlink
    obtain ⟨hlive, hroot, hfits⟩ := h.target j s e hlink
    refine ⟨Set.mem_insert_of_mem _ hlive, hroot, ?_⟩
    unfold Fits
    rwa [hmem _ (hne j s e hlink)]
  · exact h.uniq

lemma setUp_isSome (h : (g.up j).isSome) : ((g.setUp i p).up j).isSome := by
  change (update g.up i (some p) j).isSome
  by_cases hj : j = i
  · rw [hj, update_self]
    rfl
  · rwa [update_of_ne hj]

lemma Fits.setUp (h : g.Fits e) (i p : ℕ) : (g.setUp i p).Fits e :=
  h.imp_right fun hdir => ⟨hdir.1, hdir.2.1, setUp_isSome hdir.2.2⟩

lemma Ok.setUp (h : g.Ok) (i p : ℕ) : (g.setUp i p).Ok where
  source := h.source
  target j s e hlink := by
    obtain ⟨hlive, hroot, hfits⟩ := h.target j s e hlink
    exact ⟨hlive, hroot, hfits.setUp i p⟩
  uniq := h.uniq

theorem Ok.insert (h : g.Ok) (hi : i ∈ g.dirs) (hlive : a.ino ∈ g.live) (hroot : a.ino ≠ 2)
    (hfits : g.Fits a) (hnone : g.Nameless a.ino) : (g.setLink i s (some a)).Ok := by
  constructor
  · intro j t e hlink
    rw [setLink_link] at hlink
    split_ifs at hlink with hjt
    · exact hjt.1 ▸ hi
    · exact h.source j t e hlink
  · intro j t e hlink
    rw [setLink_link] at hlink
    split_ifs at hlink with hjt
    · cases hlink
      exact ⟨hlive, hroot, hfits⟩
    · exact h.target j t e hlink
  · intro j t e k u f hlink hlink' heq
    rw [setLink_link] at hlink hlink'
    split_ifs at hlink hlink' with hjt hku hku
    · exact ⟨hjt.1.trans hku.1.symm, hjt.2.trans hku.2.symm⟩
    · cases hlink
      exact absurd heq.symm (hnone k u f hlink')
    · cases hlink'
      exact absurd heq (hnone j t e hlink)
    · exact h.uniq j t e k u f hlink hlink' heq

lemma setLink_none (h : (g.setLink i s none).link j t = some e) :
    g.link j t = some e ∧ ¬(j = i ∧ t = s) := by
  rw [setLink_link] at h
  split_ifs at h with hjt
  exact ⟨h, hjt⟩

lemma Ok.erase (h : g.Ok) (i s : ℕ) : (g.setLink i s none).Ok where
  source j t e hlink := h.source j t e (setLink_none hlink).1
  target j t e hlink := h.target j t e (setLink_none hlink).1
  uniq j t e k u f hlink hlink' := h.uniq j t e k u f (setLink_none hlink).1 (setLink_none hlink').1

lemma Ok.nameless_erase (h : g.Ok) (hlink : g.link i s = some e) :
    (g.setLink i s none).Nameless e.ino := by
  intro j t f hf heq
  obtain ⟨hf, hne⟩ := setLink_none hf
  exact hne (h.uniq j t f i s e hf hlink heq)

lemma Ok.remove (h : g.Ok) (hnone : g.Nameless i) : (g.remove i).Ok where
  source j s e hlink := ⟨h.source j s e (remove_link hlink).2, (remove_link hlink).1⟩
  target j s e hlink := by
    obtain ⟨-, hlink⟩ := remove_link hlink
    obtain ⟨hlive, hroot, hfits⟩ := h.target j s e hlink
    have hne := hnone j s e hlink
    refine ⟨⟨hlive, hne⟩, hroot, ?_⟩
    obtain ⟨hty, hdir⟩ | ⟨hty, hdir⟩ := hfits
    · exact .inl ⟨hty, fun hmem => hdir hmem.1⟩
    refine .inr ⟨hty, ⟨hdir.1, hne⟩, ?_⟩
    change (update g.up i none e.ino).isSome
    rw [update_of_ne hne]
    exact hdir.2
  uniq j s e k t f hlink hlink' := h.uniq j s e k t f (remove_link hlink).2 (remove_link hlink').2

structure Finds (g : Graph) (i : ℕ) (name : Name) (s : ℕ) (e : Entry) : Prop where
  link : g.link i s = some e
  named : e.name = name
  first : ∀ t < s, ∀ f, g.link i t = some f → f.name ≠ name

lemma Finds.unique (h : g.Finds i name s e) (h' : g.Finds i name t f) : s = t ∧ e = f := by
  have hst : s = t := by
    obtain hlt | heq | hlt := Nat.lt_trichotomy s t
    · exact absurd h.named (h'.first s hlt e h.link)
    · exact heq
    · exact absurd h'.named (h.first t hlt f h'.link)
  subst hst
  exact ⟨rfl, Option.some.inj (h.link.symm.trans h'.link)⟩

structure Created (g : Graph) (p : ℕ) (name : Name) (ty : FileType) (i : ℕ)
    (g' : Graph) : Prop where
  parent : p ∈ g.dirs
  new : i ∉ g.live
  proper : name ≠ [] ∧ name.length ≤ nameMax ∧ name ≠ dot ∧ name ≠ dotdot
  absent : ∀ s e, g.link p s = some e → e.name ≠ name
  graph : ∃ s, 2 ≤ s ∧ g.link p s = none ∧ g' =
    (if ty = .dir then (g.addNode i ty).setUp i p else g.addNode i ty).setLink p s
      (some ⟨cutName name, i, ty.dt, direntSize⟩)

/-- A call has failed and at most left an inode without a name behind. -/
def Leaked (g g' : Graph) : Prop :=
  g' = g ∨ ∃ i ty, i ∉ g.live ∧ (g' = g.addNode i ty ∨ ∃ p, g' = (g.addNode i ty).setUp i p)

/-- A name and its inode are gone. -/
structure Removed (g : Graph) (p : ℕ) (name : Name) (e : Entry) (g' : Graph) : Prop where
  parent : p ∈ g.dirs
  proper : name ≠ dot ∧ name ≠ dotdot
  graph : ∃ s, g.Finds p name s e ∧ g' = (g.setLink p s none).remove e.ino

/-- The graph in the middle of a move: ".." points to the new place already and the old
name is gone. -/
def detach (g : Graph) (p s : ℕ) (e : Entry) (q : ℕ) : Graph :=
  (if e.ty = FileType.dir.dt then g.setUp e.ino q else g).setLink p s none

section detach

variable (g : Graph) (p s : ℕ) (e : Entry) (q : ℕ)

lemma detach_live : (g.detach p s e q).live = g.live := by
  unfold detach
  split_ifs <;> rfl

lemma detach_dirs : (g.detach p s e q).dirs = g.dirs := by
  unfold detach
  split_ifs <;> rfl

lemma detach_link : (g.detach p s e q).link = (g.setLink p s none).link := by
  unfold detach
  split_ifs <;> rfl

variable {g} in
lemma detach_up (h : (g.up j).isSome) : ((g.detach p s e q).up j).isSome := by
  unfold detach
  split_ifs
  · exact setUp_isSome h
  · exact h

variable {g} in
lemma Fits.detach (h : g.Fits a) : (g.detach p s e q).Fits a := by
  unfold Fits
  rw [detach_dirs]
  exact h.imp_right fun hdir => ⟨hdir.1, hdir.2.1, detach_up p s e q hdir.2.2⟩

end detach

structure Moved (g : Graph) (p : ℕ) (name : Name) (q : ℕ) (name' : Name) (g' : Graph) : Prop where
  parents : p ∈ g.dirs ∧ q ∈ g.dirs
  proper : name' ≠ [] ∧ name'.length ≤ nameMax ∧ name' ≠ dot ∧ name' ≠ dotdot
  absent : ∀ s e, g.link q s = some e → e.name ≠ name'
  graph : ∃ s e t, g.Finds p name s e ∧ 2 ≤ t ∧ (g.detach p s e q).link q t = none ∧
    g' = (g.detach p s e q).setLink q t (some ⟨cutName name', e.ino, e.ty, direntSize⟩)

structure Lost (g : Graph) (p : ℕ) (name : Name) (q : ℕ) (name' : Name) (g' : Graph) : Prop where
  parents : p ∈ g.dirs ∧ q ∈ g.dirs
  proper : name' ≠ [] ∧ name'.length ≤ nameMax ∧ name' ≠ dot ∧ name' ≠ dotdot
  absent : ∀ s e, g.link q s = some e → e.name ≠ name'
  graph : ∃ s e, g.Finds p name s e ∧ g' = g.detach p s e q

end Graph

end AeroSLS.Posix
