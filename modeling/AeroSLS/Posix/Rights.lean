import AeroSLS.Posix.Ends

namespace AeroSLS.Posix

open AeroSLS.Crash AeroSLS.Machine

variable {v v' : Vfs} {t fd : ℕ} {α : Type}
  {discipline : Queues → List UInt8 → Queues} {table : FdTable} {e : FdEntry} {i : ℕ}
  {op : Op}

def SameFss (v v' : Vfs) : Prop := v'.fss = v.fss

instance : IsPreorder Vfs SameFss where
  refl _ := rfl
  trans _ _ _ h h' := Eq.trans h' h

/-- The entry that the descriptor of a task names. -/
def Vfs.entryAt (v : Vfs) (t fd : ℕ) : Option FdEntry := (v.tableAt t).bind fun r => r.2.entry fd

lemma wp_entryAt (hsome : ∀ e, v.entryAt t fd = some e → Q e v) (hnone : ∀ f, E f v) :
    wp (fun _ => True) (entryOf t fd) Q E v := by
  apply wp_entryOf _ hnone
  intro i table e htab he
  apply hsome
  rw [Vfs.entryAt, htab, Option.bind_some, he]

lemma sameFss_setOffset (n offset : ℕ) : Within SameFss (setOffset n offset) :=
  within_write fun _ => rfl

lemma sameFss_onPty (op : PtyState → Except Errno α × PtyState) : Within SameFss (onPty p op) :=
  within_node (f := fun q v => v.setPty p q) fun _ => rfl

lemma sameFss_read : Within SameFss (read t fd n) := by
  refine within_read t fd sameFss_setOffset (fun p => ?_) (fun c => ?_)
    (fun p => sameFss_onPty _) fun p => sameFss_onPty _
  · exact within_node (f := fun q v => v.setPipe p q) fun _ => rfl
  · exact within_node (f := fun q v => { v with chars := Function.update v.chars c q }) fun _ => rfl

lemma fss_writeFd (h : ∀ e, v.entryAt t fd = some e → e.rights.w = false) :
    (writeFd discipline t fd buf v).last.fss = v.fss := by
  apply wp_last (P := fun v' : Vfs => v'.fss = v.fss)
  unfold writeFd
  rw [wp_bind]
  apply wp_entryAt
  · intro e he
    rw [h e he]
    exact wp_fail.2 rfl
  · exact fun _ => rfl

lemma read_ok (h : (read t fd n v).res = .ok bytes) :
    ∃ e, v.entryAt t fd = some e ∧ e.rights.r := by
  by_contra hno
  push Not at hno
  have hnever : wp (fun _ => True) (read t fd n) (fun _ _ => False) (fun _ _ => True) v := by
    unfold read
    rw [wp_bind]
    apply wp_entryAt
    · intro e he
      rw [Bool.eq_false_iff.2 (hno e he)]
      exact wp_fail.2 trivial
    · exact fun _ => trivial
  have h2 := hnever.2
  rwa [h] at h2

/-- The task and the descriptor that the call works through. -/
def Op.descriptor : Op → Option (ℕ × ℕ)
  | .read t fd _ | .write t fd _ | .lseek t fd _ _ | .readDirAt t fd _ | .truncateAt t fd _
  | .fsync t fd => some (t, fd)
  | _ => none

/-- `truncate_at` is only called on files with `W`. -/
def Op.TruncatesWritable (v : Vfs) : Op → Prop
  | .truncateAt t fd _ => ∀ e n, v.entryAt t fd = some e → e.node = .file n → e.rights.w = true
  | _ => True

theorem fss_step (hop : op.descriptor = some (t, fd)) (htrunc : op.TruncatesWritable v)
    (hne : (step discipline v op).fss ≠ v.fss) :
    ∃ e, v.entryAt t fd = some e ∧ e.rights.w := by
  cases op with
  | read => exact absurd (sameFss_read.last v) hne
  | lseek t' fd' =>
    exact absurd ((within_lseek t' fd' sameFss_setOffset).last v) hne
  | readDirAt t' fd' => exact absurd ((within_readDirAt (R := SameFss) t' fd').last v) hne
  | fsync t' fd' => exact absurd ((within_fsync (R := SameFss) t' fd').last v) hne
  | write t' fd' =>
    obtain ⟨rfl, rfl⟩ : t' = t ∧ fd' = fd := by simpa [Op.descriptor] using hop
    by_contra hno
    push Not at hno
    exact hne (fss_writeFd fun e he => Bool.eq_false_iff.2 (hno e he))
  | truncateAt t' fd' len =>
    obtain ⟨rfl, rfl⟩ : t' = t ∧ fd' = fd := by simpa [Op.descriptor] using hop
    by_contra hno
    push Not at hno
    -- without a file the call fails before it reaches a file system
    refine hne ?_
    apply wp_last (P := fun v' : Vfs => v'.fss = v.fss)
    unfold truncateAt
    rw [wp_bind]
    refine wp_entryAt (fun e he => ?_) fun _ => rfl
    split
    · rename_i n hfile
      exact absurd (htrunc e n he hfile) (hno e he)
    · exact wp_fail.2 rfl
  | openFile | openDir | pipe | openpty | close | closeCloexec | setCloexec | dup | dup2 | mkdir
  | unlink | rmdir | rename | addTask | cloneTask | exitTask | setCred | setCwd | addDevNode =>
    cases hop

def Vfs.Holds (v : Vfs) (o : FileObj) (r : Rights) : Prop :=
  ∃ (i : ℕ) (table : FdTable) (fd : ℕ) (e : FdEntry), v.tables[i]? = some table ∧
    table.entry fd = some e ∧ e.node = o ∧ e.rights = r

/-- Nothing is held that was not held before. -/
def NoMore (v v' : Vfs) : Prop := ∀ o r, v'.Holds o r → v.Holds o r

instance : IsPreorder Vfs NoMore where
  refl _ _ _ h := h
  trans _ _ _ h h' o r hr := h o r (h' o r hr)

lemma noMore_of_tables (h : v'.tables = v.tables) : NoMore v v' := by
  rintro o r ⟨i, table, fd, e, ht, he⟩
  exact ⟨i, table, fd, e, h ▸ ht, he⟩

lemma tables_bump : (v.bump d o).tables = v.tables := samePool_bump.tables

lemma noMore_withTable (h : ∀ fd e, table'.entry fd = some e → v.Holds e.node e.rights) :
    NoMore v (v.withTable i table') := by
  rintro o r ⟨j, table, fd, e, ht, he, rfl, rfl⟩
  change (v.tables.set i table')[j]? = some table at ht
  rw [List.getElem?_set] at ht
  split_ifs at ht with hij hlt
  · grind
  · exact ⟨j, table, fd, e, ht, he, rfl, rfl⟩

lemma noMore_write_bump : Within NoMore (.write fun v => v.bump d o : Call Unit) :=
  within_write fun _ => noMore_of_tables tables_bump

lemma holds_of_tableAt (htab : v.tableAt t = some (i, table)) (he : table.entry fd = some e) :
    v.Holds e.node e.rights := ⟨i, table, fd, e, (tableAt_spec htab).1, he, rfl, rfl⟩

/-- The state only holds what `v` held. -/
abbrev Copies (m : Call α) (v : Vfs) : Prop :=
  wp (fun _ => True) m (fun _ v' => NoMore v v') (fun _ v' => NoMore v v') v

lemma copies_bind_within {β : Type} {m : Call α} {f : α → Call β} (hm : Copies m v)
    (hf : ∀ a, Within NoMore (f a)) : Copies (m >>= f) v := by
  apply wp_seqE hm
  · intro a v1 h1
    exact wp_mono (hf a v1) (fun _ _ => trivial) (fun _ _ h => IsTrans.trans _ _ _ h1 h)
      fun _ _ h => IsTrans.trans _ _ _ h1 h
  · exact fun _ _ h => h

lemma copies_allocFd (he : v.Holds e.node e.rights) : Copies (allocFd t e) v := by
  apply wp_allocFd
  · intro i table fd table' htab hadd
    apply noMore_withTable
    intro fd' e' he'
    rw [hadd.entry] at he'
    split_ifs at he' with hfd
    · rw [← Option.some.inj he']
      exact he
    · exact holds_of_tableAt htab he'
  · exact fun _ _ _ _ _ => Std.Refl.refl v
  · exact fun _ _ => Std.Refl.refl v

lemma copies_dup : Copies (dup t fd) v := by
  unfold dup Copies
  rw [wp_bind]
  apply wp_entryOf
  · intro i table e htab he
    have hheld := holds_of_tableAt htab he
    refine copies_bind_within (copies_allocFd hheld) fun nfd => ?_
    exact noMore_write_bump.bind fun _ => within_pure
  · exact fun _ => Std.Refl.refl v

lemma copies_replaceFd (htab : v.tableAt t = some (i, table)) (he : v.Holds e.node e.rights) :
    Copies (replaceFd i table fd e) v := by
  have hplace : ∀ fd' e', (table.place fd e).entry fd' = some e' → v.Holds e'.node e'.rights := by
    grind [entry_place, holds_of_tableAt]
  unfold replaceFd
  split
  · exact wp_write.2 ⟨trivial, noMore_withTable hplace⟩
  rename_i prev _
  rw [Copies, wp_bind, noteRemoved, wp_write, setTable, wp_write]
  refine ⟨trivial, trivial, ?_⟩
  intro o r hr
  -- the count is lowered before the slot changes hands
  have hback : (v.withTable i (table.place fd e)).Holds o r := by
    obtain ⟨j, table', fd', e', ht, rest⟩ := hr
    refine ⟨j, table', fd', e', ?_, rest⟩
    rw [← ht]
    change (v.tables.set i _)[j]? = ((v.noteRemoved prev).tables.set i _)[j]?
    rw [Vfs.noteRemoved, tables_bump]
  exact noMore_withTable hplace o r hback

lemma copies_dup2 {oldfd newfd : ℕ} : Copies (dup2 t oldfd newfd) v := by
  unfold dup2
  split_ifs
  · exact wp_pure.2 (Std.Refl.refl v)
  · exact wp_fail.2 (Std.Refl.refl v)
  · rw [Copies, wp_bind]
    apply wp_entryOf
    · intro i table e htab he
      have hheld := holds_of_tableAt htab he
      rw [wp_bind]
      apply wp_tableOf
      · intro i' table' htab'
        refine copies_bind_within (copies_replaceFd htab' hheld) fun _ => ?_
        exact noMore_write_bump.bind fun _ => within_pure
      · exact fun _ _ => Std.Refl.refl v
    · exact fun _ => Std.Refl.refl v

lemma noMore_append (h : NoMore v v')
    (htable : ∀ fd e, table.entry fd = some e → v.Holds e.node e.rights) :
    NoMore v { v' with tables := v'.tables ++ [table], tasks } := by
  rintro o r ⟨j, table', fd, e, ht, he, rfl, rfl⟩
  have hmem := List.mem_of_getElem? ht
  obtain hmem | hmem := List.mem_append.1 hmem
  · obtain ⟨j', hj'⟩ := List.mem_iff_getElem?.1 hmem
    exact h _ _ ⟨j', table', fd, e, hj', he, rfl, rfl⟩
  · grind

lemma copies_forkTable : Copies (forkTable t p) v := by
  unfold forkTable
  rw [Copies, wp_bind]
  apply wp_tableOf
  · intro i table htab
    rw [wp_bind]
    have hcount : Within NoMore (Prog.each noteAdded (table.filterMap fun e => e)) :=
      within_each fun e _ => noMore_write_bump
    apply wp_mono (hcount v) (fun _ _ => trivial) _ fun _ _ h => h
    intro _ v1 h1
    exact wp_write.2 ⟨trivial, noMore_append h1 fun _ _ he => holds_of_tableAt htab he⟩
  · exact fun _ _ => Std.Refl.refl v

lemma copies_cloneTask : Copies (cloneTask t share) v := by
  unfold cloneTask
  rw [Copies, wp_bind, lift, wp_attempt]
  rcases v.task t with e | p
  · exact noMore_of_tables rfl
  dsimp only
  rw [wp_bind, wp_gets, wp_bind, wp_when]
  cases share with
  | true => simp [wp_when, noMore_of_tables]
  | false =>
    refine ⟨fun h => absurd h (by decide), fun _ => ?_⟩
    rw [wp_bind, wp_when]
    refine ⟨fun _ => ?_, absurd rfl⟩
    exact wp_imp copies_forkTable (fun _ _ h => wp_pure.2 h)

def Op.CopiesDescriptors : Op → Prop
  | .dup .. | .dup2 .. | .cloneTask .. => True
  | _ => False

lemma noMore_step (hop : op.CopiesDescriptors) : NoMore v (step discipline v op) := by
  cases op with
  | dup => exact wp_last copies_dup
  | dup2 => exact wp_last copies_dup2
  | cloneTask => exact wp_last copies_cloneTask
  | openFile | openDir | pipe | openpty | close | closeCloexec | setCloexec | read | write | lseek
  | readDirAt | truncateAt | fsync | mkdir | unlink | rmdir | rename | addTask | exitTask | setCred
  | setCwd | addDevNode => cases hop

lemma noMore_run (hops : ∀ op ∈ ops, op.CopiesDescriptors) :
    NoMore v (run (step discipline) v ops) := by
  apply run_induction
  · exact Std.Refl.refl v
  · exact fun v1 op h1 hop => IsTrans.trans _ _ _ h1 (noMore_step hop)
  · exact always_of_forall fun op hop _ => hops op hop

/-- A call through a descriptor changes files only with `W` and returns bytes only with `R`, and
copying makes no right for a new object. -/
theorem rights_confined (discipline : Queues → List UInt8 → Queues) (v : Vfs) :
    (∀ t fd op, op.descriptor = some (t, fd) → op.TruncatesWritable v →
      (step discipline v op).fss ≠ v.fss → ∃ e, v.entryAt t fd = some e ∧ e.rights.w = true) ∧
    (∀ t fd n bytes, (read t fd n v).res = .ok bytes →
      ∃ e, v.entryAt t fd = some e ∧ e.rights.r = true) ∧
    ∀ ops, (∀ op ∈ ops, op.CopiesDescriptors) →
      ∀ o r, (run (step discipline) v ops).Holds o r → v.Holds o r :=
  ⟨fun _ _ _ hop htrunc hne => fss_step hop htrunc hne, fun _ _ _ _ h => read_ok h,
    fun _ hops => noMore_run hops⟩

/-- One ramfs at the root, with a file "f" that task 0 has written and opened again with the
given flags. -/
def reopened (flags : ℕ) : Vfs :=
  run (step fun q _ => q) (Vfs.boot [.ram RamFs.new] [⟨[], 0⟩])
    [.openFile 0 ⟨true, [[102]]⟩ (oRdwr ||| oCreat) 0o644, .write 0 0 [1, 2, 3],
      .openFile 0 ⟨true, [[102]]⟩ flags 0]

def Vfs.sizeOf (v : Vfs) : Option ℕ :=
  (v.fss[0]?).bind fun f => ((f.stat 2).map (·.size)).toOption

/-- A call through the second descriptor, opened for writing. -/
theorem rights_confined_reopened :
    (step (fun q _ => q) (reopened oWronly) (.truncateAt 0 1 1)).fss ≠ (reopened oWronly).fss ∧
    ∃ e, (reopened oWronly).entryAt 0 1 = some e ∧ e.rights.w = true := by
  have hne : (step (fun q _ => q) (reopened oWronly) (.truncateAt 0 1 1)).fss ≠
      (reopened oWronly).fss := by
    intro h
    have hsize : (step (fun q _ => q) (reopened oWronly) (.truncateAt 0 1 1)).sizeOf =
        (reopened oWronly).sizeOf := by
      unfold Vfs.sizeOf
      rw [h]
    revert hsize
    decide +kernel
  refine ⟨hne, (rights_confined _ _).1 0 1 (.truncateAt 0 1 1) rfl ?_ hne⟩
  intro e n he _
  have hw : ((reopened oWronly).entryAt 0 1).map (·.rights.w) = some true := by decide +kernel
  rw [he] at hw
  exact Option.some.inj hw

/-- A descriptor opened with `O_RDONLY` truncates the file. -/
theorem truncateAt_readOnly : ((reopened 0).entryAt 0 1).map (·.rights) = some ⟨true, false⟩ ∧
    (reopened 0).sizeOf = some 3 ∧
    (step (fun q _ => q) (reopened 0) (.truncateAt 0 1 0)).sizeOf = some 0 := by
  decide +kernel

end AeroSLS.Posix
