import AeroSLS.Posix.EndCounts

namespace AeroSLS.Posix

open AeroSLS.Crash List Function Option PtyState

variable {v : Vfs} {α β : Type} {e : FdEntry}

lemma within_lift [Std.Refl R] : Within R (lift f) := within_attempt

lemma within_node {g : Vfs → β} {f : β → Vfs → Vfs} {op : β → Except Errno α × β}
    (h : ∀ v, R v (f (op (g v)).2 v)) : Within R (do
      let q ← .gets g
      .write (f (op q).2)
      lift fun _ => (op q).1 : Call α) := by
  intro v
  rw [wp_bind, wp_gets, wp_bind, wp_write, lift, wp_attempt]
  refine ⟨h v, ?_⟩
  split <;> exact h v

section

variable [IsPreorder Vfs R] (t fd : ℕ)

lemma within_tableOf : Within R (tableOf t) := by
  refine within_lift.bind fun task => ?_
  split
  · exact within_fail
  refine within_gets.bind fun r => ?_
  split
  · exact within_fail
  · exact within_pure

lemma within_entryOf : Within R (entryOf t fd) := by
  refine (within_tableOf t).bind fun r => ?_
  dsimp only
  split
  · exact within_fail
  · exact within_pure

lemma within_readDirAt : Within R (readDirAt t fd start) := by
  refine (within_entryOf t fd).bind fun e => ?_
  split
  · exact within_gets.bind fun node => within_lift.bind fun _ => within_pure
  · exact within_fail

lemma within_fsync : Within R (fsync t fd) := by
  refine (within_entryOf t fd).bind fun e => ?_
  split
  · exact within_gets.bind fun node => within_lift
  · exact within_fail

variable (hoff : ∀ n offset, Within R (setOffset n offset))
include hoff

lemma within_lseek : Within R (lseek t fd off whence) := by
  refine (within_entryOf t fd).bind fun e => ?_
  split
  · refine within_gets.bind fun node => within_lift.bind fun f => ?_
    refine within_lift.bind fun size => ?_
    dsimp only
    split
    · exact within_fail
    · split_ifs
      · exact within_fail
      · exact (hoff _ _).bind fun _ => within_pure
  · exact within_fail

lemma within_read (hpipe : ∀ p, Within R (onPipe p fun q => q.read n))
    (hchar : ∀ c, Within R (onChar c fun q => q.read n))
    (hmaster : ∀ p, Within R (onPty p fun q => q.masterRead n))
    (hslave : ∀ p, Within R (onPty p fun q => q.slaveRead n)) : Within R (read t fd n) := by
  refine (within_entryOf t fd).bind fun e => ?_
  split_ifs
  · exact within_fail
  split
  · refine within_gets.bind fun node => within_lift.bind fun bytes => ?_
    exact (hoff _ _).bind fun _ => within_pure
  · exact hpipe _
  · exact hchar _
  · exact within_fail
  · exact hmaster _
  · exact hslave _

end

structure SameEnds (v v' : Vfs) : Prop extends SamePool v v' where
  counted : ∀ n o, v.Counted n o → v'.Counted n o

lemma SameEnds.refl (v : Vfs) : SameEnds v v := ⟨.refl v, fun _ _ h => h⟩

lemma SameEnds.trans {w : Vfs} (h : SameEnds v v') (h' : SameEnds v' w) : SameEnds v w :=
  ⟨h.toSamePool.trans h'.toSamePool, fun n o hc => h'.counted n o (h.counted n o hc)⟩

lemma Books.same (hb : Books δ v) (h : SameEnds v v') : Books δ v' :=
  hb.of_pool h.toSamePool fun o => h.counted _ o (hb.count o)

instance : IsPreorder Vfs SameEnds where
  refl := .refl
  trans _ _ _ h h' := h.trans h'

lemma sameEnds_of_eq (hpool : SamePool v v') (hpipes : v'.pipes = v.pipes)
    (hptys : v'.ptys = v.ptys) : SameEnds v v' := by
  refine ⟨hpool, fun n o h => ?_⟩
  cases o <;> simp_all [Vfs.Counted]

lemma frames_onFs : Within SameEnds (onFs idx op) := by
  refine within_lift.bind fun f => ?_
  exact .bind (within_write fun v => sameEnds_of_eq ⟨rfl, rfl, rfl, rfl⟩ rfl rfl) fun _ =>
    within_lift

lemma sameEnds_setPipe {q : PipeNode} (hr : q.readers = (v.pipes p).readers)
    (hw : q.writers = (v.pipes p).writers) : SameEnds v (v.setPipe p q) := by
  refine ⟨⟨rfl, rfl, rfl, rfl⟩, fun n o h => ?_⟩
  cases o <;> simp only [Vfs.Counted, Vfs.setPipe, update_apply] at h ⊢ <;>
    first | exact h | (split_ifs with hp <;> simp_all)

lemma sameEnds_setPty {q : PtyState} (hmr : q.masterReaders = (v.ptys p).masterReaders)
    (hmw : q.masterWriters = (v.ptys p).masterWriters)
    (hsr : q.slaveReaders = (v.ptys p).slaveReaders)
    (hsw : q.slaveWriters = (v.ptys p).slaveWriters) : SameEnds v (v.setPty p q) := by
  refine ⟨⟨rfl, rfl, rfl, rfl⟩, fun n o h => ?_⟩
  cases o <;> simp only [Vfs.Counted, Vfs.setPty, update_apply] at h ⊢ <;>
    first | exact h | (split_ifs with hp <;> simp_all)

lemma frames_onPipe {op : PipeNode → Except Errno α × PipeNode}
    (hr : ∀ q, (op q).2.readers = q.readers) (hw : ∀ q, (op q).2.writers = q.writers) :
    Within SameEnds (onPipe p op) :=
  within_node (f := fun q v => v.setPipe p q) fun _ => sameEnds_setPipe (hr _) (hw _)

lemma frames_onPty {op : PtyState → Except Errno α × PtyState}
    (hmr : ∀ q, (op q).2.masterReaders = q.masterReaders)
    (hmw : ∀ q, (op q).2.masterWriters = q.masterWriters)
    (hsr : ∀ q, (op q).2.slaveReaders = q.slaveReaders)
    (hsw : ∀ q, (op q).2.slaveWriters = q.slaveWriters) : Within SameEnds (onPty p op) :=
  within_node (f := fun q v => v.setPty p q) fun _ =>
    sameEnds_setPty (hmr _) (hmw _) (hsr _) (hsw _)

lemma frames_onChar : Within SameEnds (onChar c op) :=
  within_node (f := fun q v => { v with chars := update v.chars c q }) fun _ =>
    sameEnds_of_eq ⟨rfl, rfl, rfl, rfl⟩ rfl rfl

lemma frames_setOffset (n offset : ℕ) : Within SameEnds (setOffset n offset) :=
  within_write fun _ => sameEnds_of_eq ⟨rfl, rfl, rfl, rfl⟩ rfl rfl

lemma pipe_read_counts (q : PipeNode) :
    (q.read n).2.readers = q.readers ∧ (q.read n).2.writers = q.writers := by
  unfold PipeNode.read
  split_ifs <;> exact ⟨rfl, rfl⟩

lemma pipe_write_counts (q : PipeNode) :
    (q.write buf).2.readers = q.readers ∧ (q.write buf).2.writers = q.writers := by
  unfold PipeNode.write
  dsimp only
  split_ifs <;> exact ⟨rfl, rfl⟩

lemma frames_read : Within SameEnds (read t fd n) := by
  refine within_read t fd frames_setOffset (fun p => ?_) (fun c => frames_onChar)
    (fun p => ?_) fun p => ?_
  · exact frames_onPipe (fun q => (pipe_read_counts q).1) fun q => (pipe_read_counts q).2
  · apply frames_onPty <;> intro q <;> unfold masterRead <;> split_ifs <;> rfl
  · apply frames_onPty <;> intro q <;> unfold slaveRead <;> split_ifs <;> rfl

lemma frames_writeOffset : Within SameEnds (writeOffset node append) := by
  unfold writeOffset
  split_ifs
  · exact within_lift.bind fun _ => within_pure
  · exact within_pure

lemma frames_writeFd : Within SameEnds (writeFd discipline t fd buf) := by
  refine (within_entryOf t fd).bind fun e => ?_
  split_ifs
  · exact within_fail
  split
  · refine within_gets.bind fun node => frames_writeOffset.bind fun offset => ?_
    refine within_lift.bind fun _ => frames_onFs.bind fun n => ?_
    exact (within_when (frames_setOffset _ _)).bind fun _ => within_pure
  · exact frames_onPipe (fun q => (pipe_write_counts q).1) fun q => (pipe_write_counts q).2
  · exact frames_onChar
  · exact within_fail
  · apply frames_onPty <;> intro q <;> unfold masterInput <;> dsimp only <;> split_ifs <;> rfl
  · apply frames_onPty <;> intro q <;> unfold slaveWrite <;> dsimp only <;> split_ifs <;> rfl

lemma frames_truncateAt : Within SameEnds (truncateAt t fd len) := by
  refine (within_entryOf t fd).bind fun e => ?_
  split
  · exact within_gets.bind fun node => within_lift.bind fun _ => frames_onFs
  · exact within_fail

lemma frames_parentOf : Within SameEnds (parentOf fs rel) := within_lift.bind fun _ => within_pure

section

variable (t : ℕ) (path : Path)
include t path

lemma frames_onParent {e : Errno} {op : ℕ → Name → Mounted → Except Errno α × Mounted} :
    Within SameEnds (do
      let (fs, rel) ← lift fun v => v.resolvePath t path
      match rel.getLast? with
      | none => failWith e
      | some name =>
        let parent ← parentOf fs rel
        onFs fs (op parent name)) := by
  refine within_lift.bind fun r => ?_
  dsimp only
  split
  · exact within_fail
  · exact frames_parentOf.bind fun _ => frames_onFs

lemma frames_mkdir : Within SameEnds (mkdir t path mode) := by
  refine within_lift.bind fun r => ?_
  dsimp only
  split
  · exact within_fail
  · exact frames_parentOf.bind fun _ => frames_onFs.bind fun _ => within_pure

lemma frames_unlinkPath : Within SameEnds (unlinkPath t path) := frames_onParent t path

lemma frames_rmdirPath : Within SameEnds (rmdirPath t path) := frames_onParent t path

end

lemma frames_renamePath (old new : Path) : Within SameEnds (renamePath t old new) := by
  refine within_lift.bind fun r => within_lift.bind fun r' => ?_
  dsimp only
  split_ifs
  · exact within_fail
  · split
    · exact frames_parentOf.bind fun _ => frames_parentOf.bind fun _ => frames_onFs
    · exact within_fail

lemma map_fds_modify (hf : ∀ k, (f k).fds = k.fds) (l : List Task) :
    (l.modify t f).map (·.fds) = l.map (·.fds) := by
  apply ext_getElem?
  intro j
  rw [getElem?_map, getElem?_modify, getElem?_map]
  cases l[j]? with
  | none => rfl
  | some => by_cases h : t = j <;> simp [h, hf]

lemma frames_modify (hf : ∀ k, (f k).fds = k.fds) :
    Within SameEnds (.write fun v => { v with tasks := v.tasks.modify t f } : Call Unit) :=
  within_write fun v => sameEnds_of_eq ⟨rfl, map_fds_modify hf v.tasks, rfl, rfl⟩ rfl rfl

lemma frames_setCred : Within SameEnds (setCred t euid egid) :=
  within_lift.bind fun _ => frames_modify fun _ => rfl

lemma frames_setCwd : Within SameEnds (setCwd t path) := by
  refine within_lift.bind fun full => within_lift.bind fun r => ?_
  refine within_lift.bind fun r' => ?_
  dsimp only
  split_ifs
  · exact within_fail
  · exact within_lift.bind fun _ => frames_modify fun _ => rfl

lemma frames_addDevNode : Within SameEnds (addDevNode path name node) := by
  refine within_lift.bind fun r => ?_
  dsimp only
  split_ifs
  · exact within_fail
  exact within_gets.bind fun c => within_lift.bind fun f =>
    within_write fun v => sameEnds_of_eq ⟨rfl, rfl, rfl, rfl⟩ rfl rfl

lemma frames_registerSlave : Within SameEnds (registerSlave p) := by
  refine within_write fun v => ?_
  split
  · exact .refl v
  split
  · split
    · exact .refl v
    · exact sameEnds_of_eq ⟨rfl, rfl, rfl, rfl⟩ rfl rfl
  · exact .refl v

/-- Only a file that is found or created anew changes the state. -/
theorem wp_openInode : wp (fun _ => True) (openInode fs rel flags mode) (fun r v' => SameEnds v v' ∧
        (r.2 ≠ .file → v' = v ∧ ((v.fs fs).bind fun f => f.lookup rel) = .ok r))
      (fun _ v' => SameEnds v v') v := by
  unfold openInode
  by_cases hcreat : hasFlag flags oCreat
  · rw [if_pos hcreat, wp_bind, wp_gets]
    split
    · rename_i hit hlook
      split_ifs
      · exact wp_fail.2 (.refl v)
      · exact wp_pure.2 ⟨.refl v, fun _ => ⟨rfl, hlook⟩⟩
    · split
      · exact wp_fail.2 (.refl v)
      rw [wp_bind]
      apply wp_mono (within_lift v) (fun _ _ => trivial) _ fun _ _ h => h
      intro parent v1 h1
      rw [wp_bind]
      apply wp_mono (frames_onFs v1) (fun _ _ => trivial) _ fun _ _ h => h1.trans h
      intro ino v2 h2
      exact wp_pure.2 ⟨h1.trans h2, absurd rfl⟩
    · exact wp_fail.2 (.refl v)
  · rw [if_neg hcreat, lift, wp_attempt]
    rcases hlook : (v.fs fs).bind fun f => f.lookup rel with e | hit
    · have hrun : (do (← v.fs fs).lookup rel) = .error e := hlook
      rw [hrun]
      exact .refl v
    have hrun : (do (← v.fs fs).lookup rel) = .ok hit := hlook
    rw [hrun]
    exact ⟨.refl v, fun _ => ⟨rfl, rfl⟩⟩

def Keeps (m : Call α) (v : Vfs) : Prop :=
  wp (fun _ => True) m (fun _ v' => Books 0 v') (fun _ v' => Books 0 v') v

lemma keeps_of_within (h : Within SameEnds m) (hb : Books 0 v) : Keeps m v :=
  wp_mono (h v) (fun _ _ => trivial) (fun _ _ hs => hb.same hs) fun _ _ hs => hb.same hs

lemma keeps_bind {f : α → Call β} (hm : Within SameEnds m) (hb : Books 0 v)
    (hf : ∀ a v', SameEnds v v' → Books 0 v' → Keeps (f a) v') : Keeps (m >>= f) v := by
  unfold Keeps
  rw [wp_bind]
  exact wp_mono (hm v) (fun _ _ => trivial) (fun a v' hs => hf a v' hs (hb.same hs))
    fun _ _ hs => hb.same hs

/-- Nothing is counted for files and devices. -/
def FileObj.Counts : FileObj → Prop
  | .file _ | .char _ => False
  | _ => True

lemma Books.of_counts (hb : Books δ v) (h : ∀ o, o.Counts → δ' o = δ o) : Books δ' v := by
  refine ⟨fun o => ?_, hb.fresh, hb.dead, hb.valid, hb.short, hb.few⟩
  have hc := hb.count o
  have hδ := h o
  cases o with
  | file | char => trivial
  | pipeRead | pipeWrite | ptyMaster | ptySlave => rwa [hδ trivial]

def Vfs.tableAt (v : Vfs) (t : ℕ) : Option (ℕ × FdTable) :=
  match (v.tasks.map (·.fds))[t]? with
  | some (some i) => (v.tables[i]?).map fun table => (i, table)
  | _ => none

lemma SamePool.tableAt (h : SamePool v v') (t : ℕ) : v'.tableAt t = v.tableAt t := by
  rw [Vfs.tableAt, h.fds, h.tables, Vfs.tableAt]

lemma tableAt_spec (h : v.tableAt t = some (i, table)) : v.tables[i]? = some table ∧ v.Live i := by
  unfold Vfs.tableAt at h
  split at h
  · rename_i j hj
    obtain ⟨table', ht, heq⟩ := map_eq_some_iff.1 h
    obtain ⟨rfl, rfl⟩ := heq
    exact ⟨ht, mem_of_getElem? hj⟩
  · cases h

section wp

lemma wp_tableOf {Q : ℕ × FdTable → Vfs → Prop}
    (hsome : ∀ i table, v.tableAt t = some (i, table) → Q (i, table) v)
    (hnone : v.tableAt t = none → ∀ f, E f v) : wp (fun _ => True) (tableOf t) Q E v := by
  unfold tableOf lift Vfs.task
  rw [wp_bind, wp_attempt]
  unfold Vfs.tableAt at hsome hnone
  rw [getElem?_map] at hsome hnone
  rcases htask : v.tasks[t]? with _ | task
  · rw [htask] at hnone
    simp only [htask]
    exact hnone rfl _
  rw [htask] at hsome hnone
  simp only [htask]
  dsimp only [map_some] at hsome hnone
  rcases hfds : task.fds with _ | i
  · rw [hfds] at hnone
    exact wp_fail.2 (hnone rfl _)
  rw [hfds] at hsome hnone
  rw [wp_bind, wp_gets]
  cases htab : v.tables[i]? with
  | none =>
    simp only [htab, map_none, forall_const] at hnone
    exact wp_fail.2 (hnone _)
  | some table => grind [wp_pure.2]

lemma wp_entryOf {Q : FdEntry → Vfs → Prop}
    (hsome : ∀ i table e, v.tableAt t = some (i, table) → table.entry fd = some e → Q e v)
    (hnone : ∀ f, E f v) : wp (fun _ => True) (entryOf t fd) Q E v := by
  unfold entryOf
  rw [wp_bind]
  apply wp_tableOf
  · intro i table htab
    dsimp only
    split
    · exact wp_fail.2 (hnone _)
    · grind [wp_pure.2]
  · exact fun _ => hnone

/-- A descriptor is handed out, or the table is full, or there is none. -/
theorem wp_allocFd
    (hok : ∀ i table fd table', v.tableAt t = some (i, table) → Added table fd e table' →
      Q fd (v.withTable i table'))
    (hfull : ∀ i table, v.tableAt t = some (i, table) → table.free = 0 → ∀ f, E f v)
    (hnone : v.tableAt t = none → ∀ f, E f v) : wp (fun _ => True) (allocFd t e) Q E v := by
  unfold allocFd
  rw [wp_bind]
  apply wp_tableOf
  · intro i table htab
    rw [wp_bind, lift, wp_attempt]
    obtain ⟨herr, hfree⟩ | ⟨fd, table', halloc, hadd⟩ := alloc_cases table e
    · grind
    rw [halloc]
    dsimp only
    rw [wp_bind, setTable, wp_write, wp_pure]
    exact ⟨trivial, hok i table fd table' htab hadd⟩
  · exact hnone

end wp

lemma weight_eq_zero (h : e.node ≠ o) : e.weight o = 0 := if_neg h

lemma tableAt_withTable (h : v.tableAt t = some (i, table)) :
    (v.withTable i table').tableAt t = some (i, table') := by
  have hlt : i < v.tables.length := (List.getElem?_eq_some_iff.1 (tableAt_spec h).1).1
  unfold Vfs.tableAt at h
  split at h
  · rename_i j hj
    obtain ⟨table0, -, heq⟩ := map_eq_some_iff.1 h
    obtain rfl : j = i := (Prod.mk.injEq .. ▸ heq).1
    have hj' : ((v.withTable j table').tasks.map (·.fds))[t]? = some (some j) := hj
    rw [Vfs.tableAt, hj']
    exact congrArg (Option.map _) (getElem?_set_self hlt)
  · cases h

lemma Books.add (hb : Books δ v) (htab : v.tableAt t = some (i, table))
    (hadd : Added table fd e table') (hborn : ¬v.Unborn e.node)
    (hδ : ∀ o, δ' o = δ o - e.weight o) : Books δ' (v.withTable i table') := by
  obtain ⟨ht, hlive⟩ := tableAt_spec htab
  apply hb.withTable ht (.inl hlive)
  · intro o ho
    have hle : table.count o ≤ v.entries o := count_le_entries ht
    have hzero := hb.fresh o ho
    have hne : e.node ≠ o := fun heq => hborn (heq ▸ ho)
    rw [hadd.count, weight_eq_zero hne]
    omega
  · exact hadd.length (hb.short table (mem_of_getElem? ht))
  · intro o
    rw [hδ, hadd.count]
    push_cast
    ring

section

variable (hb : Books 0 v)
include hb

lemma keeps_allocFd (he : ¬e.node.Counts) : Keeps (allocFd t e) v := by
  apply wp_allocFd
  · intro i table fd table' htab hadd
    have hborn : ¬v.Unborn e.node := by
      intro h
      cases hn : e.node <;> rw [hn] at h he <;> first | exact h | exact he trivial
    have hb' : Books (fun o => 0 - (e.weight o : ℤ)) (v.withTable i table') :=
      hb.add htab hadd hborn fun _ => rfl
    apply hb'.of_counts
    intro o ho
    have hne : e.node ≠ o := fun heq => he (heq ▸ ho)
    simp [weight_eq_zero hne]
  · exact fun _ _ _ _ _ => hb
  · exact fun _ _ => hb

lemma keeps_mintFile {fs ino flags : ℕ} {rights : Rights} :
    Keeps (mintFile t fs ino rights flags) v := by
  refine keeps_bind within_gets hb fun n v1 _ hb1 => ?_
  refine keeps_bind within_lift hb1 fun f v2 _ hb2 => ?_
  exact keeps_bind (within_write fun v => sameEnds_of_eq ⟨rfl, rfl, rfl, rfl⟩ rfl rfl) hb2
    fun _ v3 _ hb3 => keeps_allocFd hb3 id

/-- Two ends are put into a table and then counted. With one slot left the first stays behind
uncounted. -/
theorem keeps_mintPair {a b : FdEntry} (ha : ¬v.Unborn a.node) (hb' : ¬v.Unborn b.node)
    (hone : ∀ i table, v.tableAt t = some (i, table) → table.free ≠ 1) : Keeps (do
      let m ← allocFd t a
      let s ← allocFd t b
      noteAdded a
      noteAdded b
      pure (m, s)) v := by
  unfold Keeps
  rw [wp_bind]
  apply wp_allocFd
  · intro i table fd table1 htab hadd1
    have hb1 : Books (fun o => 0 - (a.weight o : ℤ)) (v.withTable i table1) :=
      hb.add htab hadd1 ha fun _ => rfl
    have htab1 : (v.withTable i table1).tableAt t = some (i, table1) := tableAt_withTable htab
    rw [wp_bind]
    apply wp_allocFd
    · intro i' table' fd' table2 htab' hadd2
      obtain ⟨rfl, rfl⟩ : i' = i ∧ table' = table1 := by
        grind
      have hb2 : Books (fun o => 0 - (a.weight o : ℤ) - b.weight o)
          ((v.withTable i' table').withTable i' table2) :=
        hb1.add htab1 hadd2 hb' fun _ => rfl
      simp only [wp_bind, noteAdded, wp_write, wp_pure, true_and]
      have hb3 : Books (fun o => 0 - (b.weight o : ℤ)) _ := hb2.noteAdded (e := a) fun _ => by ring
      exact hb3.noteAdded fun _ => by simp
    · grind [hadd1.free]
    · intro hnone
      rw [htab1] at hnone
      cases hnone
  · exact fun _ _ _ _ _ => hb
  · exact fun _ _ => hb

theorem Books.newPipe :
    Books 0 { v.setPipe v.nextPipe PipeNode.new with nextPipe := v.nextPipe + 1 } := by
  refine ⟨fun o => ?_, fun o ho => hb.fresh o ?_, hb.dead, hb.valid, hb.short, hb.few⟩
  · have hc := hb.count o
    have hf := hb.fresh o
    change Vfs.Counted _ (v.entries o + 0) o
    cases o with
    | file | char => trivial
    | pipeRead p | pipeWrite p =>
      by_cases hp : p = v.nextPipe
      · have hzero := hf (by rw [hp]; exact le_rfl)
        rw [hzero]
        simp [Vfs.Counted, Vfs.setPipe, hp, PipeNode.new]
      · simpa [Vfs.Counted, Vfs.setPipe, update_of_ne hp] using hc
    | ptyMaster p | ptySlave p => exact hc
  · cases o with
    | file | char => exact ho
    | pipeRead p | pipeWrite p => exact Nat.le_of_succ_le ho
    | ptyMaster p | ptySlave p => exact ho

lemma Books.newPty : Books 0 { v.setPty v.nextPts new with nextPts := v.nextPts + 1 } := by
  refine ⟨fun o => ?_, fun o ho => hb.fresh o ?_, hb.dead, hb.valid, hb.short, hb.few⟩
  · have hc := hb.count o
    have hf := hb.fresh o
    change Vfs.Counted _ (v.entries o + 0) o
    cases o with
    | file | char => trivial
    | ptyMaster p | ptySlave p =>
      by_cases hp : p = v.nextPts
      · have hzero := hf (by rw [hp]; exact le_rfl)
        rw [hzero]
        simp [Vfs.Counted, Vfs.setPty, hp, new]
      · simpa [Vfs.Counted, Vfs.setPty, update_of_ne hp] using hc
    | pipeRead p | pipeWrite p => exact hc
  · cases o with
    | file | char => exact ho
    | ptyMaster p | ptySlave p => exact Nat.le_of_succ_le ho
    | pipeRead p | pipeWrite p => exact ho

/-- Exactly one more descriptor fits into the task's table. -/
def Vfs.OneFree (v : Vfs) (t : ℕ) : Prop := ((v.tableAt t).map fun r => r.2.free) = some 1

instance (v : Vfs) (t : ℕ) : Decidable (v.OneFree t) :=
  inferInstanceAs (Decidable (_ = some 1))

lemma keeps_pipe (hone : ¬v.OneFree t) : Keeps (pipe t) v := by
  unfold pipe Keeps
  rw [wp_bind, wp_gets, wp_bind, wp_write]
  refine ⟨trivial, ?_⟩
  refine keeps_mintPair hb.newPipe ?_ ?_ ?_
  · simp [Vfs.Unborn]
  · simp [Vfs.Unborn]
  · exact fun i table htab hfree => hone (map_eq_some_iff.2 ⟨_, htab, hfree⟩)

lemma keeps_openpty (hone : ¬v.OneFree t) : Keeps (openpty t) v := by
  unfold openpty Keeps
  rw [wp_bind, wp_gets, wp_bind, wp_write]
  refine ⟨trivial, ?_⟩
  refine keeps_bind frames_registerSlave hb.newPty fun _ v' hs hb' => ?_
  refine keeps_mintPair hb' ?_ ?_ ?_
  · rw [hs.toSamePool.unborn]
    simp [Vfs.Unborn]
  · rw [hs.toSamePool.unborn]
    simp [Vfs.Unborn]
  · intro i table htab hfree
    rw [hs.toSamePool.tableAt] at htab
    exact hone (map_eq_some_iff.2 ⟨_, htab, hfree⟩)

end

end AeroSLS.Posix
