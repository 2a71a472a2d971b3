import AeroSLS.Posix.Ends

namespace AeroSLS.Posix

open AeroSLS.Crash AeroSLS.Machine List

variable {v : Vfs} {o : FileObj} {t i : ℕ} {queue : List UInt8} {c : UInt32} {α : Type} {n : ℕ}
  {path : Path}

section

variable (hb : Books δ v) (htab : v.tables[i]? = some table)
include hb htab

lemma Books.born (he : table.entry fd = some e) : ¬v.Unborn e.node := by
  intro h
  have hzero := hb.fresh _ h
  have hle : table.count e.node ≤ v.entries e.node := count_le_entries htab
  have hone : e.weight e.node ≤ table.count e.node := weight_le_count he
  simp only [FdEntry.weight, if_true] at hone
  omega

lemma Books.length_le : table.length ≤ maxFds := hb.short table (mem_of_getElem? htab)

lemma Books.replace (hlive : v.Live i) (hlen : table'.length ≤ maxFds)
    (hcount : ∀ o, ¬v.Unborn o ∨ table'.count o ≤ table.count o)
    (hδ : ∀ o, δ' o + table'.count o = δ o + table.count o) : Books δ' (v.withTable i table') := by
  refine hb.withTable htab (.inl hlive) (fun o ho => ?_) hlen hδ
  have hzero := hb.fresh o ho
  have hle : table.count o ≤ v.entries o := count_le_entries htab
  obtain hborn | hcount := hcount o
  · exact absurd ho hborn
  · omega

end

lemma Books.drop (hb : Books 0 v) (htab : v.tables[i]? = some table) (hlive : v.Live i)
    (he : table.entry fd = some e) :
    Books 0 ((v.withTable i (table.set fd none)).noteRemoved e) := by
  have hcount := count_set_none he
  have hb1 : Books (fun o => (e.weight o : ℤ)) (v.withTable i (table.set fd none)) := by
    refine hb.replace htab hlive ?_ (fun o => .inr ?_) fun o => ?_
    · rw [length_set]
      exact hb.length_le htab
    · have := hcount o
      omega
    · have := hcount o
      simp only [Pi.zero_apply]
      omega
  exact hb1.noteRemoved fun _ => by simp

lemma keeps_close (hb : Books 0 v) : Keeps (close t fd) v := by
  unfold close Keeps
  rw [wp_bind]
  apply wp_tableOf
  · intro i table htab
    dsimp only
    split
    · exact wp_fail.2 hb
    rename_i e he
    obtain ⟨ht, hlive⟩ := tableAt_spec htab
    rw [wp_bind, setTable, wp_write, noteRemoved, wp_write]
    exact ⟨trivial, trivial, hb.drop ht hlive he⟩
  · exact fun _ _ => hb

lemma modify_eq_set {α : Type*} {l : List α} {a : α} {f : α → α} (h : l[i]? = some a) :
    l.modify i f = l.set i (f a) := by
  apply ext_getElem?
  intro j
  rw [getElem?_modify, getElem?_set]
  by_cases hij : i = j
  · grind
  · simp [hij]

section

variable (hb : Books 0 v)
include hb

lemma wp_closeMarked (hlive : v.Live i) :
    wp (fun _ => True) (closeMarked i fd) (fun _ v' => Books 0 v' ∧ v'.Live i)
      (fun _ v' => Books 0 v') v := by
  unfold closeMarked
  rw [wp_bind, wp_gets]
  split
  · exact wp_pure.2 ⟨hb, hlive⟩
  rename_i e he
  split_ifs
  · obtain ⟨table, ht, he⟩ := Option.bind_eq_some_iff.1 he
    rw [wp_bind, wp_write, noteRemoved, wp_write, modify_eq_set ht]
    refine ⟨trivial, trivial, hb.drop ht hlive he, ?_⟩
    exact (samePool_bump.live i).2 hlive
  · exact wp_pure.2 ⟨hb, hlive⟩

lemma keeps_closeCloexec : Keeps (closeCloexec t) v := by
  unfold closeCloexec Keeps
  rw [wp_bind, wp_gets]
  split
  · exact wp_pure.2 hb
  rename_i i hi
  have hlive : v.Live i := by
    obtain ⟨task, htask, hfds⟩ := Option.bind_eq_some_iff.1 hi
    exact mem_map.2 ⟨task, mem_of_getElem? htask, hfds⟩
  rw [wp_bind, wp_gets]
  -- the table stays in use while its slots are cleared
  have hloop : ∀ fds, wp (fun _ => True) (Prog.each (closeMarked i) fds)
      (fun _ v' => Books 0 v' ∧ v'.Live i) (fun _ v' => Books 0 v') v := fun _ =>
    wp_each (fun fd _ _ h => wp_closeMarked h.1 h.2)
      ⟨hb, hlive⟩
  exact wp_imp (hloop _) (fun _ _ h => h.1)

lemma keeps_setCloexec : Keeps (setCloexec t fd cloexec) v := by
  unfold setCloexec Keeps
  rw [wp_bind]
  apply wp_tableOf
  · intro i table htab
    dsimp only
    split
    · exact wp_fail.2 hb
    rename_i e he
    obtain ⟨ht, hlive⟩ := tableAt_spec htab
    rw [setTable, wp_write]
    have hcount : ∀ o, FdTable.count (table.set fd (some { e with cloexec })) o =
        table.count o := by
      intro o
      have := count_set_over (e := { e with cloexec }) he o
      simp only [FdEntry.weight] at this
      omega
    refine ⟨trivial, hb.replace ht hlive ?_ (fun o => .inr (hcount o).le) fun o => ?_⟩
    · rw [length_set]
      exact hb.length_le ht
    · rw [hcount]
  · exact fun _ _ => hb

lemma keeps_dup : Keeps (dup t fd) v := by
  unfold dup Keeps
  rw [wp_bind]
  apply wp_entryOf
  · intro i table e htab he
    have hborn := hb.born (tableAt_spec htab).1 he
    rw [wp_bind]
    apply wp_allocFd
    · intro i' table' nfd table1 htab' hadd
      have hb1 : Books (fun o => 0 - (e.weight o : ℤ)) (v.withTable i' table1) :=
        hb.add htab' hadd hborn fun _ => rfl
      rw [wp_bind, noteAdded, wp_write, wp_pure]
      exact ⟨trivial, hb1.noteAdded fun o => by simp [FdEntry.weight]⟩
    · exact fun _ _ _ _ _ => hb
    · exact fun _ _ => hb
  · exact fun _ => hb

lemma wp_replaceFd (ht : v.tables[i]? = some table) (hlive : v.Live i) (hfd : fd < maxFds)
    (hborn : ¬v.Unborn e.node) (hQ : ∀ v', Books (fun o => -(e.weight o : ℤ)) v' → Q () v') :
    wp (fun _ => True) (replaceFd i table fd e) Q E v := by
  have hlen := length_place (e := e) hfd (hb.length_le ht)
  unfold replaceFd
  split
  · rename_i hnone
    have hcount := count_place (e := e) hnone
    rw [setTable, wp_write]
    refine ⟨trivial, hQ _ (hb.replace ht hlive hlen (fun o => ?_) fun o => ?_)⟩
    · by_cases ho : e.node = o
      · exact .inl (ho ▸ hborn)
      · rw [hcount, weight_eq_zero ho]
        exact .inr le_rfl
    · rw [hcount]
      simp
  · rename_i prev hprev
    have hcount := count_place_over (e := e) hprev
    rw [wp_bind, noteRemoved, wp_write, setTable, wp_write]
    have hpool : SamePool v (v.noteRemoved prev) := samePool_bump
    have hb1 : Books (fun o => 0 - (prev.weight o : ℤ)) (v.noteRemoved prev) :=
      hb.noteRemoved fun _ => rfl
    refine ⟨trivial, trivial, hQ _ ?_⟩
    refine hb1.replace (hpool.tables ▸ ht) ((hpool.live i).2 hlive) hlen (fun o => ?_) fun o => ?_
    · by_cases ho : e.node = o
      · rw [hpool.unborn]
        exact .inl (ho ▸ hborn)
      · grind [weight_eq_zero]
    · have := hcount o
      omega

lemma keeps_dup2 : Keeps (dup2 t oldfd newfd) v := by
  unfold dup2 Keeps
  split_ifs with hsame hmax
  · exact wp_pure.2 hb
  · exact wp_fail.2 hb
  · rw [wp_bind]
    apply wp_entryOf
    · intro i table e htab he
      have hborn := hb.born (tableAt_spec htab).1 he
      rw [wp_bind]
      apply wp_tableOf
      · intro i' table' htab'
        obtain ⟨ht', hlive⟩ := tableAt_spec htab'
        rw [wp_bind]
        refine wp_replaceFd hb ht' hlive (by omega) hborn fun v1 hb1 => ?_
        rw [wp_bind, noteAdded, wp_write, wp_pure]
        exact ⟨trivial, hb1.noteAdded fun o => by simp [FdEntry.weight]⟩
      · exact fun _ _ => hb
    · exact fun _ => hb

end

lemma weights_cons : weights (e :: es) o = e.weight o + weights es o := by
  rw [weights, map_cons, sum_cons, weights]

lemma wp_each_note {k : ℤ} {note : FdEntry → Vfs → Vfs}
    (hnote : ∀ v e δ, Books δ v → SamePool v (note e v) ∧
      Books (fun o => δ o + k * e.weight o) (note e v)) (hb : Books δ v) :
    wp (fun _ => True) (Prog.each (fun e => .write (note e)) es)
      (fun _ v' => SamePool v v' ∧ Books (fun o => δ o + k * weights es o) v') E v := by
  induction es generalizing v δ with
  | nil => exact wp_pure.2 ⟨.refl v, hb.of_counts fun o _ => by simp [weights]⟩
  | cons e es ih =>
    obtain ⟨hpool, hb1⟩ := hnote v e δ hb
    refine wp_bind.2 (wp_write.2 ⟨trivial, wp_imp (ih hb1) fun _ v' h => ?_⟩)
    refine ⟨hpool.trans h.1, h.2.of_counts fun o _ => ?_⟩
    rw [weights_cons]
    push_cast
    ring

theorem Books.append (hb : Books δ v)
    (hk : k.fds = some v.tables.length) (hfew : v.tables.length + 1 < 2 ^ 24)
    (hlen : table.length ≤ maxFds) (hborn : ∀ o, v.Unborn o → table.count o = 0)
    (hδ : ∀ o, δ' o = δ o - table.count o) :
    Books δ' { v with tables := v.tables ++ [table], tasks := v.tasks ++ [k] } := by
  have hent : ∀ o, Vfs.entries { v with tables := v.tables ++ [table], tasks := v.tasks ++ [k] } o =
      v.entries o + table.count o := by
    simp [Vfs.entries]
  have hlive : ∀ j, Vfs.Live { v with tables := v.tables ++ [table], tasks := v.tasks ++ [k] } j ↔
      v.Live j ∨ j = v.tables.length := by
    simp [Vfs.Live, hk]
  constructor
  · intro o
    rw [hent, hδ]
    have h := hb.count o
    have heq : ((v.entries o + table.count o : ℕ) : ℤ) + (δ o - table.count o) =
        v.entries o + δ o := by
      push_cast
      ring
    rw [heq]
    cases o <;> exact h
  · intro o ho
    have ho' : v.Unborn o := by cases o <;> exact ho
    rw [hent, hb.fresh o ho', hborn o ho']
  · intro j tj htj hdead o
    rw [hlive, not_or] at hdead
    have htj' : (v.tables ++ [table])[j]? = some tj := htj
    obtain hlt | hge := Nat.lt_or_ge j v.tables.length
    · grind [hb.dead]
    · grind
  · intro j hj
    rw [length_append, length_singleton]
    obtain hj | rfl := (hlive j).1 hj
    · have := hb.valid j hj
      omega
    · omega
  · intro x hx
    obtain hx | hx := mem_append.1 hx
    · exact hb.short x hx
    · rwa [mem_singleton.1 hx]
  · grind

lemma Books.retask (hb : Books δ v) (hlive : ∀ j, Vfs.Live { v with tasks } j → v.Live j)
    (hdead : ∀ j tj, v.tables[j]? = some tj → v.Live j → ¬Vfs.Live { v with tasks } j →
      ∀ o, tj.count o = 0) : Books δ { v with tasks } := by
  constructor
  · intro o
    have h := hb.count o
    cases o <;> exact h
  · intro o ho
    have ho' : v.Unborn o := by cases o <;> exact ho
    exact hb.fresh o ho'
  · grind [hb.dead]
  · exact fun j hj => hb.valid j (hlive j hj)
  · exact hb.short
  · exact hb.few

lemma keeps_addTask (hb : Books 0 v) (hfew : v.tables.length + 1 < 2 ^ 24) : Keeps addTask v := by
  unfold addTask Keeps
  rw [wp_bind, wp_gets]
  split_ifs
  · exact wp_fail.2 hb
  · rw [wp_bind, wp_write, wp_pure]
    refine ⟨trivial, hb.append rfl hfew (Nat.zero_le _) (fun _ _ => rfl) fun o => ?_⟩
    simp

lemma wp_forkTable (hb : Books 0 v) (hfew : v.tables.length + 1 < 2 ^ 24) :
    wp (fun _ => True) (forkTable t p) (fun _ v' => Books 0 v') (fun _ v' => Books 0 v') v := by
  unfold forkTable
  rw [wp_bind]
  apply wp_tableOf
  · intro i table htab
    obtain ⟨ht, hlive⟩ := tableAt_spec htab
    apply wp_seq (wp_each_note (k := 1) (fun _ _ _ hb =>
      ⟨samePool_bump, hb.noteAdded fun _ => by ring⟩) hb) _
    intro _ v1 ⟨hpool, hb1⟩
    rw [wp_write]
    refine ⟨trivial, hb1.append rfl ?_ (hb.length_le ht) (fun o ho => ?_) fun o => ?_⟩
    · rw [hpool.tables]
      exact hfew
    · have hzero := hb.fresh o ((hpool.unborn o).1 ho)
      have hle : table.count o ≤ v.entries o := count_le_entries ht
      omega
    · rw [count_eq_weights]
      simp
  · exact fun _ _ => hb

lemma task_ok (h : v.task t = .ok task) : v.tasks[t]? = some task := by
  unfold Vfs.task at h
  split at h
  · cases h
  · rename_i k hk
    rw [hk, Except.ok.inj h]

lemma keeps_cloneTask (hb : Books 0 v)
    (hfew : share = false → v.tables.length + 1 < 2 ^ 24) : Keeps (cloneTask t share) v := by
  unfold cloneTask Keeps
  rw [wp_bind, lift, wp_attempt]
  rcases htask : v.task t with e | p
  · exact hb
  dsimp only
  rw [wp_bind, wp_gets, wp_bind, wp_when]
  cases share with
  | true =>
    refine ⟨fun _ => ?_, absurd rfl⟩
    rw [wp_write, wp_bind, wp_when]
    refine ⟨trivial, fun h => absurd h (by decide), fun _ => wp_pure.2 ?_⟩
    -- the child names the table that its parent names
    have hmem : p ∈ v.tasks := mem_of_getElem? (task_ok htask)
    have hlive : ∀ j, Vfs.Live { v with tasks := v.tasks ++ [p] } j → v.Live j := by
      intro j hj
      obtain ⟨k, hk, hfds⟩ := mem_map.1 hj
      obtain hk | hk := mem_append.1 hk
      · exact mem_map.2 ⟨k, hk, hfds⟩
      · rw [mem_singleton.1 hk] at hfds
        exact mem_map.2 ⟨p, hmem, hfds⟩
    refine hb.retask hlive fun j tj _ hl hnl => absurd ?_ hnl
    obtain ⟨k, hk, hfds⟩ := mem_map.1 hl
    exact mem_map.2 ⟨k, mem_append_left _ hk, hfds⟩
  | false =>
    refine ⟨fun h => absurd h (by decide), fun _ => ?_⟩
    rw [wp_bind, wp_when]
    refine ⟨fun _ => ?_, absurd rfl⟩
    exact wp_imp (wp_forkTable hb (hfew rfl)) (fun _ _ h => wp_pure.2 h)

lemma wp_dropTable (hb : Books 0 v) (hlive : v.Live i) : wp (fun _ => True) (dropTable i)
      (fun _ v' => Books 0 v' ∧ v'.tasks.map (·.fds) = v.tasks.map (·.fds) ∧
        ∀ tj, v'.tables[i]? = some tj → ∀ o, tj.count o = 0) E v := by
  have hlt := hb.valid i hlive
  have ht := getElem?_eq_getElem hlt
  unfold dropTable
  rw [wp_bind, wp_gets, ht]
  apply wp_seq (wp_each_note (k := -1) (fun _ _ _ hb =>
    ⟨samePool_bump, hb.noteRemoved fun _ => by ring⟩) hb) _
  intro _ v1 ⟨hpool, hb1⟩
  have ht1 : v1.tables[i]? = some v.tables[i] := by rw [hpool.tables, ht]
  rw [setTable, wp_write]
  refine ⟨trivial, ?_, hpool.fds, ?_⟩
  · refine hb1.replace ht1 ((hpool.live i).2 hlive) ?_ (fun o => .inr ?_) fun o => ?_
    · rw [length_replicate]
      exact hb.length_le ht
    · simp
    · rw [count_replicate_none, count_eq_weights]
      simp
  · grind [count_replicate_none]

/-- The table that the task uses. -/
def Vfs.fdsOf (v : Vfs) (s : ℕ) : Option ℕ := v.tasks[s]?.bind fun k => k.fds

lemma fdsOf_eq : v.fdsOf s = (v.tasks.map (·.fds))[s]?.join := by
  rw [Vfs.fdsOf, getElem?_map]
  cases v.tasks[s]? <;> rfl

lemma live_iff : v.Live j ↔ ∃ s, v.fdsOf s = some j := by
  unfold Vfs.Live
  rw [mem_iff_getElem?]
  constructor
  · rintro ⟨s, hs⟩
    exact ⟨s, by rw [fdsOf_eq, hs]; rfl⟩
  · simp [fdsOf_eq, Option.join_eq_some_iff]

lemma shared_iff : v.shared t i ↔ ∃ s, s ≠ t ∧ v.fdsOf s = some i := by
  unfold Vfs.shared
  rw [any_eq_true]
  constructor
  · rintro ⟨s, -, hs⟩
    rw [Bool.and_eq_true, decide_eq_true_eq, decide_eq_true_eq] at hs
    exact ⟨s, hs⟩
  rintro ⟨s, hne, hs⟩
  obtain ⟨k, hk, -⟩ := Option.bind_eq_some_iff.1 hs
  refine ⟨s, mem_range.2 (List.getElem?_eq_some_iff.1 hk).1, ?_⟩
  rw [Bool.and_eq_true, decide_eq_true_eq, decide_eq_true_eq]
  exact ⟨hne, hs⟩

/-- The state when a task has let go of its table. -/
def Vfs.leave (v : Vfs) (t : ℕ) : Vfs :=
  { v with tasks := v.tasks.modify t fun k => { k with fds := none } }

lemma fdsOf_leave : (v.leave t).fdsOf s = if s = t then none else v.fdsOf s := by
  unfold Vfs.leave Vfs.fdsOf
  rw [getElem?_modify]
  by_cases hst : s = t
  · subst hst
    cases v.tasks[s]? <;> simp
  · grind

lemma Books.leave (hb : Books δ v) (hfds : v.fdsOf t = some i)
    (h : (∃ s, s ≠ t ∧ v.fdsOf s = some i) ∨
      ∀ tj, v.tables[i]? = some tj → ∀ o, tj.count o = 0) : Books δ (v.leave t) := by
  apply hb.retask
  · intro j hj
    obtain ⟨s, hs⟩ := live_iff.1 hj
    change (v.leave t).fdsOf s = some j at hs
    rw [fdsOf_leave] at hs
    split_ifs at hs
    exact live_iff.2 ⟨s, hs⟩
  · intro j tj htj hl hnl
    have hstill : ∀ s, s ≠ t → v.fdsOf s ≠ some j := by
      intro s hne hs
      apply hnl
      apply live_iff.2
      exact ⟨s, fdsOf_leave.trans ((if_neg hne).trans hs)⟩
    obtain ⟨s, hs⟩ := live_iff.1 hl
    have hst : s = t := by
      by_contra hne
      exact hstill s hne hs
    obtain rfl : i = j := by
      grind
    obtain ⟨s', hne, hs'⟩ | hzero := h
    · exact absurd hs' (hstill s' hne)
    · exact hzero tj htj

lemma keeps_exitTask (hb : Books 0 v) : Keeps (exitTask t) v := by
  unfold exitTask Keeps
  rw [wp_bind, lift, wp_attempt]
  rcases htask : v.task t with e | task
  · exact hb
  dsimp only
  rcases hfds : task.fds with _ | i
  · exact wp_pure.2 hb
  have hof : v.fdsOf t = some i := by rw [Vfs.fdsOf, task_ok htask, Option.bind_some, hfds]
  have hlive : v.Live i := live_iff.2 ⟨t, hof⟩
  rw [wp_bind, wp_gets, wp_bind, wp_when]
  constructor
  · intro _
    apply wp_imp (wp_dropTable hb hlive) _
    rintro _ v1 ⟨hb1, hfds1, hzero⟩
    rw [wp_write]
    refine ⟨trivial, hb1.leave ?_ (.inr hzero)⟩
    rw [fdsOf_eq, hfds1, ← fdsOf_eq, hof]
  · intro hshared
    rw [wp_write]
    refine ⟨trivial, hb.leave hof (.inl (shared_iff.1 ?_))⟩
    simpa using hshared

lemma keeps_lift {β : Type} {r : Vfs → Except Errno α} {f : α → Call β} (hb : Books 0 v)
    (h : ∀ a, r v = .ok a → Keeps (f a) v) : Keeps (lift r >>= f) v := by
  unfold Keeps
  rw [wp_bind, lift, wp_attempt]
  cases hr : r v with
  | error => exact hb
  | ok a => exact h a hr

/-- The terminal whose slave side the path names. -/
def Vfs.slaveAt (v : Vfs) (fs : ℕ) (rel : List Name) : Option ℕ :=
  match v.fss[fs]?, rel.getLast? with
  | some (.dev f), some name => f.ptySlaves.lookup name
  | _, _ => none

/-- An open of `ptmx` mints a pair; an open of a slave by its name is not counted. -/
def Vfs.SafeDevice (v : Vfs) (t fs : ℕ) (rel : List Name) : Prop :=
  if rel.getLast? = some ptmxName then ¬v.OneFree t else v.slaveAt fs rel = none

lemma keeps_openChar (hb : Books 0 v)
    (h : v.SafeDevice t fs rel) : Keeps (openChar t fs rel ino flags) v := by
  refine keeps_lift hb fun st _ => keeps_lift hb fun _ _ => ?_
  unfold Vfs.SafeDevice at h
  split_ifs at h ⊢
  · unfold Keeps
    exact wp_seq (keeps_openpty hb h) (fun _ _ h => wp_pure.2 h)
  unfold Keeps
  rw [wp_bind, wp_gets]
  split
  · rename_i p heq
    cases h.symm.trans heq
  · exact keeps_lift hb fun c _ => keeps_allocFd hb id

lemma keeps_openCall (hb : Books 0 v) (h : ∀ fs rel ino, v.resolvePath t path = .ok (fs, rel) →
      ((v.fs fs).bind fun f => f.lookup rel) = .ok (ino, .char) → v.SafeDevice t fs rel) :
    Keeps (openCall t path flags mode) v := by
  refine keeps_lift hb fun r hr => ?_
  apply wp_seqE wp_openInode _ fun _ _ hs => hb.same hs
  intro ⟨ino, ty⟩ v1 ⟨hsame, hfound⟩
  have hb1 := hb.same hsame
  dsimp only
  split
  · exact wp_fail.2 hb1
  · obtain ⟨rfl, hlook⟩ := hfound fun h => by cases h
    exact keeps_openChar hb (h _ _ ino hr hlook)
  · exact wp_fail.2 hb1
  · split_ifs
    · exact wp_fail.2 hb1
    · refine keeps_lift hb1 fun st _ => keeps_lift hb1 fun _ _ => ?_
      exact keeps_bind (within_when frames_onFs) hb1 fun _ _ _ hb2 => keeps_mintFile hb2

lemma keeps_openDir (hb : Books 0 v) : Keeps (openDir t path) v := by
  refine keeps_lift hb fun r _ => keeps_lift hb fun r' _ => ?_
  dsimp only
  split_ifs
  · exact wp_fail.2 hb
  · exact keeps_lift hb fun st _ => keeps_lift hb fun _ _ => keeps_mintFile hb

/-- No pair is minted into a table with one slot left, no slave is opened by name, and tables
stay below 2^24. -/
def Op.EndsSafe (v : Vfs) : Op → Prop
  | .pipe t | .openpty t => ¬v.OneFree t
  | .openFile t path _ _ => ∀ fs rel ino, v.resolvePath t path = .ok (fs, rel) →
      ((v.fs fs).bind fun f => f.lookup rel) = .ok (ino, .char) → v.SafeDevice t fs rel
  | .addTask | .cloneTask _ false => v.tables.length + 1 < 2 ^ 24
  | _ => True

lemma Keeps.last (h : Keeps m v) : Books 0 (m v).last := by
  have h2 := h.2
  split at h2 <;> exact h2

variable (discipline : Queues → List UInt8 → Queues)

lemma books_step (hb : Books 0 v) (hop : op.EndsSafe v) : Books 0 (step discipline v op) := by
  cases op with
  | openFile => exact (keeps_openCall hb hop).last
  | openDir => exact (keeps_openDir hb).last
  | pipe => exact (keeps_pipe hb hop).last
  | openpty => exact (keeps_openpty hb hop).last
  | close => exact (keeps_close hb).last
  | closeCloexec => exact (keeps_closeCloexec hb).last
  | setCloexec => exact (keeps_setCloexec hb).last
  | dup => exact (keeps_dup hb).last
  | dup2 => exact (keeps_dup2 hb).last
  | read => exact (keeps_of_within frames_read hb).last
  | write => exact (keeps_of_within frames_writeFd hb).last
  | lseek t fd => exact (keeps_of_within (within_lseek t fd frames_setOffset) hb).last
  | readDirAt t fd => exact (keeps_of_within (within_readDirAt t fd) hb).last
  | truncateAt => exact (keeps_of_within frames_truncateAt hb).last
  | fsync t fd => exact (keeps_of_within (within_fsync t fd) hb).last
  | mkdir t path => exact (keeps_of_within (frames_mkdir t path) hb).last
  | unlink t path => exact (keeps_of_within (frames_unlinkPath t path) hb).last
  | rmdir t path => exact (keeps_of_within (frames_rmdirPath t path) hb).last
  | rename t old new => exact (keeps_of_within (frames_renamePath old new) hb).last
  | addTask => exact (keeps_addTask hb hop).last
  | cloneTask =>
    refine (keeps_cloneTask hb fun hshare => ?_).last
    subst hshare
    exact hop
  | exitTask => exact (keeps_exitTask hb).last
  | setCred => exact (keeps_of_within frames_setCred hb).last
  | setCwd => exact (keeps_of_within frames_setCwd hb).last
  | addDevNode => exact (keeps_of_within frames_addDevNode hb).last

lemma books_boot : Books 0 (Vfs.boot fss mounts) := by
  constructor
  · intro o
    cases o <;> simp [Vfs.Counted, Vfs.boot, Vfs.entries, PipeNode.new, PtyState.new]
  · intro o _
    rfl
  · grind [Vfs.boot, count_nil]
  · simp [Vfs.Live, Vfs.boot]
  · simp [Vfs.boot]
  · change 1 < 2 ^ 24
    norm_num

/-- The entries that name the object, over the tables that some task uses. -/
def Vfs.liveEntries (v : Vfs) (o : FileObj) : ℕ :=
  (((range v.tables.length).filter fun i => (v.tasks.map (·.fds)).contains (some i)).map
    fun i => FdTable.count ((v.tables[i]?).getD []) o).sum

lemma sum_filter {l : List ℕ} {p : ℕ → Bool} {f : ℕ → ℕ} (h : ∀ x ∈ l, p x = false → f x = 0) :
    ((l.filter p).map f).sum = (l.map f).sum := by
  induction l with
  | nil => rfl
  | cons x l ih => grind

lemma Books.liveEntries (hb : Books δ v) (o : FileObj) : v.liveEntries o = v.entries o := by
  have hall : v.tables.map (fun t => t.count o) =
      (range v.tables.length).map fun i => FdTable.count ((v.tables[i]?).getD []) o := by
    apply ext_getElem
    · simp
    · grind
  rw [Vfs.entries, hall]
  apply sum_filter
  intro i hi hdead
  have hlt := mem_range.1 hi
  rw [getElem?_eq_getElem hlt]
  apply hb.dead i _ (getElem?_eq_getElem hlt)
  intro hlive
  rw [Vfs.Live, ← contains_iff_mem] at hlive
  rw [hlive] at hdead
  cases hdead

lemma Books.exact (hb : Books 0 v) (h : (c.toNat : ℤ) = (v.entries o + 0) % 2 ^ 32) :
    c.toNat = v.liveEntries o := by
  have hlt := hb.entries_lt o
  rw [hb.liveEntries]
  omega

lemma takeFront_ne_nil (h : ¬min n queue.length = 0) : (takeFront queue n).1 ≠ [] := by
  intro hnil
  have hlen := congrArg length hnil
  rw [takeFront, length_take] at hlen
  exact h hlen

lemma eof_iff : (if c = 0 ∧ queue = [] then ((.ok [], q) : Except Errno (List UInt8) × α)
      else if min n queue.length = 0 then (.error .again, q)
      else (.ok (takeFront queue n).1, rest)).1 = .ok [] ↔ queue = [] ∧ c.toNat = 0 := by
  have hc : c.toNat = 0 ↔ c = 0 := ⟨fun h => UInt32.toNat_inj.1 h, fun h => h ▸ rfl⟩
  rw [hc]
  split_ifs with heof hempty
  · exact ⟨fun _ => ⟨heof.2, heof.1⟩, fun _ => rfl⟩
  · exact ⟨fun h => (by cases h), fun h => absurd ⟨h.2, h.1⟩ heof⟩
  · exact ⟨fun h => absurd (Except.ok.inj h) (takeFront_ne_nil hempty), fun h =>
      absurd ⟨h.2, h.1⟩ heof⟩

/-- Every end is counted as often as it is named, so what a peer is told is true. -/
structure EndsExact (v : Vfs) : Prop where
  readers : ∀ p, (v.pipes p).readers.toNat = v.liveEntries (.pipeRead p)
  writers : ∀ p, (v.pipes p).writers.toNat = v.liveEntries (.pipeWrite p)
  master : ∀ p, (v.ptys p).masterReaders.toNat = v.liveEntries (.ptyMaster p) ∧
    (v.ptys p).masterWriters.toNat = v.liveEntries (.ptyMaster p)
  slave : ∀ p, (v.ptys p).slaveReaders.toNat = v.liveEntries (.ptySlave p) ∧
    (v.ptys p).slaveWriters.toNat = v.liveEntries (.ptySlave p)
  pipeEof : ∀ p n, ((v.pipes p).read n).1 = .ok [] ↔
    (v.pipes p).buf = [] ∧ v.liveEntries (.pipeWrite p) = 0
  pipeEpipe : ∀ p buf, ((v.pipes p).write buf).1 = .error .pipe ↔
    v.liveEntries (.pipeRead p) = 0
  masterEof : ∀ p n, ((v.ptys p).masterRead n).1 = .ok [] ↔
    (v.ptys p).masterBuf = [] ∧ v.liveEntries (.ptySlave p) = 0
  masterEpipe : ∀ discipline p buf, ((v.ptys p).masterInput discipline buf).1 = .error .pipe ↔
    v.liveEntries (.ptySlave p) = 0
  slaveEof : ∀ p n, ((v.ptys p).slaveRead n).1 = .ok [] ↔
    (v.ptys p).slaveBuf = [] ∧ v.liveEntries (.ptyMaster p) = 0
  slaveEpipe : ∀ p buf, ((v.ptys p).slaveWrite buf).1 = .error .pipe ↔
    v.liveEntries (.ptyMaster p) = 0

lemma toNat_eq_zero (h : c.toNat = n) : c = 0 ↔ n = 0 := by
  rw [← h]
  exact ⟨fun h => h ▸ rfl, fun h => UInt32.toNat_inj.1 h⟩

lemma Books.endsExact (hb : Books 0 v) : EndsExact v := by
  have hr : ∀ p, (v.pipes p).readers.toNat = v.liveEntries (.pipeRead p) :=
    fun p => hb.exact (hb.count (.pipeRead p))
  have hw : ∀ p, (v.pipes p).writers.toNat = v.liveEntries (.pipeWrite p) :=
    fun p => hb.exact (hb.count (.pipeWrite p))
  have hm : ∀ p, (v.ptys p).masterReaders.toNat = v.liveEntries (.ptyMaster p) ∧
      (v.ptys p).masterWriters.toNat = v.liveEntries (.ptyMaster p) := fun p =>
    ⟨hb.exact (hb.count (.ptyMaster p)).1, hb.exact (hb.count (.ptyMaster p)).2⟩
  have hs : ∀ p, (v.ptys p).slaveReaders.toNat = v.liveEntries (.ptySlave p) ∧
      (v.ptys p).slaveWriters.toNat = v.liveEntries (.ptySlave p) := fun p =>
    ⟨hb.exact (hb.count (.ptySlave p)).1, hb.exact (hb.count (.ptySlave p)).2⟩
  refine ⟨hr, hw, hm, hs, fun p n => ?_, fun p buf => ?_, fun p n => ?_, fun d p buf => ?_,
    fun p n => ?_, fun p buf => ?_⟩
  · rw [← hw]
    exact eof_iff
  · rw [← toNat_eq_zero (hr p)]
    unfold PipeNode.write
    dsimp only
    split_ifs <;> simp_all
  · rw [← (hs p).2]
    exact eof_iff
  · rw [← toNat_eq_zero (hs p).1]
    unfold PtyState.masterInput
    dsimp only
    split_ifs <;> simp_all
  · rw [← (hm p).2]
    exact eof_iff
  · rw [← toNat_eq_zero (hm p).1]
    unfold PtyState.slaveWrite
    dsimp only
    split_ifs <;> simp_all

/-- Over every run whose steps are safe in this sense, the counts of pipes and terminals
are exact. -/
theorem run_endsExact (fss : List Mounted) (mounts : List Mount) (ops : List Op)
    (h : Always (step discipline) (fun v op => op.EndsSafe v) (Vfs.boot fss mounts) ops) :
    EndsExact (run (step discipline) (Vfs.boot fss mounts) ops) :=
  (run_induction (I := Books 0) books_boot
    (fun _ _ hb hop => books_step discipline hb hop) h).endsExact

/-- A child that inherits a pipe, moves its write end and exits, while the parent keeps
only the read end. -/
def pipeline : List Op :=
  [.pipe 0, .cloneTask 0 false, .close 1 0, .dup2 1 1 5, .close 0 1, .exitTask 1]

theorem endsExact_pipeline : EndsExact (run (step fun q _ => q) (Vfs.boot [] []) pipeline) ∧
    Vfs.liveEntries (run (step fun q _ => q) (Vfs.boot [] []) pipeline) (.pipeRead 0) = 1 ∧
    Vfs.liveEntries (run (step fun q _ => q) (Vfs.boot [] []) pipeline) (.pipeWrite 0) = 0 := by
  refine ⟨run_endsExact _ _ _ _ ?_, by decide +kernel, by decide +kernel⟩
  refine ⟨?_, ?_, trivial, trivial, trivial, trivial, trivial⟩
  · change ¬Vfs.OneFree _ 0
    decide +kernel
  · change _ < _
    decide +kernel

/-- A pipe is asked for with one slot left: the call fails, and its read end stays in the table
uncounted. -/
def crowded : List Op := .pipe 0 :: (replicate 253 (.dup 0 0) ++ [.pipe 0])

set_option maxRecDepth 100000 in
theorem not_endsExact_crowded : ¬EndsExact (run (step fun q _ => q) (Vfs.boot [] []) crowded) := by
  intro h
  have hread := h.readers 1
  revert hread
  decide +kernel

end AeroSLS.Posix
