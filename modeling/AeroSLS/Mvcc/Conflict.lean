import AeroSLS.Mvcc.Isolation

namespace AeroSLS.Mvcc

open Rowstore Version Machine List Db

variable {u m j : ℕ} {st : Stamp} {a : Act} {P : Pool ℕ Row}

/-- The row an update or a delete is about. -/
def Call.target : Call → Option ℕ
  | .update _ _ _ id _ => some id
  | .delete _ _ _ id => some id
  | _ => none

section Positions

variable (db : Db) (acts : List Act) (n t : ℕ)

def BeginsAt : Prop := ∃ a, acts[n]? = some a ∧ (db.after acts n).Emits a (.begin t)

def CommitsAt : Prop := ∃ a, acts[n]? = some a ∧ (db.after acts n).Emits a (.commit t)

def RollsBackAt : Prop := ∃ a, acts[n]? = some a ∧ (db.after acts n).Emits a (.rollback t)

/-- Call `n` is a successful update or delete of row `k` for `t`, or changed the row in a
cascade. -/
def WritesAt (k : ℕ) : Prop := ∃ a, acts[n]? = some a ∧ a.2.writer = some t ∧
  ((a.2.target = some k ∧ ((db.after acts n).call a).2.1 = .ok) ∨
    (db.after acts (n + 1)).history k ≠ (db.after acts n).history k)

end Positions

section Check

variable {env : Env} {db : Db} {used : ℕ → List RowId} {t : MvccTxn} {uid k n : ℕ} {name : String}
  {v : MvccVersion} {values : RowValues}

/-- A transaction that may write a row sees everything that happened to it. -/
theorem Found.all_seen (hf : Found db t k n v) (h : db.Inv used) (ht : t ∈ db.txns)
    (hstop : v.stop = none) (hdone : v.xmaxCommitted = false)
    (hst : st ∈ stamps (db.history k)) : st.seen ⟨t.txnId, db.snap t.txnId⟩ = true := by
  have hpos := (h.txn_range t ht).1
  have hrows : ∀ w ∈ db.versions, w.active → w.row db.store = w.row db.store := fun _ _ _ => rfl
  obtain ⟨A, hA, -, -⟩ := hf.history h hstop hdone (Nat.ne_of_gt hpos) hrows
  have hsound : Sound db.snap (db.history k) := h.pool.sound k
  rw [hA] at hsound hst
  -- the write it could make now would be the last of the history
  have hnext := hsound.supersede (hf.start_seen h ht)
  refine hnext.seen_of_pending ?_ ?_
  · simp [stamps, Cell.supersede]
  rw [stamps_append] at hst ⊢
  rcases mem_append.mp hst with hold | hlast
  · exact mem_append_left _ hold
  have hcell : (v.cell db.store).stop = none := hstop
  simp only [stamps, flatMap_cons, flatMap_nil, append_nil, hcell,
    Option.toList_none, mem_singleton] at hlast
  rw [hlast]
  simp [stamps, Cell.supersede]

lemma Found.conflict_of_unseen (hf : Found db t k n v) (h : db.Inv used) (ht : t ∈ db.txns)
    (hst : st ∈ stamps (db.history k))
    (hunseen : st.seen ⟨t.txnId, db.snap t.txnId⟩ = false) :
    v.xmaxTxn ≠ 0 ∧ v.xmaxTxn ≠ t.txnId := by
  by_contra hconf
  obtain ⟨hstop, hdone⟩ := hf.stop_none h hconf
  rw [hf.all_seen h ht hstop hdone hst] at hunseen
  cases hunseen

section

variable (h : db.Inv used) (ht : t ∈ db.txns) (hst : st ∈ stamps (db.history k))
  (hunseen : st.seen ⟨t.txnId, db.snap t.txnId⟩ = false)
include h ht hst hunseen

lemma mvccRowUpdate_of_unseen : mvccRowUpdate env db t.txnId uid name k values =
      (db, if (mvFindVisibleVersion db k t).isSome then .writeConflict else .rowNotVisible) := by
  rw [mvccRowUpdate, h.find_txn ht]
  rcases hfind : mvFindVisibleVersion db k t with _ | n
  · simp [hfind]
  obtain ⟨v, hf⟩ := found_of_find hfind
  have hconf := hf.conflict_of_unseen h ht hst hunseen
  simp [hfind, hf.at_slot, hconf]

lemma mvccRowDelete_of_unseen : mvccRowDelete env db t.txnId uid name k =
      (db, if !env.access uid name .write then .permissionDenied
        else if (mvFindVisibleVersion db k t).isSome then .writeConflict else .rowNotVisible) := by
  rw [mvccRowDelete, rowCascadeMaxDepth, deleteWithin, deleteWith, h.find_txn ht]
  rcases hacc : env.access uid name .write with _ | _
  · simp
  rcases hfind : mvFindVisibleVersion db k t with _ | n
  · simp [hfind]
  obtain ⟨v, hf⟩ := found_of_find hfind
  have hconf := hf.conflict_of_unseen h ht hst hunseen
  simp [hfind, hf.at_slot, hconf]

end

/-- The version the transaction sees has been superseded by `u`, which is still
open. -/
def Db.BlockedBy (db : Db) (t : MvccTxn) (k u : ℕ) : Prop :=
  ∃ v ∈ db.versions, v.active = true ∧ v.logicalId = k ∧ mvVisible v t = true ∧
    v.xmaxTxn = u ∧ v.xmaxCommitted = false ∧ u ≠ 0 ∧ u ≠ t.txnId

lemma find_isSome_iff (h : db.Inv used) (ht : t ∈ db.txns) :
    (mvFindVisibleVersion db k t).isSome = (db.sees t.txnId k).isSome := by
  rw [Bool.eq_iff_iff, mvFindVisibleVersion, findIdx?_isSome, any_eq_true]
  constructor
  · rintro ⟨v, hv, hp⟩
    simp only [Bool.and_eq_true, decide_eq_true_eq] at hp
    rw [Option.isSome_iff_exists]
    exact ⟨_, (h.sees_eq_some ht).mpr ⟨v, hv, hp.1.1, hp.1.2, hp.2, rfl⟩⟩
  · grind [Option.isSome_iff_exists, h.sees_eq_some]

lemma blockedBy_iff (h : db.Inv used) (ht : t ∈ db.txns) :
    db.BlockedBy t k u ↔ db.pool.Blocked t.txnId k u := by
  have hsnap := h.snap_eq ht
  constructor
  · rintro ⟨v, hv, hact, hlog, hvis, hxmax, hdone, hu0, -⟩
    refine ⟨v.cell db.store, mem_history.mpr ⟨v, hv, hact, hlog, rfl⟩, ?_, ?_⟩
    · rw [h.visible_eq ht hv hact, ← hsnap] at hvis
      exact hvis
    · simp [MvccVersion.cell, MvccVersion.stop, hdone, hxmax, hu0]
  rintro ⟨c, hc, hvis, hstop⟩
  obtain ⟨v, hv, hact, hlog, rfl⟩ := mem_history.mp hc
  have hut : u ≠ t.txnId := by
    rintro rfl
    simp [Cell.visible, Cell.stopped, hstop, Stamp.seen] at hvis
  have hvis' : mvVisible v t := by rwa [h.visible_eq ht hv hact, ← hsnap]
  have hstop' : v.stop = some (.pending u) := hstop
  unfold MvccVersion.stop at hstop'
  split_ifs at hstop' with hdone hzero
  · cases hstop'
  · obtain rfl : v.xmaxTxn = u := by simpa using hstop'
    exact ⟨v, hv, hact, hlog, hvis', rfl, by simpa using hdone, hzero, hut⟩

lemma Db.BlockedBy.unseen (hb : db.BlockedBy t k u) (h : db.Inv used) (ht : t ∈ db.txns) :
    ∃ st ∈ stamps (db.history k), st.seen ⟨t.txnId, db.snap t.txnId⟩ = false := by
  have hut : u ≠ t.txnId := by
    obtain ⟨v, -, -, -, -, -, -, -, hut⟩ := hb
    exact hut
  obtain ⟨c, hc, -, hstop⟩ := (blockedBy_iff h ht).mp hb
  exact ⟨_, stop_mem_stamps hc hstop, by simpa [Stamp.seen] using hut⟩

lemma Db.BlockedBy.visible (hb : db.BlockedBy t k u) : (mvFindVisibleVersion db k t).isSome := by
  obtain ⟨v, hv, hact, hlog, hvis, -⟩ := hb
  rw [mvFindVisibleVersion, findIdx?_isSome, any_eq_true]
  exact ⟨v, hv, by simp [hact, hlog, hvis]⟩

/-- The transaction sees the row, and nobody has superseded what it sees. -/
def Db.Free (db : Db) (t : MvccTxn) (k : ℕ) : Prop :=
  ∃ n v, Found db t k n v ∧ mvFindVisibleVersion db k t = some n ∧ v.xmaxTxn = 0

/-- The rollback of the other writer makes the row free again. -/
theorem Db.BlockedBy.free_of_rollback (hb : db.BlockedBy t k u) (h : db.Inv used)
    (ht : t ∈ db.txns) (hu : mvFindTxn db u = some w) :
    t ∈ (mvccRollback env db u uid).1.txns ∧ (mvccRollback env db u uid).1.Free t k := by
  obtain ⟨v, hv, hact, hlog, hvis, hxmax, hdone, hu0, hut⟩ := hb
  obtain ⟨-, hinv, -⟩ := mvccRollback_spec env uid h hu
  have hversions : (mvccRollback env db u uid).1.versions =
      db.versions.map fun v => if v.active then v.rollback u else v := by
    rw [mvccRollback, hu]
    exact (rollbackVersions_spec env u uid h.heap h.distinct fun v hv hact => by
      obtain ⟨i, hi, hid, -⟩ := h.placed v hv hact
      exact ⟨i, hi, hid⟩).2
  have ht' : t ∈ (mvccRollback env db u uid).1.txns := by grind [mvccRollback]
  refine ⟨ht', ?_⟩
  -- `u` superseded the version, so `u` did not create what `t` sees
  have hown : v.ownedBy u = false := by
    by_contra hown
    rw [Bool.not_eq_false, MvccVersion.ownedBy, Bool.and_eq_true] at hown
    simp only [decide_eq_true_eq, Bool.not_eq_true'] at hown
    simp [mvVisible, hown.1, hown.2, hut] at hvis
  have hroll : v.rollback u = { v with xmaxTxn := 0 } := by
    simp [MvccVersion.rollback, hown, hxmax, hdone]
  have hmem : v.rollback u ∈ (mvccRollback env db u uid).1.versions := by grind
  have hvis' : mvVisible (v.rollback u) t := by grind [mvVisible]
  obtain ⟨n, hn⟩ : ∃ n, mvFindVisibleVersion (mvccRollback env db u uid).1 k t = some n := by
    rw [← Option.isSome_iff_exists, mvFindVisibleVersion, findIdx?_isSome, any_eq_true]
    exact ⟨_, hmem, by rw [hvis', hroll]; simp [hact, hlog]⟩
  obtain ⟨x, hf⟩ := found_of_find hn
  refine ⟨n, x, hf, hn, ?_⟩
  -- a transaction sees one version of a row, so this is the one found
  obtain ⟨m, hm⟩ := mem_iff_getElem?.mp hmem
  have hmn : m = n :=
    hinv.visible_slot_unique ht' hm hf.at_slot (by rw [hroll]; exact hact) hf.active
    hvis' hf.visible (by rw [hroll, hf.logical]; exact hlog)
  subst hmn
  have hxv : v.rollback u = x := Option.some.inj (hm.symm.trans hf.at_slot)
  rw [← hxv, hroll]

lemma mapConstraintViolation_ne_conflict : mapConstraintViolation r ≠ .writeConflict := by
  cases r <;> simp [mapConstraintViolation]

lemma addVersion_ne_conflict (env : Env) (db : Db) (txn uid : ℕ) (name : String)
    (values : RowValues)
    (k tableObjectId : ℕ) :
    (addVersion env db txn uid name values k tableObjectId).2 ≠ .writeConflict := by
  unfold addVersion
  split
  · simp only [mapRowstoreErr]
    split <;> simp
  · split_ifs <;> simp

lemma Db.Free.update_ne_conflict (hfree : db.Free t k) (h : db.Inv used) (ht : t ∈ db.txns) :
    (mvccRowUpdate env db t.txnId uid name k values).2 ≠ .writeConflict := by
  obtain ⟨n, v, hf, hn, hzero⟩ := hfree
  rw [mvccRowUpdate, h.find_txn ht]
  simp only [hn, hf.at_slot, hzero, ne_eq, not_true_eq_false, false_and, if_false]
  have hadd := addVersion_ne_conflict env db t.txnId uid name values k v.tableObjectId
  split
  · split
    · split
      · simp
      · next heq =>
        rwa [heq] at hadd
    · exact mapConstraintViolation_ne_conflict
  · exact mapConstraintViolation_ne_conflict

lemma Db.Free.delete_ne_conflict (hfree : db.Free t k) (h : db.Inv used) (ht : t ∈ db.txns) :
    (mvccRowDelete env db t.txnId uid name k).2 ≠ .writeConflict := by
  obtain ⟨n, v, hf, hn, hzero⟩ := hfree
  rw [mvccRowDelete, rowCascadeMaxDepth, deleteWithin, deleteWith, h.find_txn ht]
  simp only [hn, hf.at_slot, hzero, ne_eq, not_true_eq_false, false_and, if_false]
  split_ifs
  · simp
  · split
    · simp
    · exact mapConstraintViolation_ne_conflict

end Check

section Order

variable {db : Db} {acts : List Act} {i n t k : ℕ}

/-- The write `t` made to row `k` in call `i` is pending before call `n`, was taken back, or was
committed and who sees it began after that. -/
def Fate (db : Db) (acts : List Act) (i t k n : ℕ) (P : Pool ℕ Row) : Prop :=
  .pending t ∈ stamps (P.hist k) ∨
  (∃ r, i < r ∧ r < n ∧ RollsBackAt db acts r t) ∨
  ∃ c seq, i < c ∧ c < n ∧ CommitsAt db acts c t ∧ .committed seq ∈ stamps (P.hist k) ∧
    ∀ u ∈ P.live, seq ≤ P.snap u → ∃ b, c < b ∧ b < n ∧ BeginsAt db acts b u

lemma Fate.succ (h : Fate db acts i t k n P) : Fate db acts i t k (n + 1) P := by
  rcases h with hp | ⟨r, hi, hr, hroll⟩ | ⟨c, seq, hi, hc, hcommit, hstamp, hlive⟩
  · exact .inl hp
  · exact .inr (.inl ⟨r, hi, by omega, hroll⟩)
  · refine .inr (.inr ⟨c, seq, hi, by omega, hcommit, hstamp, fun u hu hle => ?_⟩)
    obtain ⟨b, hcb, hb, hbegin⟩ := hlive u hu hle
    exact ⟨b, hcb, by omega, hbegin⟩

theorem Fate.event (h : Fate db acts i t k (n + 1) P)
    (hin : i < n) (ha : acts[n]? = some a) (he : (db.after acts n).Emits a e) (hinv : P.Inv)
    (hs : P.Step P' e) : Fate db acts i t k (n + 1) P' := by
  rcases h with hp | hroll | ⟨c, seq, hi, hc, hcommit, hstamp, hlive⟩
  · rcases hs.pending hinv hp with hp' | ⟨rfl, hstamp⟩ | rfl
    · exact .inl hp'
    · refine .inr (.inr ⟨n, P.seq, hin, Nat.lt_succ_self n, ⟨a, ha, he⟩, hstamp,
        fun u hu hle => ?_⟩)
      -- whoever is open now has an older snapshot
      rcases hs.live hu with hbegin | ⟨hold, hsnap⟩
      · cases hbegin
      · have := hinv.snap_lt u hold
        omega
    · exact .inr (.inl ⟨n, hin, Nat.lt_succ_self n, a, ha, he⟩)
  · exact .inr (.inl hroll)
  · refine .inr (.inr ⟨c, seq, hi, hc, hcommit, hs.committed hinv hstamp, fun u hu hle => ?_⟩)
    rcases hs.live hu with rfl | ⟨hold, hsnap⟩
    · by_cases hcn : c < n
      · exact ⟨n, hcn, Nat.lt_succ_self n, a, ha, he⟩
      -- call `n` is the commit itself and begins nothing
      obtain rfl : c = n := by omega
      obtain ⟨a', ha', hcall, -⟩ := hcommit
      obtain rfl := Option.some.inj (ha.symm.trans ha')
      rw [he.1] at hcall
      cases hcall
    · exact hlive u hold (hsnap ▸ hle)

lemma Fate.run (hgood : db.Good) (hlegal : Always step Db.Legal db acts)
    (h : Fate db acts i t k (i + 1) (db.after acts (i + 1)).pool) (hn : i < n) :
    Fate db acts i t k n (db.after acts n).pool :=
  hgood.events_induction hlegal hn h (fun _ _ hfate => hfate.succ)
    fun _ _ _ _ _ hij _ ha he hinv hs hfate => hfate.event hij ha he hinv hs

theorem Stepped.writes (hs : Stepped db a es)
    (hw : a.2.writer = some t) : ∀ e ∈ es, ∃ k v, e = .write t k v := by
  intro e he
  have hemit := hs.emits e he
  cases e with
  | begin =>
    rw [hemit.1] at hw
    cases hw
  | write u k v =>
    obtain rfl := Option.some.inj (hw.symm.trans hemit)
    exact ⟨k, v, rfl⟩
  | commit =>
    rw [hemit.1] at hw
    cases hw
  | rollback =>
    obtain ⟨⟨uid, hcall⟩, -⟩ := hemit
    rw [hcall] at hw
    cases hw

/-- A successful update or delete leaves pending work on its row. -/
theorem pending_of_target (h : db.Inv used) (hlegal : db.Legal a)
    (hw : a.2.writer = some t) (hk : a.2.target = some k) (hok : (db.call a).2.1 = .ok) :
    .pending t ∈ stamps ((db.step a).history k) := by
  obtain ⟨env, c⟩ := a
  cases c with
  | begin | insert | commit | rollback => cases hk
  | update txn uid name id values =>
    obtain rfl : txn = t := Option.some.inj hw
    obtain rfl : id = k := Option.some.inj hk
    have hs := stepped_update h env txn uid values hlegal
    refine hs.steps.written h.pool (hs.writes rfl) (v := db.stored name values) ?_
    have hok' : (mvccRowUpdate env db txn uid name id values).2 = .ok := hok
    simp [events, call, hok']
  | delete txn uid name id =>
    obtain rfl : txn = t := Option.some.inj hw
    obtain rfl : id = k := Option.some.inj hk
    obtain ⟨-, hdel⟩ := mvccRowDelete_spec h
      (Prod.mk.eta).symm
    obtain ⟨x, n, v, rfl, hd⟩ := hdel hok
    have hpos := (h.txn_range x hd.txn).1
    have hdone : v.xmaxCommitted = false := by grind [MvccVersion.stop, hd.stop]
    have hcell := mem_history.mpr ⟨_, mem_of_getElem? hd.marked, hd.found.active, hd.found.logical,
      rfl⟩
    apply stop_mem_stamps hcell
    simp [MvccVersion.cell, MvccVersion.stop, MvccVersion.supersede, hdone, Nat.ne_of_gt hpos]

section

variable (hgood : db.Good) (hlegal : Always step Db.Legal db acts)
include hgood hlegal

lemma WritesAt.pending (hw : WritesAt db acts n t k) :
    .pending t ∈ stamps ((db.after acts (n + 1)).history k) := by
  obtain ⟨a, ha, hwriter, hcase⟩ := hw
  obtain ⟨used, hinv⟩ := hgood.after hlegal n
  have hl := hlegal.getElem? ha
  rw [after_succ ha] at hcase ⊢
  rcases hcase with ⟨htarget, hok⟩ | hchanged
  · exact pending_of_target hinv hl hwriter htarget hok
  · obtain ⟨es, hs⟩ := (hinv.stepped hl).1
    exact (hs.steps.touched hinv.pool (hs.writes hwriter)).resolve_left hchanged

/-- Before the second writer of a row the first was rolled back, or it committed and the second
began after that. -/
theorem writes_ordered (hne : t ≠ u) (hij : i < j) (hi : WritesAt db acts i t k)
    (hj : WritesAt db acts j u k) : (∃ r, i < r ∧ r < j ∧ RollsBackAt db acts r t) ∨
      ∃ c b, i < c ∧ c < b ∧ b < j ∧ CommitsAt db acts c t ∧ BeginsAt db acts b u := by
  have hpend := hj.pending hgood hlegal
  obtain ⟨used, hinv⟩ := hgood.after hlegal (j + 1)
  have hfate := Fate.run hgood hlegal (.inl (hi.pending hgood hlegal)) (Nat.lt_succ_of_lt hij)
  obtain ⟨a, ha, hwriter, -⟩ := hj
  have hsound := hinv.pool.sound k
  rcases hfate with hp | ⟨r, hir, hrj, hroll⟩ | ⟨c, seq, hic, hcj, hcommit, hstamp, hlive⟩
  · exact absurd (hsound.pending_unique hp hpend) hne
  · refine .inl ⟨r, hir, ?_, hroll⟩
    -- call `j` is a write, no rollback
    rcases Nat.lt_succ_iff_lt_or_eq.mp hrj with hlt | rfl
    · exact hlt
    obtain ⟨a', ha', ⟨uid, hcall⟩, -⟩ := hroll
    obtain rfl := Option.some.inj (ha.symm.trans ha')
    rw [hcall] at hwriter
    cases hwriter
  · have hseen := hsound.seen_of_pending hpend hstamp
    simp only [Stamp.seen, decide_eq_true_eq] at hseen
    obtain ⟨b, hcb, hbj, hbegin⟩ := hlive u (hinv.pool.pending k u hpend) hseen
    refine .inr ⟨c, b, hic, hcb, ?_, hcommit, hbegin⟩
    rcases Nat.lt_succ_iff_lt_or_eq.mp hbj with hlt | rfl
    · exact hlt
    obtain ⟨a', ha', hcall, -⟩ := hbegin
    obtain rfl := Option.some.inj (ha.symm.trans ha')
    rw [hcall] at hwriter
    cases hwriter

def EndsAt (db : Db) (acts : List Act) (n t : ℕ) : Prop :=
  CommitsAt db acts n t ∨ RollsBackAt db acts n t

lemma EndsAt.live (hend : EndsAt db acts n t) :
    t ∈ (db.after acts n).live ∧ t ∉ (db.after acts (n + 1)).live := by
  obtain ⟨used, hinv⟩ := hgood.after hlegal n
  rcases hend with ⟨a, ha, he⟩ | ⟨a, ha, he⟩
  · rw [after_succ ha]
    cases hinv.commit_step he with
    | commit _ ht _ hlive => exact ⟨ht, fun hmem => (hlive.subset hmem).2 rfl⟩
  · rw [after_succ ha]
    cases hinv.rollback_step he with
    | rollback _ ht _ hlive => exact ⟨ht, fun hmem => (hlive.subset hmem).2 rfl⟩

lemma not_begins_again (hmn : m ≤ n) (hlt : t < (db.after acts m).nextTxnId) (h0 : t ≠ 0) :
    ¬ (db.after acts n).Emits a (.begin t) := by
  intro he
  obtain ⟨used, hinv⟩ := hgood.after hlegal n
  have hfresh := begin_fresh hinv he h0
  have hmono := hgood.nextTxnId_mono hlegal hmn
  omega

lemma gone_forever (hmn : m ≤ n) (hlt : t < (db.after acts m).nextTxnId)
    (hgone : t ∉ (db.after acts m).live) : t ∉ (db.after acts n).live := by
  refine hgood.events_induction hlegal (I := fun _ P => t ∉ P.live) hmn hgone (fun _ _ h => h) ?_
  intro j a e P P' hm _ _ he _ hs hnot hmem
  rcases hs.live hmem with rfl | ⟨hold, -⟩
  · cases hs with
    | begin _ h0 => exact not_begins_again hgood hlegal hm hlt h0 he
  · exact hnot hold

lemma EndsAt.unique (hm : EndsAt db acts m t) (hn : EndsAt db acts n t) : m = n := by
  have hlt : ∀ {m n}, EndsAt db acts m t → EndsAt db acts n t → ¬ m < n := by
    intro m n hm hn hmn
    obtain ⟨used, hinv⟩ := hgood.after hlegal m
    obtain ⟨hlive, hgone⟩ := hm.live hgood hlegal
    have hnext :=
      lt_of_lt_of_le (hinv.live_lt hlive).2 (hgood.nextTxnId_mono hlegal (Nat.le_succ m))
    exact gone_forever hgood hlegal hmn hnext hgone (hn.live hgood hlegal).1
  have h1 := hlt hm hn
  have h2 := hlt hn hm
  omega

/-- If two transactions wrote one row and both commit, one began after the other
had committed. -/
theorem committed_writers_ordered (hne : t ≠ u) (hi : WritesAt db acts i t k)
    (hj : WritesAt db acts j u k) (hc : CommitsAt db acts c t) (hd : CommitsAt db acts d u) :
    (∃ b, c < b ∧ BeginsAt db acts b u) ∨ ∃ b, d < b ∧ BeginsAt db acts b t := by
  -- whoever wrote first has committed before the other one began
  have hfirst : ∀ {t u i j c : ℕ}, t ≠ u → i < j → WritesAt db acts i t k → WritesAt db acts j u k →
      CommitsAt db acts c t → ∃ b, c < b ∧ BeginsAt db acts b u := by
    intro t u i j c hne hij hi hj hc
    rcases writes_ordered hgood hlegal hne hij hi hj with ⟨r, -, -, hroll⟩ | ⟨c', b, -,
      hcb, -, hc', hb⟩
    · obtain rfl := EndsAt.unique hgood hlegal (.inl hc) (.inr hroll)
      obtain ⟨a, ha, hcall, -⟩ := hc
      obtain ⟨a', ha', ⟨uid, hcall'⟩, -⟩ := hroll
      obtain rfl := Option.some.inj (ha.symm.trans ha')
      rw [hcall] at hcall'
      cases hcall'
    · obtain rfl := EndsAt.unique hgood hlegal (.inl hc) (.inl hc')
      exact ⟨b, hcb, hb⟩
  rcases Nat.lt_trichotomy i j with hlt | rfl | hgt
  · exact .inl (hfirst hne hlt hi hj hc)
  · obtain ⟨a, ha, hw, -⟩ := hi
    obtain ⟨a', ha', hw', -⟩ := hj
    obtain rfl := Option.some.inj (ha.symm.trans ha')
    exact absurd (Option.some.inj (hw.symm.trans hw')) hne
  · exact .inr (hfirst hne.symm hgt hj hi hd)

/-- A later write of another transaction that was open in between fails. -/
theorem later_write_fails (hne : t ≠ u) (hij : i < j) (hi : WritesAt db acts i t k)
    (ha : acts[j]? = some a) (hw : a.2.writer = some u) (hk : a.2.target = some k)
    (hopen : u ∈ (db.after acts j).live)
    (hperm : ∀ uid name, a.2 = .delete u uid name k → a.1.access uid name .write)
    (hroll : ∀ r, i < r → r < j → ¬ RollsBackAt db acts r t)
    (horder : ∀ c b, i < c → c < b → b < j → CommitsAt db acts c t → ¬ BeginsAt db acts b u) :
    db.after acts (j + 1) = db.after acts j ∧ ((db.after acts j).call a).2.1 =
      if ((db.after acts j).sees u k).isSome then .writeConflict else .rowNotVisible := by
  obtain ⟨used, hinv⟩ := hgood.after hlegal j
  obtain ⟨x, hx, rfl⟩ := hopen
  -- the first write left a stamp that `u` does not see
  have hunseen : ∃ st ∈ stamps ((db.after acts j).history k),
      st.seen ⟨x.txnId, (db.after acts j).snap x.txnId⟩ = false := by
    rcases Fate.run hgood hlegal (.inl (hi.pending hgood hlegal)) hij with
      hp | ⟨r, hir, hrj, hr⟩ | ⟨c, seq, hic, hcj, hcommit, hstamp, hlive⟩
    · exact ⟨_, hp, by simpa [Stamp.seen] using hne⟩
    · exact absurd hr (hroll r hir hrj)
    · refine ⟨_, hstamp, ?_⟩
      by_contra hseen
      rw [Bool.not_eq_false] at hseen
      simp only [Stamp.seen, decide_eq_true_eq] at hseen
      obtain ⟨b, hcb, hbj, hbegin⟩ := hlive x.txnId ⟨x, hx, rfl⟩ hseen
      exact horder c b hic hcb hbj hcommit hbegin
  obtain ⟨st, hst, hnot⟩ := hunseen
  rw [after_succ ha, ← find_isSome_iff hinv hx]
  obtain ⟨env, c⟩ := a
  cases c with
  | begin | insert | commit | rollback => cases hk
  | update txn uid name id values =>
    obtain rfl : txn = x.txnId := Option.some.inj hw
    obtain rfl : id = k := Option.some.inj hk
    have hres : mvccRowUpdate env (db.after acts j) x.txnId uid name id values = _ :=
      mvccRowUpdate_of_unseen hinv hx hst hnot
    simp only [step, call, hres, and_self]
  | delete txn uid name id =>
    obtain rfl : txn = x.txnId := Option.some.inj hw
    obtain rfl : id = k := Option.some.inj hk
    have hres : mvccRowDelete env (db.after acts j) x.txnId uid name id = _ :=
      mvccRowDelete_of_unseen hinv hx hst hnot
    have hacc : env.access uid name .write := hperm uid name rfl
    simp only [step, call, hres, hacc, Bool.not_true, Bool.false_eq_true, if_false, and_self]

/-- As long as both are open, who is blocked stays blocked. -/
theorem blocked_until (hmr : m ≤ r) (hb : (db.after acts m).pool.Blocked t k u)
    (hm : t ∈ (db.after acts m).live) (hr : t ∈ (db.after acts r).live)
    (hend : RollsBackAt db acts r u) : (db.after acts r).pool.Blocked t k u := by
  obtain ⟨used, hinv⟩ := hgood.after hlegal m
  refine hgood.events_induction hlegal (I := fun _ P => t ∈ P.live → P.Blocked t k u) hmr
    (fun _ => hb) (fun _ _ h => h) ?_ hr
  intro j a e P P' hmj hjr ha he _ hs hblocked hlive
  -- neither transaction ends in this call
  have hends : ¬ EndsAt db acts j u := fun hj => by
    have := EndsAt.unique hgood hlegal hj (.inr hend)
    omega
  have hc : e ≠ .commit u := fun heq => hends (.inl ⟨a, ha, heq ▸ he⟩)
  have hro : e ≠ .rollback u := fun heq => hends (.inr ⟨a, ha, heq ▸ he⟩)
  rcases hs.live hlive with rfl | ⟨hold, -⟩
  · cases hs with
    | begin _ h0 => exact absurd he (not_begins_again hgood hlegal hmj (hinv.live_lt hm).2 h0)
  · exact hs.blocked hold hlive hc hro (hblocked hold)

/-- Rolling back the blocking transaction clears the conflict. -/
theorem free_after_rollback (hmr : m ≤ r) (hx : x ∈ (db.after acts m).txns)
    (hb : (db.after acts m).BlockedBy x k u) (hend : RollsBackAt db acts r u)
    (hy : y ∈ (db.after acts r).txns) (hxy : y.txnId = x.txnId) :
    y ∈ (db.after acts (r + 1)).txns ∧ (db.after acts (r + 1)).Free y k := by
  obtain ⟨used, hinv⟩ := hgood.after hlegal m
  obtain ⟨used', hinv'⟩ := hgood.after hlegal r
  have hblocked := blocked_until hgood hlegal hmr ((blockedBy_iff hinv hx).mp hb) ⟨x, hx, rfl⟩
    ⟨y, hy, hxy⟩ hend
  rw [← hxy] at hblocked
  have hbr := (blockedBy_iff hinv' hy).mpr hblocked
  obtain ⟨hlive, -⟩ := EndsAt.live hgood hlegal (.inr hend)
  obtain ⟨⟨env, c⟩, ha, ⟨uid, hcall⟩, hok⟩ := hend
  obtain rfl : c = .rollback u uid := hcall
  obtain ⟨w, -, -, hw⟩ := mvFindTxn_of_live hinv' hlive
  rw [after_succ ha]
  exact hbr.free_of_rollback hinv' hy hw

end

end Order

/-- No update is lost.  Along any interleaving from a boot over any heap, under
any constraints: two transactions that wrote one row and both committed did so
one after the other; a write after that of a transaction that is neither rolled
back nor committed before the writer began is refused and changes nothing; and
once the transaction that caused a conflict is rolled back, the conflict is
gone. -/
theorem no_lost_updates {env₀ : Env} {s : Store} {used : ℕ → List RowId} (hs : Heap s used)
    (hd : DistinctTables s) (cs : List RowConstraintDef) {db : Db} (hboot : boot env₀ s cs = db)
    (acts : List Act) (hlegal : Always Db.step Db.Legal db acts) :
    (∀ t u k i j c d : ℕ, t ≠ u → WritesAt db acts i t k → WritesAt db acts j u k →
      CommitsAt db acts c t → CommitsAt db acts d u →
      (∃ b, c < b ∧ BeginsAt db acts b u) ∨ ∃ b, d < b ∧ BeginsAt db acts b t) ∧
    (∀ (t u k i j : ℕ) (a : Act), t ≠ u → i < j → WritesAt db acts i t k → acts[j]? = some a →
      a.2.writer = some u → a.2.target = some k → u ∈ (db.after acts j).live →
      (∀ uid name, a.2 = .delete u uid name k → a.1.access uid name .write = true) →
      (∀ r, i < r → r < j → ¬ RollsBackAt db acts r t) →
      (∀ c b, i < c → c < b → b < j → CommitsAt db acts c t → ¬ BeginsAt db acts b u) →
      db.after acts (j + 1) = db.after acts j ∧ ((db.after acts j).call a).2.1 =
        if ((db.after acts j).sees u k).isSome then .writeConflict else .rowNotVisible) ∧
    (∀ (m r u k : ℕ) (x y : MvccTxn), m ≤ r → x ∈ (db.after acts m).txns →
      (db.after acts m).BlockedBy x k u → RollsBackAt db acts r u → y ∈ (db.after acts r).txns →
      y.txnId = x.txnId →
      (∀ env uid name values, mvccRowUpdate env (db.after acts m) x.txnId uid name k values =
        (db.after acts m, .writeConflict)) ∧
      (∀ env uid name values,
        (mvccRowUpdate env (db.after acts (r + 1)) x.txnId uid name k values).2 ≠ .writeConflict) ∧
      ∀ env uid name,
        (mvccRowDelete env (db.after acts (r + 1)) x.txnId uid name k).2 ≠ .writeConflict) := by
  have hgood : db.Good := hboot ▸ ⟨used, boot_inv hs hd cs⟩
  refine ⟨?_, ?_, ?_⟩
  · grind [committed_writers_ordered]
  · intro t u k i j a hne hij hi ha hw hk hopen hperm hroll horder
    exact later_write_fails hgood hlegal hne hij hi ha hw hk hopen hperm hroll horder
  · intro m r u k x y hmr hx hb hend hy hxy
    obtain ⟨used', hinv⟩ := hgood.after hlegal m
    obtain ⟨used'', hinv'⟩ := hgood.after hlegal (r + 1)
    obtain ⟨hy', hfree⟩ := free_after_rollback hgood hlegal hmr hx hb hend hy hxy
    obtain ⟨st, hst, hnot⟩ := hb.unseen hinv hx
    refine ⟨fun env uid name values => ?_, fun env uid name values => ?_, fun env uid name => ?_⟩
    · rw [mvccRowUpdate_of_unseen hinv hx hst hnot, hb.visible]
      rfl
    · rw [← hxy]
      exact hfree.update_ne_conflict hinv' hy'
    · rw [← hxy]
      exact hfree.delete_ne_conflict hinv' hy'

section Sample

set_option maxRecDepth 8000

/-- The second transaction changes the row, then the third one does. -/
def changeTwice : List Act :=
  [.begin, .insert 1 9 "t" (uintRow [53]), .commit 1, .begin, .update 2 9 "t" 1 (uintRow [54]),
    .commit 2, .begin, .update 3 9 "t" 1 (uintRow [55]), .commit 3].map (openEnv, ·)

theorem changeTwice_ordered : Always Db.step Db.Legal oneTable changeTwice ∧
    ((∃ b, 5 < b ∧ BeginsAt oneTable changeTwice b 3) ∨
      ∃ b, 8 < b ∧ BeginsAt oneTable changeTwice b 2) := by
  have hlegal : Always Db.step Db.Legal oneTable changeTwice := by decide
  have hdist : DistinctTables (createTables [uintTable 7 "t"]) :=
    distinctTables_of_pairwise (by decide)
  refine ⟨hlegal, (no_lost_updates (createTables_heap _) hdist [] rfl changeTwice hlegal).1
    2 3 1 4 7 5 8 (by decide) ⟨_, rfl, rfl, .inl ⟨rfl, by decide⟩⟩ ⟨_, rfl, rfl,
      .inl ⟨rfl, by decide⟩⟩
    ⟨_, rfl, rfl, by decide⟩ ⟨_, rfl, rfl, by decide⟩⟩

/-- The first transaction began before the row was there; the third one changes the row. -/
def changeUnseen : List Act :=
  [.begin, .begin, .insert 2 9 "t" (uintRow [53]), .commit 2, .begin,
    .update 3 9 "t" 1 (uintRow [54]), .update 1 9 "t" 1 (uintRow [55])].map (openEnv, ·)

/-- Its later write of the row is refused, but not as a conflict. -/
theorem changeUnseen_not_visible : BeginsAt oneTable changeUnseen 0 1 ∧
    WritesAt oneTable changeUnseen 5 3 1 ∧ 3 ∈ (oneTable.after changeUnseen 6).live ∧
    changeUnseen[6]? = some (openEnv, .update 1 9 "t" 1 (uintRow [55])) ∧
    ((oneTable.after changeUnseen 6).call (openEnv, .update 1 9 "t" 1 (uintRow [55]))).2.1 =
      .rowNotVisible := by
  refine ⟨⟨_, rfl, rfl, by decide⟩, ⟨_, rfl, rfl, .inl ⟨rfl, by decide⟩⟩,
    ⟨⟨3, 1⟩, ?_, rfl⟩, rfl, ?_⟩
  · decide
  · decide

end Sample

end AeroSLS.Mvcc
