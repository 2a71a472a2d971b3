import AeroSLS.Cap.Wires

namespace AeroSLS.Cap

open Function Register Chain List

variable {env : Env} {R : Rules} {s : State} {w : CapWord}

section

variable (hs : Drops env R s s') (h : Tidy R.exact s)
include hs h

lemma Drops.tidy : Tidy R.exact s' := by
  induction hs with
  | refl => exact h
  | tail _ hd ih => exact hd.tidy ih

lemma Drops.named (hn : s'.named p = some o) : s.named p = some o := by
  induction hs with
  | refl => exact hn
  | tail hab hd ih => exact ih (hd.named (Drops.tidy hab h) hn)

lemma Drops.named_none (hp : s.named p = none) : s'.named p = none := by
  cases hn : s'.named p with
  | none => rfl
  | some =>
    rw [hs.named h hn] at hp
    cases hp

lemma Drops.life (o : ℕ) :
    (s'.objects o).kind = (s.objects o).kind ∧ (s'.objects o).chanId = (s.objects o).chanId := by
  induction hs with
  | refl => exact ⟨rfl, rfl⟩
  | tail hab hd ih =>
    have hf := ((Shift.drop hd).life (Drops.tidy hab h) o).fields
    exact ⟨hf.1.trans ih.1, hf.2.trans ih.2⟩

lemma Drops.tracked (ho : s'.Tracked o) : s.Tracked o := by
  induction hs with
  | refl => exact ho
  | tail hab hd ih => exact ih ((Shift.drop hd).tracked (Drops.tidy hab h) ho)

end

lemma Changes.tidy (hs : Changes env R s s') (h : Tidy R.exact s) : Tidy R.exact s' := by
  induction hs with
  | refl => exact h
  | tail _ hc ih => exact hc.tidy ih

lemma Changes.kept (hs : Changes env R s s') (ht : Tidy R.exact s) (h : Kept s) : Kept s' := by
  induction hs with
  | refl => exact h
  | tail hab hc ih => exact hc.kept (Changes.tidy hab ht) ih

lemma Changes.wires (hs : Changes env R s s') (ht : Tidy R.exact s) (h : Wires s) : Wires s' := by
  induction hs with
  | refl => exact h
  | tail hab hc ih => exact hc.wires (Changes.tidy hab ht) ih

lemma settled_update (h : Settled X s) (hobj : s'.objects = update s.objects o ob)
    (hob : ob.active → ob.revoking = false ∨ X o) : Settled X s' := by
  intro o' hX hact
  rw [hobj] at hact ⊢
  by_cases hoo : o' = o
  · grind
  · rw [update_of_ne hoo] at hact ⊢
    exact h o' hX hact

lemma Change.settled (hs : Change env R s s') (ht : Tidy R.exact s)
    (hX : ∀ o, R.mayRevoke o → X o) (h : Settled X s) : Settled X s' := by
  intro o ho hact
  rcases hs.made with hs | heq | hmade
  · exact hs.settled ht h o ho hact
  · rw [heq] at hact ⊢
    exact h o ho hact
  · cases hmade with
    | unused hact' => cases hact.symm.trans hact'
    | revoked _ hrevoke => exact absurd (hX o hrevoke) ho
    | held hrev => exact hrev

lemma Changes.settled (hs : Changes env R s s') (ht : Tidy R.exact s)
    (hX : ∀ o, R.mayRevoke o → X o) (h : Settled X s) : Settled X s' := by
  induction hs with
  | refl => exact h
  | tail hab hc ih => exact hc.settled (Changes.tidy hab ht) hX ih

/-- What holds between calls, whatever the rules. -/
structure Ready (R : Rules) (s : State) : Prop where
  tidy : Tidy R.exact s
  settled : Settled (fun _ => False) s
  kept : Kept s
  wires : Wires s

lemma Shifts.ready (h : Shifts env R s s') (hr : Ready R s) : Ready R s' := by
  induction h with
  | refl => exact hr
  | tail _ hs ih =>
    exact ⟨hs.tidy ih.tidy, hs.settled ih.tidy ih.settled, hs.kept ih.tidy ih.kept,
      hs.wires ih.wires ih.tidy⟩

lemma Changes.ready (h : Changes env R s s') (hno : ∀ o, ¬R.mayRevoke o) (hr : Ready R s) :
    Ready R s' :=
  ⟨h.tidy hr.tidy, h.settled hr.tidy (fun o ho => absurd ho (hno o)) hr.settled,
    h.kept hr.tidy hr.kept, h.wires hr.tidy hr.wires⟩

lemma Drops.ready (h : Drops env R s s') (hr : Ready R s) : Ready R s' := h.shifts.ready hr

lemma Shift.ready (hs : Shift env R s s') (hr : Ready R s) : Ready R s' :=
  Shifts.ready (.single hs) hr

lemma Shifts.tracked (h : Shifts env R s s') (hr : Ready R s) (ho : s'.Tracked o) :
    s.Tracked o := by
  induction h with
  | refl => exact ho
  | tail hab hs ih => exact ih (hs.tracked (Shifts.ready hab hr).tidy ho)

lemma Ready.tracked (h : Ready R s) (hact : (s.objects o).active) : s.Tracked o :=
  ⟨hact, h.settled o (fun h => h) hact⟩

lemma Drop.unread : Drop env R s { s with
    holderFree := n, trampNext, userMaps, pages, arenaUsed, arenaOwner } :=
  .aside (calm_of_eq rfl rfl rfl rfl) rfl ⟨rfl, rfl, fun _ => rfl, rfl, rfl⟩

lemma Drop.holders (n : ℕ) : Drop env R s { s with holderFree := n } := .unread

lemma capHolderAlloc_eq (h : capHolderAlloc s = some s1) :
    s1 = { s with holderFree := s.holderFree - 1 } := by
  simp only [capHolderAlloc] at h
  split_ifs at h
  exact (Option.some.inj h).symm

lemma capTableIndex_owned (hown : s.Owns pid ti) : capTableIndex s pid = (s, some ti) := by
  unfold capTableIndex
  rw [show capTableFind s pid = some ti from hown]

variable (env R) in
/-- A process has its table, gets an empty one, or there is none left. -/
theorem capTableIndex_cases (h : Tables s) (pid : ℕ) :
    (∃ ti, s.Owns pid ti ∧ capTableIndex s pid = (s, some ti)) ∨
    capTableIndex s pid = (s, none) ∨
    ∃ ti, capTableIndex s pid = (bindTable s ti pid, some ti) ∧
      Shift env R s (bindTable s ti pid) ∧ (bindTable s ti pid).Owns pid ti ∧
      ∀ i < capTableEntries, (((bindTable s ti pid).tables ti).slots i).ty = .none := by
  cases hfind : capTableFind s pid with
  | some ti => exact .inl ⟨ti, hfind, capTableIndex_owned hfind⟩
  | none =>
    refine .inr ?_
    simp only [capTableIndex, hfind]
    split
    · rename_i ti hti
      have hmem := mem_of_find?_eq_some hti
      have hfree : s.tablePid ti = 0 := by simpa using find?_some hti
      simp only [mem_range'_1, capTableMax] at hmem
      have hpid : pid ≠ 0 := by
        rintro rfl
        simp [capTableFind] at hfind
      have hnew : ∀ tj < capTableMax, s.tablePid tj ≠ pid := by grind [capTableFind, tableOf]
      have hlt : ti < capTableMax := by simp only [capTableMax]; omega
      refine .inr ⟨ti, rfl, .bind pid ti hlt (by omega) hfree hpid hnew, ?_, fun i hi => ?_⟩
      · refine owns_of_tablePid (h.bind (by omega) hpid hnew) hlt ?_ hpid
        simp [bindTable]
      · rw [bindTable_slots]
        exact h.idle ti hlt (by omega) hfree i hi
    · exact .inl rfl

variable (env R) in
lemma capTableIndex_bound (h : Ready R s) (pid : ℕ) : capTableIndex s pid = (s, none) ∨
      ∃ s1 ti, capTableIndex s pid = (s1, some ti) ∧ s1.Owns pid ti ∧ Shifts env R s s1 ∧
        Ready R s1 ∧ s1 = { s with tables := s1.tables, tablePid := s1.tablePid } := by
  rcases capTableIndex_cases env R h.tidy.tables pid with
    ⟨ti, hown, htab⟩ | htab | ⟨ti, htab, hbind, hown, -⟩
  · exact .inr ⟨s, ti, htab, hown, .refl, h, rfl⟩
  · exact .inl htab
  · exact .inr ⟨_, ti, htab, hown, .single hbind, hbind.ready h, rfl⟩

theorem capTableIndex_keeps (hown : s.Owns pid' ti') : (capTableIndex s pid).1.Owns pid' ti' := by
  cases hfind : capTableFind s pid with
  | some => rwa [capTableIndex_owned hfind]
  | none =>
    simp only [capTableIndex, hfind]
    split
    · rename_i ti hti
      have hfree : s.tablePid ti = 0 := by simpa using find?_some hti
      by_cases hzero : pid' = 0
      · subst hzero
        exact owns_zero.2 (owns_zero.1 hown)
      have hne : pid ≠ pid' := by grind [State.Owns]
      rw [State.Owns, capTableFind, if_neg hzero, tableOf] at hown ⊢
      rw [← hown]
      congr 1
      funext j
      by_cases hj : j = ti
      · subst hj
        simp [hfree, hne, Ne.symm hzero]
      · simp [hj]
    · exact hown

lemma capObjectGet_eq_some (h : capObjectGet s o = some ob) :
    (s.objects o).active ∧ ob = s.objects o := by
  simp only [capObjectGet] at h
  split_ifs at h with hg
  cases h
  exact ⟨hg.2.1, rfl⟩

lemma active_of_get (h : ¬(capObjectGet s o).isNone) : (s.objects o).active := by
  obtain ⟨ob, hget⟩ := Option.ne_none_iff_exists'.1 (mt Option.isNone_iff_eq_none.2 h)
  exact (capObjectGet_eq_some hget).1

lemma capObjectGet_of_active (h : Tidy D s) (hlt : o < s.objNext)
    (hact : (s.objects o).active) : capObjectGet s o = some (s.objects o) := by
  simp only [capObjectGet]
  rw [if_pos ⟨hlt.trans_le h.objects.next, hact, h.objects.id o hlt⟩]

lemma not_tracked_of_get (h : Tidy D s) (hget : capObjectGet s o = none) : ¬s.Tracked o := by
  intro ho
  have hlt : o < s.objNext := by grind [ho.1, h.objects.unborn]
  rw [capObjectGet_of_active h hlt ho.1] at hget
  cases hget

lemma handleChan_spec (h : Wires s) (hh : handleChan s w = some c) :
    c < capChanMax ∧ s.Owned c := by
  simp only [handleChan] at hh
  split at hh
  · cases hh
  rename_i ob hget
  obtain ⟨hact, rfl⟩ := capObjectGet_eq_some hget
  split_ifs at hh with hg
  cases hh
  have hown := h.own w.obj hact hg.1
  exact ⟨hown.1.trans_le h.next, w.obj, hact, hg.1, rfl⟩

/-- The word that a slot of a process holds. -/
def State.slotWord (s : State) (pid i : ℕ) : CapWord :=
  match capTableFind s pid with
  | some ti => (s.tables ti).slots i
  | none => 0

lemma slotWord_owned (hown : s.Owns pid ti) : s.slotWord pid i = (s.tables ti).slots i := by
  simp only [State.slotWord]
  rw [show capTableFind s pid = some ti from hown]

lemma not_sendable_of_none (h : w.ty = .none) : w.sendable = false := by
  simp [CapWord.sendable, h]

lemma not_receivable_of_none (h : w.ty = .none) : w.receivable = false := by
  simp [CapWord.receivable, h]

lemma not_valid_of_none (h : w.ty = .none) : capWordValid w = false := by
  simp [capWordValid, h]

section

variable {α : Type*}

lemma guard_chain {r : State → State → Prop} {p : Prop} [Decidable p] {x : State × α}
    (h : ¬p → Relation.ReflTransGen r s x.1) :
    Relation.ReflTransGen r s (if p then (s, e) else x).1 := by
  split_ifs with hp
  · exact .refl
  · exact h hp

/-- A call that fails on an empty table. -/
theorem tabled_shifts {f : State → ℕ → State × α} (h : Ready R s)
    (hempty : ∀ s1 ti, (∀ i < capTableEntries, ((s1.tables ti).slots i).ty = .none) →
      (f s1 ti).1 = s1)
    (hf : ∀ ti, s.Owns pid ti → Shifts env R s (f s ti).1) :
    Shifts env R s (match capTableIndex s pid with
      | (s, none) => (s, e)
      | (s, some ti) => f s ti).1 := by
  rcases capTableIndex_cases env R h.tidy.tables pid with
    ⟨ti, hown, htab⟩ | htab | ⟨ti, htab, hbind, -, hnone⟩
  · rw [htab]
    exact hf ti hown
  · rw [htab]
  · rw [htab]
    rw [hempty _ ti hnone]
    exact .single hbind

theorem handled_shifts {ok : CapWord → Bool} {f : State → ℕ → ℕ → State × α} (h : Ready R s)
    (hch : ch < capTableEntries) (hok : ∀ w : CapWord, w.ty = .none → ok w = false)
    (hf : ∀ ti c, s.Owns pid ti → handleChan s ((s.tables ti).slots ch) = some c →
      c < capChanMax → s.Owned c → Shifts env R s (f s ti c).1) :
    Shifts env R s (match capTableIndex s pid with
      | (s, none) => (s, e)
      | (s, some ti) =>
        if !ok ((s.tables ti).slots ch) then (s, e')
        else
          match handleChan s ((s.tables ti).slots ch) with
          | none => (s, e')
          | some c => f s ti c).1 := by
  refine tabled_shifts h (fun s1 ti hnone => by simp [hok _ (hnone ch hch)]) fun ti hown =>
    guard_chain fun _ => ?_
  split
  · exact .refl
  rename_i c hc
  obtain ⟨hlt, howned⟩ := handleChan_spec h.wires hc
  exact hf ti c hown hc hlt howned

/-- A call that makes something in the table of the process. -/
theorem bound_changes {f : State → ℕ → State × α} (h : Ready R s)
    (hf : ∀ s1 ti, s1.Owns pid ti → Ready R s1 → capTableIndex s pid = (s1, some ti) →
      s1 = { s with tables := s1.tables, tablePid := s1.tablePid } → Changes env R s1 (f s1 ti).1) :
    Changes env R s (match capTableIndex s pid with
      | (s, none) => (s, e)
      | (s, some ti) => f s ti).1 := by
  rcases capTableIndex_bound env R h pid with htab | ⟨s1, ti, htab, hown, hs, h1, heq⟩
  · rw [htab]
  · rw [htab]
    exact hs.changes.trans (hf s1 ti hown h1 htab heq)

end

end AeroSLS.Cap
