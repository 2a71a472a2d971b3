import AeroSLS.Cap.Holders

namespace AeroSLS.Cap

open Bytes Function Machine Register List

variable {env : Env} {s s' : State} {pid ti c ref i o : ℕ} {d : Dir} {t : CapTable} {p : CapHolder}

/-- The objects that the CHAN_R words of a table name. -/
def CapTable.readEnds (t : CapTable) : Finset ℕ :=
  (((validSlots t).filter fun i => (t.slots i).ty = .chanR).map fun i => (t.slots i).obj).toFinset

lemma CapTable.mem_readEnds (hi : i ∈ validSlots t)
    (hty : (t.slots i).ty = .chanR) : (t.slots i).obj ∈ t.readEnds :=
  mem_toFinset.2 (mem_map_of_mem (mem_filter.2 ⟨hi, decide_eq_true hty⟩))

theorem mem_readObjects (hfit : t.readEnds.card ≤ capChanMax)
    (hi : i ∈ validSlots t) (hty : (t.slots i).ty = .chanR) :
    (t.slots i).obj ∈ readObjects t (validSlots t) := by
  -- the buffer holds distinct read ends, and after a slot it holds the slot's
  have hloop : ∀ (slots objs : List ℕ), (∀ i ∈ slots, i ∈ validSlots t) → objs.Nodup →
      (∀ o ∈ objs, o ∈ t.readEnds) →
      let objs' := slots.foldl (fun objs i =>
        if (t.slots i).ty = .chanR ∧ (t.slots i).obj ∉ objs ∧ objs.length < capChanMax then
          objs ++ [(t.slots i).obj] else objs) objs
      (∀ o ∈ objs, o ∈ objs') ∧ ∀ i ∈ slots, (t.slots i).ty = .chanR → (t.slots i).obj ∈ objs' := by
    intro slots
    induction slots with
    | nil => exact fun objs _ _ _ => ⟨fun _ h => h, fun _ h => by cases h⟩
    | cons j slots ih =>
      intro objs hvalid hnodup hsub
      have hj := hvalid j mem_cons_self
      have hrest : ∀ i ∈ slots, i ∈ validSlots t := fun i hi => hvalid i (mem_cons_of_mem _ hi)
      rw [foldl_cons]
      split_ifs with hnew
      · have hmem := CapTable.mem_readEnds hj hnew.1
        obtain ⟨hkeep, hall⟩ := ih (objs ++ [(t.slots j).obj]) hrest
          (hnodup.append (nodup_singleton _) (by simpa using hnew.2.1))
          (by simpa [or_imp, forall_and] using ⟨hsub, hmem⟩)
        refine ⟨fun o ho => hkeep o (mem_append_left _ ho), fun i hi hty => ?_⟩
        rcases mem_cons.1 hi with rfl | hi
        · exact hkeep _ (by simp)
        · exact hall i hi hty
      · obtain ⟨hkeep, hall⟩ := ih objs hrest hnodup hsub
        refine ⟨hkeep, fun i hi hty => ?_⟩
        rcases mem_cons.1 hi with rfl | hi
        · refine hkeep _ ?_
          by_contra hout
          have hmem := CapTable.mem_readEnds hj hty
          have hlong : capChanMax ≤ objs.length := by grind
          have hcard : ((t.slots i).obj :: objs).toFinset.card ≤ t.readEnds.card := by
            refine Finset.card_le_card fun o ho => ?_
            rcases mem_cons.1 (mem_toFinset.1 ho) with rfl | ho
            · exact hmem
            · exact hsub o ho
          rw [toFinset_card_of_nodup (nodup_cons.2 ⟨hout, hnodup⟩), length_cons] at hcard
          omega
        · exact hall i hi hty
  exact (hloop (validSlots t) [] (fun _ h => h) .nil (fun _ h => by cases h)).2 i hi hty

/-- The process holds a read end of the channel, and this is the queue it reads. -/
def State.Reads (s : State) (pid c : ℕ) (d : Dir) : Prop :=
  ∃ i o, (s.slotWord pid i).ty = .chanR ∧ s.named (.slot pid i) = some o ∧
    (s.objects o).active = true ∧ (s.objects o).kind = .chan ∧ (s.objects o).chanId = c ∧
      d = recvDir s c pid

/-- A table as `cap_init` leaves it, up to the fields of mapping records not in use. -/
def CapTable.Fresh (t : CapTable) : Prop :=
  t = { (capInit 0).tables 0 with maps := t.maps } ∧ ∀ i < capMapMax, (t.maps i).active = false

structure Reclaimed (s s' : State) (pid : ℕ) : Prop where
  holders : ∀ o, (s'.objects o).active = true → ∀ i, .slot pid i ∉ (s'.objects o).holders
  orphans : ∀ o, (s.objects o).active = true →
    (∀ p ∈ (s.objects o).holders, (∃ i, p = .slot pid i) ∨
      ∃ c ref d, p = .queue c ref d ∧ s.Reads pid c d) → (s'.objects o).active = false
  table : ∀ ti, s.Owns pid ti → (s'.tables ti).Fresh ∧ s'.tablePid ti = 0
  others : ∀ tj, ¬s.Owns pid tj → s'.tables tj = s.tables tj ∧ s'.tablePid tj = s.tablePid tj

/-- Every key is followed exactly, and everything is allowed. -/
abbrev fullRules : Rules := .lenient fun _ => True

lemma Ready.mem_holders (h : Ready fullRules s) (hact : (s.objects o).active) :
    p ∈ (s.objects o).holders ↔ s.named p = some o :=
  (h.tidy.held o (h.tracked hact)).1.mem p trivial

lemma Ready.exists_holder (h : Ready fullRules s) (hact : (s.objects o).active) :
    ∃ p ∈ (s.objects o).holders, s.named p = some o := by
  obtain ⟨p, hp⟩ := exists_mem_of_ne_nil _ (h.kept o (h.tracked hact))
  exact ⟨p, hp, (h.mem_holders hact).1 hp⟩

lemma TornDown.survivor (htorn : TornDown env fullRules s s' pid ti) (h : Ready fullRules s)
    (hown : s.Owns pid ti) (hfit : (s.tables ti).readEnds.card ≤ capChanMax)
    (hn : s'.named p = some o) : s.named p = some o ∧ (∀ i, p ≠ .slot pid i) ∧
      ∀ c ref d, p = .queue c ref d → ¬s.Reads pid c d := by
  refine ⟨htorn.drops.named h.tidy hn, fun i hp => ?_, fun c ref d hp => ?_⟩
  · rw [hp, htorn.gone] at hn
    cases hn
  rintro ⟨i, oc, hty, hslot, hact, hkind, rfl, rfl⟩
  rw [slotWord_owned hown] at hty
  obtain ⟨tj, hown', hi, hw⟩ := exists_of_named_slot hslot
  obtain rfl : tj = ti := Option.some.inj (hown'.symm.trans hown)
  obtain ⟨hvalid, -, hoc⟩ := names_eq_some.1 hw
  have hmem := mem_readObjects hfit (mem_validSlots.2 ⟨hi, hvalid⟩) hty
  rw [hoc] at hmem
  rw [hp, htorn.read oc hmem i hslot (h.tracked hact) hkind] at hn
  cases hn

/-- If the buffer has room for the read ends of the process, its teardown is complete. -/
theorem Accounted.reclaimed (h : Accounted s) (hpid : pid < 2 ^ 16)
    (hfit : ∀ ti, s.Owns pid ti → (s.tables ti).readEnds.card ≤ capChanMax) :
    Reclaimed s (capTableTeardown env s pid) pid := by
  have hready : Ready fullRules s := ⟨h.ready.tidy, h.ready.settled, h.ready.kept, h.ready.wires⟩
  cases hfind : capTableFind s pid with
  | none =>
    have hnot : ∀ ti, ¬s.Owns pid ti := by grind [State.Owns]
    have hsame : capTableTeardown env s pid = s := by simp only [capTableTeardown, hfind]
    have hno : ∀ p o, s.named p = some o → ∀ i, p ≠ .slot pid i := by grind [exists_of_named_slot]
    rw [hsame]
    refine ⟨fun o hact i hmem => ?_, fun o hact honly => ?_, fun ti hown => absurd hown (hnot ti),
      fun _ _ => ⟨rfl, rfl⟩⟩
    · exact hno _ _ ((hready.mem_holders hact).1 hmem) i rfl
    · obtain ⟨p, hp, hn⟩ := hready.exists_holder hact
      rcases honly p hp with ⟨i, hi⟩ | ⟨c, ref, d, -, i, oc, -, hslot, -⟩
      · exact absurd hi (hno p o hn i)
      · exact absurd rfl (hno _ oc hslot i)
  | some ti =>
    have htorn := capTableTeardown_spec env hready (fun _ _ => trivial) hpid hfind
      ⟨fun _ _ _ _ _ _ _ _ _ _ _ _ _ => trivial, fun _ _ _ _ _ _ _ => trivial⟩
    have hafter := htorn.drops.ready hready
    have hother : ∀ tj, ¬s.Owns pid tj → tj ≠ ti := by
      rintro tj hno rfl
      exact hno hfind
    refine ⟨fun o hact i hmem => ?_, fun o hact honly => ?_, fun tj hown => ?_, fun tj hno => ?_⟩
    · have hn := (hafter.mem_holders hact).1 hmem
      exact (htorn.survivor hready hfind (hfit ti hfind) hn).2.1 i rfl
    · by_contra hstill
      obtain ⟨p, -, hp⟩ := hafter.exists_holder (Bool.eq_true_of_not_eq_false hstill)
      obtain ⟨hbefore, hslot, hread⟩ := htorn.survivor hready hfind (hfit ti hfind) hp
      rcases honly p ((hready.mem_holders hact).2 hbefore) with ⟨i, hi⟩ | ⟨c, ref, d, hp, hreads⟩
      · exact hslot i hi
      · exact hread c ref d hp hreads
    · obtain rfl : tj = ti := Option.some.inj (hown.symm.trans hfind)
      refine ⟨⟨?_, htorn.maps⟩, ?_⟩
      · rw [CapTable.mk.injEq]
        exact ⟨htorn.unbound, htorn.slots.1, htorn.slots.2, rfl⟩
      · rw [htorn.tablePid, update_self]
    · exact ⟨htorn.others tj (hother tj hno), by rw [htorn.tablePid, update_of_ne (hother tj hno)]⟩

/-- After accountable calls a process whose read ends fit the buffer is reclaimed by its
teardown. -/
theorem reclaimed_of_accountable {base : ℕ} {calls : List Call}
    (ha : Always (step env) Call.Accountable (capInit base) calls) (hpid : pid < 2 ^ 16)
    (hfit : ∀ ti, (run (step env) (capInit base) calls).Owns pid ti →
      ((run (step env) (capInit base) calls).tables ti).readEnds.card ≤ capChanMax) :
    Reclaimed (run (step env) (capInit base) calls)
      (capTableTeardown env (run (step env) (capInit base) calls) pid) pid :=
  (accounted_of_accountable ha).reclaimed hpid hfit

lemma CapTable.card_readEnds_le (h : ∀ i, n ≤ i → (t.slots i).ty = .none) :
    t.readEnds.card ≤ n := by
  calc t.readEnds.card ≤ ((Finset.range n).image fun i => (t.slots i).obj).card := by
        refine Finset.card_le_card fun o ho => ?_
        obtain ⟨i, hi, rfl⟩ := mem_map.1 (mem_toFinset.1 ho)
        have hty : (t.slots i).ty = .chanR := by simpa using (mem_filter.1 hi).2
        refine Finset.mem_image.2 ⟨i, Finset.mem_range.2 ?_, rfl⟩
        by_contra hge
        rw [h i (Nat.not_lt.1 hge)] at hty
        cases hty
    _ ≤ (Finset.range n).card := Finset.card_image_le
    _ = n := Finset.card_range n

theorem reclaimed_reader : Reclaimed (run (step sampleEnv) (capInit 0x200000)
        (sharedPage ++ [.sendMsg 100 2 none 0 [pageDesc] 7 0]))
      (capTableTeardown sampleEnv (run (step sampleEnv) (capInit 0x200000)
        (sharedPage ++ [.sendMsg 100 2 none 0 [pageDesc] 7 0])) 101) 101 := by
  refine reclaimed_of_accountable sharedPage_accountable (by decide) fun ti hown => ?_
  obtain rfl : 2 = ti := Option.some.inj hown
  refine (CapTable.card_readEnds_le (n := 2) fun i hi => ?_).trans (by decide)
  change (update (update (update (update freshSlots 0 _) 1 _) 0 _) 1 _ i).ty = .none
  rw [update_of_ne (by omega), update_of_ne (by omega), update_of_ne (by omega),
    update_of_ne (by omega)]
  rfl

/-- The process 100 has taken the first `n` pages of the arena, each into the slot of its number. -/
def hoarded (n : ℕ) : State :=
  let s := (capTableIndex (capInit 0x200000) 100).1
  { s with
    tables := update s.tables 1 { s.tables 1 with
      freelistHead := if n < capTableEntries then n else capFreelistEnd
      slots := fun i => if i < n then capWordMake .mem i 3 0 1 else freshSlots i }
    objects := fun o => if o < n then
        { freshObject o .mem with
          holders := [.slot 100 o], refcount := 1
          physBase := s.arenaBase + o * pageBytes, npages := 1 }
      else s.objects o
    objNext := n
    holderFree := s.holderFree - n
    arenaUsed := fun f => if f < n then true else s.arenaUsed f
    arenaOwner := fun f => if f < n then f else s.arenaOwner f }

lemma findRun_first {used : ℕ → Bool} (hused : ∀ f, start ≤ f → f < n → used f)
    (hfree : used n = false)
    (hle : start ≤ n) (htries : n < start + tries) : findRun used 1 tries start = some n := by
  induction tries generalizing start with
  | zero => omega
  | succ tries ih =>
    rcases Nat.eq_or_lt_of_le hle with rfl | hlt
    · simp [findRun, hfree]
    · have hhead := hused start le_rfl hlt
      have hrest := ih (fun f hf => hused f (Nat.le_of_succ_le hf)) hlt (by omega)
      simpa [findRun, hhead] using hrest

lemma capArenaAlloc_one {s : State} (hbase : s.arenaBase ≠ 0)
    (hindex : capTableIndex s pid = (s, some ti))
    (hobj : s.objNext < capObjectMax) (hrun : findRun s.arenaUsed 1 capArenaFrames 0 = some f)
    (hhead : (s.tables ti).freelistHead ≠ capFreelistEnd) (hholder : s.holderFree ≠ 0) :
    capArenaAlloc s pid 1 3 =
      let o := s.objNext
      let t := s.tables ti
      let idx := t.freelistHead
      ({ s with
        tables := update s.tables ti { t with
          freelistHead := (t.slots idx).obj % 2 ^ 16
          slots := update t.slots idx (capWordMake .mem o 3 0 1) }
        objects := update s.objects o { freshObject o .mem with
          holders := [.slot (pid % 2 ^ 16) idx], refcount := 1
          physBase := s.arenaBase + f * pageBytes, npages := 1 }
        objNext := o + 1
        holderFree := s.holderFree - 1
        arenaUsed := fun g => if f ≤ g ∧ g < f + 1 then true else s.arenaUsed g
        arenaOwner := fun g => if f ≤ g ∧ g < f + 1 then o else s.arenaOwner g }, .ok idx) := by
  have hperm : memPermsOk 3 = true := by decide
  have hobj' := Nat.not_le.mpr hobj
  simp only [capArenaFrames] at hrun
  simp [capArenaAlloc, capViewMaxPages, hperm, hbase, hindex, capObjectAlloc, hobj',
    capArenaAllocRun,
    capArenaFrames, hrun, installFirst, capSlotPop, hhead, State.modObject, State.modTable,
      capHolderAlloc, hholder,
    capHolderLink, State.setSlot, freshObject]

lemma step_hoarded (hn : n < capTableEntries) :
    step sampleEnv (hoarded n) (.arenaAlloc 100 1 3) = hoarded (n + 1) := by
  simp only [capTableEntries] at hn
  have hrun : findRun (hoarded n).arenaUsed 1 capArenaFrames 0 = some n :=
    findRun_first (fun f _ hf => if_pos hf) (by simp [hoarded]; rfl) (Nat.zero_le n)
      (by simp only [capArenaFrames]; omega)
  have hhead : ((hoarded n).tables 1).freelistHead = n := if_pos hn
  have hend : ((hoarded n).tables 1).freelistHead ≠ capFreelistEnd := by
    rw [hhead]
    simp only [capFreelistEnd]
    omega
  have hholder : (hoarded n).holderFree ≠ 0 := by
    show 8192 - n ≠ 0
    omega
  have hobj : (hoarded n).objNext < capObjectMax := by
    show n < 1024
    omega
  have hstep :=
    capArenaAlloc_one (by decide : (0x200000 : ℕ) ≠ 0)
    (rfl : capTableIndex (hoarded n) 100 = (hoarded n, some 1)) hobj hrun hend hholder
  simp only [hhead] at hstep
  rw [step, hstep]
  unfold hoarded
  dsimp only
  congr 1
  · rw [update_self, update_idem]
    congr 1
    congr 1
    · simp only [Nat.lt_irrefl, if_false, freshSlots, freeLink]
      by_cases hlt : n + 1 < capTableEntries
      · rw [if_pos hlt, Nat.mod_eq_of_lt (by omega)]
      · rw [if_neg hlt]
        rfl
    · funext i
      by_cases hi : i = n
      · simp [hi]
      · rw [update_of_ne hi]
        grind
  · funext o
    by_cases ho : o = n
    · simp [ho]
    · rw [update_of_ne ho]
      grind
  · funext f
    grind
  · funext f
    grind

lemma run_hoarded (hpos : 0 < n) (hn : n ≤ capTableEntries) :
    run (step sampleEnv) (capInit 0x200000) (replicate n (.arenaAlloc 100 1 3)) = hoarded n := by
  induction n, hpos using Nat.le_induction with
  | base =>
    have htables := update_eq_self 1 (capTableIndex (capInit 0x200000) 100).1.tables
    have hzero : hoarded 0 = (capTableIndex (capInit 0x200000) 100).1 := by
      simp only [hoarded, Nat.not_lt_zero, if_false]
      exact congrArg (fun tables =>
        { (capTableIndex (capInit 0x200000) 100).1 with tables }) htables
    rw [← step_hoarded hn, hzero]
    rfl
  | succ n _ ih =>
    rw [replicate_succ', run_append, ih (Nat.le_of_succ_le hn)]
    exact step_hoarded hn

/-- Process 100 fills its table and tries `CAP_CHAN_MAX` times to make a channel to 101; process
102 makes one and sends a page through it. -/
def staleEnds : List Call :=
  replicate capTableEntries (.arenaAlloc 100 1 3) ++
    replicate capChanMax (.chanCreate 100 101) ++
      [.chanCreate 102 101, .arenaAlloc 102 1 3, .send 102 1 2 0]

/-- The state in which the page is sent. -/
def crowded : State :=
  step sampleEnv (step sampleEnv (run (step sampleEnv) (hoarded capTableEntries)
    (replicate capChanMax (.chanCreate 100 101))) (.chanCreate 102 101)) (.arenaAlloc 102 1 3)

/-- The state in which 101 is torn down. -/
def missed : State := step sampleEnv crowded (.send 102 1 2 0)

lemma run_staleEnds : run (step sampleEnv) (capInit 0x200000) staleEnds = missed := by
  rw [staleEnds, run_append, run_append, run_hoarded (by decide) le_rfl, missed, crowded]
  rfl

set_option maxRecDepth 100000 in
lemma missed_spec :
    (capTableFind crowded 102 = some 3 ∧ handleChan crowded ((crowded.tables 3).slots 1) = some 0 ∧
      crowded.named (queuePlace 0 (!sendDir crowded 0 102)
        ((crowded.channels 0).qtail (sendDir crowded 0 102) % chanQueueDepth) 0) = none ∧
      (crowded.slotWord 102 2).ty.namesObject) ∧
    ((missed.slotWord 101 128).ty = .chanR ∧ missed.named (.slot 101 128) = some 576 ∧
      (missed.objects 576).active ∧ (missed.objects 576).kind = .chan ∧
      (missed.objects 576).chanId = 0 ∧ true = recvDir missed 0 101) ∧
    (missed.objects 577).active ∧ (missed.objects 577).holders = [.queue 0 0 true] ∧
    ((capTableTeardown sampleEnv missed 101).objects 577).active := by
  decide +kernel

lemma crowded_send : Call.Accountable crowded (.send 102 1 2 0) := by
  obtain ⟨⟨htable, hchan, hempty, hname⟩, -⟩ := missed_spec
  refine ⟨⟨by decide, by decide, fun _ => ⟨by decide, fun _ => hname⟩⟩,
    fun _ ti hown c hch j slot hj => ?_⟩
  obtain rfl : 3 = ti := Option.some.inj (htable.symm.trans hown)
  obtain rfl : 0 = c := Option.some.inj (hchan.symm.trans hch)
  obtain rfl : j = 0 := Nat.lt_one_iff.1 (List.getElem?_eq_some_iff.1 hj).1
  rw [hempty]
  simp

lemma staleEnds_accountable :
    Always (step sampleEnv) Call.Accountable (capInit 0x200000) staleEnds := by
  have halloc : ∀ pid, pid < 2 ^ 16 → ∀ s, Call.Accountable s (.arenaAlloc pid 1 3) :=
    fun _ hpid _ => ⟨hpid, trivial⟩
  have hcreate : ∀ p q, p < 2 ^ 16 → q < 2 ^ 16 → ∀ s, Call.Accountable s (.chanCreate p q) :=
    fun _ _ hp hq _ => ⟨⟨hp, hq⟩, trivial⟩
  refine always_append.2 ⟨always_append.2 ⟨?_, ?_⟩, hcreate 102 101 (by decide) (by decide) _,
    halloc 102 (by decide) _, ?_, trivial⟩
  · exact always_of_forall fun a ha s => eq_of_mem_replicate ha ▸ halloc 100 (by decide) s
  · exact always_of_forall fun a ha s =>
      eq_of_mem_replicate ha ▸ hcreate 100 101 (by decide) (by decide) s
  · rw [run_append, run_hoarded (by decide) le_rfl]
    exact crowded_send

/-- The page was sent to 101 and nobody else has it, but it survives the teardown of 101. -/
theorem read_end_missed : (run (step sampleEnv) (capInit 0x200000) staleEnds).HoldersMatch ∧
      ¬Reclaimed (run (step sampleEnv) (capInit 0x200000) staleEnds)
        (capTableTeardown sampleEnv (run (step sampleEnv) (capInit 0x200000) staleEnds) 101)
          101 := by
  refine ⟨(accounted_of_accountable staleEnds_accountable).holdersMatch, fun h => ?_⟩
  rw [run_staleEnds] at h
  obtain ⟨-, ⟨hty, hslot, hact, hkind, hch, hdir⟩, hpage, hholders, hafter⟩ := missed_spec
  have hgone := h.orphans 577 hpage fun p hp => by
    rw [hholders, mem_singleton] at hp
    exact .inr ⟨0, 0, true, hp, 128, 576, hty, hslot, hact, hkind, hch, hdir⟩
  rw [hafter] at hgone
  cases hgone

end AeroSLS.Cap
