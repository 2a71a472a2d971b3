import AeroSLS.Cap.Linear

namespace AeroSLS.Cap

open Bytes Function Machine State

variable {env : Env} {R : Rules} {s : State} {pid ti c ref entry i o : ℕ} {d : Dir} {E : ℕ → Prop}
  {call : Call} {chR : ℕ}

lemma Changes.quiet (hs : Changes env R s s') (hR : R.Careful E)
    (ht : Tidy R.exact s) (h : Quiet E s) : Quiet E s' := by
  induction hs with
  | refl => exact h
  | tail hab hc ih => exact hc.quiet hR (Changes.tidy hab ht) ih

/-- No word may be moved into a queue. -/
def Rules.Sealed (R : Rules) : Prop := ∀ c d entry, ¬R.mayFill c d entry

lemma Shift.queue_named (hs : Shift env R s s') (hR : R.Sealed) (h : Tidy R.exact s)
    (hn : s'.named (.queue c ref d) = some o) : s.named (.queue c ref d) = some o := by
  rcases hs.named h with hsub | ⟨p, q, o', -, -, -, -, hfill, hnamed, -⟩
  · exact hsub _ _ hn
  rw [hnamed] at hn
  by_cases hq : CapHolder.queue c ref d = q
  · exact absurd (hfill c ref d hq.symm).2 (hR _ _ _)
  · grind

lemma Shifts.sealed (hs : Shifts env R s s') (hR : R.Sealed) (h : Ready R s) :
    (∀ o, (s'.objects o).kind = (s.objects o).kind ∧
      (s'.objects o).chanId = (s.objects o).chanId) ∧ ∀ c o, s'.Cargo c o → s.Cargo c o := by
  induction hs with
  | refl => exact ⟨fun _ => ⟨rfl, rfl⟩, fun _ _ h => h⟩
  | tail hab hs ih =>
    have ht := (Shifts.ready hab h).tidy
    refine ⟨fun o => ?_, fun c o ⟨htr, ref, d, hn⟩ => ih.2 c o ?_⟩
    · have hf := (hs.life ht o).fields
      exact ⟨hf.1.trans (ih.1 o).1, hf.2.trans (ih.1 o).2⟩
    · exact ⟨hs.tracked ht htr, ref, d, hs.queue_named hR ht hn⟩

/-- Nothing live is queued in the channel of the object, except words of the channel. -/
def State.Bare (s : State) (o : ℕ) : Prop :=
  (s.objects o).kind = .chan → ∀ o', s.Cargo (s.objects o).chanId o' → o' = o

lemma State.Bare.shifts (hb : s.Bare o) (hs : Shifts env R s s') (hR : R.Sealed)
    (h : Ready R s) : s'.Bare o := by
  obtain ⟨hobj, hcargo⟩ := hs.sealed hR h
  intro hkind o' ho'
  rw [(hobj o).1] at hkind
  rw [(hobj o).2] at ho'
  exact hb hkind o' (hcargo _ _ ho')

lemma bare_of_mem (hkind : (s.objects o).kind = .mem) : s.Bare o := by
  intro hchan
  rw [hkind] at hchan
  cases hchan

def exactRules (E : ℕ → Prop) : Rules :=
  { Rules.lenient fun _ => True with
    mayDie := fun s o => ((s.objects o).kind = .chan → E (s.objects o).chanId) ∨ s.Bare o }

/-- The same, for calls that put nothing into a queue. -/
def sealedRules (E : ℕ → Prop) : Rules := { exactRules E with mayFill := fun _ _ _ => False }

lemma exactRules_careful : (exactRules E).Careful E := by
  intro s o hdie hkind
  exact hdie.imp (fun h => h hkind) fun h => h hkind

lemma sealedRules_careful : (sealedRules E).Careful E := exactRules_careful

lemma sealedRules_sealed : (sealedRules E).Sealed := fun _ _ _ h => h

lemma Ready.sealed (h : Ready (exactRules E) s) : Ready (sealedRules E') s :=
  ⟨h.tidy, h.settled, h.kept, h.wires⟩

/-- The call drops the word of `o`: it is in the next message, at `lo` or later. -/
def State.DropsTail (s : State) (pid chR lo o : ℕ) : Prop :=
  ∃ ti c, s.Owns pid ti ∧ handleChan s ((s.tables ti).slots chR) = some c ∧
    let d := recvDir s c pid
    let entry := (s.channels c).qhead d % chanQueueDepth
    0 < (s.channels c).qdepth d ∧ ∃ i, lo ≤ i ∧ i < (s.msg c d entry).nCaps ∧
      s.word c d entry i ≠ 0 ∧ (s.word c d entry i).obj = o

/-- Proper calls under which holder nodes can be told apart and no channel dies with live words
queued in it. -/
def Call.Accountable (s : State) (call : Call) : Prop :=
  call.Proper s ∧ match call with
    | .send pid chW capIdx _ => capIdx ≠ capNone → NoTwin s pid chW [capIdx]
    | .sendMsg pid chan _ _ descs _ _ | .chanSend pid chan _ _ _ _ descs =>
      NoTwin s pid chan (descs.map SLSCapDesc.slot)
    | .recvMsg pid chR _ maxCaps => ∀ o, s.DropsTail pid chR maxCaps o → s.Bare o
    | .chanRecv pid chan _ nSlots => ∀ o, s.DropsTail pid chan (nSlots % 2 ^ 16) o → s.Bare o
    | .revoke pid capIdx => s.Bare (s.slotWord pid capIdx).obj
    | .teardown _ => ∀ c ref d o, s.named (.queue c ref d) = some o → s.Bare o
    | _ => True

lemma tailMayDie_of_bare (h : Ready (sealedRules E) s)
    (hb : ∀ o, s.DropsTail pid chR lo o → s.Bare o) :
    TailMayDie env (sealedRules E) s pid chR lo := by
  intro ti hown c hch d entry hpos i hlo hi hw s1 hs _
  exact .inr ((hb _ ⟨ti, c, hown, hch, hpos, i, hlo, hi, hw, rfl⟩).shifts hs sealedRules_sealed h)

lemma tailMayDie_one (h : Ready (sealedRules E) s) :
    TailMayDie env (sealedRules E) s pid chR 1 := by
  intro ti hown c hch d entry hpos i hlo hi hw s1 hs ho
  obtain ⟨hc, -⟩ := handleChan_spec h.wires hch
  have hl : s.Live c d entry := live_head hpos
  have hq := h.tidy.contents.queues c hc d entry hl
  have hi' : i < capMsgMaxCaps := lt_of_lt_of_le hi hq.1
  have hname := names_of_queued hc hl hi' h hw (Shifts.tracked hs h ho).1 (.inl trivial)
  obtain ⟨hknown, -, hmem⟩ := (hq.2 i hi').2 _ hname
  have hkind : (s.objects (s.word c d entry i).obj).kind = .mem := by
    have hfits := hknown.2
    rw [hmem hlo] at hfits
    cases hk : (s.objects (s.word c d entry i).obj).kind <;>
      simp_all [word, CapType.fits]
  exact .inr ((bare_of_mem hkind).shifts hs sealedRules_sealed h)

theorem State.Bare.marked (hb : s.Bare o) (h : Ready (sealedRules E) s)
    (ho : s.Tracked o) (hs : Drops env (sealedRules E) (s.mark o) s1) : s1.Bare o := by
  have hmark : Change env (sealedRules E) s (s.mark o) := .revoking o ho trivial
  have ht := hmark.tidy h.tidy
  obtain ⟨hkind', hchan'⟩ := hs.life ht o
  intro hkind o' ⟨htr, ref, d, hn⟩
  have hsame : ((s.mark o).objects o).kind = (s.objects o).kind ∧
      ((s.mark o).objects o).chanId = (s.objects o).chanId := by
    simp [mark, modObject]
  rw [hkind', hsame.1] at hkind
  rw [hchan', hsame.2] at hn
  refine hb hkind o' ⟨?_, ref, d, ?_⟩
  · have hmarked := Drops.tracked hs ht htr
    by_cases hoo : o' = o
    · exact hoo ▸ ho
    · simpa [State.Tracked, mark, modObject, hoo] using hmarked
  · have hnamed := hs.named ht hn
    rwa [mark] at hnamed

lemma mayTear_of_bare (h : Ready (sealedRules fun _ => False) s)
    (hb : ∀ c ref d o, s.named (.queue c ref d) = some o → s.Bare o) :
    MayTear env (sealedRules (· ∈ (slotsDropped s pid ti).2)) s pid ti where
  drain := by
    intro s1 s2 hs1 hs2 c hc d entry hl i hi hw ho
    have h' : Ready (sealedRules (· ∈ (slotsDropped s pid ti).2)) s :=
      ⟨h.tidy, h.settled, h.kept, h.wires⟩
    have h1 := Drops.ready hs1 h'
    have ho1 := Drops.tracked hs2 h1.tidy ho
    -- the word was queued when the teardown began
    have hname := names_of_queued hc hl hi h1 hw ho1.1 (.inl trivial)
    have hn : s1.named (queuePlace c d entry i) = some (s1.word c d entry i).obj := by
      rw [named_queuePlace hi, if_pos ⟨hc, hl⟩, hname]
    have hchain : Shifts env _ s s2 := Drops.shifts (hs1.trans hs2)
    exact .inr ((hb _ _ _ _ (Drops.named hs1 h'.tidy hn)).shifts hchain sealedRules_sealed h')
  slot := fun s1 o i _ _ _ hdead => .inl hdead

/-- Between calls, every key is exact and no channel without an owner holds a live word. -/
structure Accounted (s : State) : Prop where
  ready : Ready (exactRules fun _ => False) s
  quiet : Quiet (fun _ => False) s

lemma accounted_of_changes (h : Accounted s) (hR : R.exact = fun _ => True)
    (hcareful : R.Careful fun _ => False) (ha : call.Allowed env R s) :
    Accounted (step env s call) := by
  have hready : Ready R s := by
    refine ⟨?_, h.ready.settled, h.ready.kept, h.ready.wires⟩
    rw [hR]
    exact h.ready.tidy
  have hslots : R.Slots := by
    intro pid i
    rw [hR]
    trivial
  obtain ⟨hchain, hr⟩ := step_changes hready hslots (fun _ => h.quiet) ha
  refine ⟨⟨?_, hr.settled, hr.kept, hr.wires⟩, hchain.quiet hcareful hready.tidy h.quiet⟩
  have ht := hr.tidy
  rwa [hR] at ht

lemma sendAllowed_of_twin {chan : ℕ} {descs : List SLSCapDesc} (hpid : pid < 2 ^ 16)
    (hlt : ∀ desc ∈ descs, desc.slot < capTableEntries) (hnodup : (descs.map SLSCapDesc.slot).Nodup)
    (htwin : NoTwin s pid chan (descs.map SLSCapDesc.slot)) :
    SendAllowed (exactRules fun _ => False) s pid chan (descs.map SLSCapDesc.slot) := by
  refine ⟨hpid, fun slot hs => ?_, hnodup, fun _ => htwin, fun _ _ _ => trivial⟩
  obtain ⟨desc, hd, rfl⟩ := List.mem_map.1 hs
  exact hlt desc hd

/-- A teardown drains the channels that die with the slots of the process. -/
theorem Accounted.teardown (h : Accounted s) (hpid : pid < 2 ^ 16)
    (hb : ∀ c ref d o, s.named (.queue c ref d) = some o → s.Bare o) :
    Accounted (capTableTeardown env s pid) := by
  rcases hfind : capTableFind s pid with _ | ti
  · simp only [capTableTeardown, hfind]
    exact h
  have hready : Ready (sealedRules (· ∈ (slotsDropped s pid ti).2)) s := h.ready.sealed
  have htorn := capTableTeardown_spec env hready (fun _ _ => trivial) hpid hfind
    (mayTear_of_bare h.ready.sealed hb)
  have hr := Drops.ready htorn.drops hready
  refine ⟨⟨hr.tidy, hr.settled, hr.kept, hr.wires⟩, fun c _ hun o ho => ?_⟩
  have hq := (Drops.changes htorn.drops).quiet sealedRules_careful hready.tidy
    (fun c _ hun o => h.quiet c (fun hf => hf) hun o)
  by_cases hc : c ∈ (slotsDropped s pid ti).2
  · obtain ⟨-, ref, d, hn⟩ := ho
    rw [htorn.dead c hc ref d] at hn
    cases hn
  · exact hq c hc hun o ho

lemma Accounted.step (h : Accounted s) (ha : call.Accountable s) : Accounted (step env s call) := by
  have hsealed : call.Allowed env (sealedRules fun _ => False) s →
      Accounted (Cap.step env s call) :=
    accounted_of_changes h rfl sealedRules_careful
  have hexact : call.Allowed env (exactRules fun _ => False) s → Accounted (Cap.step env s call) :=
    accounted_of_changes h rfl exactRules_careful
  have hr : Ready (sealedRules fun _ => False) s := h.ready.sealed
  obtain ⟨hp, ha⟩ := ha
  cases call with
  | send pid chW capIdx cookie =>
    obtain ⟨hpid, hchW, hidx⟩ := hp
    refine hexact ⟨hpid, hchW, ?_, fun _ _ _ => trivial, fun hne => ⟨fun hv => ?_, fun _ => ha hne⟩⟩
    · omega
    · exact names_eq_some.2 ⟨hv, (hidx hne).2 hv, rfl⟩
  | recv => exact hsealed ⟨hp.1, hp.2.1, hp.2.2, tailMayDie_one hr⟩
  | sendMsg =>
    obtain ⟨hpid, hchan, hlt, hnodup⟩ := hp
    exact hexact ⟨hchan, sendAllowed_of_twin hpid hlt hnodup ha⟩
  | recvMsg => exact hsealed ⟨hp.1, hp.2, tailMayDie_of_bare hr ha⟩
  | chanSend =>
    obtain ⟨hpid, -, hlt, hnodup⟩ := hp
    exact hexact (sendAllowed_of_twin hpid hlt hnodup ha)
  | chanRecv => exact hsealed ⟨hp, tailMayDie_of_bare hr ha⟩
  | arenaFree => exact hsealed ⟨hp.1, hp.2, fun o _ hkind _ => .inr (bare_of_mem hkind)⟩
  | revoke =>
    exact hsealed ⟨hp, fun ho => ⟨trivial, fun s1 hs => .inr (State.Bare.marked ha hr ho hs)⟩⟩
  | teardown pid =>
    have htorn : Accounted (capTableTeardown env s pid) := h.teardown hp ha
    exact htorn
  | createMem | arenaAlloc | chanCreate | mintIrq | mintIo | mintDev | trampolineCreate | irqBind
  | irqNotify | chanClose | map | unmap => exact hsealed hp

lemma accounted_of_accountable (ha : Always (step env) Call.Accountable (capInit base) calls) :
    Accounted (run (step env) (capInit base) calls) :=
  run_induction ⟨ready_capInit, quiet_capInit⟩ (fun _ _ h hc => h.step hc) ha

/-- The holder list of an object in use lists, each once, the places of the valid words that
name it, and is counted. -/
def State.HoldersMatch (s : State) : Prop :=
  ∀ o, (s.objects o).active = true →
    (s.objects o).holders.Nodup ∧ (∀ p, p ∈ (s.objects o).holders ↔ s.named p = some o) ∧
      (s.objects o).refcount = (s.objects o).holders.length

lemma Accounted.holdersMatch (h : Accounted s) : s.HoldersMatch := by
  intro o hact
  obtain ⟨hreg, hcount⟩ := h.ready.tidy.held o (h.ready.tracked hact)
  refine ⟨?_, fun p => hreg.mem p trivial, hcount⟩
  refine List.nodup_iff_count_le_one.2 fun p => ?_
  refine le_trans ?_ (hreg.once p.key trivial)
  exact List.countP_mono_left fun q _ hq => by simp_all

/-- After every run of accountable calls the holder lists match the words. -/
theorem holdersMatch_of_accountable {base : ℕ} {calls : List Call}
    (ha : Always (step env) Call.Accountable (capInit base) calls) :
    (run (step env) (capInit base) calls).HoldersMatch :=
  (accounted_of_accountable ha).holdersMatch

lemma sharedPage_accountable : Always (step sampleEnv) Call.Accountable (capInit 0x200000)
      (sharedPage ++ [.sendMsg 100 2 none 0 [pageDesc] 7 0]) := by
  refine always_append.2 ⟨⟨⟨by show _ < _; decide, trivial⟩,
    ⟨⟨by decide, by decide⟩, trivial⟩, trivial⟩, ⟨⟨by decide, by decide, by decide, by decide⟩, ?_⟩,
    trivial⟩
  intro ti hown c hch j slot hj hn
  obtain rfl : 1 = ti := Option.some.inj hown
  obtain ⟨rfl, rfl⟩ : j = 0 ∧ slot = 0 := by
    cases j <;> simp_all [pageDesc]
  cases sharedPage_named hn

theorem holdersMatch_sent : (run (step sampleEnv) (capInit 0x200000)
      (sharedPage ++ [.sendMsg 100 2 none 0 [pageDesc] 7 0])).HoldersMatch :=
  holdersMatch_of_accountable sharedPage_accountable

/-- In a run of accountable calls everything in use is named by a slot of a process, or by a
message queued in a channel in use. -/
theorem nothing_lost {base : ℕ} {calls : List Call} {s : State}
    (ha : Always (step env) Call.Accountable (capInit base) calls)
    (hs : run (step env) (capInit base) calls = s) (hact : (s.objects o).active = true) :
    (∃ pid i, s.named (.slot pid i) = some o) ∨
      ∃ c ref d, s.named (.queue c ref d) = some o ∧ s.Owned c := by
  have h : Accounted s := hs ▸ accounted_of_accountable ha
  have htracked := h.ready.tracked hact
  obtain ⟨p, hp⟩ := List.exists_mem_of_ne_nil _ (h.ready.kept o htracked)
  have hn := (h.holdersMatch o hact).2.1 p |>.1 hp
  cases p with
  | slot pid i => exact .inl ⟨pid, i, hn⟩
  | queue c ref d =>
    refine .inr ⟨c, ref, d, hn, ?_⟩
    by_contra hun
    exact h.quiet c (fun hf => hf) hun o ⟨htracked, ref, d, hn⟩

theorem sentPage_not_lost : (∃ pid i, (run (step sampleEnv) (capInit 0x200000)
      (sharedPage ++ [.sendMsg 100 2 none 0 [pageDesc] 7 0])).named (.slot pid i) = some 0) ∨
    ∃ c ref d, (run (step sampleEnv) (capInit 0x200000)
      (sharedPage ++ [.sendMsg 100 2 none 0 [pageDesc] 7 0])).named (.queue c ref d) = some 0 ∧
      (run (step sampleEnv) (capInit 0x200000)
        (sharedPage ++ [.sendMsg 100 2 none 0 [pageDesc] 7 0])).Owned c :=
  nothing_lost sharedPage_accountable rfl (by decide)

/-- A message names the slot of a page twice, and then two more pages are made: both get
that slot. -/
def slotTwice : List Call :=
  sharedPage ++ [.sendMsg 100 2 none 0 [pageDesc, pageDesc] 7 0, .arenaAlloc 100 1 3,
    .arenaAlloc 100 1 3]

set_option maxRecDepth 8000 in
/-- The first of the two pages is still held by the slot, which has the word of the other. -/
theorem holders_mismatch : ¬(run (step sampleEnv) (capInit 0x200000) slotTwice).HoldersMatch := by
  intro h
  have hmem := ((h 2 (by decide)).2.1 (.slot 100 0)).1 (by decide)
  have hother : (run (step sampleEnv) (capInit 0x200000) slotTwice).named (.slot 100 0) =
      some 3 := by
    decide
  cases hmem

end AeroSLS.Cap
