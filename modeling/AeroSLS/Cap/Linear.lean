import Mathlib.Data.Set.Card
import AeroSLS.Cap.Calls

namespace AeroSLS.Cap

open Bytes Function Machine Chain

variable {env : Env} {s : State} {pid ti i o : ℕ}

/-- The keys in `D` are followed exactly, and everything is allowed. -/
def Rules.lenient (D : HolderKey → Prop) : Rules where
  exact := D
  mayDie _ _ := True
  mayRevoke _ := True
  mayFill _ _ _ := True

def HolderKey.isSlot : HolderKey → Prop
  | .slot _ _ => True
  | .queue _ _ => False

/-- Only the slots are followed exactly. -/
def slotRules : Rules := .lenient HolderKey.isSlot

lemma not_exact_slotRules : ¬slotRules.Exact := fun ⟨_, _, _, h⟩ => h

/-- What the calls rely on and do not check: pids fit the 16 bits that a holder node keeps
of them, slots are slots of a table, a message names no slot twice, a word that is sent
names an object, and the head of a queue that `cap_recv` reads still has its first word. -/
def Call.Proper (s : State) : Call → Prop
  | .createMem pid _ _ _ | .arenaAlloc pid _ _ | .mintDev pid _ _ _ | .irqBind pid _ _
  | .chanRecv pid _ _ _ | .teardown pid => pid < 2 ^ 16
  | .chanCreate pid farPid => pid < 2 ^ 16 ∧ farPid < 2 ^ 16
  | .send pid chW capIdx _ => pid < 2 ^ 16 ∧ chW < capTableEntries ∧
    (capIdx ≠ capNone → capIdx < capTableEntries ∧
      (capWordValid (s.slotWord pid capIdx) → (s.slotWord pid capIdx).ty.namesObject))
  | .recv pid chR => pid < 2 ^ 16 ∧ chR < capTableEntries ∧ HeadIntact s pid chR
  | .sendMsg pid chan _ _ descs _ _ | .chanSend pid chan _ _ _ _ descs =>
    pid < 2 ^ 16 ∧ chan < capTableEntries ∧ (∀ desc ∈ descs, desc.slot < capTableEntries) ∧
      (descs.map SLSCapDesc.slot).Nodup
  | .recvMsg pid capIdx _ _ | .arenaFree pid capIdx => pid < 2 ^ 16 ∧ capIdx < capTableEntries
  | .revoke _ capIdx | .map _ capIdx _ _ _ => capIdx < capTableEntries
  | .mintIrq .. | .mintIo .. | .trampolineCreate .. | .irqNotify .. | .chanClose .. | .unmap .. =>
    True

lemma Call.Proper.allowed {call : Call} (h : call.Proper s) : call.Allowed env slotRules s := by
  have hsend : ∀ {pid chan : ℕ} {descs : List SLSCapDesc}, pid < 2 ^ 16 →
      (∀ desc ∈ descs, desc.slot < capTableEntries) → (descs.map SLSCapDesc.slot).Nodup →
        SendAllowed slotRules s pid chan (descs.map SLSCapDesc.slot) := by
    intro pid chan descs hpid hlt hnodup
    refine ⟨hpid, fun slot hs => ?_, hnodup, fun hx => absurd hx not_exact_slotRules,
      fun _ _ _ => trivial⟩
    obtain ⟨desc, hd, rfl⟩ := List.mem_map.1 hs
    exact hlt desc hd
  have htail : ∀ {pid chR lo : ℕ}, TailMayDie env slotRules s pid chR lo :=
    fun _ _ _ _ _ _ _ _ _ _ _ _ => trivial
  cases call with
  | send pid chW capIdx cookie =>
    obtain ⟨hpid, hchW, hidx⟩ := h
    refine ⟨hpid, hchW, ?_, fun _ _ _ => trivial, fun hne => ⟨fun hv => ?_, fun hx => ?_⟩⟩
    · omega
    · exact names_eq_some.2 ⟨hv, (hidx hne).2 hv, rfl⟩
    · exact absurd hx not_exact_slotRules
  | recv => exact ⟨h.1, h.2.1, h.2.2, htail⟩
  | sendMsg => exact ⟨h.2.1, hsend h.1 h.2.2.1 h.2.2.2⟩
  | recvMsg => exact ⟨h.1, h.2, htail⟩
  | chanSend => exact hsend h.1 h.2.2.1 h.2.2.2
  | chanRecv => exact ⟨h, htail⟩
  | arenaFree => exact ⟨h.1, h.2, fun _ _ _ _ => trivial⟩
  | revoke => exact ⟨h, fun _ => ⟨trivial, fun _ _ => trivial⟩⟩
  | teardown =>
    refine ⟨h, fun ti _ => ⟨?_, ?_⟩⟩
    · exact fun _ _ _ _ _ _ _ _ _ _ _ _ _ => trivial
    · exact fun _ _ _ _ _ _ _ => trivial
  | _ => exact h

lemma ready_of_proper {base : ℕ} {calls : List Call}
    (hp : Always (step env) Call.Proper (capInit base) calls) :
    Ready slotRules (run (step env) (capInit base) calls) :=
  run_induction ready_capInit (fun _ _ h hc =>
    (step_changes h (fun _ _ => trivial) (fun hx => absurd hx not_exact_slotRules) hc.allowed).2) hp

/-- The number of valid words, in slots and in queued messages, that name an object. -/
noncomputable def State.wordCount (s : State) (o : ℕ) : ℕ∞ :=
  {p : CapHolder | s.named p = some o}.encard

lemma Shift.wordCount (hs : Shift env R s s') (h : Tidy R.exact s) :
    s'.wordCount o ≤ s.wordCount o := by
  rcases hs.named h with hsub | ⟨p, q, o', hpq, -, hp, -, -, hnamed, -⟩
  · exact Set.encard_le_encard fun x hx => hsub x o hx
  by_cases hoo : o = o'
  · subst hoo
    -- the word leaves `p` and comes to `q`
    have hsub : {x | s'.named x = some o} ⊆ insert q ({x | s.named x = some o} \ {p}) := by
      intro x hx
      rw [Set.mem_ofPred_eq, hnamed] at hx
      by_cases hxq : x = q
      · exact .inl hxq
      · grind
    calc s'.wordCount o ≤ (insert q ({x | s.named x = some o} \ {p})).encard :=
          Set.encard_le_encard hsub
      _ ≤ ({x | s.named x = some o} \ {p}).encard + 1 := Set.encard_insert_le ..
      _ = s.wordCount o := Set.encard_sdiff_singleton_add_one hp
  · refine Set.encard_le_encard fun x hx => ?_
    rw [Set.mem_ofPred_eq, hnamed] at hx
    by_cases hxq : x = q
    · grind
    · grind

lemma Shifts.wordCount (hs : Shifts env R s s') (h : Ready R s) :
    s'.wordCount o ≤ s.wordCount o := by
  induction hs with
  | refl => exact le_rfl
  | tail hab hs ih => exact (hs.wordCount (Shifts.ready hab h).tidy).trans ih

def CapTable.FreeListOk (t : CapTable) : Prop :=
  FreeList (fun i => (t.slots i).obj % 2 ^ 16) capFreelistEnd t.freelistHead
    fun i => i < capTableEntries ∧ (t.slots i).ty = .none

/-- In every run of proper calls the free lists are intact, and no transfer raises the number of
words of an object. -/
theorem linear_of_proper {base : ℕ} {calls : List Call}
    (hp : Always (step env) Call.Proper (capInit base) calls) :
    (∀ ti < capTableMax, ((run (step env) (capInit base) calls).tables ti).FreeListOk) ∧
      ∀ call : Call, call.isTransfer = true →
        call.Proper (run (step env) (capInit base) calls) → ∀ o,
          (step env (run (step env) (capInit base) calls) call).wordCount o ≤
            (run (step env) (capInit base) calls).wordCount o := by
  have h := ready_of_proper hp
  refine ⟨h.tidy.tables.free, fun call hc hcall o => ?_⟩
  exact (transfer_shifts h hc hcall.allowed).wordCount h

/-- The process 100 has a page at slot 0 and the write end of a channel to 101 at slot 2. -/
def sharedPage : List Call := [.arenaAlloc 100 1 3, .chanCreate 100 101]

def pageDesc : SLSCapDesc := { slot := 0, offset := 0, len := 4096, rights := 1, flags := 0 }

lemma sharedPage_proper : Always (step sampleEnv) Call.Proper (capInit 0x200000) sharedPage := by
  refine ⟨?_, ⟨?_, ?_⟩, trivial⟩ <;> show _ < _ <;> decide

theorem linear_sent_once :
    (((run (step sampleEnv) (capInit 0x200000) sharedPage).tables 1).FreeListOk) ∧
      (step sampleEnv (run (step sampleEnv) (capInit 0x200000) sharedPage)
        (.sendMsg 100 2 none 0 [pageDesc] 7 0)).wordCount 0 ≤
        (run (step sampleEnv) (capInit 0x200000) sharedPage).wordCount 0 :=
  ⟨(linear_of_proper sharedPage_proper).1 1 (by decide),
    (linear_of_proper sharedPage_proper).2 (.sendMsg 100 2 none 0 [pageDesc] 7 0) rfl
      ⟨by decide, by decide, by decide, by decide⟩ 0⟩

/-- Before anything is sent, the page has one word. -/
theorem sharedPage_named
    (hp : (run (step sampleEnv) (capInit 0x200000) sharedPage).named p = some 0) :
    p = .slot 100 0 := by
  have h := ready_of_proper sharedPage_proper
  cases p with
  | slot pid i =>
    have hmem := ((h.tidy.held 0 ⟨by decide, by decide⟩).1.mem (.slot pid i) trivial).2 hp
    exact List.mem_singleton.1 hmem
  | queue c ref d =>
    obtain ⟨entry, i, -, -, -, ⟨-, hl⟩, -⟩ := exists_of_named_queue hp
    have hdepth :
        ((run (step sampleEnv) (capInit 0x200000) sharedPage).channels c).qdepth d = 0 := by
      change (update (fun _ => zeroChannel) 0 _ c).qdepth d = 0
      by_cases hc : c = 0
      · rw [hc, update_self]
        rfl
      · rw [update_of_ne hc]
        rfl
    rw [hdepth] at hl
    exact absurd hl (Nat.not_lt_zero _)

set_option maxRecDepth 8000 in
/-- With one slot in two descriptors the page gets a second word, and the sender's free list
becomes a loop. -/
theorem words_doubled : (run (step sampleEnv) (capInit 0x200000) sharedPage).wordCount 0 <
        (step sampleEnv (run (step sampleEnv) (capInit 0x200000) sharedPage)
          (.sendMsg 100 2 none 0 [pageDesc, pageDesc] 7 0)).wordCount 0 ∧
      ¬((step sampleEnv (run (step sampleEnv) (capInit 0x200000) sharedPage)
          (.sendMsg 100 2 none 0 [pageDesc, pageDesc] 7 0)).tables 1).FreeListOk := by
  constructor
  · have hone : (run (step sampleEnv) (capInit 0x200000) sharedPage).wordCount 0 ≤ 1 :=
      Set.encard_le_one_iff.2 fun p q hp hq =>
        (sharedPage_named hp).trans (sharedPage_named hq).symm
    have htwo : 1 < (step sampleEnv (run (step sampleEnv) (capInit 0x200000) sharedPage)
        (.sendMsg 100 2 none 0 [pageDesc, pageDesc] 7 0)).wordCount 0 := by
      refine Set.one_lt_encard_iff.2 ⟨.queue 0 0 true, .queue 0 1 true, ?_, ?_, by decide⟩
      · decide
      · decide
    exact hone.trans_lt htwo
  · intro hfree
    -- the head is slot 0, and its link leads back to it
    have hhead : ((step sampleEnv (run (step sampleEnv) (capInit 0x200000) sharedPage)
        (.sendMsg 100 2 none 0 [pageDesc, pageDesc] 7 0)).tables 1).freelistHead = 0 := by decide
    have hlink : (((step sampleEnv (run (step sampleEnv) (capInit 0x200000) sharedPage)
        (.sendMsg 100 2 none 0 [pageDesc, pageDesc] 7 0)).tables 1).slots 0).obj % 2 ^ 16 = 0 := by
      decide
    have hpop := FreeList.pop hfree (by rw [hhead]; decide)
    have hmem := FreeList.head_mem hpop (by rw [hhead]; decide)
    exact hmem.2 rfl

/-- In a run of proper calls a valid word names an object made for its type, no two objects in
use share a channel, and vectors are bound to channels in use. -/
theorem objects_fit_words {base : ℕ} {calls : List Call} {s : State}
    (hp : Always (step env) Call.Proper (capInit base) calls)
    (hs : run (step env) (capInit base) calls = s) :
    (∀ pid i o, s.named (.slot pid i) = some o → s.Known (s.slotWord pid i)) ∧
      (∀ c d entry i o, i < capMsgMaxCaps → s.named (queuePlace c d entry i) = some o →
        s.Known (s.word c d entry i)) ∧
      (∀ o, (s.objects o).active = true → (s.objects o).kind = .chan →
        (s.objects o).chanId ∉ s.recycled ∧ (s.channels (s.objects o).chanId).active = true ∧
        ∀ o', (s.objects o').active = true → (s.objects o').kind = .chan →
          (s.objects o').chanId = (s.objects o).chanId → o' = o) ∧
      ∀ v, s.irqChan v ≠ capNone → s.Owned (s.irqChan v) := by
  have h : Ready slotRules s := hs ▸ ready_of_proper hp
  refine ⟨fun pid i o hn => ?_, fun c d entry i o hi hn => ?_, fun o hact hk => ?_, h.wires.bound⟩
  · obtain ⟨ti, hown, hi, hname⟩ := exists_of_named_slot hn
    rw [slotWord_owned hown]
    exact h.tidy.contents.slots ti (State.Owns.lt hown) i hi o hname
  · rw [named_queuePlace hi] at hn
    split_ifs at hn with hl
    exact (((h.tidy.contents.queues c hl.1 d entry hl.2).2 i hi).2 o hn).1
  · obtain ⟨-, hrec, hon⟩ := h.wires.own o hact hk
    exact ⟨hrec, hon, fun o' hact' hk' heq => h.wires.inj o' o hact' hk' hact hk heq⟩

theorem sharedPage_fits : (run (step sampleEnv) (capInit 0x200000) sharedPage).Known
    ((run (step sampleEnv) (capInit 0x200000) sharedPage).slotWord 100 0) :=
  (objects_fit_words sharedPage_proper rfl).1 100 0 0 (by decide)

end AeroSLS.Cap
