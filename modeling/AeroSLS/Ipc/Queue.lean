import AeroSLS.Lib.Machine
import Mathlib.Data.List.Infix
import Mathlib.Logic.Function.Basic

namespace AeroSLS.Ipc

open Function Machine List

def ipcQueueDepth : ℕ := 8

structure IpcMessage where
  srcPort : ℕ
  dstPort : ℕ
  opcode : ℕ
  payload : List ℕ
  replyToken : ℕ
  consumed : ℕ
deriving DecidableEq, Inhabited

/-- The tickets are counted without the wrap of the source's words, which the depth divides. -/
structure IpcQueue where
  msgs : ℕ → IpcMessage
  head : ℕ
  tail : ℕ
  count : ℕ

inductive Call
  | post
  | recv
deriving DecidableEq

inductive Stage
  | idle
  | posting (msg : IpcMessage)
  | writing (msg : IpcMessage) (writePos : ℕ)
  | written (msg : IpcMessage)
  | receiving
  | reading (readPos : ℕ)
  | read (out : IpcMessage)

def Stage.call : Stage → Option Call
  | .idle => none
  | .posting _ | .writing .. | .written _ => some .post
  | .receiving | .reading _ | .read _ => some .recv

/-- A queue with the contents of the posts that have succeeded and the messages that
receives have returned. -/
structure Traffic extends IpcQueue where
  sent : List IpcMessage
  got : List IpcMessage

/-- A port and the processes that use it. -/
structure Port extends Traffic where
  stage : ℕ → Stage

inductive Event
  | post (p : ℕ) (msg : IpcMessage)
  | recv (p : ℕ)
  | next (p : ℕ)

/-- `__atomic_fetch_sub` of one from an unsigned word. -/
def fetchSub (n : ℕ) : ℕ := (n + (2 ^ 32 - 1)) % 2 ^ 32

/-- A call starts with the test of the count; every later step is atomic, or one copy of a
message. -/
def Port.step (s : Port) : Event → Port
  | .post p msg =>
    match s.stage p with
    | .idle => if s.count ≥ ipcQueueDepth then s else ⟨s.1, update s.stage p (.posting msg)⟩
    | _ => s
  | .recv p =>
    match s.stage p with
    | .idle => if s.count = 0 then s else ⟨s.1, update s.stage p .receiving⟩
    | _ => s
  | .next p =>
    match s.stage p with
    | .idle => s
    | .posting msg =>
      ⟨{ s.1 with tail := s.tail + 1 }, update s.stage p (.writing msg (s.tail % ipcQueueDepth))⟩
    | .writing msg writePos =>
      ⟨{ s.1 with msgs := update s.msgs writePos { msg with consumed := 0 } },
        update s.stage p (.written { msg with consumed := 0 })⟩
    | .written msg =>
      ⟨{ s.1 with count := (s.count + 1) % 2 ^ 32, sent := s.sent ++ [msg] },
        update s.stage p .idle⟩
    | .receiving =>
      ⟨{ s.1 with head := s.head + 1 }, update s.stage p (.reading (s.head % ipcQueueDepth))⟩
    | .reading readPos => ⟨s.1, update s.stage p (.read (s.msgs readPos))⟩
    | .read out =>
      ⟨{ s.1 with count := fetchSub s.count, got := s.got ++ [out] }, update s.stage p .idle⟩

def ipcInit : Port := ⟨⟨⟨fun _ => default, 0, 0, 0⟩, [], []⟩, fun _ => .idle⟩

/-- What was received is what was posted, in order; the rest stands whole in the queue and is
counted. -/
structure Traffic.ExactlyOnce (s : Traffic) : Prop where
  inOrder : s.got <+: s.sent
  kept : ∀ i msg, s.got.length ≤ i → s.sent[i]? = some msg → s.msgs (i % ipcQueueDepth) = msg
  counted : s.sent.length = s.got.length + s.count
  bounded : s.count ≤ ipcQueueDepth

/-- A call passes its test only while no other call of its kind is under way on the port. -/
def Port.Alone (s : Port) : Event → Prop
  | .post _ _ => s.count < ipcQueueDepth → ∀ p, (s.stage p).call ≠ some .post
  | .recv _ => 0 < s.count → ∀ p, (s.stage p).call ≠ some .recv
  | .next _ => True

/-- What a process knows of the queue at each stage. -/
def Traffic.Fits (s : Traffic) : Stage → Prop
  | .idle => True
  | .posting _ => s.count < ipcQueueDepth ∧ s.tail = s.sent.length
  | .writing _ pos => s.count < ipcQueueDepth ∧ s.tail = s.sent.length + 1 ∧
      pos = s.sent.length % ipcQueueDepth
  | .written msg => s.count < ipcQueueDepth ∧ s.tail = s.sent.length + 1 ∧
      s.msgs (s.sent.length % ipcQueueDepth) = msg
  | .receiving => 0 < s.count ∧ s.head = s.got.length
  | .reading pos => 0 < s.count ∧ s.head = s.got.length + 1 ∧ pos = s.got.length % ipcQueueDepth
  | .read out => 0 < s.count ∧ s.head = s.got.length + 1 ∧ s.sent[s.got.length]? = some out

/-- No ticket is out that no call under way holds. -/
def Traffic.Free (s : Traffic) : Call → Prop
  | .post => s.tail = s.sent.length
  | .recv => s.head = s.got.length

structure Port.Inv (s : Port) : Prop extends s.ExactlyOnce where
  fits : ∀ p, s.Fits (s.stage p)
  one : ∀ c p q, (s.stage p).call = some c → (s.stage q).call = some c → p = q
  free : ∀ c, (∀ p, (s.stage p).call ≠ some c) → s.Free c

/-- The calls of the other kind are not disturbed: the count moves away from their bound, their
ticket and their messages stay. -/
structure Traffic.Frame (s t : Traffic) (c : Call) : Prop where
  fits : ∀ {st : Stage}, st.call ≠ some c → s.Fits st → t.Fits st
  free : ∀ {c'}, c' ≠ c → s.Free c' → t.Free c'

variable {s t : Traffic} {u : Port} {st : Stage} {p : ℕ} {e : Event} {c : Call}

lemma frame_post (hcount : s.count ≤ t.count) (hhead : t.head = s.head) (hgot : t.got = s.got)
    (hsent : s.sent <+: t.sent) : s.Frame t .post where
  fits {st} hst h := by
    obtain ⟨rest, hrest⟩ := hsent
    cases st <;> grind [Traffic.Fits, Stage.call]
  free {c'} hc h := by cases c' <;> grind [Traffic.Free]

lemma frame_recv (hcount : t.count ≤ s.count) (htail : t.tail = s.tail) (hsent : t.sent = s.sent)
    (hmsgs : t.msgs = s.msgs) : s.Frame t .recv where
  fits {st} hst h := by cases st <;> grind [Traffic.Fits, Stage.call]
  free {c'} hc h := by cases c' <;> grind [Traffic.Free]

/-- A process moves on in its call, or starts or ends it. -/
theorem Port.Inv.move (h : u.Inv) (hothers : ∀ q, q ≠ p → (u.stage q).call ≠ some c)
    (hp : ∀ c', (u.stage p).call = some c' → c' = c) (hst : ∀ c', st.call = some c' → c' = c)
    (hframe : u.Frame t c) (honce : t.ExactlyOnce) (hfits : t.Fits st)
    (hfree : st.call ≠ some c → t.Free c) : Port.Inv ⟨t, update u.stage p st⟩ where
  toExactlyOnce := honce
  fits q := by
    by_cases hq : q = p
    · grind
    · have := hframe.fits (hothers q hq) (h.fits q)
      grind
  one c' q r := by grind [h.one c' q r]
  free c' hnone := by
    have hp := hnone p
    by_cases hc : c' = c
    · grind
    · refine hframe.free hc (h.free c' fun q => ?_)
      have := hnone q
      grind

lemma fetchSub_eq {n : ℕ} (hpos : 0 < n) (hle : n ≤ ipcQueueDepth) : fetchSub n = n - 1 := by
  unfold ipcQueueDepth at hle
  unfold fetchSub
  omega

lemma Port.Inv.next (h : u.Inv) (c : Call) (hc : (u.stage p).call = some c)
    (hst : ∀ c', st.call = some c' → c' = c) (hframe : u.Frame t c) (honce : t.ExactlyOnce)
    (hfits : t.Fits st) (hfree : st.call ≠ some c → t.Free c) :
    Port.Inv ⟨t, update u.stage p st⟩ :=
  h.move (fun q hq hqc => hq (h.one c q p hqc hc)) (by simp [hc]) hst hframe honce hfits hfree

lemma Port.Inv.step (h : u.Inv) (ha : u.Alone e) : (u.step e).Inv := by
  have hcounted := h.counted
  have hbounded := h.bounded
  cases e with
  | post p =>
    cases hstage : u.stage p
    case idle =>
      simp only [Port.step, hstage]
      split_ifs with hfull
      · exact h
      · have hroom := not_le.1 hfull
        exact h.move (fun q _ => ha hroom q) (by simp [hstage, Stage.call]) (by simp [Stage.call])
          (frame_post le_rfl rfl rfl prefix_rfl) h.1 ⟨hroom, h.free .post (ha hroom)⟩ (absurd rfl)
    all_goals
      simp only [Port.step, hstage]
      exact h
  | recv p =>
    cases hstage : u.stage p
    case idle =>
      simp only [Port.step, hstage]
      split_ifs with hempty
      · exact h
      · have hpos := Nat.pos_of_ne_zero hempty
        exact h.move (fun q _ => ha hpos q) (by simp [hstage, Stage.call]) (by simp [Stage.call])
          (frame_recv le_rfl rfl rfl rfl) h.1 ⟨hpos, h.free .recv (ha hpos)⟩ (absurd rfl)
    all_goals
      simp only [Port.step, hstage]
      exact h
  | next p =>
    have hfits := h.fits p
    cases hstage : u.stage p
    all_goals
      simp only [Port.step, hstage]
      rw [hstage] at hfits
    case idle => exact h
    case posting msg =>
      exact h.next .post (by rw [hstage]; rfl) (by simp [Stage.call])
        (frame_post le_rfl rfl rfl prefix_rfl) ⟨h.inOrder, h.kept, h.counted, h.bounded⟩
        ⟨hfits.1, by rw [hfits.2], by rw [hfits.2]⟩ (absurd rfl)
    case writing msg pos =>
      obtain ⟨hroom, htail, rfl⟩ := hfits
      refine h.next .post (by rw [hstage]; rfl) (by simp [Stage.call])
        (frame_post le_rfl rfl rfl prefix_rfl) ⟨h.inOrder, fun i m hi hm => ?_,
          h.counted, h.bounded⟩
        ⟨hroom, htail, update_self ..⟩ (absurd rfl)
      -- the slot of the ticket holds nothing that is still to be delivered
      have hlt := (List.getElem?_eq_some_iff.1 hm).1
      dsimp only at hi hlt ⊢
      rw [update_of_ne]
      · exact h.kept i m hi hm
      · unfold ipcQueueDepth at hroom ⊢
        omega
    case written msg =>
      obtain ⟨hroom, htail, hmsg⟩ := hfits
      have hcount : (u.count + 1) % 2 ^ 32 = u.count + 1 := by
        unfold ipcQueueDepth at hroom
        omega
      rw [hcount]
      refine h.next .post (by rw [hstage]; rfl) (by simp [Stage.call])
        (frame_post (Nat.le_succ _) rfl rfl (prefix_append ..))
        ⟨h.inOrder.trans (prefix_append ..), fun i m hi hm => ?_, ?_, hroom⟩ trivial fun _ => ?_
      · rw [getElem?_append] at hm
        grind [h.kept i m hi]
      · grind
      · rw [Traffic.Free, htail, length_append]
        rfl
    case receiving =>
      exact h.next .recv (by rw [hstage]; rfl) (by simp [Stage.call])
        (frame_recv le_rfl rfl rfl rfl) ⟨h.inOrder, h.kept, h.counted, h.bounded⟩
        ⟨hfits.1, by rw [hfits.2], by rw [hfits.2]⟩ (absurd rfl)
    case reading pos =>
      obtain ⟨hpos, hhead, rfl⟩ := hfits
      have hlt : u.got.length < u.sent.length := by omega
      refine h.next .recv (by rw [hstage]; rfl) (by simp [Stage.call])
        (frame_recv le_rfl rfl rfl rfl) h.1 ⟨hpos, hhead, ?_⟩ (absurd rfl)
      rw [h.kept _ _ le_rfl (getElem?_eq_getElem hlt)]
      exact getElem?_eq_getElem hlt
    case read out =>
      obtain ⟨hpos, hhead, hout⟩ := hfits
      obtain ⟨rest, hrest⟩ := h.inOrder
      obtain ⟨rest', rfl⟩ : ∃ rest', rest = out :: rest' := by
        rw [← hrest, getElem?_append_right le_rfl] at hout
        cases rest <;> simp_all
      rw [fetchSub_eq hpos hbounded]
      refine h.next .recv (by rw [hstage]; rfl) (by simp [Stage.call])
        (frame_recv (Nat.sub_le ..) rfl rfl rfl) ⟨⟨rest', by simp [← hrest]⟩,
          fun i m hi => ?_, ?_, ?_⟩
        trivial fun _ => ?_
      · exact h.kept i m (by grind)
      · grind
      · grind
      · rw [Traffic.Free, hhead, length_append]
        rfl

/-- Whatever the interleaving, as long as no two posts and no two receives overlap. -/
theorem exactly_once_of_alone (es : List Event) (ha : Always Port.step Port.Alone ipcInit es) :
    (run Port.step ipcInit es).ExactlyOnce := by
  have hinit : ipcInit.Inv := by
    refine ⟨⟨prefix_rfl, nofun, rfl, by decide⟩, fun _ => trivial, nofun, fun c _ => ?_⟩
    cases c <;> rfl
  exact (run_induction hinit (fun _ _ h => h.step) ha).toExactlyOnce

/-- A message is posted while the one before it is received. -/
theorem exactly_once_overlapping : (run Port.step ipcInit
    [.recv 2, .post 1 default, .next 1, .next 1, .next 1, .recv 2, .post 3 default, .next 2,
      .next 3]).ExactlyOnce := by
  apply exactly_once_of_alone
  simp [Always, Port.Alone, Port.step, ipcInit, ipcQueueDepth, update_apply]
  grind [Stage.call]

/-- Two receives pass the test for one message: the second returns what was never posted. -/
theorem two_receives_of_one_post : ¬(run Port.step ipcInit
    [.post 1 default, .next 1, .next 1, .next 1, .recv 2, .recv 3, .next 2, .next 3,
      .next 2, .next 3, .next 2, .next 3]).ExactlyOnce := by
  intro h
  have hle := h.inOrder.length_le
  revert hle
  decide

end AeroSLS.Ipc
