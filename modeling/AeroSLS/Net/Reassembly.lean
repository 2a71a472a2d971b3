import Mathlib.Algebra.BigOperators.Group.Finset.Basic
import Mathlib.Algebra.Order.BigOperators.Group.Finset
import AeroSLS.Net.Checkpoint

namespace AeroSLS.Net

open AeroSLS.Bytes List Machine

variable {node : UInt32} {s : CkptRecv} {d : Delivery} {ds : List Delivery}
  {n : ℕ} {dest : UInt32} {buf : Buf}

/-- What holds of the receiver after any packets whatever. -/
structure CkptRecv.Wf (s : CkptRecv) : Prop where
  total_le : s.total.toNat ≤ 24576
  pending : s.active → s.complete = false

lemma CkptRecv.wf_boot : CkptRecv.boot.Wf where
  total_le := by decide
  pending := by decide

lemma CkptRecv.Wf.store {data : Buf} {o n : UInt32} (hs : s.Wf) : (s.store data o n).Wf := by
  unfold CkptRecv.store
  dsimp only
  split_ifs
  · exact ⟨hs.total_le, by simp⟩
  · exact ⟨hs.total_le, hs.pending⟩

lemma CkptRecv.Wf.rx (hs : s.Wf) (d : Delivery) : (dsppCkptRx node s d).Wf := by
  obtain ⟨-, he⟩ | ⟨-, -, -, hle, he⟩ | ⟨o, n, -, he⟩ := dsppCkptRx_cases <;> rw [he]
  · exact hs
  · exact ⟨hle, fun _ => rfl⟩
  · exact hs.store

lemma CkptRecv.wf_recvAll (node : UInt32) (ds : List Delivery) : (ckptRecvAll node .boot ds).Wf :=
  run_induction wf_boot (fun _ d ht _ => ht.rx d)
    (always_of_forall fun _ _ _ => trivial)

/-- The bytes written lie in the announced transfer and in the buffer. -/
def InBounds (s : CkptRecv) (w : Option (UInt32 × UInt32)) : Prop :=
  ∀ o n, w = some (o, n) →
    ∀ i < n.toNat, o.toNat + i < s.total.toNat ∧ o.toNat + i < ckptRecvMax.toNat

/-- A full chunk of the open transfer whose range ends at 2^32, where offset and length sum to
zero. -/
structure Wraps (node : UInt32) (s : CkptRecv) (d : Delivery) : Prop where
  heard : d.Heard node
  chunk : d.header.opcode = .chunkReq
  active : s.active
  xfer : d.header.transferId = s.xferId
  index_lt : d.header.chunkIndex < s.chunks
  index : d.header.chunkIndex.toNat % 2 ^ 22 = 2 ^ 22 - 1
  full : 1024 ≤ d.header.chunkBytes.toNat
  len : 1077 ≤ d.len.toNat

lemma Wraps.write (hw : Wraps node s d) : ckptWrite node s d = some (4294966272, 1024) := by
  have hsz := d.header.toNat_chunkSz
  have hfull := hw.full
  have hidx := hw.index
  have hlen := hw.len
  rw [ckptWrite_eq_some, CkptRecv.place_eq_some]
  refine ⟨hw.heard, hw.chunk, ⟨hw.active, hw.xfer, hw.index_lt, ?_, ?_⟩, ?_, ?_⟩
  · omega
  · omega
  · apply UInt32.toNat_inj.1
    have hmul : (d.header.chunkIndex * dsppCkptChunkBytes).toNat =
        d.header.chunkIndex.toNat * 1024 % 2 ^ 32 := UInt32.toNat_mul ..
    change 4294966272 = _
    omega
  · apply UInt32.toNat_inj.1
    change 1024 = _
    omega

/-- After any packets the next one writes inside the buffer and the announced transfer, unless
its range wraps. -/
theorem inBounds_iff_not_wraps (node : UInt32) (ds : List Delivery) (d : Delivery) :
    InBounds (ckptRecvAll node .boot ds) (ckptWrite node (ckptRecvAll node .boot ds) d) ↔
      ¬Wraps node (ckptRecvAll node .boot ds) d := by
  have hwf := (CkptRecv.wf_recvAll node ds).total_le
  constructor
  · intro hin hw
    have hbad := (hin _ _ hw.write 0 (by decide)).2
    exact absurd hbad (by decide)
  intro hno o n hwr i hi
  rw [ckptWrite_eq_some, CkptRecv.place_eq_some] at hwr
  obtain ⟨hd, hop, ⟨hact, hx, hidx, hsum, hlen⟩, rfl, rfl⟩ := hwr
  have hsz := d.header.toNat_chunkSz
  have hmax : ckptRecvMax.toNat = 24576 := by decide
  have hmul : (d.header.chunkIndex * dsppCkptChunkBytes).toNat =
      d.header.chunkIndex.toNat * 1024 % 2 ^ 32 := UInt32.toNat_mul ..
  -- Offsets are multiples of 1024, so only a full chunk at the very end can wrap.
  have hnowrap : d.header.chunkIndex.toNat * 1024 % 2 ^ 32 + d.header.chunkSz.toNat < 2 ^ 32 := by
    by_contra hge
    apply hno
    exact ⟨hd, hop, hact, hx, hidx, by omega, by omega, by omega⟩
  omega

def wideBegin : Delivery where
  packet.header :=
    { opcode := .beginReq, nodeDestId := 1, transferId := 7, sequence := 0
      totalBytes := 1024, totalChunks := 4194304 }
  packet.chunkData := Buf.zero
  len := 53

def lastChunk : Delivery where
  packet.header :=
    { opcode := .chunkReq, nodeDestId := 1, transferId := 7, chunkIndex := 4194303
      sequence := 0, chunkBytes := 1024 }
  packet.chunkData := Buf.zero
  len := 1077

/-- The last of the 2^22 chunks is written just below address `ckpt_recv_buf` + 2^32. -/
theorem lastChunk_out_of_bounds : ¬InBounds (ckptRecvAll 1 .boot [wideBegin])
      (ckptWrite 1 (ckptRecvAll 1 .boot [wideBegin]) lastChunk) := by
  have hw : Wraps 1 (ckptRecvAll 1 .boot [wideBegin]) lastChunk := by constructor <;> decide
  intro hin
  exact absurd (hin _ _ hw.write 0 (by decide)).2 (by decide)

/-- The length of chunk `i` of a transfer of `n` bytes. -/
def chunkLen (n i : ℕ) : ℕ := min (n - 1024 * i) 1024

def chunkCount (n : ℕ) : ℕ := (n + 1023) / 1024

lemma chunkLen_pos (hi : i < chunkCount n) : 0 < chunkLen n i := by
  unfold chunkCount at hi
  unfold chunkLen
  omega

lemma chunkLen_le : 1024 * i + chunkLen n i ≤ n ∨ chunkLen n i = 0 := by
  unfold chunkLen
  omega

lemma sum_chunkLen : ∑ i ∈ Finset.range k, chunkLen n i = min (1024 * k) n := by
  induction k with
  | zero => simp
  | succ k ih =>
    rw [Finset.sum_range_succ, chunkLen]
    omega

lemma sum_chunkCount : ∑ i ∈ Finset.range (chunkCount n), chunkLen n i = n := by
  rw [sum_chunkLen, chunkCount]
  omega

lemma eq_range_of_le_sum (hA : A ⊆ Finset.range (chunkCount n))
    (hn : n ≤ ∑ i ∈ A, chunkLen n i) : A = Finset.range (chunkCount n) := by
  apply hA.antisymm
  intro k hk
  by_contra hkA
  have hlt : ∑ i ∈ A, chunkLen n i < ∑ i ∈ Finset.range (chunkCount n), chunkLen n i :=
    Finset.sum_lt_sum_of_subset hA hk hkA (chunkLen_pos (Finset.mem_range.1 hk))
      fun _ _ _ => Nat.zero_le _
  rw [sum_chunkCount] at hlt
  omega

section transfer

variable {transferId sequence : UInt64} {data : Buf} {dataSize : UInt32} {i : ℕ}

section

variable (hn : dataSize.toNat ≤ 24576)
include hn

lemma toNat_totalChunks : (ckptTotalChunks dataSize).toNat = chunkCount dataSize.toNat := by
  rw [ckptTotalChunks, UInt32.toNat_div, UInt32.toNat_sub, chunkCount]
  change (2 ^ 32 - 1 + (dataSize.toNat + 1024) % 2 ^ 32) % 2 ^ 32 / 1024 = _
  omega

section

variable (hi : i < chunkCount dataSize.toNat)
include hi

lemma toNat_index : (UInt32.ofNat i).toNat = i := by
  rw [UInt32.toNat_ofNat']
  unfold chunkCount at hi
  omega

lemma toNat_offset : (UInt32.ofNat i * dsppCkptChunkBytes).toNat = 1024 * i := by
  have hmul : (UInt32.ofNat i * dsppCkptChunkBytes).toNat =
      (UInt32.ofNat i).toNat * 1024 % 2 ^ 32 := UInt32.toNat_mul ..
  rw [hmul, toNat_index hn hi]
  unfold chunkCount at hi
  omega

lemma toNat_ckptChunkSz :
    (ckptChunkSz dataSize (UInt32.ofNat i)).toNat = chunkLen dataSize.toNat i := by
  have hc : dsppCkptChunkBytes.toNat = 1024 := by decide
  have hsub : (dataSize - UInt32.ofNat i * dsppCkptChunkBytes).toNat =
      dataSize.toNat - 1024 * i := by
    rw [UInt32.toNat_sub, toNat_offset hn hi]
    unfold chunkCount at hi
    omega
  unfold ckptChunkSz chunkLen
  dsimp only
  split_ifs with hlt <;> rw [UInt32.lt_iff_toNat_lt] at hlt
  · omega
  · omega

variable (hc : c = ckptChunk transferId node sequence data dataSize (UInt32.ofNat i))
include hc

lemma chunkSz_ckptChunk : c.header.chunkSz.toNat = chunkLen dataSize.toNat i := by
  subst hc
  rw [DSPPCkptHeader.toNat_chunkSz]
  change min (ckptChunkSz dataSize (UInt32.ofNat i)).toNat 1024 = _
  rw [toNat_ckptChunkSz hn hi]
  unfold chunkLen
  omega

lemma chunkData_agree :
    Buf.Agree (chunkLen dataSize.toNat i) c.packet.chunkData (data.at (1024 * i)) := by
  subst hc
  intro j hj
  have hin : (Buf.zero.copy 0 (data.at (1024 * i)) (chunkLen dataSize.toNat i)) (0 + j) =
      data.at (1024 * i) j := Buf.copy_inside hj
  rw [Nat.zero_add] at hin
  change (Buf.zero.copy 0 (data.at (UInt32.ofNat i * dsppCkptChunkBytes).toNat)
    (ckptChunkSz dataSize (UInt32.ofNat i)).toNat) j = _
  rw [toNat_offset hn hi, toNat_ckptChunkSz hn hi, hin]

end

end

def Holds (buf data : Buf) (n i : ℕ) : Prop :=
  Buf.Agree (chunkLen n i) (buf.at (1024 * i)) (data.at (1024 * i))

lemma agree_of_holds (h : ∀ i < chunkCount n, Holds buf data n i) : Buf.Agree n buf data := by
  intro k hk
  have hlen : k % 1024 < chunkLen n (k / 1024) := by
    unfold chunkLen
    omega
  have hcount : k / 1024 < chunkCount n := by
    unfold chunkCount
    omega
  have hk' := h (k / 1024) hcount (k % 1024) hlen
  rwa [Buf.at_apply, Buf.at_apply, Nat.div_add_mod] at hk'

/-- The receiver has the chunks `A` of the transfer and waits for more. -/
structure Collecting (transferId : UInt64) (data : Buf) (dataSize : UInt32) (s : CkptRecv)
    (A : Finset ℕ) : Prop where
  active : s.active = true
  complete : s.complete = false
  total : s.total = dataSize
  size_le : dataSize.toNat ≤ 24576
  chunks : s.chunks.toNat = chunkCount dataSize.toNat
  xfer : s.xferId = transferId
  subset : A ⊆ Finset.range (chunkCount dataSize.toNat)
  got : s.got.toNat = ∑ i ∈ A, chunkLen dataSize.toNat i
  holds : ∀ i ∈ A, Holds s.buf data dataSize.toNat i

/-- The transfer is in the buffer. -/
structure Delivered (data : Buf) (dataSize : UInt32) (s : CkptRecv) : Prop where
  active : s.active = false
  complete : s.complete = true
  total : s.total = dataSize
  bytes : Buf.Agree dataSize.toNat s.buf data

variable {A : Finset ℕ}

/-- A BEGIN that is not refused starts the collection afresh. -/
theorem rx_begin (hact : s.active = false) (hn : dataSize.toNat ≤ 24576) :
    Collecting transferId data dataSize
      (dsppCkptRx node s (ckptBegin transferId node sequence dataSize)) ∅ := by
  have hmax : ¬(ckptBegin transferId node sequence dataSize).header.totalBytes > ckptRecvMax := by
    change ¬24576 < dataSize.toNat
    omega
  have hlen : dsppCkptHeaderSize ≤ (UInt16.ofNat dsppCkptHeaderSize).toNat := by decide
  have hheard : (ckptBegin transferId node sequence dataSize).Heard node := ⟨hlen, rfl⟩
  have he : dsppCkptRx node s (ckptBegin transferId node sequence dataSize) =
      { active := true, complete := false, total := dataSize
        chunks := ckptTotalChunks dataSize, seq := sequence, xferId := transferId, got := 0
        buf := s.buf.fill 0 0 ckptRecvMax.toNat } := by
    rw [dsppCkptRx, if_pos hheard]
    rw [CkptRecv.begin, if_neg (by simp [hact]), if_neg hmax]
    rfl
  rw [he]
  exact {
    active := rfl, complete := rfl, total := rfl, size_le := hn, chunks := toNat_totalChunks hn
    xfer := rfl, subset := Finset.empty_subset _, got := rfl, holds := by simp }

lemma holds_copy (hsrc : Buf.Agree (chunkLen n i) src (data.at (1024 * i)))
    (hk : k ≠ i → Holds buf data n k) :
    Holds (buf.copy (1024 * i) src (chunkLen n i)) data n k := by
  by_cases hki : k = i
  · subst hki
    exact Buf.copy_agree.trans hsrc
  have hdis : 1024 * i + chunkLen n i ≤ 1024 * k ∨ 1024 * k + chunkLen n k ≤ 1024 * i := by
    unfold chunkLen
    omega
  exact (Buf.copy_agree_of_disjoint hdis).trans (hk hki)

section

variable (h : Collecting transferId data dataSize s A) (hi : i < chunkCount dataSize.toNat)
  (hc : c = ckptChunk transferId node sequence data dataSize (UInt32.ofNat i))
include h hi hc

/-- Every chunk of the transfer passes the checks while the receiver collects it. -/
theorem Collecting.write :
    ckptWrite node s c = some (UInt32.ofNat i * dsppCkptChunkBytes, c.header.chunkSz) := by
  have hsz := chunkSz_ckptChunk h.size_le hi hc
  have hlen : c.len.toNat = 53 + chunkLen dataSize.toNat i := by
    rw [hc]
    change (UInt16.ofNat (53 + (ckptChunkSz dataSize (UInt32.ofNat i)).toNat)).toNat = _
    rw [toNat_ckptChunkSz h.size_le hi, UInt16.toNat_ofNat']
    unfold chunkLen
    omega
  have hidx : c.header.chunkIndex = UInt32.ofNat i := hc ▸ rfl
  have hpos := chunkLen_pos hi
  have hle := chunkLen_le (n := dataSize.toNat) (i := i)
  rw [ckptWrite_eq_some, CkptRecv.place_eq_some, hsz, hlen, hidx,
    toNat_index h.size_le hi, h.chunks,
    h.total, h.xfer, h.active]
  refine ⟨⟨?_, hc ▸ rfl⟩, hc ▸ rfl, ⟨rfl, hc ▸ rfl, hi, ?_, le_rfl⟩, rfl, rfl⟩
  · rw [hlen, dsppCkptHeaderSize]
    omega
  · omega

/-- A chunk that is not there yet is counted and put in place; the last one finishes the
transfer. -/
theorem Collecting.rx_chunk (hiA : i ∉ A) :
    insert i A = Finset.range (chunkCount dataSize.toNat) ∧
      Delivered data dataSize (dsppCkptRx node s c) ∨
    insert i A ≠ Finset.range (chunkCount dataSize.toNat) ∧
      Collecting transferId data dataSize (dsppCkptRx node s c) (insert i A) := by
  have hrx : dsppCkptRx node s c =
      s.store c.packet.chunkData (UInt32.ofNat i * dsppCkptChunkBytes) c.header.chunkSz := by
    have hw := h.write hi hc
    rw [ckptWrite_eq_some] at hw
    obtain ⟨hheard, hop, hp⟩ := hw
    rw [dsppCkptRx, if_pos hheard, hop, hp]
  have hsz := chunkSz_ckptChunk h.size_le hi hc
  have hsub := Finset.insert_subset (Finset.mem_range.2 hi) h.subset
  have hsum : ∑ k ∈ insert i A, chunkLen dataSize.toNat k =
      chunkLen dataSize.toNat i + ∑ k ∈ A, chunkLen dataSize.toNat k := Finset.sum_insert hiA
  have hle : ∑ k ∈ insert i A, chunkLen dataSize.toNat k ≤ dataSize.toNat := by
    calc _ ≤ ∑ k ∈ Finset.range (chunkCount dataSize.toNat), chunkLen dataSize.toNat k :=
          Finset.sum_le_sum_of_subset hsub
      _ = dataSize.toNat := sum_chunkCount
  have hgot : (s.got + c.header.chunkSz).toNat = ∑ k ∈ insert i A, chunkLen dataSize.toNat k := by
    have hsize := h.size_le
    rw [UInt32.toNat_add, h.got]
    omega
  have hbuf : ∀ k ∈ insert i A, Holds (s.buf.copy (UInt32.ofNat i * dsppCkptChunkBytes).toNat
      c.packet.chunkData c.header.chunkSz.toNat) data dataSize.toNat k := by
    intro k hk
    rw [toNat_offset h.size_le hi, hsz]
    apply holds_copy (chunkData_agree h.size_le hi hc)
    intro hki
    exact h.holds k ((Finset.mem_insert.1 hk).resolve_left hki)
  rw [hrx, CkptRecv.store]
  by_cases hdone : s.got + c.header.chunkSz ≥ s.total
  · left
    rw [if_pos hdone]
    rw [ge_iff_le, UInt32.le_iff_toNat_le, h.total, hgot] at hdone
    have hall := eq_range_of_le_sum hsub hdone
    refine ⟨hall, rfl, rfl, h.total, agree_of_holds fun k hk => hbuf k ?_⟩
    rw [hall]
    exact Finset.mem_range.2 hk
  · right
    rw [if_neg hdone]
    rw [ge_iff_le, UInt32.le_iff_toNat_le, h.total, hgot] at hdone
    constructor
    · grind [sum_chunkCount]
    · exact { h with subset := hsub, got := hgot, holds := hbuf }

end

lemma dsppCkptRx_begin_active (hop : d.header.opcode = .beginReq) (hact : s.active) :
    dsppCkptRx node s d = s := by
  obtain ⟨-, he⟩ | ⟨-, -, hidle, -⟩ | ⟨o, n, hw, -⟩ := dsppCkptRx_cases
  · exact he
  · simp [hidle] at hact
  · rw [ckptWrite_eq_some, hop] at hw
    cases hw.2.1

lemma dsppCkptRx_chunk_idle (hop : d.header.opcode = .chunkReq) (hact : s.active = false) :
    dsppCkptRx node s d = s := by
  obtain ⟨-, he⟩ | ⟨-, hbeg, -⟩ | ⟨o, n, hw, -⟩ := dsppCkptRx_cases
  · exact he
  · rw [hop] at hbeg
    cases hbeg
  · rw [ckptWrite_eq_some, CkptRecv.place_eq_some, hact] at hw
    cases hw.2.2.1.1

lemma mem_dsppCkptSend : d ∈ dsppCkptSend transferId dest sequence data dataSize ↔ dataSize ≠ 0 ∧
      (d = ckptBegin transferId dest sequence dataSize ∨ ∃ i < (ckptTotalChunks dataSize).toNat,
          d = ckptChunk transferId dest sequence data dataSize (UInt32.ofNat i)) := by
  unfold dsppCkptSend
  split_ifs with h0
  · simp [h0]
  · simp [h0, eq_comm]

/-- The receiver beside the indices of the chunks delivered since it was last idle. -/
structure Tracked where
  recv : CkptRecv
  seen : List UInt32

def Tracked.rx (node : UInt32) (t : Tracked) (d : Delivery) : Tracked where
  recv := dsppCkptRx node t.recv d
  seen :=
    if (dsppCkptRx node t.recv d).active then
      if d.header.opcode = .chunkReq then d.header.chunkIndex :: t.seen else t.seen
    else []

/-- The packet is not a chunk delivered before in the transfer that is open. -/
def Tracked.New (t : Tracked) (d : Delivery) : Prop :=
  d.header.opcode = .chunkReq → d.header.chunkIndex ∉ t.seen

lemma recv_run : (run (Tracked.rx node) t ds).recv = ckptRecvAll node t.recv ds := by
  induction ds generalizing t with
  | nil => rfl
  | cons d ds ih => exact ih

/-- The receiver is idle, collects chunks that are all on record, or has finished. -/
def Tracked.Sound (transferId : UInt64) (data : Buf) (dataSize : UInt32) (t : Tracked) : Prop :=
  t.recv.active = false ∧ t.recv.complete = false ∨
  (∃ A, Collecting transferId data dataSize t.recv A ∧ ∀ i ∈ A, UInt32.ofNat i ∈ t.seen) ∨
  Delivered data dataSize t.recv

variable {t : Tracked}

section

variable (h : t.Sound transferId data dataSize)
include h

lemma Tracked.Sound.of_eq (he : dsppCkptRx node t.recv d = t.recv) :
    (t.rx node d).Sound transferId data dataSize := by
  unfold Tracked.Sound
  have hrecv : (t.rx node d).recv = t.recv := he
  rw [hrecv]
  obtain hidle | ⟨A, hA, hseen⟩ | hdone := h
  · exact .inl hidle
  · grind [hA.active, Tracked.rx]
  · exact .inr (.inr hdone)

lemma Tracked.Sound.begin :
    (t.rx node (ckptBegin transferId node sequence dataSize)).Sound transferId data dataSize := by
  by_cases hact : t.recv.active
  · exact h.of_eq (dsppCkptRx_begin_active rfl hact)
  rw [Bool.not_eq_true] at hact
  obtain ⟨-, he⟩ | ⟨-, -, -, hle, -⟩ | ⟨o, n, hw, -⟩ := dsppCkptRx_cases
  · exact h.of_eq he
  · exact .inr (.inl ⟨∅, rx_begin hact hle, by simp⟩)
  · rw [ckptWrite_eq_some] at hw
    cases hw.2.1

lemma Tracked.Sound.chunk (hi : i < (ckptTotalChunks dataSize).toNat)
    (hc : c = ckptChunk transferId node sequence data dataSize (UInt32.ofNat i))
    (hnew : t.New c) : (t.rx node c).Sound transferId data dataSize := by
  have hidx : c.header.opcode = .chunkReq ∧ c.header.chunkIndex = UInt32.ofNat i := hc ▸ ⟨rfl, rfl⟩
  obtain ⟨hact, -⟩ | ⟨A, hA, hseen⟩ | hdone := id h
  · exact h.of_eq (dsppCkptRx_chunk_idle hidx.1 hact)
  · rw [toNat_totalChunks hA.size_le] at hi
    have hiA : i ∉ A := fun hmem => hnew hidx.1 (hidx.2 ▸ hseen i hmem)
    obtain ⟨-, hdone⟩ | ⟨-, hmore⟩ := hA.rx_chunk hi hc hiA
    · exact .inr (.inr hdone)
    refine .inr (.inl ⟨insert i A, hmore, fun k hk => ?_⟩)
    have hcons : (t.rx node c).seen = UInt32.ofNat i :: t.seen := by
      simp [Tracked.rx, hmore.active, hidx]
    rw [hcons]
    obtain rfl | hkA := Finset.mem_insert.1 hk
    · exact mem_cons_self ..
    · exact mem_cons_of_mem _ (hseen k hkA)
  · exact h.of_eq (dsppCkptRx_chunk_idle hidx.1 hdone.active)

lemma Tracked.Sound.sent (hd : d ∈ dsppCkptSend transferId dest sequence data dataSize)
    (hnew : t.New d) : (t.rx node d).Sound transferId data dataSize := by
  obtain ⟨-, hd⟩ := mem_dsppCkptSend.1 hd
  by_cases hdest : dest = node
  · grind [h.begin, h.chunk]
  -- Packets for another node are not heard at all.
  apply h.of_eq
  rw [dsppCkptRx, if_neg]
  rintro ⟨-, hnode⟩
  obtain rfl | ⟨i, -, rfl⟩ := hd
  · exact hdest hnode
  · exact hdest hnode

end

/-- If the network repeats no chunk while the receiver is collecting, a receiver that becomes
ready has the bytes that were sent. -/
theorem reassembled_of_new {dest : UInt32} (hactive : s.active = false)
    (hcomplete : s.complete = false)
    (hsent : ∀ d ∈ ds, d ∈ dsppCkptSend transferId dest sequence data dataSize)
    (hnew : Machine.Always (Tracked.rx node) Tracked.New ⟨s, []⟩ ds)
    (hready : dsppCkptRecvReady (ckptRecvAll node s ds)) :
    dsppCkptRecvSize (ckptRecvAll node s ds) = dataSize ∧
      Buf.Agree dataSize.toNat (ckptRecvAll node s ds).buf data := by
  have hsound : (Machine.run (Tracked.rx node) ⟨s, []⟩ ds).Sound transferId data dataSize :=
    Machine.run_induction (I := Tracked.Sound transferId data dataSize)
      (.inl ⟨hactive, hcomplete⟩) (fun _ _ ht hd => ht.sent hd.2 hd.1)
      (hnew.and (Machine.always_of_forall fun d hd _ => hsent d hd))
  unfold Tracked.Sound at hsound
  rw [recv_run] at hsound
  change (ckptRecvAll node s ds).complete = true at hready
  obtain ⟨-, hno⟩ | ⟨A, hA, -⟩ | hdone := hsound
  · simp [hno] at hready
  · simp [hA.complete] at hready
  · exact ⟨by rw [dsppCkptRecvSize, if_pos hready, hdone.total], hdone.bytes⟩

end transfer

instance (t : Tracked) (d : Delivery) : Decidable (t.New d) :=
  inferInstanceAs (Decidable (_ → _))

/-- A transfer of 1025 bytes, all ones. -/
def onesBegin : Delivery := ckptBegin 7 1 0 1025

def onesChunk (i : UInt32) : Delivery := ckptChunk 7 1 0 (fun _ => 1) 1025 i

lemma onesBegin_mem : onesBegin ∈ dsppCkptSend 7 1 0 (fun _ => 1) 1025 :=
  mem_dsppCkptSend.2 ⟨by decide, .inl rfl⟩

lemma onesChunk_mem (hi : i < 2) :
    onesChunk (UInt32.ofNat i) ∈ dsppCkptSend 7 1 0 (fun _ => 1) 1025 :=
  mem_dsppCkptSend.2 ⟨by decide, .inr ⟨i, hi, rfl⟩⟩

/-- The second chunk comes early and is lost on the idle receiver, then both come in
the wrong order. -/
theorem reassembled_reordered :
    let st := ckptRecvAll 1 .boot [onesChunk 1, onesBegin, onesChunk 1, onesChunk 0]
    dsppCkptRecvSize st = 1025 ∧ Buf.Agree 1025 st.buf fun _ => 1 := by
  have h0 := onesChunk_mem (i := 0) (by decide)
  have h1 := onesChunk_mem (i := 1) (by decide)
  have hsent : ∀ d ∈ [onesChunk 1, onesBegin, onesChunk 1, onesChunk 0],
      d ∈ dsppCkptSend 7 1 0 (fun _ => 1) 1025 := by
    simp only [forall_mem_cons]
    exact ⟨h1, onesBegin_mem, h1, h0, by simp⟩
  exact reassembled_of_new rfl rfl hsent (by decide) (by decide)

/-- The first chunk comes twice, 2048 bytes of 1025: the receiver is ready without the last
byte. -/
theorem not_reassembled_repeated :
    (∀ d ∈ [onesBegin, onesChunk 0, onesChunk 0], d ∈ dsppCkptSend 7 1 0 (fun _ => 1) 1025) ∧
      dsppCkptRecvReady (ckptRecvAll 1 .boot [onesBegin, onesChunk 0, onesChunk 0]) = true ∧
      ¬Buf.Agree 1025 (ckptRecvAll 1 .boot [onesBegin, onesChunk 0, onesChunk 0]).buf
        fun _ => 1 := by
  refine ⟨?_, by decide, ?_⟩
  · have h0 := onesChunk_mem (i := 0) (by decide)
    simp only [forall_mem_cons]
    exact ⟨onesBegin_mem, h0, h0, by simp⟩
  · intro h
    exact absurd (h 1024 (by decide)) (by decide)

section fresh

variable {transferId sequence : UInt64} {data : Buf} {dataSize : UInt32}

lemma chunkCount_pos (hn : 0 < n) : 0 < chunkCount n := by
  unfold chunkCount
  omega

/-- The chunks in the order they are sent. -/
theorem Collecting.run_chunks (h : Collecting transferId data dataSize s ∅)
    (hk : k ≤ chunkCount dataSize.toNat) (h0 : 0 < dataSize.toNat) :
    k = chunkCount dataSize.toNat ∧ Delivered data dataSize
        (ckptRecvAll node s ((range k).map fun i =>
          ckptChunk transferId node sequence data dataSize (UInt32.ofNat i))) ∨
    k < chunkCount dataSize.toNat ∧ Collecting transferId data dataSize
        (ckptRecvAll node s ((range k).map fun i =>
          ckptChunk transferId node sequence data dataSize (UInt32.ofNat i))) (Finset.range k) := by
  induction k with
  | zero => exact .inr ⟨chunkCount_pos h0, h⟩
  | succ k ih =>
    obtain ⟨heq, -⟩ | ⟨hlt, hk'⟩ := ih (by omega)
    · omega
    rw [range_succ, map_append, ckptRecvAll, run_append]
    have hcard : Finset.range (k + 1) = Finset.range (chunkCount dataSize.toNat) ↔
        k + 1 = chunkCount dataSize.toNat :=
      ⟨fun he => by simpa using congrArg Finset.card he, fun he => by rw [he]⟩
    have hstep := hk'.rx_chunk hlt
      (rfl : _ = ckptChunk transferId node sequence data dataSize _) (by simp)
    rw [← Finset.range_add_one, Ne, hcard] at hstep
    obtain hdone | ⟨hne, hmore⟩ := hstep
    · exact .inl hdone
    · exact .inr ⟨by omega, hmore⟩

lemma delivered_of_idle (hact : s.active = false) (h0 : 0 < dataSize.toNat)
    (hn : dataSize.toNat ≤ 24576) :
    Delivered data dataSize
      (ckptRecvAll node s (dsppCkptSend transferId node sequence data dataSize)) := by
  have hne : dataSize ≠ 0 := by
    rintro rfl
    exact absurd h0 (by decide)
  rw [dsppCkptSend, if_neg hne, toNat_totalChunks hn]
  obtain ⟨-, hdone⟩ | ⟨hlt, -⟩ := (rx_begin hact hn).run_chunks le_rfl h0
  · exact hdone
  · omega

lemma ckptRecvAll_append :
    ckptRecvAll node s (ds ++ ds') = ckptRecvAll node (ckptRecvAll node s ds) ds' :=
  run_append ..

lemma ckptRecvAll_other (hact : s.active) (hx : transferId ≠ s.xferId)
    (hds : ∀ d ∈ ds, d ∈ dsppCkptSend transferId node sequence data dataSize) :
    ckptRecvAll node s ds = s := by
  apply run_induction (I := fun s' => s' = s) (P := fun _ d =>
    d ∈ dsppCkptSend transferId node sequence data dataSize) rfl ?_
    (always_of_forall fun d hd _ => hds d hd)
  intro s' d hs' hd
  subst hs'
  obtain ⟨-, rfl | ⟨i, -, rfl⟩⟩ := mem_dsppCkptSend.1 hd
  · exact dsppCkptRx_begin_active rfl hact
  obtain ⟨-, he⟩ | ⟨-, hbeg, -⟩ | ⟨o, n, hw, -⟩ := dsppCkptRx_cases
  · exact he
  · cases hbeg
  · rw [ckptWrite_eq_some, CkptRecv.place_eq_some] at hw
    exact absurd hw.2.2.1.2.1 hx

/-- After any packets whatever, a whole new transfer arrives if and only if no earlier
one is still open. -/
theorem transfer_received_iff (before : List Delivery)
    (hx : transferId ≠ (ckptRecvAll node .boot before).xferId) (h0 : 0 < dataSize.toNat)
    (hn : dataSize ≤ ckptRecvMax) :
    (dsppCkptRecvReady (ckptRecvAll node .boot
        (before ++ dsppCkptSend transferId node sequence data dataSize)) = true ∧
      dsppCkptRecvSize (ckptRecvAll node .boot
        (before ++ dsppCkptSend transferId node sequence data dataSize)) = dataSize ∧
      Buf.Agree dataSize.toNat (ckptRecvAll node .boot
        (before ++ dsppCkptSend transferId node sequence data dataSize)).buf data) ↔
      (ckptRecvAll node .boot before).active = false := by
  have hwf := CkptRecv.wf_recvAll node before
  rw [ckptRecvAll_append]
  generalize ckptRecvAll node .boot before = s at hwf hx ⊢
  constructor
  · rintro ⟨hready, -⟩
    by_contra hact
    rw [Bool.not_eq_false] at hact
    rw [ckptRecvAll_other hact hx fun d hd => hd, dsppCkptRecvReady, hwf.pending hact] at hready
    cases hready
  intro hact
  have hle : dataSize.toNat ≤ 24576 := UInt32.le_iff_toNat_le.1 hn
  have hdone : Delivered data dataSize (ckptRecvAll node s
    (dsppCkptSend transferId node sequence data dataSize)) := delivered_of_idle hact h0 hle
  refine ⟨hdone.complete, ?_, hdone.bytes⟩
  rw [dsppCkptRecvSize, if_pos hdone.complete, hdone.total]

end fresh

/-- A receiver that has finished one transfer takes the next. -/
theorem transfer_received_second :
    let st := ckptRecvAll 1 .boot
      ([onesBegin, onesChunk 0, onesChunk 1] ++ dsppCkptSend 8 1 0 (fun _ => 2) 3)
    dsppCkptRecvReady st = true ∧ dsppCkptRecvSize st = 3 ∧ Buf.Agree 3 st.buf fun _ => 2 :=
  (transfer_received_iff [onesBegin, onesChunk 0, onesChunk 1] (by decide) (by decide)
    (by decide)).2 (by decide)

/-- A sender that stops after its first chunk leaves a receiver that takes no other
transfer. -/
theorem receiver_wedged : dsppCkptRecvReady (ckptRecvAll 1 .boot
      ([onesBegin, onesChunk 0] ++ dsppCkptSend 8 1 0 (fun _ => 2) 3)) = false := by
  decide

end AeroSLS.Net
