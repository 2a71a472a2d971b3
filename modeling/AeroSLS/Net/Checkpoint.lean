import AeroSLS.Lib.Bytes
import AeroSLS.Lib.Machine

namespace AeroSLS.Net

open AeroSLS.Bytes

def dsppCkptChunkBytes : UInt32 := 1024
def ckptRecvMax : UInt32 := 24 * 1024

def dsppCkptHeaderSize : ℕ := 53

/-- `other` stands for every value that the receiver's switch does not name. -/
inductive DSPPCkptOpcode
  | beginReq
  | beginAck
  | chunkReq
  | chunkAck
  | other
  deriving DecidableEq, Repr

structure DSPPCkptHeader where
  opcode : DSPPCkptOpcode
  nodeDestId : UInt32
  transferId : UInt64
  chunkIndex : UInt32 := 0
  sequence : UInt64
  totalBytes : UInt32 := 0
  totalChunks : UInt32 := 0
  chunkBytes : UInt32 := 0
  deriving DecidableEq, Repr

structure DSPPCkptChunkPacket where
  header : DSPPCkptHeader
  chunkData : Buf

/-- A packet as it reaches the receiver, with the length of its frame. -/
structure Delivery where
  packet : DSPPCkptChunkPacket
  len : UInt16

abbrev Delivery.header (d : Delivery) : DSPPCkptHeader := d.packet.header

section sender

variable (transferId : UInt64) (nodeDestId : UInt32) (sequence : UInt64) (data : Buf)
  (dataSize : UInt32)

def ckptTotalChunks : UInt32 :=
  (dataSize + dsppCkptChunkBytes - 1) / dsppCkptChunkBytes

def ckptBegin : Delivery where
  packet.header :=
    { opcode := .beginReq, nodeDestId, transferId, sequence
      totalBytes := dataSize, totalChunks := ckptTotalChunks dataSize }
  packet.chunkData := Buf.zero
  len := UInt16.ofNat dsppCkptHeaderSize

def ckptChunkSz (i : UInt32) : UInt32 :=
  let remaining := dataSize - i * dsppCkptChunkBytes
  if remaining < dsppCkptChunkBytes then remaining else dsppCkptChunkBytes

def ckptChunk (i : UInt32) : Delivery where
  packet.header :=
    { opcode := .chunkReq, nodeDestId, transferId, chunkIndex := i, sequence
      chunkBytes := ckptChunkSz dataSize i }
  packet.chunkData :=
    Buf.zero.copy 0 (data.at (i * dsppCkptChunkBytes).toNat) (ckptChunkSz dataSize i).toNat
  len := UInt16.ofNat (dsppCkptHeaderSize + (ckptChunkSz dataSize i).toNat)

/-- The packets `dspp_ckpt_send` hands to the network, in the order it does.  The
`data` pointer is not null. -/
def dsppCkptSend : List Delivery :=
  if dataSize = 0 then []
  else
    ckptBegin transferId nodeDestId sequence dataSize ::
      (List.range (ckptTotalChunks dataSize).toNat).map fun i =>
        ckptChunk transferId nodeDestId sequence data dataSize (UInt32.ofNat i)

end sender

/-- The statics `ckpt_recv_*`. A write at or above `ckptRecvMax` lands in what the linker placed
there. -/
structure CkptRecv where
  buf : Buf
  total : UInt32
  got : UInt32
  chunks : UInt32
  seq : UInt64
  xferId : UInt64
  active : Bool
  complete : Bool

def CkptRecv.boot : CkptRecv where
  buf := Buf.zero
  total := 0
  got := 0
  chunks := 0
  seq := 0
  xferId := 0
  active := false
  complete := false

def CkptRecv.begin (s : CkptRecv) (h : DSPPCkptHeader) : CkptRecv :=
  if s.active then s
  else if h.totalBytes > ckptRecvMax then s
  else
    { active := true, complete := false, total := h.totalBytes, chunks := h.totalChunks
      seq := h.sequence, xferId := h.transferId, got := 0
      buf := s.buf.fill 0 0 ckptRecvMax.toNat }

def DSPPCkptHeader.chunkSz (h : DSPPCkptHeader) : UInt32 :=
  if h.chunkBytes > dsppCkptChunkBytes then dsppCkptChunkBytes else h.chunkBytes

/-- The checks of the CHUNK case: where the bytes of the chunk go and how many. -/
def CkptRecv.place (s : CkptRecv) (h : DSPPCkptHeader) (len : UInt16) : Option (UInt32 × UInt32) :=
  if ¬s.active ∨ h.transferId ≠ s.xferId then none
  else if h.chunkIndex ≥ s.chunks then none
  else
    let offset := h.chunkIndex * dsppCkptChunkBytes
    if offset + h.chunkSz > s.total then none
    else if len < UInt16.ofNat (dsppCkptHeaderSize + h.chunkSz.toNat) then none
    else some (offset, h.chunkSz)

def CkptRecv.store (s : CkptRecv) (data : Buf) (offset chunkSz : UInt32) : CkptRecv :=
  let s := { s with
    buf := s.buf.copy offset.toNat data chunkSz.toNat
    got := s.got + chunkSz }
  if s.got ≥ s.total then { s with complete := true, active := false } else s

/-- The two checks every packet has to pass. -/
def Delivery.Heard (node : UInt32) (d : Delivery) : Prop :=
  dsppCkptHeaderSize ≤ d.len.toNat ∧ d.header.nodeDestId = node

instance (node : UInt32) (d : Delivery) : Decidable (d.Heard node) :=
  inferInstanceAs (Decidable (_ ∧ _))

def dsppCkptRx (node : UInt32) (s : CkptRecv) (d : Delivery) : CkptRecv :=
  if d.Heard node then
    match d.header.opcode with
    | .beginReq => s.begin d.header
    | .chunkReq =>
      match s.place d.header d.len with
      | none => s
      | some (offset, chunkSz) => s.store d.packet.chunkData offset chunkSz
    | .beginAck | .chunkAck | .other => s
  else s

/-- The `memcpy` the packet brings about, as offset and length; `none` if it is no accepted
chunk. -/
def ckptWrite (node : UInt32) (s : CkptRecv) (d : Delivery) : Option (UInt32 × UInt32) :=
  if d.Heard node ∧ d.header.opcode = .chunkReq then s.place d.header d.len else none

def dsppCkptRecvReady (s : CkptRecv) : Bool := s.complete

def dsppCkptRecvSize (s : CkptRecv) : UInt32 := if s.complete then s.total else 0

/-- The receiver after a sequence of packets. -/
def ckptRecvAll (node : UInt32) (s : CkptRecv) (ds : List Delivery) : CkptRecv :=
  Machine.run (dsppCkptRx node) s ds

variable {s : CkptRecv} {h : DSPPCkptHeader} {len : UInt16}

lemma DSPPCkptHeader.toNat_chunkSz : h.chunkSz.toNat = min h.chunkBytes.toNat 1024 := by
  unfold DSPPCkptHeader.chunkSz
  have hc : dsppCkptChunkBytes.toNat = 1024 := by decide
  split_ifs with hlt <;> rw [gt_iff_lt, UInt32.lt_iff_toNat_lt] at hlt <;> omega

/-- The checks of the CHUNK case, read as arithmetic. -/
theorem CkptRecv.place_eq_some : s.place h len = some (o, n) ↔
      (s.active ∧ h.transferId = s.xferId ∧ h.chunkIndex.toNat < s.chunks.toNat ∧
        (h.chunkIndex.toNat * 1024 % 2 ^ 32 + h.chunkSz.toNat) % 2 ^ 32 ≤ s.total.toNat ∧
        53 + h.chunkSz.toNat ≤ len.toNat) ∧
      o = h.chunkIndex * dsppCkptChunkBytes ∧ n = h.chunkSz := by
  have hsz : (UInt16.ofNat (dsppCkptHeaderSize + h.chunkSz.toNat)).toNat =
      53 + h.chunkSz.toNat := by
    have hle := h.toNat_chunkSz
    rw [UInt16.toNat_ofNat', dsppCkptHeaderSize]
    omega
  have hmul : (h.chunkIndex * dsppCkptChunkBytes).toNat = h.chunkIndex.toNat * 1024 % 2 ^ 32 :=
    UInt32.toNat_mul ..
  unfold CkptRecv.place
  simp only [gt_iff_lt, ge_iff_le, UInt32.lt_iff_toNat_lt, UInt32.le_iff_toNat_le,
    UInt16.lt_iff_toNat_lt, UInt32.toNat_add, hmul, hsz]
  split_ifs with h1 h2 h3 h4
  · tauto
  · simp only [false_iff]
    omega
  · simp only [false_iff]
    omega
  · simp only [false_iff]
    omega
  · grind

lemma CkptRecv.begin_cases : s.begin h = s ∨ s.active = false ∧ h.totalBytes.toNat ≤ 24576 ∧
      s.begin h = { active := true, complete := false, total := h.totalBytes
                    chunks := h.totalChunks, seq := h.sequence, xferId := h.transferId, got := 0
                    buf := s.buf.fill 0 0 ckptRecvMax.toNat } := by
  unfold CkptRecv.begin
  split_ifs with hact hbig
  · exact .inl rfl
  · exact .inl rfl
  · refine .inr ⟨by simpa using hact, ?_, rfl⟩
    have hmax : ckptRecvMax.toNat = 24576 := by decide
    rw [gt_iff_lt, UInt32.lt_iff_toNat_lt] at hbig
    omega

/-- A packet is ignored, opens a transfer or brings one chunk. -/
theorem dsppCkptRx_cases : ckptWrite node s d = none ∧ dsppCkptRx node s d = s ∨
    (d.Heard node ∧ d.header.opcode = .beginReq ∧ s.active = false ∧
      d.header.totalBytes.toNat ≤ 24576 ∧
      dsppCkptRx node s d =
        { active := true, complete := false, total := d.header.totalBytes
          chunks := d.header.totalChunks, seq := d.header.sequence
          xferId := d.header.transferId, got := 0
          buf := s.buf.fill 0 0 ckptRecvMax.toNat }) ∨
    ∃ o n, ckptWrite node s d = some (o, n) ∧
      dsppCkptRx node s d = s.store d.packet.chunkData o n := by
  unfold dsppCkptRx ckptWrite
  by_cases hd : d.Heard node
  · cases hop : d.header.opcode with
    | beginReq =>
      simp only [hd, reduceCtorEq, if_false, true_and]
      obtain hs | ⟨hact, hle, hs⟩ := CkptRecv.begin_cases
      · exact .inl hs
      · exact .inr (.inl ⟨hact, hle, hs⟩)
    | chunkReq => grind
    | beginAck | chunkAck | other => simp [hd]
  · simp [hd]

lemma ckptWrite_eq_some : ckptWrite node s d = some (o, n) ↔
      d.Heard node ∧ d.header.opcode = .chunkReq ∧ s.place d.header d.len = some (o, n) := by
  unfold ckptWrite
  split_ifs with hd
  · simp [hd]
  · tauto

end AeroSLS.Net
