import AeroSLS.Cap.Mint
import AeroSLS.Cap.Release

namespace AeroSLS.Cap

open Bytes Function

variable (env : Env) (s : State)

def chanTableForPid (pid : ℕ) : Option ℕ :=
  (List.range capTableMax).find? fun i => (s.tables i).pid == pid

def chanResolve (pid slot : ℕ) (want : Option CapType) : Except CapErr (ℕ × Dir) :=
  match chanTableForPid s pid with
  | none => .error .notfound
  | some ti =>
    let w := (s.tables ti).slots slot
    if capTableEntries ≤ slot then .error .range
    else if !capWordValid w then .error .revoked
    else if w.ty ≠ .chanR ∧ w.ty ≠ .chanW then .error .type
    else if want.isSome ∧ want ≠ some w.ty then .error .type
    else if want = some .chanR ∧ !w.hasPerm capPermRecv then .error .rights
    else if want = some .chanW ∧ !w.hasPerm capPermSend then .error .rights
    else if capObjectMax ≤ w.obj then .error .revoked
    else
      let ob := s.objects w.obj
      if !ob.active ∨ ob.kind ≠ .chan then .error .revoked
      else if capChanMax ≤ ob.chanId then .error .revoked
      else if !(s.channels ob.chanId).active then .error .state
      else .ok (ob.chanId, pid != (s.channels ob.chanId).end0Pid)

def chanMapErr : CapError → CapErr
  | .ebadf => .notfound
  | .ecaprevoked => .revoked
  | .einval => .type
  | .eagain => .timeout
  | .enomem => .nomem
  | .enospc => .nomem
  | .erange => .range
  | .etablefull => .space
  | .ealready | .enosys | .econflict => .proto

inductive ChKind
  | msg
  | close
  deriving DecidableEq, Repr

structure SLSChanCapRef where
  handle : ℕ
  rights : ℕ
  flags : ℕ
  base : ℕ
  len : ℕ
  deriving DecidableEq, Repr

/-- What a successful `k_chan_recv` writes: `buf` are the bytes it copies out. -/
structure SLSChanRecvOut where
  kind : ChKind
  flags : ℕ
  tag : ℕ
  len : ℕ
  nCaps : ℕ
  buf : List UInt8
  slots : List SLSChanCapRef
  deriving DecidableEq, Repr

def chFNoReply : ℕ := 2

def capDebugObjid (pid capIdx : ℕ) : Option ℕ :=
  match capTableIndex s pid with
  | (_, none) => none
  | (s, some ti) =>
    let w := (s.tables ti).slots capIdx
    if capWordValid w then some w.obj else none

def capDebugObjPhys (o : ℕ) : ℕ :=
  match capObjectGet s o with
  | none => 0
  | some ob => if ob.kind = .mem then ob.physBase else 0

/-- The reference to a received capability. -/
def capRef (pid : ℕ) (desc : SLSCapDesc) : SLSChanCapRef :=
  let base := match capDebugObjid s pid desc.slot with
    | none => 0
    | some o => capDebugObjPhys s o
  { handle := desc.slot, rights := desc.rights, flags := desc.flags
    base := (base + desc.offset) % 2 ^ 64, len := desc.len }

def closeBody (reason detail : ℕ) : List UInt8 :=
  [.ofNat reason, .ofNat (reason / 2 ^ 8), .ofNat detail, .ofNat (detail / 2 ^ 8),
    .ofNat (detail / 2 ^ 16), .ofNat (detail / 2 ^ 24), 0, 0]

/-- `k_chan_recv`; an error comes with the value of `needed`. -/
def kChanRecv (pid chan bufLen nSlots : ℕ) : State × Except (CapErr × ℕ) SLSChanRecvOut :=
  match chanResolve s pid chan (some .chanR) with
  | .error e => (s, .error (e, 0))
  | .ok (c, d) =>
    let ch := s.channels c
    if ch.qdepth d = 0 then
      if ch.closeEvt d then
        if bufLen < 8 then (s, .error (.bufsz, 8))
        else
          (s.modChannel c fun ch => { ch with closeEvt := update ch.closeEvt d false },
            .ok {
              kind := .close, flags := 0, tag := 0, len := 8, nCaps := 0
              buf := closeBody (ch.closeReason d) (ch.closeDetail d), slots := [] })
      else (s, .error (.state, 0))
    else
      let m := s.msg c d (ch.qhead d % chanQueueDepth)
      if bufLen < m.payloadLen ∨ nSlots < m.nCaps then
        (s, .error (.bufsz, m.nCaps % 2 ^ 16 * 2 ^ 16 + m.payloadLen % 2 ^ 16))
      else
        -- the capacity is narrowed to 16 bits
        match capRecvMsg env s pid chan bufLen (nSlots % 2 ^ 16) with
        | (s, .error e) => (s, .error (chanMapErr e, 0))
        | (s, .ok r) =>
          (s, .ok {
            kind := .msg, flags := if r.flags &&& 1 ≠ 0 then chFNoReply else 0, tag := r.tag
            len := r.payloadLen, nCaps := r.caps.length, buf := r.payload
            slots := (r.caps.take nSlots).map (capRef s pid) })

/-- The handle of a send is a write end, or the read end on which a server replies. -/
def chanSendResolve (pid chan : ℕ) : Except CapErr (ℕ × Dir) :=
  match chanResolve s pid chan (some .chanW) with
  | .error .type => chanResolve s pid chan (some .chanR)
  | r => r

def kChanSend (pid chan tag flags : ℕ) (payload : Option Buf) (payloadLen : ℕ)
    (caps : List SLSCapDesc) : State × Except CapErr Unit :=
  if capMsgMaxPayload < payloadLen then (s, .error .range)
  else if capMsgMaxCaps < caps.length then (s, .error .range)
  else if 0 < payloadLen ∧ payload.isNone then (s, .error .proto)
  else if flags &&& chFNoReply ≠ 0 ∧ 0 < caps.length then (s, .error .proto)
  else
    match chanSendResolve s pid chan with
    | .error e => (s, .error e)
    | .ok (c, d) =>
      let ch := s.channels c
      if ch.closed d || ch.closed (!d) then (s, .error .state)
      else
        let tflags := if flags &&& chFNoReply ≠ 0 then 1 else 0
        match capSendMsg s pid chan payload payloadLen caps tag tflags with
        | (s, .ok ()) => (s, .ok ())
        | (s, .error e) => (s, .error (chanMapErr e))

/-- `k_chan_close`: the peer gets a CLOSE event, once. -/
def kChanClose (pid chan reason detail : ℕ) : State × Except CapErr Unit :=
  match chanResolve s pid chan none with
  | .error e => (s, .error e)
  | .ok (c, d) =>
    if (s.channels c).closed d then (s, .ok ())
    else
      (s.modChannel c fun ch => { ch with
        closed := update ch.closed d true
        closeEvt := update ch.closeEvt (!d) true
        closeReason := update ch.closeReason (!d) reason
        closeDetail := update ch.closeDetail (!d) detail }, .ok ())

end AeroSLS.Cap
