import AeroSLS.Cap.State

namespace AeroSLS.Cap

open Bytes Function

variable (env : Env) (s : State)

def handleChan (w : CapWord) : Option ℕ :=
  match capObjectGet s w.obj with
  | none => none
  | some ob => if ob.kind = .chan ∧ (s.channels ob.chanId).active then some ob.chanId else none

/-- The queue that a process on the channel writes; it reads the other one. -/
def sendDir (c pid : ℕ) : Dir := pid == (s.channels c).end0Pid

def recvDir (c pid : ℕ) : Dir := !sendDir s c pid

/-- Zero the caps of a ring entry before it is filled. -/
def clearEntry (c : ℕ) (d : Dir) (entry : ℕ) : State :=
  s.modMsg c d entry fun m =>
    { m with caps := fun i => if i < capMsgMaxCaps then 0 else m.caps i }

/-- A capability and its holder move from a slot into a ring entry, whose node was taken from
the pool before. -/
def moveToQueue (ti pid slot c : ℕ) (d : Dir) (entry i : ℕ) (cap : MsgCap) : State :=
  let o := cap.word.obj
  let s := capHolderRemove s o (.slot (pid % 2 ^ 16) slot)
  let s := capSlotPush s ti slot
  let s := capHolderLink s o (.queue c (entry * capMsgMaxCaps + i) d)
  s.setCap c d entry i cap

/-- Fill in a message and advance the tail: from here on it is queued. -/
def publish (c : ℕ) (d : Dir) (entry nCaps cookie flags payloadLen payloadIdx : ℕ) : State :=
  (s.modMsg c d entry fun m => { m with nCaps, cookie, flags, payloadLen, payloadIdx }).modChannel c
    fun ch => { ch with
      qtail := update ch.qtail d (ch.qtail d + 1)
      qdepth := update ch.qdepth d (ch.qdepth d + 1) }

def capSend (pid chW capIdx cookie : ℕ) : State × Except CapError Unit :=
  match capTableIndex s pid with
  | (s, none) => (s, .error .etablefull)
  | (s, some ti) =>
    let w := (s.tables ti).slots chW
    if !w.sendable then (s, .error .ebadf)
    else
      match handleChan s w with
      | none => (s, .error .ebadf)
      | some c =>
        let d := sendDir s c pid
        let pw := (s.tables ti).slots capIdx
        if capIdx ≠ capNone ∧ (!capWordValid pw ∨ (capObjectGet s pw.obj).isNone) then
          (s, .error .einval)
        else if chanQueueDepth ≤ (s.channels c).qdepth d then (s, .error .eagain)
        else
          let entry := (s.channels c).qtail d % chanQueueDepth
          let s := clearEntry s c d entry
          if capIdx = capNone then (publish s c d entry 0 cookie 0 0 capNone, .ok ())
          else if (s.objects pw.obj).revoking then (s, .error .ecaprevoked)
          else
            match capHolderAlloc s with
            | none => (s, .error .enomem)
            | some s =>
              let s := moveToQueue s ti pid capIdx c d entry 0 { (0 : MsgCap) with word := pw }
              (publish s c d entry 1 cookie 0 0 capNone, .ok ())

structure SLSCapDesc where
  slot : ℕ
  offset : ℕ
  len : ℕ
  rights : ℕ
  flags : ℕ
  deriving DecidableEq, Repr

/-- The check of one descriptor: the slot holds a MEM capability of a live object. -/
def descOk (ti : ℕ) (desc : SLSCapDesc) : Bool :=
  let w := (s.tables ti).slots desc.slot
  capWordValid w && w.ty == .mem && (capObjectGet s w.obj).isSome

def msgCap (desc : SLSCapDesc) (w : CapWord) : MsgCap :=
  { word := w, off := desc.offset, len := desc.len, rights := desc.rights, flags := desc.flags }

/-- The move loop of `cap_send_msg`, from cap index `i` on: how many caps are in the entry, and
whether all are. -/
def moveCaps (s : State) (ti pid c : ℕ) (d : Dir) (entry : ℕ) :
    ℕ → List (SLSCapDesc × CapWord) → State × ℕ × Bool
  | i, [] => (s, i, true)
  | i, (desc, w) :: rest =>
    if (s.objects w.obj).revoking then (s, i, false)
    else
      match capHolderAlloc s with
      | none => (s, i, false)
      | some s =>
        moveCaps (moveToQueue s ti pid desc.slot c d entry i (msgCap desc w)) ti pid c d entry
          (i + 1) rest

/-- One step of the rollback: the cap goes back to a fresh slot of the sender. -/
def restoreCap (ti pid c : ℕ) (d : Dir) (entry i : ℕ) (w : CapWord) : State :=
  let s :=
    match capSlotPop s ti with
    | none => s
    | some (s, slot) =>
      let s := capHolderRemove s w.obj (.queue c (entry * capMsgMaxCaps + i))
      match capHolderAlloc s with
      | none => capSlotPush s ti slot
      | some s => (capHolderLink s w.obj (.slot (pid % 2 ^ 16) slot)).setSlot ti slot w
  s.setWord c d entry i 0

def restoreCaps (s : State) (ti pid c : ℕ) (d : Dir) (entry : ℕ) : ℕ → List CapWord → State
  | _, [] => s
  | i, w :: rest => restoreCaps (restoreCap s ti pid c d entry i w) ti pid c d entry (i + 1) rest

/-- Stage the payload, if there is one, in a pool buffer. -/
def stagePayload (payload : Buf) (payloadLen : ℕ) : Option (State × ℕ) :=
  if payloadLen = 0 then some (s, capNone)
  else
    match capMsgPayloadAlloc s with
    | none => none
    | some (s, idx) =>
      some ({ s with
        payload := update s.payload idx ((s.payload idx).copy 0 payload payloadLen) }, idx)

def capSendMsg (pid chW : ℕ) (payload : Option Buf) (payloadLen : ℕ) (descs : List SLSCapDesc)
    (tag flags : ℕ) : State × Except CapError Unit :=
  if capMsgMaxCaps < descs.length then (s, .error .erange)
  else if capMsgMaxPayload < payloadLen then (s, .error .erange)
  else if 0 < payloadLen ∧ payload.isNone then (s, .error .einval)
  else
    match capTableIndex s pid with
    | (s, none) => (s, .error .etablefull)
    | (s, some ti) =>
      let w := (s.tables ti).slots chW
      if !w.sendable then (s, .error .ebadf)
      else
        match handleChan s w with
        | none => (s, .error .ebadf)
        | some c =>
          let d := sendDir s c pid
          if chanQueueDepth ≤ (s.channels c).qdepth d then (s, .error .eagain)
          else if !descs.all (descOk s ti) then (s, .error .einval)
          else
            let caps := descs.map fun desc => (desc, (s.tables ti).slots desc.slot)
            match stagePayload s (payload.getD Buf.zero) payloadLen with
            | none => (s, .error .enospc)
            | some (s, pidx) =>
              let entry := (s.channels c).qtail d % chanQueueDepth
              let s := clearEntry s c d entry
              match moveCaps s ti pid c d entry 0 caps with
              | (s, moved, false) =>
                let s := restoreCaps s ti pid c d entry 0 ((caps.take moved).map (·.2))
                let s := s.modMsg c d entry fun m => { m with nCaps := 0 }
                (capMsgPayloadFree s pidx, .error .ecaprevoked)
              | (s, _, true) =>
                (publish s c d entry descs.length tag (flags % 2 ^ 8) payloadLen pidx, .ok ())

def dropQueued (s : State) (c : ℕ) (d : Dir) (entry i : ℕ) : State :=
  let w := s.word c d entry i
  if w = 0 then s
  else
    let s :=
      match capObjectGet s w.obj with
      | none => s
      | some _ => reapUnheld (capHolderRemove s w.obj (.queue c (entry * capMsgMaxCaps + i))) w.obj
    s.setWord c d entry i 0

def dropAll (c : ℕ) (d : Dir) (entry : ℕ) (is : List ℕ) : State :=
  is.foldl (fun s i => dropQueued s c d entry i) s

def capMsgDrainTail (c : ℕ) (d : Dir) (entry : ℕ) : State :=
  dropAll s c d entry (List.range' 1 ((s.msg c d entry).nCaps - 1))

/-- Release the payload of the head message and advance the head.  `f` clears the
fields that the caller clears. -/
def dequeue (c : ℕ) (d : Dir) (entry : ℕ) (f : ChanMsg → ChanMsg) : State :=
  let s := capMsgPayloadFree s (s.msg c d entry).payloadIdx
  (s.modMsg c d entry fun m => { f m with payloadLen := 0, payloadIdx := capNone }).modChannel c
    fun ch => { ch with
      qhead := update ch.qhead d (ch.qhead d + 1)
      qdepth := update ch.qdepth d (ch.qdepth d - 1) }

def moveToSlot (ti pid slot c : ℕ) (d : Dir) (entry i : ℕ) (w : CapWord) : State :=
  let o := w.obj
  let s := capHolderRemove s o (.queue c (entry * capMsgMaxCaps + i))
  let s := capHolderLink s o (.slot (pid % 2 ^ 16) slot)
  let s := s.setSlot ti slot w
  s.setWord c d entry i 0

def capRecv (pid chR : ℕ) : State × Except CapError Unit × Option ℕ × ℕ :=
  match capTableIndex s pid with
  | (s, none) => (s, .error .etablefull, none, capNone)
  | (s, some ti) =>
    let w := (s.tables ti).slots chR
    if !w.receivable then (s, .error .ebadf, none, capNone)
    else
      match handleChan s w with
      | none => (s, .error .ebadf, none, capNone)
      | some c =>
        let d := recvDir s c pid
        if (s.channels c).qdepth d = 0 then (s, .error .eagain, none, capNone)
        else
          let entry := (s.channels c).qhead d % chanQueueDepth
          let m := s.msg c d entry
          if m.nCaps = 0 then (dequeue s c d entry id, .ok (), some m.cookie, capNone)
          else
            let pw := (m.caps 0).word
            if (capObjectGet s pw.obj).isNone ∨ pw.state = .revoked ∨
                (s.objects pw.obj).revoking then
              (dequeue (capMsgDrainTail s c d entry) c d entry fun m => { m with nCaps := 0 },
                .error .ecaprevoked, some m.cookie, capNone)
            else
              match capSlotPop s ti with
              | none => (s, .error .etablefull, none, capNone)
              | some (s, slot) =>
                match capHolderAlloc s with
                | none => (capSlotPush s ti slot, .error .enomem, none, capNone)
                | some s =>
                  let s := moveToSlot s ti pid slot c d entry 0 pw
                  (dequeue (capMsgDrainTail s c d entry) c d entry id, .ok (), some m.cookie, slot)

/-- The region a received MEM capability is mapped over: the granted bytes within the object, or
all of it when `len` is 0 or `off` is past its end. -/
def grantedRegion (ob : CapObject) (off len : ℕ) : ℕ × ℕ :=
  let bytes := ob.npages * pageBytes
  if len ≠ 0 ∧ off < bytes then
    let len := if bytes < off + len then bytes - off else len
    let first := (ob.physBase + off) / pageBytes * pageBytes
    let last := (ob.physBase + off + len - 1) / pageBytes * pageBytes
    (first, (last - first) / pageBytes + 1)
  else (ob.physBase, ob.npages)

/-- `cap_arch_identity_map_user`, for a MEM word moved to a process with page tables. -/
def grantPages (pid : ℕ) (cap : MsgCap) : State :=
  if cap.word.ty = .mem ∧ env.procCr3 pid ≠ 0 then
    let (phys, npages) := grantedRegion (s.objects cap.word.obj) cap.off cap.len
    { s with
      userMaps := { cr3 := env.procCr3 pid, phys, npages, perms := cap.rights } :: s.userMaps }
  else s

/-- One step of the install loop of `cap_recv_msg`. A dead word is left to the drop loop; a
revoked one is zeroed. -/
def installCap (s : State) (ti pid c : ℕ) (d : Dir) (entry i : ℕ) :
    State × Except CapError (Option SLSCapDesc) :=
  let cap := (s.msg c d entry).caps i
  if cap.word = 0 then (s, .ok none)
  else if (capObjectGet s cap.word.obj).isNone then (s, .ok none)
  else if cap.word.state = .revoked ∨ (s.objects cap.word.obj).revoking then
    (s.setWord c d entry i 0, .ok none)
  else
    match capSlotPop s ti with
    | none => (s, .error .etablefull)
    | some (s, slot) =>
      match capHolderAlloc s with
      | none => (capSlotPush s ti slot, .error .enomem)
      | some s =>
        (grantPages env (moveToSlot s ti pid slot c d entry i cap.word) pid cap,
          .ok (some { slot, offset := cap.off, len := cap.len, rights := cap.rights,
                      flags := cap.flags }))

def installCaps (s : State) (ti pid c : ℕ) (d : Dir) (entry : ℕ) :
    List ℕ → State × Except CapError (List SLSCapDesc)
  | [] => (s, .ok [])
  | i :: rest =>
    match installCap env s ti pid c d entry i with
    | (s, .error e) => (s, .error e)
    | (s, .ok desc) =>
      match installCaps s ti pid c d entry rest with
      | (s, .error e) => (s, .error e)
      | (s, .ok descs) => (s, .ok (desc.toList ++ descs))

/-- What `cap_recv_msg` writes through its out-pointers. -/
structure RecvOut where
  payload : List UInt8
  payloadLen : ℕ
  caps : List SLSCapDesc
  tag : ℕ
  flags : ℕ
  deriving DecidableEq, Repr

def capRecvMsg (pid chR bufLen maxCaps : ℕ) : State × Except CapError RecvOut :=
  match capTableIndex s pid with
  | (s, none) => (s, .error .etablefull)
  | (s, some ti) =>
    let w := (s.tables ti).slots chR
    if !w.receivable then (s, .error .ebadf)
    else
      match handleChan s w with
      | none => (s, .error .ebadf)
      | some c =>
        let d := recvDir s c pid
        if (s.channels c).qdepth d = 0 then (s, .error .eagain)
        else
          let entry := (s.channels c).qhead d % chanQueueDepth
          let m := s.msg c d entry
          match installCaps env s ti pid c d entry
              (List.range (min m.nCaps (min maxCaps capMsgMaxCaps))) with
          | (s, .error e) => (s, .error e)
          | (s, .ok descs) =>
            let s := dropAll s c d entry (List.range m.nCaps)
            (dequeue s c d entry fun m => { m with nCaps := 0, flags := 0 },
              .ok {
                payload := (List.range (min m.payloadLen bufLen)).map (s.payload m.payloadIdx)
                payloadLen := m.payloadLen, caps := descs, tag := m.cookie % 2 ^ 32
                flags := m.flags })

def capIrqNotifyLocked (vector : ℕ) : State :=
  let c := s.irqChan vector
  if c = capNone then s
  else
    let ch := s.channels c
    let budget := if s.irqBudget vector = 0 then chanQueueDepth else s.irqBudget vector
    if !ch.active ∨ budget ≤ ch.qdepth false then s
    else
      match capMsgPayloadAlloc s with
      | none => s
      | some (s, pidx) =>
        let bytes := update (s.payload pidx) 0 (UInt8.ofNat vector)
        let s := { s with payload := update s.payload pidx bytes }
        let entry := ch.qtail false % chanQueueDepth
        publish (clearEntry s c false entry) c false entry 0 vector 0 1 pidx

end AeroSLS.Cap
