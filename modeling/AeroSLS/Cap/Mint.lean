import AeroSLS.Cap.State

namespace AeroSLS.Cap

open Bytes Function

variable (env : Env) (s : State)

def memPermsOk (perm : ℕ) : Bool :=
  perm != 0 && perm &&& (capPermR ||| capPermW ||| capPermX ||| capPermMap) == perm

/-- Pop a slot for a new object and publish its word there; `undo` gives back what the object
took if that fails. -/
def installFirst (s : State) (ti pid o : ℕ) (w : CapWord) (undo : State → State) :
    State × Except CapError ℕ :=
  match capSlotPop s ti with
  | none => (capObjectDestroy (undo s) o, .error .etablefull)
  | some (s, idx) =>
    match capHolderAlloc s with
    | none => (capObjectDestroy (undo (capSlotPush s ti idx)) o, .error .enomem)
    | some s => ((capHolderLink s o (.slot (pid % 2 ^ 16) idx)).setSlot ti idx w, .ok idx)

def memConflict (base fin : ℕ) : Bool :=
  base < 0x100000 || base < env.kernelImageEnd && 0x100000 < fin ||
    s.arenaBase != 0 && base < s.arenaBase + capArenaFrames * pageBytes && s.arenaBase < fin ||
    (List.range capObjectMax).any fun i =>
      let ob := s.objects i
      ob.active && ob.kind == .mem && base < ob.physBase + ob.npages * pageBytes &&
        ob.physBase < fin

def capCreateMem (pid physBase npages perm : ℕ) : State × Except CapError ℕ :=
  if npages = 0 ∨ capViewMaxPages < npages then (s, .error .einval)
  else if !memPermsOk perm then (s, .error .einval)
  else if physBase % pageBytes ≠ 0 then (s, .error .einval)
  else if 0x100000000 < physBase + npages * pageBytes then (s, .error .erange)
  else if memConflict env s physBase (physBase + npages * pageBytes) then (s, .error .econflict)
  else
    match capTableIndex s pid with
    | (s, none) => (s, .error .etablefull)
    | (s, some ti) =>
      match capObjectAlloc s .mem with
      | none => (s, .error .enomem)
      | some (s, o) =>
        installFirst (s.modObject o fun ob => { ob with physBase, npages }) ti pid o
          (capWordMake .mem o perm 0 npages) id

def capArenaAlloc (pid npages perm : ℕ) : State × Except CapError ℕ :=
  if npages = 0 ∨ capViewMaxPages < npages then (s, .error .einval)
  else if !memPermsOk perm then (s, .error .einval)
  else if s.arenaBase = 0 then (s, .error .enomem)
  else
    match capTableIndex s pid with
    | (s, none) => (s, .error .etablefull)
    | (s, some ti) =>
      match capObjectAlloc s .mem with
      | none => (s, .error .enomem)
      | some (s, o) =>
        match capArenaAllocRun s npages o with
        | none => (capObjectDestroy s o, .error .enospc)
        | some (s, start) =>
          installFirst
            (s.modObject o fun ob =>
              { ob with physBase := s.arenaBase + start * pageBytes, npages })
            ti pid o (capWordMake .mem o perm 0 npages) fun s => capArenaClearRun s start npages

/-- A channel slot made ready for a new channel: the ring's contents stay. -/
def CapChannel.reset (ch : CapChannel) (end0Pid end1Pid : ℕ) : CapChannel :=
  { ch with
    end0Pid, end1Pid, active := true
    qhead := fun _ => 0, qtail := fun _ => 0, qdepth := fun _ => 0
    closed := fun _ => false, closeEvt := fun _ => false
    closeReason := fun _ => 0, closeDetail := fun _ => 0 }

def readEnd (o : ℕ) : CapWord := capWordMake .chanR o capPermRecv 0 1
def writeEnd (o : ℕ) : CapWord := capWordMake .chanW o capPermSend 0 1

/-- Pop a slot for the read end and one for the write end of a channel. -/
def popEnds (s : State) (ti : ℕ) : State × Option (ℕ × ℕ) :=
  match capSlotPop s ti with
  | none => (s, none)
  | some (s, rd) =>
    match capSlotPop s ti with
    | none => (capSlotPush s ti rd, none)
    | some (s, wr) => (s, some (rd, wr))

def writeEnds (s : State) (ti o rd wr : ℕ) : State :=
  (s.setSlot ti rd (readEnd o)).setSlot ti wr (writeEnd o)

def installNear (s : State) (ti o : ℕ) (both : Bool) : State × Option (ℕ × ℕ × ℕ × ℕ) :=
  match popEnds s ti with
  | (s, none) => (s, none)
  | (s, some (rd, wr)) =>
    if both then
      match capSlotPop s ti with
      | none => (capSlotPush (capSlotPush s ti rd) ti wr, none)
      | some (s, frd) =>
        match capSlotPop s ti with
        | none => (capSlotPush (capSlotPush (capSlotPush s ti rd) ti wr) ti frd, none)
        | some (s, fwr) =>
          (writeEnds (writeEnds s ti o rd wr) ti o frd fwr, some (rd, wr, frd, fwr))
    else (writeEnds s ti o rd wr, some (rd, wr, capNone, capNone))

/-- What a `cap_chan_create` that ran out of slots leaves. Far ends already published stay in
the far table. -/
def abandonChan (s : State) (c o pid farHolder : ℕ) : State :=
  let s := capHolderRemove s o (.slot (pid % 2 ^ 16) 0)
  let s := capHolderRemove s o (.slot (pid % 2 ^ 16) 1)
  let s := capHolderRemove s o (.slot farHolder 2)
  let s := capHolderRemove s o (.slot farHolder 3)
  (capObjectDestroy s o).modChannel c fun ch => { ch with active := false }

def farEnds (o : ℕ) (fti : Option ℕ) : State × Option (ℕ × ℕ) :=
  match fti with
  | none => (s, some (capNone, capNone))
  | some fti =>
    match popEnds s fti with
    | (s, none) => (s, none)
    | (s, some (frd, fwr)) => (writeEnds s fti o frd fwr, some (frd, fwr))

/-- The words of a new channel are handed out. -/
def handOut (c o ti : ℕ) (fti : Option ℕ) (pid farHolder : ℕ) :
    State × Except CapError (ℕ × ℕ × ℕ × ℕ) :=
  match farEnds s o fti with
  | (s, none) => (abandonChan s c o pid farHolder, .error .etablefull)
  | (s, some (frd, fwr)) =>
    match installNear s ti o fti.isNone with
    | (s, none) => (abandonChan s c o pid farHolder, .error .etablefull)
    | (s, some (rd, wr, nfrd, nfwr)) =>
      let frd := if fti.isNone then nfrd else frd
      let fwr := if fti.isNone then nfwr else fwr
      (s.modObject o fun ob => { ob with holders :=
        [.slot farHolder fwr, .slot farHolder frd, .slot (pid % 2 ^ 16) wr,
          .slot (pid % 2 ^ 16) rd] }, .ok (rd, wr, frd, fwr))

/-- The call once both tables are there. -/
def createChan (ti : ℕ) (fti : Option ℕ) (pid farPid : ℕ) :
    State × Except CapError (ℕ × ℕ × ℕ × ℕ) :=
  match capChanIdTake s with
  | none => (s, .error .enomem)
  | some (s, c) =>
    let s := s.modChannel c fun ch => ch.reset (pid % 2 ^ 16) (farPid % 2 ^ 16)
    match capObjectAlloc s .chan with
    | none =>
      ((capChanIdPut s c).modChannel c fun ch => { ch with active := false }, .error .enomem)
    | some (s, o) =>
      let s := s.modObject o fun ob => { ob with chanId := c }
      let farHolder := (if farPid ≠ 0 then farPid else pid) % 2 ^ 16
      -- four nodes or none: on a failure those taken so far go back
      if s.holderFree < 4 then (capObjectDestroy s o, .error .enomem)
      else
        -- the refs are placeholders until the slots are known
        let s := { s with holderFree := s.holderFree - 4 }
        let s := capHolderLink s o (.slot (pid % 2 ^ 16) 0)
        let s := capHolderLink s o (.slot (pid % 2 ^ 16) 1)
        let s := capHolderLink s o (.slot farHolder 2)
        let s := capHolderLink s o (.slot farHolder 3)
        handOut s c o ti fti pid farHolder

def capChanCreate (pid farPid : ℕ) : State × Except CapError (ℕ × ℕ × ℕ × ℕ) :=
  match capTableIndex s pid with
  | (s, none) => (s, .error .etablefull)
  | (s, some ti) =>
    let far : Bool := farPid != 0 && farPid != pid
    let (s, fti) := if far then capTableIndex s farPid else (s, none)
    if far && fti.isNone then (s, .error .etablefull)
    else createChan s ti fti pid farPid

/-- The error codes of the driver calls. -/
inductive CapErr
  | notfound
  | revoked
  | rights
  | range
  | space
  | state
  | type
  | proto
  | nomem
  | bufsz
  | timeout
  deriving DecidableEq, Repr

def kIrqBind (pid slot budget : ℕ) : State × Except CapErr ℕ :=
  if chanQueueDepth < budget then (s, .error .range)
  else
    match capTableIndex s pid with
    | (s, none) => (s, .error .notfound)
    | (s, some ti) =>
      let w := (s.tables ti).slots slot
      if capTableEntries ≤ slot then (s, .error .range)
      else if !capWordValid w then (s, .error .revoked)
      else if w.ty ≠ .irq then (s, .error .type)
      else if !w.hasPerm capPermBind then (s, .error .rights)
      else if capIrqVectors ≤ w.obj then (s, .error .range)
      else if s.irqChan w.obj ≠ capNone then (s, .error .state)
      else
        match capChanIdTake s with
        | none => (s, .error .space)
        | some (s, c) =>
          let s := s.modChannel c fun ch => ch.reset (pid % 2 ^ 16) 0
          let close (s : State) := s.modChannel c fun ch => { ch with active := false }
          match capObjectAlloc s .chan with
          -- the channel id is not put back here
          | none => (close s, .error .nomem)
          | some (s, o) =>
            let s := s.modObject o fun ob => { ob with chanId := c }
            match capSlotPop s ti with
            | none => (close (capObjectDestroy s o), .error .space)
            | some (s, rd) =>
              let s := s.setSlot ti rd (readEnd o)
              match capHolderAlloc s with
              | none => (close (capObjectDestroy (capSlotPush s ti rd) o), .error .nomem)
              | some s =>
                let s := capHolderLink s o (.slot (pid % 2 ^ 16) rd)
                let s := { s with
                  irqChan := update s.irqChan w.obj c
                  irqBudget := update s.irqBudget w.obj (budget % 2 ^ 16) }
                (s.setSlot ti slot (capWordStampRevoked w), .ok rd)

/-- Publish a word that names no object. -/
def mintPlain (s : State) (pid : ℕ) (w : CapWord) : State × Except CapError ℕ :=
  match capTableIndex s pid with
  | (s, none) => (s, .error .etablefull)
  | (s, some ti) =>
    match capSlotPop s ti with
    | none => (s, .error .etablefull)
    | some (s, idx) => (s.setSlot ti idx w, .ok idx)

/-- The CAP_IRQ record of a sidecar manifest. -/
def mintIrq (pid vector rights : ℕ) : State × Except CapError ℕ :=
  if capIrqVectors ≤ vector then (s, .error .einval)
  else mintPlain s pid (capWordMake .irq vector rights 0 1)

/-- The CAP_IO record of a sidecar manifest. -/
def mintIo (pid physBase sizeBytes rights : ℕ) : State × Except CapError ℕ :=
  if physBase = 0 ∨ sizeBytes = 0 ∨ 0x10000 < (physBase + sizeBytes) % 2 ^ 64 then
    (s, .error .einval)
  else mintPlain s pid (capWordMake .io physBase rights 0 (sizeBytes % 2 ^ 16))

/-- The CAP_DEV record of a sidecar manifest: a device region with an object of its own. -/
def mintDev (pid physBase sizeBytes rights : ℕ) : State × Except CapError ℕ :=
  let npages := (sizeBytes + 4095) % 2 ^ 64 / pageBytes % 2 ^ 32
  if physBase = 0 ∨ sizeBytes = 0 ∨ physBase % pageBytes ≠ 0 then (s, .error .einval)
  else if npages = 0 ∨ 2 ^ 12 - 1 < npages then (s, .error .einval)
  else
    match capTableIndex s pid with
    | (s, none) => (s, .error .etablefull)
    | (s, some ti) =>
      match capObjectAlloc s .dev with
      | none => (s, .error .enomem)
      | some (s, o) =>
        installFirst (s.modObject o fun ob => { ob with physBase, npages }) ti pid o
          (capWordMake .dev o rights 0 npages) id

def capTrampMax : ℕ := 64

/-- `cap_trampoline_create`, once the MPK and argument checks have passed. -/
def capTrampolineCreate (pid : ℕ) : State × Except CapError ℕ :=
  if capTrampMax ≤ s.trampNext then (s, .error .etablefull)
  else
    mintPlain { s with trampNext := s.trampNext + 1 } pid
      (capWordMake .tramp s.trampNext (capPermR ||| capPermX) 0 0)

end AeroSLS.Cap
