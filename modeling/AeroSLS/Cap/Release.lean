import AeroSLS.Cap.Transfer

namespace AeroSLS.Cap

open Bytes Function

variable (env : Env) (s : State)

def capArenaFree (pid capIdx : ℕ) : State × Except CapError Unit :=
  match capTableIndex s pid with
  | (s, none) => (s, .error .etablefull)
  | (s, some ti) =>
    let w := (s.tables ti).slots capIdx
    if !(capWordValid w && w.ty == .mem) then (s, .error .einval)
    else if (capObjectGet s w.obj).isNone then (s, .error .einval)
    else if (s.objects w.obj).revoking then (s, .error .ecaprevoked)
    else
      let s := capHolderRemove s w.obj (.slot (pid % 2 ^ 16) capIdx)
      (capSlotPush (reapUnheld s w.obj) ti capIdx, .ok ())

def stampHolder (s : State) : CapHolder → State
  | .slot _ _ => s
  | .queue c ref d =>
    let entry := ref / capMsgMaxCaps
    let i := ref % capMsgMaxCaps
    s.setWord c d entry i (capWordStampRevoked (s.word c d entry i))

/-- Phase 2 of a revocation on one node: a slot is freed. -/
def zeroHolder (s : State) : CapHolder → State
  | .slot pid ref =>
    match capTableIndex s pid with
    | (s, none) => s
    | (s, some ti) => capSlotPush s ti ref
  | .queue _ _ _ => s

def capTableUnmapObject (s : State) (ti o : ℕ) : State :=
  (List.range capMapMax).foldl (fun s' i =>
    let m := (s'.tables ti).maps i
    if m.active ∧ m.objId = o then dropMap s' (env.procCr3 (s.tables ti).pid) ti i else s') s

def capRevoke (pid capIdx : ℕ) : State × Except CapError Unit :=
  match capTableIndex s pid with
  | (s, none) => (s, .error .etablefull)
  | (s, some ti) =>
    let w := (s.tables ti).slots capIdx
    if !capWordValid w then (s, .error .einval)
    else if (capObjectGet s w.obj).isNone then (s, .error .einval)
    else if (s.objects w.obj).revoking then (s, .error .ealready)
    else
      let o := w.obj
      let holders := (s.objects o).holders
      let s := s.modObject o fun ob => { ob with revoking := true, holders := [] }
      let s := holders.foldl stampHolder s
      -- the detached nodes are chained in reverse
      let s := holders.reverse.foldl zeroHolder s
      let s := (List.range capTableMax).foldl (fun s ti => capTableUnmapObject env s ti o) s
      let s := { s.modObject o fun ob => { ob with refcount := ob.refcount - holders.length } with
        holderFree := s.holderFree + holders.length }
      (reapUnheld s o, .ok ())

def capDrainQueue (s : State) (c : ℕ) (d : Dir) : ℕ → State
  | 0 => s
  | depth + 1 =>
    let entry := (s.channels c).qhead d % chanQueueDepth
    let s := dropAll s c d entry (List.range capMsgMaxCaps)
    capDrainQueue (dequeue s c d entry fun m => { m with nCaps := 0 }) c d depth

def drain (c : ℕ) (d : Dir) : State := capDrainQueue s c d ((s.channels c).qdepth d)

/-- The distinct channel objects the process holds a read end of, as far as the
buffer reaches. -/
def readObjects (t : CapTable) (slots : List ℕ) : List ℕ :=
  slots.foldl (fun objs i =>
    let w := t.slots i
    if w.ty = .chanR ∧ w.obj ∉ objs ∧ objs.length < capChanMax then objs ++ [w.obj] else objs) []

/-- Drain the queue that the dying process would have read. -/
def preDrain (s : State) (pid o : ℕ) : State :=
  match capObjectGet s o with
  | none => s
  | some ob => if ob.kind = .chan then drain s ob.chanId (recvDir s ob.chanId pid) else s

/-- Drop one slot of the dying process; the channels that die on the way are collected. -/
def dropSlot (ti pid : ℕ) (sd : State × List ℕ) (slot : ℕ) : State × List ℕ :=
  let (s, dead) := sd
  let o := ((s.tables ti).slots slot).obj
  match capObjectGet s o with
  | none => (capSlotPush s ti slot, dead)
  | some _ =>
    let s := capSlotPush (capHolderRemove s o (.slot (pid % 2 ^ 16) slot)) ti slot
    let ob := s.objects o
    let dead := if ob.refcount = 0 ∧ ob.kind = .chan ∧ dead.length < capChanMax then
        dead ++ [ob.chanId] else dead
    (reapUnheld s o, dead)

/-- Tell the surviving end of a channel that its peer died. -/
def noticeDeath (s : State) (pid c : ℕ) : State :=
  s.modChannel c fun ch =>
    if !ch.active then ch
    else
      let notice (d : Dir) : CapChannel :=
        let ch := { ch with closed := update ch.closed d true }
        if ch.closeEvt (!d) then ch
        else { ch with
          closeEvt := update ch.closeEvt (!d) true
          closeReason := update ch.closeReason (!d) closePeerDead
          closeDetail := update ch.closeDetail (!d) pid }
      if ch.end0Pid = pid then notice false else if ch.end1Pid = pid then notice true else ch
where
  closePeerDead : ℕ := 2

/-- Unbind every vector whose notification channel the process read. -/
def unbindVectors (pid : ℕ) : State :=
  let bound v := s.irqChan v != capNone && (s.channels (s.irqChan v)).end0Pid == pid
  { s with
    irqChan := fun v => if bound v then capNone else s.irqChan v
    irqBudget := fun v => if bound v then 0 else s.irqBudget v }

def capTableTeardown (pid : ℕ) : State :=
  match capTableFind s pid with
  | none => s
  | some ti =>
    let t := s.tables ti
    let slots := (List.range capTableEntries).filter fun i => capWordValid (t.slots i)
    let s := (readObjects t slots).foldl (fun s o => preDrain s pid o) s
    let (s, dead) := slots.foldl (dropSlot ti pid) (s, [])
    let s := dead.foldl (fun s c => drain (drain s c false) c true) s
    let s := (List.range capMapMax).foldl (fun s i =>
      if ((s.tables ti).maps i).active then dropMap s (env.procCr3 pid) ti i else s) s
    let s := { s.modTable ti fun t => { t with pid := 0 } with
      tablePid := update s.tablePid ti 0 }
    let s := capTableFreelistInit s ti
    let s := (List.range capChanMax).foldl (fun s c => noticeDeath s pid c) s
    unbindVectors s pid

def capMapsOverlap (t : CapTable) (exceptObj vaddr npages : ℕ) : Bool :=
  (List.range capMapMax).any fun i =>
    let m := t.maps i
    m.active && m.objId != exceptObj && vaddr < m.vaddr + m.npages * pageBytes &&
      m.vaddr < vaddr + npages * pageBytes

def mapPages (s : State) (cr3 vaddr paddr : ℕ) (archFails : ℕ → Bool) :
    ℕ → ℕ → State × Bool
  | 0, _ => (s, true)
  | left + 1, i =>
    if archFails i then (unmapPages s cr3 vaddr i, false)
    else mapPages (capArchMapPage s cr3 (vaddr + i * pageBytes) (paddr + i * pageBytes))
      cr3 vaddr paddr archFails left (i + 1)

def capMap (pid capIdx vaddr flags : ℕ) (archFails : ℕ → Bool) : State × Except CapError Unit :=
  match capTableIndex s pid with
  | (s, none) => (s, .error .etablefull)
  | (s, some ti) =>
    let t := s.tables ti
    let w := t.slots capIdx
    if !(capWordValid w && w.ty == .mem) then (s, .error .ebadf)
    else if !w.hasPerm capPermMap then (s, .error .einval)
    else if flags = 0 ∨ flags &&& (capPermR ||| capPermW ||| capPermX) ≠ flags then
      (s, .error .einval)
    else if flags &&& w.perms ≠ flags then (s, .error .einval)
    else if vaddr % pageBytes ≠ 0 then (s, .error .einval)
    else if w.len = 0 ∨ 0x800000000000 < vaddr + w.len * pageBytes then (s, .error .erange)
    else
      match capObjectGet s w.obj with
      | none => (s, .error .einval)
      | some ob =>
        if ob.kind ≠ .mem then (s, .error .einval)
        else if ob.npages < w.off + w.len then (s, .error .erange)
        else if capMapsOverlap t w.obj vaddr w.len then (s, .error .econflict)
        else if ob.revoking then (s, .error .ecaprevoked)
        else
          let cr3 := env.procCr3 pid
          if cr3 = 0 then (s, .error .enosys)
          else
            match mapPages s cr3 vaddr (ob.physBase + w.off * pageBytes) archFails w.len 0 with
            | (s, false) => (s, .error .einval)
            | (s, true) =>
              match (List.range capMapMax).find? fun i => !(t.maps i).active with
              | none => (s, .error .etablefull)
              | some i =>
                (s.modMap ti i fun _ =>
                  { objId := w.obj, capSlot := capIdx, npages := w.len, vaddr, active := true },
                  .ok ())

def capUnmap (pid capIdx vaddr : ℕ) : State × Except CapError Unit :=
  match capTableIndex s pid with
  | (s, none) => (s, .error .etablefull)
  | (s, some ti) =>
    let t := s.tables ti
    let w := t.slots capIdx
    let wordObj := if capWordValid w && w.ty == .mem then w.obj else 0
    let hit := (List.range capMapMax).find? fun i =>
      let m := t.maps i
      m.active && m.vaddr == vaddr &&
        (m.capSlot == capIdx || wordObj != 0 && m.objId == wordObj)
    match hit with
    | none => (s, .error .einval)
    | some i => (dropMap s (env.procCr3 pid) ti i, .ok ())

end AeroSLS.Cap
