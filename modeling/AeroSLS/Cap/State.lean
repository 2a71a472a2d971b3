import Mathlib.Logic.Function.Basic
import AeroSLS.Cap.Word
import AeroSLS.Lib.Bytes

namespace AeroSLS.Cap

open Bytes Function

def capNone : ℕ := 0xFFFF
def capFreelistEnd : ℕ := 0xFFFF
def capTableMax : ℕ := 16
def capTableEntries : ℕ := 512
def capMapMax : ℕ := 64
def capObjectMax : ℕ := 1024
def capHolderMax : ℕ := 8192
def capChanMax : ℕ := 64
def chanQueueDepth : ℕ := 16
def capMsgMaxCaps : ℕ := 4
def capMsgMaxPayload : ℕ := 4096
def capMsgPayloadPool : ℕ := 32
def capArenaFrames : ℕ := 16384
def capViewMaxPages : ℕ := 4096
def capIrqVectors : ℕ := 256
def pageBytes : ℕ := 4096

/-- A queue of a channel: `q[0]`, read by the end that created the channel, is
`false`, and `q[1]`, read by the far end, is `true`. -/
abbrev Dir := Bool

/-- The slot of a process, or the word of a queued message: `ref` is `entry * CAP_MSG_MAX_CAPS +
i`. -/
inductive CapHolder
  | slot (pid ref : ℕ)
  | queue (chan ref : ℕ) (qdir : Dir)
  deriving DecidableEq, Repr

/-- What `cap_holder_remove` compares: kind, pid and ref, but not `qdir`. -/
inductive HolderKey
  | slot (pid ref : ℕ)
  | queue (chan ref : ℕ)
  deriving DecidableEq, Repr

def CapHolder.key : CapHolder → HolderKey
  | .slot pid ref => .slot pid ref
  | .queue chan ref _ => .queue chan ref

inductive ObjKind
  | mem
  | chan
  | dev
  deriving DecidableEq, Repr

structure CapObject where
  id : ℕ
  kind : ObjKind
  revoking : Bool
  active : Bool
  holders : List CapHolder
  refcount : ℕ
  physBase : ℕ
  npages : ℕ
  chanId : ℕ
  deriving DecidableEq, Repr

/-- One moved capability of a message, with the descriptor sent beside it. -/
structure MsgCap where
  word : CapWord
  off : ℕ
  len : ℕ
  rights : ℕ
  flags : ℕ
  deriving DecidableEq, Repr

instance : Zero MsgCap := ⟨⟨0, 0, 0, 0, 0⟩⟩

structure ChanMsg where
  cookie : ℕ
  payloadLen : ℕ
  nCaps : ℕ
  flags : ℕ
  payloadIdx : ℕ
  caps : ℕ → MsgCap

structure CapChannel where
  end0Pid : ℕ
  end1Pid : ℕ
  active : Bool
  qhead : Dir → ℕ
  qtail : Dir → ℕ
  qdepth : Dir → ℕ
  q : Dir → ℕ → ChanMsg
  closed : Dir → Bool
  closeEvt : Dir → Bool
  closeReason : Dir → ℕ
  closeDetail : Dir → ℕ

structure CapMap where
  objId : ℕ
  capSlot : ℕ
  npages : ℕ
  vaddr : ℕ
  active : Bool
  deriving DecidableEq, Repr

structure CapTable where
  pid : ℕ
  freelistHead : ℕ
  slots : ℕ → CapWord
  maps : ℕ → CapMap

/-- One call of `cap_arch_identity_map_user`. -/
structure UserMap where
  cr3 : ℕ
  phys : ℕ
  npages : ℕ
  perms : ℕ
  deriving DecidableEq, Repr

structure State where
  tables : ℕ → CapTable
  tablePid : ℕ → ℕ
  objects : ℕ → CapObject
  objNext : ℕ
  holderFree : ℕ
  channels : ℕ → CapChannel
  chanNext : ℕ
  /-- `cap_chan_recycled`, the last id put back first. -/
  recycled : List ℕ
  arenaBase : ℕ
  arenaUsed : ℕ → Bool
  arenaOwner : ℕ → ℕ
  payload : ℕ → Buf
  payloadNext : ℕ → ℕ
  payloadFreeHead : ℕ
  irqChan : ℕ → ℕ
  irqBudget : ℕ → ℕ
  trampNext : ℕ
  pages : ℕ → ℕ → Option ℕ
  userMaps : List UserMap

/-- The page-table root of a process (0 when it has none) and the end of the kernel image. -/
structure Env where
  procCr3 : ℕ → ℕ
  kernelImageEnd : ℕ
  distinct : ∀ p p', procCr3 p ≠ 0 → procCr3 p = procCr3 p' → p = p'

inductive CapError
  | einval
  | ebadf
  | eagain
  | etablefull
  | ecaprevoked
  | ealready
  | enomem
  | enospc
  | erange
  | enosys
  | econflict
  deriving DecidableEq, Repr

namespace State

variable (s : State)

def modTable (ti : ℕ) (f : CapTable → CapTable) : State :=
  { s with tables := update s.tables ti (f (s.tables ti)) }

def modObject (o : ℕ) (f : CapObject → CapObject) : State :=
  { s with objects := update s.objects o (f (s.objects o)) }

def modChannel (c : ℕ) (f : CapChannel → CapChannel) : State :=
  { s with channels := update s.channels c (f (s.channels c)) }

def setSlot (ti idx : ℕ) (w : CapWord) : State :=
  s.modTable ti fun t => { t with slots := update t.slots idx w }

def modMap (ti i : ℕ) (f : CapMap → CapMap) : State :=
  s.modTable ti fun t => { t with maps := update t.maps i (f (t.maps i)) }

def modMsg (c : ℕ) (d : Dir) (entry : ℕ) (f : ChanMsg → ChanMsg) : State :=
  s.modChannel c fun ch => { ch with q := update ch.q d (update (ch.q d) entry (f (ch.q d entry))) }

def setCap (c : ℕ) (d : Dir) (entry i : ℕ) (cap : MsgCap) : State :=
  s.modMsg c d entry fun m => { m with caps := update m.caps i cap }

def setWord (c : ℕ) (d : Dir) (entry i : ℕ) (w : CapWord) : State :=
  s.modMsg c d entry fun m => { m with caps := update m.caps i { m.caps i with word := w } }

def msg (c : ℕ) (d : Dir) (entry : ℕ) : ChanMsg := (s.channels c).q d entry

def word (c : ℕ) (d : Dir) (entry i : ℕ) : CapWord := ((s.msg c d entry).caps i).word

end State

def tableOf (s : State) (pid : ℕ) : Option ℕ :=
  (List.range capTableMax).find? fun i => s.tablePid i == pid

def capTableFind (s : State) (pid : ℕ) : Option ℕ :=
  if pid = 0 then some 0 else tableOf s pid

/-- `cap_table_index`: the table of the process, bound to it on first use. -/
def capTableIndex (s : State) (pid : ℕ) : State × Option ℕ :=
  match capTableFind s pid with
  | some ti => (s, some ti)
  | none =>
    match (List.range' 1 (capTableMax - 1)).find? fun i => s.tablePid i == 0 with
    | some ti =>
      ({ s.modTable ti fun t => { t with pid } with tablePid := update s.tablePid ti pid },
        some ti)
    | none => (s, none)

/-- A free slot's word holds the next free slot in its OBJ field. -/
def freeLink (next : ℕ) : CapWord := { (0 : CapWord) with obj := next }

def freshSlots : ℕ → CapWord := fun i =>
  freeLink (if i + 1 < capTableEntries then i + 1 else capFreelistEnd)

def capTableFreelistInit (s : State) (ti : ℕ) : State :=
  s.modTable ti fun t => { t with freelistHead := 0, slots := freshSlots }

def capSlotPush (s : State) (ti idx : ℕ) : State :=
  s.modTable ti fun t =>
    { t with slots := update t.slots idx (freeLink t.freelistHead), freelistHead := idx }

def capSlotPop (s : State) (ti : ℕ) : Option (State × ℕ) :=
  let idx := (s.tables ti).freelistHead
  if idx = capFreelistEnd then none
  else some (s.modTable ti fun t =>
    { t with freelistHead := (t.slots idx).obj % 2 ^ 16, slots := update t.slots idx 0 }, idx)

def capObjectGet (s : State) (o : ℕ) : Option CapObject :=
  let ob := s.objects o
  if o < capObjectMax ∧ ob.active ∧ ob.id = o then some ob else none

def freshObject (o : ℕ) (kind : ObjKind) : CapObject :=
  { id := o, kind, revoking := false, active := true, holders := [], refcount := 0,
    physBase := 0, npages := 0, chanId := capNone }

def capObjectAlloc (s : State) (kind : ObjKind) : Option (State × ℕ) :=
  if capObjectMax ≤ s.objNext then none
  else some ({ s with
    objNext := s.objNext + 1
    objects := update s.objects s.objNext (freshObject s.objNext kind) }, s.objNext)

def capChanIdTake (s : State) : Option (State × ℕ) :=
  match s.recycled with
  | c :: rest => some ({ s with recycled := rest }, c)
  | [] => if s.chanNext < capChanMax then some ({ s with chanNext := s.chanNext + 1 }, s.chanNext)
    else none

def capChanIdPut (s : State) (c : ℕ) : State :=
  if c < capChanMax ∧ s.recycled.length < capChanMax then { s with recycled := c :: s.recycled }
  else s

def capObjectDestroy (s : State) (o : ℕ) : State :=
  let ob := s.objects o
  let s := if ob.active ∧ ob.kind = .chan ∧ ob.chanId < capChanMax then
      capChanIdPut { s with
        irqChan := fun v => if s.irqChan v = ob.chanId then capNone else s.irqChan v } ob.chanId
    else s
  s.modObject o fun ob =>
    { ob with active := false, revoking := true, holders := [], refcount := 0 }

def capHolderAlloc (s : State) : Option State :=
  if s.holderFree = 0 then none else some { s with holderFree := s.holderFree - 1 }

def capHolderLink (s : State) (o : ℕ) (h : CapHolder) : State :=
  s.modObject o fun ob => { ob with holders := h :: ob.holders, refcount := ob.refcount + 1 }

/-- `cap_holder_remove`: unlink the first node with the key; no node, no change. -/
def capHolderRemove (s : State) (o : ℕ) (k : HolderKey) : State :=
  if (s.objects o).holders.any (fun h => h.key == k) then
    { s.modObject o fun ob => { ob with
        holders := ob.holders.eraseP fun h => h.key == k
        refcount := ob.refcount - 1 } with
      holderFree := s.holderFree + 1 }
  else s

/-- First fit: the lowest start, from `start` on, of `npages` free frames. -/
def findRun (used : ℕ → Bool) (npages : ℕ) : ℕ → ℕ → Option ℕ
  | 0, _ => none
  | tries + 1, start =>
    if (List.range npages).all fun i => !used (start + i) then some start
    else findRun used npages tries (start + 1)

def capArenaAllocRun (s : State) (npages owner : ℕ) : Option (State × ℕ) :=
  if npages = 0 ∨ capArenaFrames < npages then none
  else
    match findRun s.arenaUsed npages (capArenaFrames + 1 - npages) 0 with
    | none => none
    | some start =>
      some ({ s with
        arenaUsed := fun f => if start ≤ f ∧ f < start + npages then true else s.arenaUsed f
        arenaOwner := fun f => if start ≤ f ∧ f < start + npages then owner else s.arenaOwner f },
        start)

def capArenaClearRun (s : State) (start npages : ℕ) : State :=
  { s with
    arenaUsed := fun f => if start ≤ f ∧ f < start + npages then false else s.arenaUsed f
    arenaOwner := fun f => if start ≤ f ∧ f < start + npages then 0 else s.arenaOwner f }

def capObjectFreeResources (s : State) (o : ℕ) : State :=
  let ob := s.objects o
  match ob.kind with
  | .mem => { s with
      arenaUsed := fun f => if f < capArenaFrames ∧ s.arenaOwner f = o then false else s.arenaUsed f
      arenaOwner := fun f => if f < capArenaFrames ∧ s.arenaOwner f = o then 0 else s.arenaOwner f }
  | .chan => if ob.chanId < capChanMax then s.modChannel ob.chanId fun ch =>
    { ch with active := false }
    else s
  | .dev => s

/-- The end of every path that drops a holder: the object dies with its last one. -/
def reapUnheld (s : State) (o : ℕ) : State :=
  if (s.objects o).refcount = 0 then capObjectDestroy (capObjectFreeResources s o) o else s

def capMsgPayloadAlloc (s : State) : Option (State × ℕ) :=
  if s.payloadFreeHead = capFreelistEnd then none
  else some ({ s with payloadFreeHead := s.payloadNext s.payloadFreeHead }, s.payloadFreeHead)

def capMsgPayloadFree (s : State) (idx : ℕ) : State :=
  if idx = capNone ∨ capMsgPayloadPool ≤ idx then s
  else { s with payloadNext := update s.payloadNext idx s.payloadFreeHead, payloadFreeHead := idx }

def capArchMapPage (s : State) (cr3 vaddr paddr : ℕ) : State :=
  { s with pages := update s.pages cr3 (update (s.pages cr3) vaddr (some paddr)) }

def capArchUnmapPage (s : State) (cr3 vaddr : ℕ) : State :=
  if cr3 = 0 then s
  else { s with pages := update s.pages cr3 (update (s.pages cr3) vaddr none) }

/-- The unmap loop over the pages of one mapping. -/
def unmapPages (s : State) (cr3 vaddr npages : ℕ) : State :=
  (List.range npages).foldl (fun s p => capArchUnmapPage s cr3 (vaddr + p * pageBytes)) s

/-- Unmap what one map record covers, and retire the record. -/
def dropMap (s : State) (cr3 ti i : ℕ) : State :=
  let m := (s.tables ti).maps i
  (unmapPages s cr3 m.vaddr m.npages).modMap ti i fun m => { m with active := false }

def zeroMsg : ChanMsg :=
  { cookie := 0, payloadLen := 0, nCaps := 0, flags := 0, payloadIdx := 0, caps := fun _ => 0 }

def zeroChannel : CapChannel :=
  { end0Pid := 0, end1Pid := 0, active := false, qhead := fun _ => 0, qtail := fun _ => 0,
    qdepth := fun _ => 0, q := fun _ _ => zeroMsg, closed := fun _ => false,
    closeEvt := fun _ => false, closeReason := fun _ => 0, closeDetail := fun _ => 0 }

/-- The state `cap_init` leaves; `arenaBase` is the address
`frame_pool_reserve_contiguous` found, 0 if none. -/
def capInit (arenaBase : ℕ) : State where
  tables _ :=
    { pid := 0, freelistHead := 0, slots := freshSlots,
      maps := fun _ => { objId := 0, capSlot := 0, npages := 0, vaddr := 0, active := false } }
  tablePid _ := 0
  objects _ := { freshObject 0 .mem with active := false }
  objNext := 0
  holderFree := capHolderMax
  channels _ := zeroChannel
  chanNext := 0
  recycled := []
  arenaBase
  arenaUsed _ := false
  arenaOwner _ := 0
  payload _ := Buf.zero
  payloadNext i := if i + 1 < capMsgPayloadPool then i + 1 else capFreelistEnd
  payloadFreeHead := 0
  irqChan _ := capNone
  irqBudget _ := 0
  trampNext := 0
  pages _ _ := none
  userMaps := []

end AeroSLS.Cap
