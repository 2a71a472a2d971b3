import AeroSLS.Posix.Ramfs

namespace AeroSLS.Posix

/-- `pop_front` for as many bytes as the reader has room for. -/
def takeFront (queue : List UInt8) (n : ℕ) : List UInt8 × List UInt8 :=
  (queue.take n, queue.drop n)

def pipeCap : ℕ := 4096

structure PipeNode where
  buf : List UInt8
  readers : UInt32
  writers : UInt32

def PipeNode.new : PipeNode := ⟨[], 0, 0⟩

def PipeNode.read (p : PipeNode) (n : ℕ) : Except Errno (List UInt8) × PipeNode :=
  if p.writers = 0 ∧ p.buf = [] then (.ok [], p)
  else if min n p.buf.length = 0 then (.error .again, p)
  else (.ok (takeFront p.buf n).1, { p with buf := (takeFront p.buf n).2 })

def PipeNode.write (p : PipeNode) (buf : List UInt8) : Except Errno ℕ × PipeNode :=
  if p.readers = 0 then (.error .pipe, p)
  else
    let space := pipeCap - p.buf.length
    if space = 0 then (.error .again, p)
    else (.ok (min buf.length space), { p with buf := p.buf ++ buf.take space })

def ptyBufCap : ℕ := 4096

structure PtyState where
  masterBuf : List UInt8
  slaveBuf : List UInt8
  lineBuf : List UInt8
  masterReaders : UInt32
  masterWriters : UInt32
  slaveReaders : UInt32
  slaveWriters : UInt32

def PtyState.new : PtyState := ⟨[], [], [], 0, 0, 0, 0⟩

def PtyState.masterRead (p : PtyState) (n : ℕ) : Except Errno (List UInt8) × PtyState :=
  if p.slaveWriters = 0 ∧ p.masterBuf = [] then (.ok [], p)
  else if min n p.masterBuf.length = 0 then (.error .again, p)
  else (.ok (takeFront p.masterBuf n).1, { p with masterBuf := (takeFront p.masterBuf n).2 })

def PtyState.slaveRead (p : PtyState) (n : ℕ) : Except Errno (List UInt8) × PtyState :=
  if p.masterWriters = 0 ∧ p.slaveBuf = [] then (.ok [], p)
  else if min n p.slaveBuf.length = 0 then (.error .again, p)
  else (.ok (takeFront p.slaveBuf n).1, { p with slaveBuf := (takeFront p.slaveBuf n).2 })

def PtyState.slaveWrite (p : PtyState) (buf : List UInt8) : Except Errno ℕ × PtyState :=
  if p.masterReaders = 0 then (.error .pipe, p)
  else
    let space := ptyBufCap - p.masterBuf.length
    if space = 0 then (.error .again, p)
    else (.ok (min buf.length space), { p with masterBuf := p.masterBuf ++ buf.take space })

/-- The three queues that the line discipline works on, and the bytes it has accepted. -/
structure Queues where
  master : List UInt8
  slave : List UInt8
  line : List UInt8
  written : ℕ

/-- The line discipline of the terminal's settings, which only moves bytes between the queues.
-/
def PtyState.masterInput (discipline : Queues → List UInt8 → Queues) (p : PtyState)
    (buf : List UInt8) : Except Errno ℕ × PtyState :=
  if p.slaveReaders = 0 then (.error .pipe, p)
  else
    let q := discipline ⟨p.masterBuf, p.slaveBuf, p.lineBuf, 0⟩ buf
    let p := { p with masterBuf := q.master, slaveBuf := q.slave, lineBuf := q.line }
    if q.written = 0 ∧ buf ≠ [] then (.error .again, p) else (.ok q.written, p)

inductive CharKind
  | console (input output : List UInt8) (closed : Bool)
  | null

structure CharNode where
  kind : CharKind
  mode : ℕ
  uid : ℕ
  gid : ℕ

def CharNode.null : CharNode := ⟨.null, sIfchr ||| 0o666, 0, 0⟩

def CharNode.read (c : CharNode) (n : ℕ) : Except Errno (List UInt8) × CharNode :=
  match c.kind with
  | .null => (.ok [], c)
  | .console input output closed =>
    if 0 < min n input.length then
      (.ok (takeFront input n).1, { c with kind := .console (takeFront input n).2 output closed })
    else if closed then (.ok [], c)
    else (.error .again, c)

def CharNode.write (c : CharNode) (buf : List UInt8) : Except Errno ℕ × CharNode :=
  match c.kind with
  | .null => (.ok buf.length, c)
  | .console input output closed =>
    if closed then (.error .io, c)
    else (.ok buf.length, { c with kind := .console input (output ++ buf) closed })

inductive FileObj
  | file (n : ℕ)
  | pipeRead (p : ℕ)
  | pipeWrite (p : ℕ)
  | char (c : ℕ)
  | ptyMaster (p : ℕ)
  | ptySlave (p : ℕ)
  deriving DecidableEq, Repr

/-- The file system, its generation at the open, the inode and the offset all copies share. -/
structure FileNode where
  fs : ℕ
  fsId : ℕ
  ino : ℕ
  offset : ℕ
  deriving DecidableEq, Repr

structure Rights where
  r : Bool
  w : Bool
  deriving DecidableEq, Repr

structure FdEntry where
  node : FileObj
  rights : Rights
  flags : ℕ
  cloexec : Bool
  deriving DecidableEq, Repr

abbrev FdTable := List (Option FdEntry)

def maxFds : ℕ := 256

def FdTable.entry (t : FdTable) (fd : ℕ) : Option FdEntry := (t[fd]?).join

/-- The lowest free slot, else a new one. -/
def FdTable.alloc (t : FdTable) (e : FdEntry) : Except Errno (ℕ × FdTable) :=
  match t.findIdx? Option.isNone with
  | some i => .ok (i, t.set i (some e))
  | none => if maxFds ≤ t.length then .error .mfile else .ok (t.length, t ++ [some e])

/-- The placement of `dup2`, which lets the table grow up to the slot. -/
def FdTable.place (t : FdTable) (fd : ℕ) (e : FdEntry) : FdTable :=
  if fd < t.length then t.set fd (some e)
  else t ++ List.replicate (fd - t.length) none ++ [some e]

end AeroSLS.Posix
