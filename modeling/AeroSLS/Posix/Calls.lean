import AeroSLS.Posix.Objects

namespace AeroSLS.Posix

open AeroSLS.Crash Function

structure DevEntry where
  obj : ℕ
  mode : ℕ
  uid : ℕ
  gid : ℕ

structure DevFs where
  names : List (Name × ℕ)
  nodes : ℕ → Option DevEntry
  nextIno : ℕ
  ptySlaves : List (Name × ℕ)

def devRoot : ℕ := 1

def DevFs.add (f : DevFs) (name : Name) (c : ℕ) (node : CharNode) : Except Errno DevFs :=
  if name = [] ∨ slash ∈ name then .error .inval
  else if (f.names.lookup name).isSome then .error .exist
  else
    .ok { f with
      names := f.names ++ [(name, f.nextIno)]
      nodes := update f.nodes f.nextIno (some ⟨c, node.mode, node.uid, node.gid⟩)
      nextIno := f.nextIno + 1 }

def DevFs.addPtySlave (f : DevFs) (name : Name) (pty : ℕ) : Except Errno DevFs :=
  if name = [] ∨ slash ∈ name then .error .inval
  else if (f.ptySlaves.lookup name).isSome ∨ (f.names.lookup name).isSome then .error .exist
  else .ok { f with ptySlaves := f.ptySlaves ++ [(name, pty)] }

def tyOf (mode : ℕ) : FileType := (FileType.ofMode mode).getD .file

def DevFs.node (f : DevFs) (ino : ℕ) (e : Errno) : Except Errno DevEntry :=
  match f.nodes ino with
  | none => .error e
  | some n => .ok n

def DevFs.lookup (f : DevFs) : List Name → Except Errno (ℕ × FileType)
  | [] => .ok (devRoot, .dir)
  | [c] =>
    match f.names.lookup c with
    | none => .error .noent
    | some ino => do
      let e ← f.node ino .inval
      pure (ino, tyOf e.mode)
  | _ :: _ :: _ => .error .noent

def DevFs.stat (f : DevFs) (ino : ℕ) : Except Errno Stat :=
  if ino = devRoot then
    .ok { mode := sIfdir ||| 0o755, uid := 0, gid := 0, size := 0, mtime := 0, ty := .dir }
  else do
    let e ← f.node ino .noent
    pure { mode := e.mode, uid := e.uid, gid := e.gid, size := 0, mtime := 0, ty := tyOf e.mode }

def DevFs.readDir (f : DevFs) (ino : ℕ) : Except Errno (List DirEnt) :=
  if ino ≠ devRoot then .error .notdir
  else
    f.names.mapM fun (name, cino) => do
      let e ← f.node cino .inval
      pure ({ name, ino := cino, ty := tyOf e.mode } : DirEnt)

/-- The enum `Fs`: a v2 store with its generation, the ramfs, the devfs. -/
inductive Mounted
  | aerofs (id : ℕ) (sb : Superblock) (disk : Disk)
  | ram (f : RamFs)
  | dev (f : DevFs)

namespace Mounted

def id : Mounted → ℕ
  | aerofs id _ _ => id
  | ram _ => 0
  | dev _ => 0

/-- A program run on the device of a store. -/
def onDisk {α : Type} (id : ℕ) (sb : Superblock) (disk : Disk) (m : Fs α) :
    Except Errno α × Mounted :=
  ((m disk).res, aerofs id sb (m disk).last)

def lookup : Mounted → List Name → Except Errno (ℕ × FileType)
  | aerofs _ sb disk, comps => disk.lookup sb comps
  | ram f, comps => f.lookup comps
  | dev f, comps => f.lookup comps

def read : Mounted → ℕ → ℕ → ℕ → Except Errno (List UInt8)
  | aerofs _ sb disk, ino, offset, n => disk.read sb ino offset n
  | ram f, ino, offset, n => f.read ino offset n
  | dev _, _, _, _ => .error .inval

def write : Mounted → ℕ → ℕ → List UInt8 → Except Errno ℕ × Mounted
  | aerofs id sb disk, ino, offset, buf => onDisk id sb disk (Posix.write sb ino offset buf)
  | ram f, ino, offset, buf => ((f.write ino offset buf).1, ram (f.write ino offset buf).2)
  | dev f, _, _, _ => (.error .inval, dev f)

def truncate : Mounted → ℕ → ℕ → Except Errno Unit × Mounted
  | aerofs id sb disk, ino, len => onDisk id sb disk (Posix.truncate sb ino len)
  | ram f, ino, len => ((f.truncate ino len).1, ram (f.truncate ino len).2)
  | dev f, _, _ => (.error .rofs, dev f)

def fsync : Mounted → Except Errno Unit
  | aerofs .. => .error .nosys
  | ram _ => .ok ()
  | dev _ => .error .nosys

def stat : Mounted → ℕ → Except Errno Stat
  | aerofs _ sb disk, ino => disk.stat sb ino
  | ram f, ino => f.stat ino
  | dev f, ino => f.stat ino

def readDir : Mounted → ℕ → Except Errno (List DirEnt)
  | aerofs _ sb disk, ino => disk.readDir sb ino
  | ram f, ino => f.readDir ino
  | dev f, ino => f.readDir ino

def openDev : Mounted → ℕ → Except Errno ℕ
  | dev f, ino => do
    let e ← f.node ino .noent
    pure e.obj
  | aerofs .., _ => .error .inval
  | ram _, _ => .error .inval

def createFile : Mounted → ℕ → Name → ℕ → Except Errno ℕ × Mounted
  | aerofs id sb disk, parent, name, mode =>
    onDisk id sb disk (Posix.createFile sb parent name mode)
  | ram f, parent, name, mode =>
    ((f.createFile parent name mode).1, ram (f.createFile parent name mode).2)
  | dev f, _, _, _ => (.error .rofs, dev f)

def createDir : Mounted → ℕ → Name → ℕ → Except Errno ℕ × Mounted
  | aerofs id sb disk, parent, name, mode => onDisk id sb disk (Posix.createDir sb parent name mode)
  | ram f, parent, name, mode =>
    ((f.createDir parent name mode).1, ram (f.createDir parent name mode).2)
  | dev f, _, _, _ => (.error .rofs, dev f)

def unlink : Mounted → ℕ → Name → Except Errno Unit × Mounted
  | aerofs id sb disk, parent, name => onDisk id sb disk (Posix.unlink sb parent name)
  | ram f, parent, name => ((f.unlink parent name).1, ram (f.unlink parent name).2)
  | dev f, _, _ => (.error .rofs, dev f)

def rmdir : Mounted → ℕ → Name → Except Errno Unit × Mounted
  | aerofs id sb disk, parent, name => onDisk id sb disk (Posix.rmdir sb parent name)
  | ram f, parent, name => ((f.rmdir parent name).1, ram (f.rmdir parent name).2)
  | dev f, _, _ => (.error .rofs, dev f)

def rename : Mounted → ℕ → Name → ℕ → Name → Except Errno Unit × Mounted
  | aerofs id sb disk, p, n, p', n' => onDisk id sb disk (Posix.rename sb p n p' n')
  | ram f, p, n, p', n' => ((f.rename p n p' n').1, ram (f.rename p n p' n').2)
  | dev f, _, _, _, _ => (.error .rofs, dev f)

end Mounted

structure Mount where
  comps : List Name
  fs : ℕ

structure Task where
  /-- The index of the task's table; none after exit. -/
  fds : Option ℕ
  cwd : List Name
  euid : ℕ
  egid : ℕ

structure Vfs where
  fss : List Mounted
  mounts : List Mount
  tables : List FdTable
  tasks : List Task
  files : ℕ → FileNode
  nextFile : ℕ
  pipes : ℕ → PipeNode
  nextPipe : ℕ
  ptys : ℕ → PtyState
  nextPts : ℕ
  chars : ℕ → CharNode
  nextChar : ℕ

inductive Fault
  | errno (e : Errno)
  | panicked
  deriving DecidableEq, Repr

abbrev Call (α : Type) := Prog Vfs Fault α

def lift {α : Type} (r : Vfs → Except Errno α) : Call α := .attempt fun v =>
  match r v with
  | .error e => .error (.errno e)
  | .ok a => .ok a

def failWith {α : Type} (e : Errno) : Call α := .fail (.errno e)

/-- A path, split at its slashes. -/
structure Path where
  absolute : Bool
  comps : List Name

/-- `normalize_path`: "." goes and ".." takes one component back, never above the root. -/
def normalize (comps : List Name) : List Name :=
  comps.foldl (fun out c =>
    if c = [] ∨ c = dot then out else if c = dotdot then out.dropLast else out ++ [c]) []

def Vfs.task (v : Vfs) (t : ℕ) : Except Errno Task :=
  match v.tasks[t]? with
  | none => .error .inval
  | some task => .ok task

def Vfs.fullPath (v : Vfs) (t : ℕ) (path : Path) : Except Errno (List Name) :=
  if path.absolute then .ok (normalize path.comps)
  else do
    let task ← v.task t
    pure (normalize (task.cwd ++ path.comps))

/-- `resolve`: the mount with the longest matching path, the first of equals. -/
def Vfs.resolve (v : Vfs) (comps : List Name) : Except Errno (ℕ × List Name) :=
  let best := v.mounts.foldl (fun (best : Option Mount) m =>
    if m.comps.isPrefixOf comps && best.all (fun b => decide (b.comps.length < m.comps.length))
    then some m else best) none
  match best with
  | none => .error .inval
  | some m => .ok (m.fs, comps.drop m.comps.length)

def Vfs.resolvePath (v : Vfs) (t : ℕ) (path : Path) : Except Errno (ℕ × List Name) := do
  let full ← v.fullPath t path
  v.resolve full

def Vfs.fs (v : Vfs) (idx : ℕ) : Except Errno Mounted :=
  match v.fss[idx]? with
  | none => .error .inval
  | some f => .ok f

/-- `fs_mut_id`: the generation has to be the one the descriptor was opened on. -/
def Vfs.fsAt (v : Vfs) (node : FileNode) : Except Errno Mounted := do
  let f ← v.fs node.fs
  if f.id ≠ node.fsId then .error .io else pure f

def Vfs.setFs (v : Vfs) (idx : ℕ) (f : Mounted) : Vfs := { v with fss := v.fss.set idx f }

/-- A call into one file system that may change it, also when it fails. -/
def onFs {α : Type} (idx : ℕ) (op : Mounted → Except Errno α × Mounted) : Call α := do
  let f ← lift fun v => v.fs idx
  .write fun v => v.setFs idx (op f).2
  lift fun _ => (op f).1

def tableOf (t : ℕ) : Call (ℕ × FdTable) := do
  let task ← lift fun v => v.task t
  match task.fds with
  | none => .fail .panicked
  | some i =>
    match ← .gets fun v : Vfs => v.tables[i]? with
    | none => .fail .panicked
    | some table => pure (i, table)

def setTable (i : ℕ) (table : FdTable) : Call Unit :=
  .write fun v => { v with tables := v.tables.set i table }

def allocFd (t : ℕ) (e : FdEntry) : Call ℕ := do
  let (i, table) ← tableOf t
  let (fd, table) ← lift fun _ => table.alloc e
  setTable i table
  pure fd

def entryOf (t fd : ℕ) : Call FdEntry := do
  let (_, table) ← tableOf t
  match table.entry fd with
  | none => failWith .badf
  | some e => pure e

def Vfs.setPipe (v : Vfs) (p : ℕ) (q : PipeNode) : Vfs :=
  { v with pipes := update v.pipes p q }

def Vfs.setPty (v : Vfs) (p : ℕ) (q : PtyState) : Vfs :=
  { v with ptys := update v.ptys p q }

/-- `note_added` and `note_removed`: `delta` is 1 or -1. -/
def Vfs.bump (v : Vfs) (delta : UInt32) : FileObj → Vfs
  | .pipeRead p => v.setPipe p { v.pipes p with readers := (v.pipes p).readers + delta }
  | .pipeWrite p => v.setPipe p { v.pipes p with writers := (v.pipes p).writers + delta }
  | .ptyMaster p =>
    v.setPty p { v.ptys p with
      masterReaders := (v.ptys p).masterReaders + delta
      masterWriters := (v.ptys p).masterWriters + delta }
  | .ptySlave p =>
    v.setPty p { v.ptys p with
      slaveReaders := (v.ptys p).slaveReaders + delta
      slaveWriters := (v.ptys p).slaveWriters + delta }
  | .file _ | .char _ => v

def Vfs.noteAdded (v : Vfs) (e : FdEntry) : Vfs := v.bump 1 e.node

def Vfs.noteRemoved (v : Vfs) (e : FdEntry) : Vfs := v.bump (-1) e.node

def noteAdded (e : FdEntry) : Call Unit := .write fun v => v.noteAdded e

def noteRemoved (e : FdEntry) : Call Unit := .write fun v => v.noteRemoved e

def oWronly : ℕ := 0o1
def oRdwr : ℕ := 0o2
def oAccmode : ℕ := 0o3
def oCreat : ℕ := 0o100
def oExcl : ℕ := 0o200
def oTrunc : ℕ := 0o1000
def oAppend : ℕ := 0o2000

def hasFlag (flags bit : ℕ) : Bool := flags &&& bit ≠ 0

def rightsOf (flags : ℕ) : Rights :=
  if flags &&& oAccmode = oWronly then ⟨false, true⟩
  else if flags &&& oAccmode = oRdwr then ⟨true, true⟩
  else ⟨true, false⟩

def permOk (st : Stat) (euid egid want : ℕ) : Bool :=
  if euid = 0 then true
  else
    let bits :=
      if euid = st.uid then st.mode &&& 0o700
      else if egid = st.gid then (st.mode &&& 0o070) <<< 3
      else (st.mode &&& 0o007) <<< 6
    bits &&& want = want

def Vfs.checkOpenPerms (v : Vfs) (want : Rights) (st : Stat) (t : ℕ) : Except Errno Unit := do
  let task ← v.task t
  if want.r ∧ ¬permOk st task.euid task.egid 0o400 then .error .acces
  else if want.w ∧ ¬permOk st task.euid task.egid 0o200 then .error .acces
  else pure ()

/-- A new open file description, and the descriptor that names it. -/
def mintFile (t fs ino : ℕ) (rights : Rights) (flags : ℕ) : Call ℕ := do
  let n ← .gets (·.nextFile)
  let f ← lift fun v => v.fs fs
  .write fun v => { v with
    files := update v.files n { fs, fsId := f.id, ino, offset := 0 }
    nextFile := n + 1 }
  allocFd t { node := .file n, rights, flags, cloexec := false }

def ptsName (n : ℕ) : Name := "pts_".toUTF8.toList ++ (Nat.repr n).toUTF8.toList

def devName : Name := "dev".toUTF8.toList
def ptmxName : Name := "ptmx".toUTF8.toList

/-- Best effort: the slave is registered if `/dev` is a devfs. -/
def registerSlave (pty : ℕ) : Call Unit := .write fun v =>
  match v.resolve [devName] with
  | .error _ => v
  | .ok (idx, _) =>
    match v.fss[idx]? with
    | some (.dev f) =>
      match f.addPtySlave (ptsName pty) pty with
      | .error _ => v
      | .ok f => v.setFs idx (.dev f)
    | _ => v

def openpty (t : ℕ) : Call (ℕ × ℕ) := do
  let p ← .gets (·.nextPts)
  .write fun v => { v.setPty p PtyState.new with nextPts := p + 1 }
  registerSlave p
  let master : FdEntry := ⟨.ptyMaster p, ⟨true, true⟩, 0, false⟩
  let slave : FdEntry := ⟨.ptySlave p, ⟨true, true⟩, 0, false⟩
  let m ← allocFd t master
  let s ← allocFd t slave
  noteAdded master
  noteAdded slave
  pure (m, s)

def openChar (t fs : ℕ) (rel : List Name) (ino flags : ℕ) : Call ℕ := do
  let st ← lift fun v => do (← v.fs fs).stat ino
  lift fun v => v.checkOpenPerms (rightsOf flags) st t
  if rel.getLast? = some ptmxName then
    let (m, _) ← openpty t
    pure m
  else
    let slave : Option ℕ ← .gets fun v =>
      match v.fss[fs]?, rel.getLast? with
      | some (.dev f), some name => f.ptySlaves.lookup name
      | _, _ => none
    match slave with
    | some p => allocFd t ⟨.ptySlave p, rightsOf flags, flags, false⟩
    | none =>
      let c ← lift fun v => do (← v.fs fs).openDev ino
      allocFd t ⟨.char c, rightsOf flags, flags, false⟩

def openInode (fs : ℕ) (rel : List Name) (flags mode : ℕ) : Call (ℕ × FileType) := do
  if hasFlag flags oCreat then
    match ← .gets fun v : Vfs => (v.fs fs).bind fun f => f.lookup rel with
    | .ok hit => if hasFlag flags oExcl then failWith .exist else pure hit
    | .error .noent =>
      match rel.getLast? with
      | none => failWith .noent
      | some name =>
        let parent ← lift fun v => do (← v.fs fs).lookup rel.dropLast
        let ino ← onFs fs fun f => f.createFile parent.1 name mode
        pure (ino, .file)
    | .error e => failWith e
  else lift fun v => do (← v.fs fs).lookup rel

def openCall (t : ℕ) (path : Path) (flags mode : ℕ) : Call ℕ := do
  let (fs, rel) ← lift fun v => v.resolvePath t path
  let (ino, ty) ← openInode fs rel flags mode
  match ty with
  | .dir => failWith .isdir
  | .char => openChar t fs rel ino flags
  | .fifo => failWith .inval
  | .file =>
    if hasFlag flags oTrunc ∧ ¬(rightsOf flags).w then failWith .inval
    else
      let st ← lift fun v => do (← v.fs fs).stat ino
      lift fun v => v.checkOpenPerms (rightsOf flags) st t
      .when (hasFlag flags oTrunc) (onFs fs fun f => f.truncate ino 0)
      mintFile t fs ino (rightsOf flags) flags

def openDir (t : ℕ) (path : Path) : Call ℕ := do
  let (fs, rel) ← lift fun v => v.resolvePath t path
  let (ino, ty) ← lift fun v => do (← v.fs fs).lookup rel
  if ty ≠ .dir then failWith .notdir
  else
    let st ← lift fun v => do (← v.fs fs).stat ino
    lift fun v => v.checkOpenPerms ⟨true, false⟩ st t
    mintFile t fs ino ⟨true, false⟩ 0

def pipe (t : ℕ) : Call (ℕ × ℕ) := do
  let p ← .gets (·.nextPipe)
  .write fun v => { v.setPipe p PipeNode.new with nextPipe := p + 1 }
  let reader : FdEntry := ⟨.pipeRead p, ⟨true, false⟩, 0, false⟩
  let writer : FdEntry := ⟨.pipeWrite p, ⟨false, true⟩, 0, false⟩
  let r ← allocFd t reader
  let w ← allocFd t writer
  noteAdded reader
  noteAdded writer
  pure (r, w)

def close (t fd : ℕ) : Call Unit := do
  let (i, table) ← tableOf t
  match table.entry fd with
  | none => failWith .badf
  | some e =>
    setTable i (table.set fd none)
    noteRemoved e

def closeMarked (i fd : ℕ) : Call Unit := do
  match ← .gets fun v : Vfs => ((v.tables[i]?).bind fun t => t.entry fd) with
  | none => pure ()
  | some e =>
    if e.cloexec then
      .write fun v => { v with tables := v.tables.modify i fun t => t.set fd none }
      noteRemoved e
    else pure ()

def closeCloexec (t : ℕ) : Call Unit := do
  match ← .gets fun v : Vfs => (v.tasks[t]?).bind (·.fds) with
  | none => pure ()
  | some i =>
    let n ← .gets fun v : Vfs => ((v.tables[i]?).getD []).length
    .each (closeMarked i) (List.range n)

def setCloexec (t fd : ℕ) (cloexec : Bool) : Call Unit := do
  let (i, table) ← tableOf t
  match table.entry fd with
  | none => failWith .badf
  | some e => setTable i (table.set fd (some { e with cloexec }))

def dup (t fd : ℕ) : Call ℕ := do
  let e ← entryOf t fd
  let copy := { e with cloexec := false }
  let nfd ← allocFd t copy
  noteAdded copy
  pure nfd

/-- The slot being replaced loses its end. -/
def replaceFd (i : ℕ) (table : FdTable) (fd : ℕ) (e : FdEntry) : Call Unit := do
  match table.entry fd with
  | none => setTable i (table.place fd e)
  | some prev =>
    noteRemoved prev
    setTable i (table.place fd e)

def dup2 (t oldfd newfd : ℕ) : Call ℕ := do
  if oldfd = newfd then pure newfd
  else if maxFds ≤ newfd then failWith .badf
  else
    let e ← entryOf t oldfd
    let copy := { e with cloexec := false }
    let (i, table) ← tableOf t
    replaceFd i table newfd copy
    noteAdded copy
    pure newfd

def maxTasks : ℕ := 256

def addTask : Call ℕ := do
  let id ← .gets fun v : Vfs => v.tasks.length
  if maxTasks ≤ id then failWith .again
  else
    .write fun v => { v with
      tables := v.tables ++ [[]]
      tasks := v.tasks ++ [⟨some v.tables.length, [], 0, 0⟩] }
    pure id

/-- A fork: the child gets a copy of the table, whose entries are counted first. -/
def forkTable (parent : ℕ) (p : Task) : Call Unit := do
  let (_, table) ← tableOf parent
  .each noteAdded (table.filterMap fun e => e)
  .write fun v => { v with
    tables := v.tables ++ [table]
    tasks := v.tasks ++ [{ p with fds := some v.tables.length }] }

def cloneTask (parent : ℕ) (share : Bool) : Call ℕ := do
  let p ← lift fun v => v.task parent
  let id ← .gets fun v : Vfs => v.tasks.length
  .when share (.write fun v => { v with tasks := v.tasks ++ [p] })
  .when (!share) (forkTable parent p)
  pure id

/-- Another task uses the table. -/
def Vfs.shared (v : Vfs) (t i : ℕ) : Bool :=
  (List.range v.tasks.length).any fun j => j ≠ t && (v.tasks[j]?.bind (·.fds)) = some i

def dropTable (i : ℕ) : Call Unit := do
  let table ← .gets fun v : Vfs => (v.tables[i]?).getD []
  .each noteRemoved (table.filterMap fun e => e)
  setTable i (List.replicate table.length none)

def exitTask (t : ℕ) : Call Unit := do
  let task ← lift fun v => v.task t
  match task.fds with
  | none => pure ()
  | some i =>
    let shared ← .gets fun v : Vfs => v.shared t i
    .when (!shared) (dropTable i)
    .write fun v => { v with tasks := v.tasks.modify t fun k => { k with fds := none } }

def setCred (t euid egid : ℕ) : Call Unit := do
  let _ ← lift fun v => v.task t
  .write fun v => { v with tasks := v.tasks.modify t fun k => { k with euid, egid } }

def setCwd (t : ℕ) (path : Path) : Call Unit := do
  let full ← lift fun v => v.fullPath t path
  let (fs, rel) ← lift fun v => v.resolve full
  let (_, ty) ← lift fun v => do (← v.fs fs).lookup rel
  if ty ≠ .dir then failWith .notdir
  else
    let _ ← lift fun v => v.task t
    .write fun v => { v with tasks := v.tasks.modify t fun k => { k with cwd := full } }

/-- A driver registers a device. -/
def addDevNode (path : Path) (name : Name) (node : CharNode) : Call Unit := do
  let (idx, rel) ← lift fun v => v.resolve (normalize path.comps)
  if rel ≠ [] then failWith .notdir
  else
    let c ← .gets (·.nextChar)
    let f ← lift fun v => match v.fss[idx]? with
      | some (.dev f) => f.add name c node
      | _ => .error .inval
    .write fun v => { v.setFs idx (.dev f) with
      chars := update v.chars c node, nextChar := c + 1 }

/-- An operation on an object of a heap. -/
def onPipe {α : Type} (p : ℕ) (op : PipeNode → Except Errno α × PipeNode) : Call α := do
  let q ← .gets fun v : Vfs => v.pipes p
  .write fun v => v.setPipe p (op q).2
  lift fun _ => (op q).1

def onPty {α : Type} (p : ℕ) (op : PtyState → Except Errno α × PtyState) : Call α := do
  let q ← .gets fun v : Vfs => v.ptys p
  .write fun v => v.setPty p (op q).2
  lift fun _ => (op q).1

def onChar {α : Type} (c : ℕ) (op : CharNode → Except Errno α × CharNode) : Call α := do
  let q ← .gets fun v : Vfs => v.chars c
  .write fun v => { v with chars := update v.chars c (op q).2 }
  lift fun _ => (op q).1

def setOffset (n offset : ℕ) : Call Unit :=
  .write fun v => { v with files := update v.files n { v.files n with offset } }

def read (t fd n : ℕ) : Call (List UInt8) := do
  let e ← entryOf t fd
  if !e.rights.r then failWith .badf
  else
    match e.node with
    | .file i =>
      let node ← .gets fun v : Vfs => v.files i
      let bytes ← lift fun v => do (← v.fsAt node).read node.ino node.offset n
      setOffset i (node.offset + bytes.length)
      pure bytes
    | .pipeRead p => onPipe p fun q => q.read n
    | .char c => onChar c fun q => q.read n
    | .pipeWrite _ => failWith .badf
    | .ptyMaster p => onPty p fun q => q.masterRead n
    | .ptySlave p => onPty p fun q => q.slaveRead n

/-- Where `write` starts: the end of the file under `O_APPEND`. -/
def writeOffset (node : FileNode) (append : Bool) : Call ℕ := do
  if append then
    let st ← lift fun v => do (← v.fsAt node).stat node.ino
    pure st.size
  else pure node.offset

variable (discipline : Queues → List UInt8 → Queues)

def writeFd (t fd : ℕ) (buf : List UInt8) : Call ℕ := do
  let e ← entryOf t fd
  if !e.rights.w then failWith .badf
  else
    match e.node with
    | .file i =>
      let node ← .gets fun v : Vfs => v.files i
      let append := hasFlag e.flags oAppend
      let offset ← writeOffset node append
      let _ ← lift fun v => v.fsAt node
      let n ← onFs node.fs fun f => f.write node.ino offset buf
      .when (!append) (setOffset i (offset + n))
      pure n
    | .pipeWrite p => onPipe p fun q => q.write buf
    | .char c => onChar c fun q => q.write buf
    | .pipeRead _ => failWith .badf
    | .ptyMaster p => onPty p fun q => q.masterInput discipline buf
    | .ptySlave p => onPty p fun q => q.slaveWrite buf

inductive Whence
  | set
  | cur
  | fromEnd
  | other
  deriving DecidableEq, Repr

/-- `lseek`.  The source adds in `i64`; offsets and sizes are below 2^63 here. -/
def lseek (t fd : ℕ) (off : ℤ) (whence : Whence) : Call ℕ := do
  let e ← entryOf t fd
  match e.node with
  | .file i =>
    let node ← .gets fun v : Vfs => v.files i
    let f ← lift fun v => v.fsAt node
    let size ← lift fun _ =>
      if whence = .fromEnd then (f.stat node.ino).map (·.size) else .ok 0
    let base : Option ℤ := match whence with
      | .set => some 0
      | .cur => some node.offset
      | .fromEnd => some size
      | .other => none
    match base with
    | none => failWith .inval
    | some base =>
      if 2 ^ 63 ≤ base + off ∨ base + off < 0 then failWith .inval
      else
        setOffset i (base + off).toNat
        pure (base + off).toNat
  | _ => failWith .spipe

def readDirAt (t fd start : ℕ) : Call (List DirEnt) := do
  let e ← entryOf t fd
  match e.node with
  | .file i =>
    let node ← .gets fun v : Vfs => v.files i
    let all ← lift fun v => do (← v.fsAt node).readDir node.ino
    pure (all.drop start)
  | _ => failWith .notdir

/-- `truncate_at`: the rights of the entry are not looked at. -/
def truncateAt (t fd len : ℕ) : Call Unit := do
  let e ← entryOf t fd
  match e.node with
  | .file i =>
    let node ← .gets fun v : Vfs => v.files i
    let _ ← lift fun v => v.fsAt node
    onFs node.fs fun f => f.truncate node.ino len
  | _ => failWith .spipe

def fsync (t fd : ℕ) : Call Unit := do
  let e ← entryOf t fd
  match e.node with
  | .file i =>
    let node ← .gets fun v : Vfs => v.files i
    lift fun v => do (← v.fsAt node).fsync
  | _ => failWith .spipe

/-- The directory that a path's last component is looked up in. -/
def parentOf (fs : ℕ) (rel : List Name) : Call ℕ := do
  let (ino, _) ← lift fun v => do (← v.fs fs).lookup rel.dropLast
  pure ino

def mkdir (t : ℕ) (path : Path) (mode : ℕ) : Call Unit := do
  let (fs, rel) ← lift fun v => v.resolvePath t path
  match rel.getLast? with
  | none => failWith .exist
  | some name =>
    let parent ← parentOf fs rel
    let _ ← onFs fs fun f => f.createDir parent name mode

def unlinkPath (t : ℕ) (path : Path) : Call Unit := do
  let (fs, rel) ← lift fun v => v.resolvePath t path
  match rel.getLast? with
  | none => failWith .isdir
  | some name =>
    let parent ← parentOf fs rel
    onFs fs fun f => f.unlink parent name

def rmdirPath (t : ℕ) (path : Path) : Call Unit := do
  let (fs, rel) ← lift fun v => v.resolvePath t path
  match rel.getLast? with
  | none => failWith .busy
  | some name =>
    let parent ← parentOf fs rel
    onFs fs fun f => f.rmdir parent name

def renamePath (t : ℕ) (old new : Path) : Call Unit := do
  let (fs, rel) ← lift fun v => v.resolvePath t old
  let (fs', rel') ← lift fun v => v.resolvePath t new
  if fs ≠ fs' then failWith .xdev
  else
    match rel.getLast?, rel'.getLast? with
    | some name, some name' =>
      let parent ← parentOf fs rel
      let parent' ← parentOf fs rel'
      onFs fs fun f => f.rename parent name parent' name'
    | _, _ => failWith .busy

/-- A call of some task, or of the kernel side. -/
inductive Op
  | openFile (t : ℕ) (path : Path) (flags mode : ℕ)
  | openDir (t : ℕ) (path : Path)
  | pipe (t : ℕ)
  | openpty (t : ℕ)
  | close (t fd : ℕ)
  | closeCloexec (t : ℕ)
  | setCloexec (t fd : ℕ) (cloexec : Bool)
  | dup (t fd : ℕ)
  | dup2 (t oldfd newfd : ℕ)
  | read (t fd n : ℕ)
  | write (t fd : ℕ) (buf : List UInt8)
  | lseek (t fd : ℕ) (off : ℤ) (whence : Whence)
  | readDirAt (t fd start : ℕ)
  | truncateAt (t fd len : ℕ)
  | fsync (t fd : ℕ)
  | mkdir (t : ℕ) (path : Path) (mode : ℕ)
  | unlink (t : ℕ) (path : Path)
  | rmdir (t : ℕ) (path : Path)
  | rename (t : ℕ) (old new : Path)
  | addTask
  | cloneTask (parent : ℕ) (share : Bool)
  | exitTask (t : ℕ)
  | setCred (t euid egid : ℕ)
  | setCwd (t : ℕ) (path : Path)
  | addDevNode (path : Path) (name : Name) (node : CharNode)

/-- The state after the call, whether it returned or failed. -/
def step (v : Vfs) : Op → Vfs
  | .openFile t path flags mode => (openCall t path flags mode v).last
  | .openDir t path => (openDir t path v).last
  | .pipe t => (pipe t v).last
  | .openpty t => (openpty t v).last
  | .close t fd => (close t fd v).last
  | .closeCloexec t => (closeCloexec t v).last
  | .setCloexec t fd cloexec => (setCloexec t fd cloexec v).last
  | .dup t fd => (dup t fd v).last
  | .dup2 t oldfd newfd => (dup2 t oldfd newfd v).last
  | .read t fd n => (read t fd n v).last
  | .write t fd buf => (writeFd discipline t fd buf v).last
  | .lseek t fd off whence => (lseek t fd off whence v).last
  | .readDirAt t fd start => (readDirAt t fd start v).last
  | .truncateAt t fd len => (truncateAt t fd len v).last
  | .fsync t fd => (fsync t fd v).last
  | .mkdir t path mode => (mkdir t path mode v).last
  | .unlink t path => (unlinkPath t path v).last
  | .rmdir t path => (rmdirPath t path v).last
  | .rename t old new => (renamePath t old new v).last
  | .addTask => (addTask v).last
  | .cloneTask parent share => (cloneTask parent share v).last
  | .exitTask t => (exitTask t v).last
  | .setCred t euid egid => (setCred t euid egid v).last
  | .setCwd t path => (setCwd t path v).last
  | .addDevNode path name node => (addDevNode path name node v).last

/-- The state at the start: file systems and mounts as given, one task, no descriptors. -/
def Vfs.boot (fss : List Mounted) (mounts : List Mount) : Vfs where
  fss := fss
  mounts := mounts
  tables := [[]]
  tasks := [⟨some 0, [], 0, 0⟩]
  files := fun _ => ⟨0, 0, 0, 0⟩
  nextFile := 0
  pipes := fun _ => PipeNode.new
  nextPipe := 0
  ptys := fun _ => PtyState.new
  nextPts := 0
  chars := fun _ => CharNode.null
  nextChar := 0

end AeroSLS.Posix
