import AeroSLS.Posix.Aerofs

namespace AeroSLS.Posix

open Function

structure RamNode where
  mode : ℕ
  uid : ℕ
  gid : ℕ
  mtime : ℕ
  data : List UInt8
  children : List (Name × ℕ)
  parent : ℕ

structure RamFs where
  nodes : ℕ → Option RamNode
  nextIno : ℕ

def ramRoot : ℕ := 1

def RamNode.fresh (mode parent : ℕ) : RamNode :=
  { mode, uid := 0, gid := 0, mtime := 1, data := [], children := [], parent }

def RamFs.new : RamFs where
  nodes := update (fun _ => none) ramRoot (some (RamNode.fresh (sIfdir ||| 0o755) ramRoot))
  nextIno := ramRoot + 1

def RamNode.ty (n : RamNode) : Except Errno FileType :=
  if n.mode &&& sIfmt = sIfreg then .ok .file
  else if n.mode &&& sIfmt = sIfdir then .ok .dir
  else .error .inval

def RamFs.set (f : RamFs) (ino : ℕ) (n : RamNode) : RamFs :=
  { f with nodes := update f.nodes ino (some n) }

def RamFs.get (f : RamFs) (ino : ℕ) (e : Errno) : Except Errno RamNode :=
  match f.nodes ino with
  | none => .error e
  | some n => .ok n

def RamNode.child (n : RamNode) (name : Name) : Except Errno ℕ :=
  match n.children.lookup name with
  | none => .error .noent
  | some ino => .ok ino

def RamNode.insert (n : RamNode) (name : Name) (ino : ℕ) : RamNode :=
  { n with children := n.children.filter (·.1 ≠ name) ++ [(name, ino)] }

def RamNode.remove (n : RamNode) (name : Name) : RamNode :=
  { n with children := n.children.filter (·.1 ≠ name) }

def RamFs.lookupFrom (f : RamFs) (cur : ℕ) : List Name → Except Errno (ℕ × FileType)
  | [] => do
    let n ← f.get cur .inval
    let ty ← n.ty
    pure (cur, ty)
  | c :: cs => do
    let n ← f.get cur .inval
    if c = dot then f.lookupFrom cur cs
    else if c = dotdot then f.lookupFrom n.parent cs
    else
      let child ← n.child c
      let cn ← f.get child .inval
      let ty ← cn.ty
      if cs ≠ [] ∧ ty ≠ .dir then .error .notdir else f.lookupFrom child cs

def RamFs.lookup (f : RamFs) (comps : List Name) : Except Errno (ℕ × FileType) :=
  f.lookupFrom ramRoot comps

def RamFs.file (f : RamFs) (ino : ℕ) : Except Errno RamNode := do
  let n ← f.get ino .noent
  if (← n.ty) ≠ .file then .error .isdir else pure n

def RamFs.read (f : RamFs) (ino offset n : ℕ) : Except Errno (List UInt8) := do
  let node ← f.file ino
  pure ((node.data.drop offset).take n)

def resize (data : List UInt8) (len : ℕ) : List UInt8 :=
  data.take len ++ List.replicate (len - data.length) 0

def RamFs.write (f : RamFs) (ino offset : ℕ) (buf : List UInt8) : Except Errno ℕ × RamFs :=
  match f.file ino with
  | .error e => (.error e, f)
  | .ok node =>
    if 2 ^ 64 ≤ offset + buf.length then (.error .nospc, f)
    else
      let data := resize node.data (max node.data.length (offset + buf.length))
      let data := data.take offset ++ buf ++ data.drop (offset + buf.length)
      (.ok buf.length, f.set ino { node with data, mtime := node.mtime + 1 })

def RamFs.truncate (f : RamFs) (ino len : ℕ) : Except Errno Unit × RamFs :=
  match f.file ino with
  | .error e => (.error e, f)
  | .ok node =>
    (.ok (), f.set ino { node with data := resize node.data len, mtime := node.mtime + 1 })

def RamFs.stat (f : RamFs) (ino : ℕ) : Except Errno Stat := do
  let n ← f.get ino .noent
  let ty ← n.ty
  pure { mode := n.mode, uid := n.uid, gid := n.gid, size := n.data.length, mtime := n.mtime, ty }

def RamFs.readDir (f : RamFs) (ino : ℕ) : Except Errno (List DirEnt) := do
  let n ← f.get ino .noent
  if (← n.ty) ≠ .dir then .error .notdir
  else
    let ents ← n.children.mapM fun (name, cino) => do
      let cn ← f.get cino .inval
      let ty ← cn.ty
      pure ({ name, ino := cino, ty } : DirEnt)
    pure (⟨dot, ino, .dir⟩ :: ⟨dotdot, n.parent, .dir⟩ :: ents)

def ramCheckName (name : Name) : Except Errno Unit :=
  if name = [] ∨ name = dot ∨ name = dotdot ∨ slash ∈ name ∨ nameMax < name.length then
    .error .nametoolong
  else .ok ()

/-- `create_file` and `create_dir` differ in the type bits only. -/
def RamFs.create (ifmt : ℕ) (f : RamFs) (parent : ℕ) (name : Name) (mode : ℕ) :
    Except Errno ℕ × RamFs :=
  let checked : Except Errno RamNode := do
    ramCheckName name
    let p ← f.get parent .noent
    if (← p.ty) ≠ .dir then .error .notdir
    else if (p.children.lookup name).isSome then .error .exist
    else pure p
  match checked with
  | .error e => (.error e, f)
  | .ok p =>
    let ino := f.nextIno
    let f := { f with nextIno := ino + 1 }
    let f := f.set ino (RamNode.fresh (ifmt ||| (mode &&& 0o7777)) parent)
    -- the parent is fetched again, after the insertion of the child
    let p := (f.nodes parent).getD p
    (.ok ino, f.set parent (p.insert name ino))

def RamFs.createFile : RamFs → ℕ → Name → ℕ → Except Errno ℕ × RamFs := RamFs.create sIfreg

def RamFs.createDir : RamFs → ℕ → Name → ℕ → Except Errno ℕ × RamFs := RamFs.create sIfdir

/-- The node `ino` goes, and then the entry of the parent that names it. -/
def RamFs.detach (f : RamFs) (parent : ℕ) (name : Name) (ino : ℕ) : RamFs :=
  let f := { f with nodes := update f.nodes ino none }
  match f.nodes parent with
  | none => f
  | some p => f.set parent (p.remove name)

def RamFs.unlink (f : RamFs) (parent : ℕ) (name : Name) : Except Errno Unit × RamFs :=
  let found : Except Errno ℕ := do
    let p ← f.get parent .noent
    let ino ← p.child name
    let n ← f.get ino .inval
    if (← n.ty) = .dir then .error .isdir else pure ino
  match found with
  | .error e => (.error e, f)
  | .ok ino => (.ok (), f.detach parent name ino)

def RamFs.rmdir (f : RamFs) (parent : ℕ) (name : Name) : Except Errno Unit × RamFs :=
  let found : Except Errno ℕ := do
    let p ← f.get parent .noent
    let ino ← p.child name
    let n ← f.get ino .inval
    if (← n.ty) ≠ .dir then .error .notdir
    else if n.children ≠ [] then .error .notempty
    else pure ino
  match found with
  | .error e => (.error e, f)
  | .ok ino => (.ok (), f.detach parent name ino)

def RamFs.rename (f : RamFs) (oldParent : ℕ) (oldName : Name) (newParent : ℕ) (newName : Name) :
    Except Errno Unit × RamFs :=
  match f.nodes oldParent with
  | none => (.error .noent, f)
  | some p =>
    match p.children.lookup oldName with
    | none => (.error .noent, f)
    | some ino =>
      let f := f.set oldParent (p.remove oldName)
      let f := match (f.nodes newParent).bind (·.children.lookup newName) with
        | none => f
        | some target => { f with nodes := update f.nodes target none }
      match f.nodes newParent with
      | none => (.error .noent, f)
      | some q => (.ok (), f.set newParent (q.insert newName ino))

end AeroSLS.Posix
