import AeroSLS.Lib.Bytes
import AeroSLS.Lib.Crash

namespace AeroSLS.Posix

open AeroSLS.Bytes AeroSLS.Crash Function

inductive Errno
  | noent
  | io
  | acces
  | badf
  | isdir
  | notdir
  | exist
  | notempty
  | nospc
  | rofs
  | fbig
  | inval
  | nametoolong
  | again
  | busy
  | mfile
  | nosys
  | spipe
  | pipe
  | xdev
  deriving DecidableEq, Repr

inductive FileType
  | file
  | dir
  | fifo
  | char
  deriving DecidableEq, Repr

/-- The bytes of a file name. -/
abbrev Name := List UInt8

/-- `BS`. -/
def blockSize : ℕ := 512
def direntSize : ℕ := 64
def nameMax : ℕ := 56
def ndirectV2 : ℕ := 10
def nindirect : ℕ := 128
def maxBlocksV2 : ℕ := ndirectV2 + 2 * nindirect
def maxFileBytesV2 : ℕ := maxBlocksV2 * blockSize
def formatInodeCount : ℕ := 64

def sIfmt : ℕ := 0o170000
def sIfreg : ℕ := 0o100000
def sIfdir : ℕ := 0o040000
def sIfchr : ℕ := 0o020000
def sIfifo : ℕ := 0o010000

def FileType.ofMode (mode : ℕ) : Option FileType :=
  if mode &&& sIfmt = sIfreg then some .file
  else if mode &&& sIfmt = sIfdir then some .dir
  else if mode &&& sIfmt = sIfchr then some .char
  else if mode &&& sIfmt = sIfifo then some .fifo
  else none

def FileType.dt : FileType → UInt8
  | .file => 1
  | .dir => 2
  | .fifo => 3
  | .char => 4

def FileType.fromDt (dt : UInt8) : Option FileType :=
  if dt = 1 then some .file
  else if dt = 2 then some .dir
  else if dt = 3 then some .fifo
  else if dt = 4 then some .char
  else none

/-- `n.div_ceil(BS)`. -/
def blocksFor (n : ℕ) : ℕ := (n + (blockSize - 1)) / blockSize

structure Superblock where
  inodeCount : ℕ
  inodeStart : ℕ
  dataStart : ℕ
  rootInode : ℕ
  totalBlocks : ℕ
  allocStart : ℕ
  allocBlocks : ℕ
  deriving DecidableEq, Repr

/-- A v2 inode record. -/
structure Inode where
  mode : ℕ
  uid : ℕ
  gid : ℕ
  size : ℕ
  mtime : ℕ
  blocks : ℕ → ℕ
  indirect : ℕ
  indirect2 : ℕ

def Inode.ty (x : Inode) : Option FileType := FileType.ofMode x.mode

def Inode.nblocks (x : Inode) : ℕ := blocksFor x.size

/-- The slot of an inode that was never written. -/
def Inode.zero : Inode where
  mode := 0
  uid := 0
  gid := 0
  size := 0
  mtime := 0
  blocks := fun _ => 0
  indirect := 0
  indirect2 := 0

structure Disk where
  map : ℕ → Bool
  inodes : ℕ → Inode
  blocks : ℕ → Buf

def Disk.setInode (d : Disk) (ino : ℕ) (x : Inode) : Disk :=
  { d with inodes := update d.inodes ino x }

def Disk.setBlock (d : Disk) (b : ℕ) (bytes : Buf) : Disk :=
  { d with blocks := update d.blocks b bytes }

/-- Block `k` of the allocation map is replaced: 4096 bits. -/
def Disk.setMapBlock (d : Disk) (map : ℕ → Bool) (k : ℕ) : Disk :=
  { d with map := fun i => if i / 4096 = k then map i else d.map i }

/-- The programs of the file system. -/
abbrev Fs (α : Type) := Prog Disk Errno α

def readBlock (b : ℕ) : Fs Buf := .gets fun d => d.blocks b

def writeBlock (b : ℕ) (bytes : Buf) : Fs Unit := .write fun d => d.setBlock b bytes

/-- A part of the map: `len` bytes from byte `base` on. -/
structure Bitmap where
  base : ℕ
  len : ℕ

def bitmapGet (m : Bitmap) (map : ℕ → Bool) (idx : ℕ) : Bool :=
  decide (idx / 8 < m.len) && map (8 * m.base + idx)

/-- `bitmap_set` and `bitmap_clear`; an index past the end does nothing. -/
def bitmapPut (v : Bool) (m : Bitmap) (map : ℕ → Bool) (idx : ℕ) : ℕ → Bool :=
  if idx / 8 < m.len then update map (8 * m.base + idx) v else map

def bitmapSet : Bitmap → (ℕ → Bool) → ℕ → ℕ → Bool := bitmapPut true

def bitmapClear : Bitmap → (ℕ → Bool) → ℕ → ℕ → Bool := bitmapPut false

def bitmapFindClear (m : Bitmap) (map : ℕ → Bool) (start stop : ℕ) : Option ℕ :=
  (List.range' start (stop - start)).find? fun i => !bitmapGet m map i

/-- `v2_block_bitmap_len`. -/
def Superblock.split (sb : Superblock) : ℕ := (sb.totalBlocks + 7) / 8

def Superblock.blockBits (sb : Superblock) : Bitmap := ⟨0, sb.split⟩

def Superblock.inodeBits (sb : Superblock) : Bitmap :=
  ⟨sb.split, sb.allocBlocks * blockSize - sb.split⟩

variable (sb : Superblock)

def storeAllocMap (map : ℕ → Bool) : Fs Unit :=
  .each (fun k => .write fun d => d.setMapBlock map k) (List.range sb.allocBlocks)

def claimBlocks : (want : ℕ) → (map : ℕ → Bool) → (start : ℕ) → Option (List ℕ × (ℕ → Bool))
  | 0, map, _ => some ([], map)
  | want + 1, map, start =>
    match bitmapFindClear sb.blockBits map start sb.totalBlocks with
    | none => none
    | some b =>
      match claimBlocks want (bitmapSet sb.blockBits map b) (b + 1) with
      | none => none
      | some (bs, map') => some (b :: bs, map')

/-- The blocks an operation has claimed and not handed out yet. -/
abbrev Reserved := List ℕ

def reserveBlocks (want : ℕ) : Fs Reserved := do
  if want = 0 then pure []
  else
    let map ← .gets (·.map)
    match claimBlocks sb want map 0 with
    | none => pure []
    | some (bs, map') =>
      storeAllocMap sb map'
      .each (fun b => writeBlock b Buf.zero) bs
      pure bs

def allocBlock (reserved : Reserved) : Fs (ℕ × Reserved) :=
  match reserved with
  | b :: rest => pure (b, rest)
  | [] => do
    let map ← .gets (·.map)
    match bitmapFindClear sb.blockBits map 0 sb.totalBlocks with
    | none => .fail .nospc
    | some b =>
      storeAllocMap sb (bitmapSet sb.blockBits map b)
      writeBlock b Buf.zero
      pure (b, [])

/-- 0 is the "no block" pointer, never a block. -/
def freeBlock (blk : ℕ) : Fs Unit := do
  if blk = 0 then pure ()
  else
    let map ← .gets (·.map)
    storeAllocMap sb (bitmapClear sb.blockBits map blk)

def Disk.inode (d : Disk) (ino : ℕ) : Except Errno Inode :=
  if ino < 2 ∨ sb.inodeCount < ino then .error .noent
  else if (d.inodes ino).ty = none then .error .inval
  else .ok (d.inodes ino)

def inode (ino : ℕ) : Fs Inode := .attempt fun d => d.inode sb ino

def writeInode (ino : ℕ) (x : Inode) : Fs Unit := .write fun d => d.setInode ino x

def Inode.fresh (mode : ℕ) : Inode :=
  { Inode.zero with mode, mtime := 1 }

def allocInode (mode : ℕ) : Fs ℕ := do
  let map ← .gets (·.map)
  match bitmapFindClear sb.inodeBits map 2 (sb.inodeCount + 1) with
  | none => .fail .nospc
  | some ino =>
    storeAllocMap sb (bitmapSet sb.inodeBits map ino)
    writeInode ino (Inode.fresh mode)
    pure ino

def freeInode (ino : ℕ) : Fs Unit := do
  let map ← .gets (·.map)
  storeAllocMap sb (bitmapClear sb.inodeBits map ino)

def Disk.cell (d : Disk) (ib idx : ℕ) : ℕ := readLE ((d.blocks ib).at (idx * 4)) 4

/-- The indirect pointer that covers block `blk` of a file, and the entry in it. -/
def Inode.indirectFor (x : Inode) (blk : ℕ) : ℕ × ℕ :=
  if blk < ndirectV2 + nindirect then (x.indirect, blk - ndirectV2)
  else (x.indirect2, blk - (ndirectV2 + nindirect))

def Disk.blockAddrOpt (d : Disk) (x : Inode) (blk : ℕ) : Except Errno (Option ℕ) :=
  if blk < ndirectV2 then .ok (if x.blocks blk = 0 then none else some (x.blocks blk))
  else if blk < maxBlocksV2 then
    let (ind, idx) := x.indirectFor blk
    if ind = 0 then .ok none
    else .ok (if d.cell ind idx = 0 then none else some (d.cell ind idx))
  else .error .fbig

def Disk.blockAddr (d : Disk) (x : Inode) (blk : ℕ) : Except Errno ℕ :=
  match d.blockAddrOpt x blk with
  | .error e => .error e
  | .ok none => .error .inval
  | .ok (some b) => .ok b

/-- The share of one indirect block in `blocks_to_allocate`. -/
def Disk.indirectHoles (d : Disk) (ind base stop first last : ℕ) : ℕ :=
  let lo := max first base
  let hi := min last stop
  if hi ≤ lo then 0
  else if ind = 0 then hi - lo + 1
  else (List.range' lo (hi - lo)).countP fun blk => d.cell ind (blk - base) = 0

def Disk.blocksToAllocate (d : Disk) (x : Inode) (first last : ℕ) : ℕ :=
  (List.range' first (min last ndirectV2 - first)).countP (fun blk => x.blocks blk = 0) +
    d.indirectHoles x.indirect ndirectV2 (ndirectV2 + nindirect) first last +
    d.indirectHoles x.indirect2 (ndirectV2 + nindirect) maxBlocksV2 first last

def Inode.setIndirectFor (x : Inode) (blk b : ℕ) : Inode :=
  if blk < ndirectV2 + nindirect then { x with indirect := b } else { x with indirect2 := b }

def ensureIndirect (x : Inode) (blk : ℕ) (reserved : Reserved) : Fs (ℕ × Inode × Reserved) := do
  if (x.indirectFor blk).1 = 0 then
    let (b, reserved) ← allocBlock sb reserved
    pure (b, x.setIndirectFor blk b, reserved)
  else pure ((x.indirectFor blk).1, x, reserved)

/-- The inode is the caller's copy; it is returned with the pointers that were filled. -/
def ensureBlock (x : Inode) (blk : ℕ) (reserved : Reserved) : Fs (ℕ × Inode × Reserved) := do
  if blk < ndirectV2 then
    if x.blocks blk = 0 then
      let (b, reserved) ← allocBlock sb reserved
      pure (b, { x with blocks := update x.blocks blk b }, reserved)
    else pure (x.blocks blk, x, reserved)
  else if blk < maxBlocksV2 then
    let (ib, x, reserved) ← ensureIndirect sb x blk reserved
    let idx := (x.indirectFor blk).2
    let bytes ← readBlock ib
    let ptr := readLE (bytes.at (idx * 4)) 4
    if ptr ≠ 0 then pure (ptr, x, reserved)
    else
      let (b, reserved) ← allocBlock sb reserved
      writeBlock ib (bytes.copy (idx * 4) (leBytes b) 4)
      pure (b, x, reserved)
  else .fail .fbig

/-- Bytes `done` to `n` of `buf` go to the file from `offset` on. Each turn takes at least one
byte. -/
def writeLoop (offset : ℕ) (buf : Buf) (n : ℕ) :
    (turns done : ℕ) → Inode → Reserved → Fs (Inode × Reserved)
  | 0, _, x, reserved => pure (x, reserved)
  | turns + 1, done, x, reserved =>
    if done < n then do
      let pos := offset + done
      let inBlk := pos % blockSize
      let take := min (blockSize - inBlk) (n - done)
      let (addr, x, reserved) ← ensureBlock sb x (pos / blockSize) reserved
      let scratch ← readBlock addr
      writeBlock addr (scratch.copy inBlk (buf.at done) take)
      writeLoop offset buf n turns (done + take) x reserved
    else pure (x, reserved)

def writeAt (x : Inode) (offset : ℕ) (bytes : Buf) (n : ℕ) : Fs Inode := do
  let (x, _) ← writeLoop sb offset bytes n n 0 x []
  pure x

def Disk.readLoop (d : Disk) (x : Inode) (offset n : ℕ) :
    (turns done : ℕ) → Except Errno (List UInt8)
  | 0, _ => .ok []
  | turns + 1, done =>
    if done < n then
      let pos := offset + done
      let inBlk := pos % blockSize
      let take := min (blockSize - inBlk) (n - done)
      match d.blockAddr x (pos / blockSize) with
      | .error e => .error e
      | .ok addr =>
        match d.readLoop x offset n turns (done + take) with
        | .error e => .error e
        | .ok rest => .ok ((List.range' inBlk take).map (d.blocks addr) ++ rest)
    else .ok []

def Disk.readFileBytes (d : Disk) (x : Inode) : Except Errno (List UInt8) :=
  d.readLoop x 0 x.size x.size 0

structure DirEntry where
  name : Buf
  ino : ℕ
  ty : UInt8
  recLen : ℕ

def DirEntry.nameStr (e : DirEntry) : Name := cstr e.name nameMax

def DirEntry.new (name : Name) (ino : ℕ) (ty : FileType) : Option DirEntry :=
  if name = [] ∨ nameMax < name.length then none
  else some { name := Buf.ofList name, ino, ty := ty.dt, recLen := direntSize }

def parseDirent (slot : Buf) : DirEntry where
  name := slot
  ino := readLE (slot.at 56) 4
  ty := slot 60
  recLen := (slot 61).toNat

def encodeDirent (e : DirEntry) : Buf := fun i =>
  if i < nameMax then e.name i
  else if i < 60 then leBytes e.ino (i - 56)
  else if i = 60 then e.ty
  else if i = 61 then UInt8.ofNat e.recLen
  else 0

def direntNext (data : List UInt8) (p : ℕ) : Option (DirEntry × ℕ) :=
  if data.length < p + direntSize then none
  else
    let e := parseDirent ((Buf.ofList data).at p)
    if direntSize ≤ e.recLen then some (e, p + e.recLen) else none

/-- The first entry with the property from `p` on, and its place. Each step passes at least one
slot. -/
def dirFind (f : DirEntry → Bool) (data : List UInt8) : (turns p : ℕ) → Option (ℕ × DirEntry)
  | 0, _ => none
  | turns + 1, p =>
    match direntNext data p with
    | none => none
    | some (e, next) => if f e then some (p, e) else dirFind f data turns next

def dirWalk (f : DirEntry → Bool) (data : List UInt8) : Option (ℕ × DirEntry) :=
  dirFind f data data.length 0

def Disk.dirLookup (d : Disk) (dir : ℕ) (name : Name) : Except Errno (Option (ℕ × DirEntry)) := do
  let x ← d.inode sb dir
  if x.ty ≠ some .dir then .error .notdir
  else
    let data ← d.readFileBytes x
    pure (dirWalk (fun e => e.ino ≠ 0 && e.nameStr = name) data)

/-- The entry a call needs. -/
def Disk.dirEntry (d : Disk) (dir : ℕ) (name : Name) : Except Errno (ℕ × DirEntry) := do
  match ← d.dirLookup sb dir name with
  | none => .error .noent
  | some hit => pure hit

def dirInsert (dir : ℕ) (name : Name) (ino : ℕ) (ty : FileType) : Fs Unit := do
  let x ← inode sb dir
  if x.ty ≠ some .dir then .fail .notdir
  else
    match DirEntry.new name ino ty with
    | none => .fail .nametoolong
    | some entry =>
      let data ← .attempt fun d => d.readFileBytes x
      -- the first tombstone, else the end
      let at_ := match dirWalk (fun e => e.ino = 0) data with
        | some (p, _) => p
        | none => x.size
      let x ← writeAt sb x at_ (encodeDirent entry) direntSize
      writeInode dir { x with size := max x.size (at_ + direntSize) }

def dirRemove (dir : ℕ) (name : Name) : Fs Unit := do
  let x ← inode sb dir
  let (at_, e) ← .attempt fun d => d.dirEntry sb dir name
  let tomb : DirEntry := { name := Buf.zero, ino := 0, ty := e.ty, recLen := direntSize }
  let _ ← writeAt sb x at_ (encodeDirent tomb) direntSize

def Disk.read (d : Disk) (ino offset n : ℕ) : Except Errno (List UInt8) := do
  let x ← d.inode sb ino
  if x.ty ≠ some .file then .error .isdir
  else if x.size ≤ offset then pure []
  else d.readLoop x offset (min n (x.size - offset)) (min n (x.size - offset)) 0

def write (ino offset : ℕ) (buf : List UInt8) : Fs ℕ := do
  let x ← inode sb ino
  if x.ty ≠ some .file then .fail .isdir
  else if maxFileBytesV2 < offset + buf.length then .fail .fbig
  else
    let stop := offset + buf.length
    let first := offset / blockSize
    let last := if buf = [] then first else blocksFor stop
    let need ← .gets fun d => d.blocksToAllocate x first last
    let reserved ← reserveBlocks sb need
    let (x, _) ← writeLoop sb offset (Buf.ofList buf) buf.length buf.length 0 x reserved
    writeInode ino { x with size := max x.size stop }
    pure buf.length

def freeFileBlock (x : Inode) (blk : ℕ) : Fs Unit := do
  match ← .attempt fun d => d.blockAddrOpt x blk with
  | none => pure ()
  | some addr => freeBlock sb addr

def growLoop (x : Inode) (reserved : Reserved) : List ℕ → Fs Inode
  | [] => pure x
  | blk :: blks => do
    let (_, x, reserved) ← ensureBlock sb x blk reserved
    growLoop x reserved blks

/-- The indirect blocks go when their whole range is gone. -/
def dropIndirect (x : Inode) (keep : ℕ) : Fs Inode := do
  if keep ≤ ndirectV2 ∧ x.indirect ≠ 0 then
    freeBlock sb x.indirect
    pure { x with indirect := 0 }
  else pure x

def dropIndirect2 (x : Inode) (keep : ℕ) : Fs Inode := do
  if keep ≤ ndirectV2 + nindirect ∧ x.indirect2 ≠ 0 then
    freeBlock sb x.indirect2
    pure { x with indirect2 := 0 }
  else pure x

/-- A shrink frees the blocks past the new end and leaves the direct pointers to them as they
are. -/
def resizeBlocks (x : Inode) (len : ℕ) : Fs Inode := do
  let keep := blocksFor len
  if len < x.size then
    .each (freeFileBlock sb x) (List.range' keep (x.nblocks - keep))
    let x ← dropIndirect sb x keep
    dropIndirect2 sb x keep
  else growLoop sb x [] (List.range' x.nblocks (keep - x.nblocks))

def truncate (ino len : ℕ) : Fs Unit := do
  let x ← inode sb ino
  if x.ty ≠ some .file then .fail .isdir
  else if maxFileBytesV2 < len then .fail .fbig
  else
    let x ← resizeBlocks sb x len
    writeInode ino { x with size := len }

def dot : Name := [46]
def dotdot : Name := [46, 46]
def slash : UInt8 := 47

def createCheck (parent : ℕ) (name : Name) : Fs Unit := do
  if name = [] ∨ nameMax < name.length ∨ slash ∈ name then .fail .nametoolong
  else if name = dot ∨ name = dotdot then .fail .exist
  else
    let p ← inode sb parent
    if p.ty ≠ some .dir then .fail .notdir
    else
      match ← .attempt fun d => d.dirLookup sb parent name with
      | some _ => .fail .exist
      | none => pure ()

def createFile (parent : ℕ) (name : Name) (mode : ℕ) : Fs ℕ := do
  createCheck sb parent name
  let ino ← allocInode sb (sIfreg ||| (mode &&& 0o7777))
  dirInsert sb parent name ino .file
  pure ino

/-- `DirEntry::new(name, ino, FileType::Dir)` for the two names that always fit. -/
def dotEntry (name : Name) (ino : ℕ) : DirEntry where
  name := Buf.ofList name
  ino := ino
  ty := FileType.dir.dt
  recLen := direntSize

def createDir (parent : ℕ) (name : Name) (mode : ℕ) : Fs ℕ := do
  createCheck sb parent name
  let ino ← allocInode sb (sIfdir ||| (mode &&& 0o7777))
  let x ← inode sb ino
  let x ← writeAt sb x 0 (encodeDirent (dotEntry dot ino)) direntSize
  let x ← writeAt sb x direntSize (encodeDirent (dotEntry dotdot parent)) direntSize
  writeInode ino { x with size := 2 * direntSize }
  dirInsert sb parent name ino .dir
  pure ino

/-- What `unlink` and `rmdir` do once the name is gone: the blocks, then the inode. -/
def freeFile (ino : ℕ) (x : Inode) : Fs Unit := do
  .each (freeFileBlock sb x) (List.range x.nblocks)
  .when (x.indirect ≠ 0) (freeBlock sb x.indirect)
  .when (x.indirect2 ≠ 0) (freeBlock sb x.indirect2)
  freeInode sb ino

def unlink (parent : ℕ) (name : Name) : Fs Unit := do
  let (_, e) ← .attempt fun d => d.dirEntry sb parent name
  if FileType.fromDt e.ty = some .dir then .fail .isdir
  else
    let x ← inode sb e.ino
    dirRemove sb parent name
    freeFile sb e.ino x

def rmdir (parent : ℕ) (name : Name) : Fs Unit := do
  let (_, e) ← .attempt fun d => d.dirEntry sb parent name
  if FileType.fromDt e.ty ≠ some .dir then .fail .notdir
  else if e.ino = sb.rootInode then .fail .busy
  else
    let x ← inode sb e.ino
    let data ← .attempt fun d => d.readFileBytes x
    match dirWalk (fun e => e.ino ≠ 0 && e.nameStr ≠ dot && e.nameStr ≠ dotdot) data with
    | some _ => .fail .notempty
    | none =>
      dirRemove sb parent name
      freeFile sb e.ino x

/-- A moved directory gets its ".." repointed. -/
def repoint (ino newParent : ℕ) : Fs Unit := do
  let x ← inode sb ino
  let data ← .attempt fun d => d.readFileBytes x
  match dirWalk (fun e => e.ino ≠ 0 && e.nameStr = dotdot) data with
  | none => pure ()
  | some (p, _) => let _ ← writeAt sb x p (encodeDirent (dotEntry dotdot newParent)) direntSize

def rename (oldParent : ℕ) (oldName : Name) (newParent : ℕ) (newName : Name) : Fs Unit := do
  if oldName = [] ∨ newName = [] ∨ nameMax < newName.length then .fail .nametoolong
  else if oldParent = newParent ∧ oldName = newName then pure ()
  else
    let (_, e) ← .attempt fun d => d.dirEntry sb oldParent oldName
    match ← .attempt fun d => d.dirLookup sb newParent newName with
    | some _ => .fail .exist
    | none =>
      match FileType.fromDt e.ty with
      | none => .fail .inval
      | some ty =>
        .when (ty = .dir) (repoint sb e.ino newParent)
        dirRemove sb oldParent oldName
        dirInsert sb newParent newName e.ino ty

/-- Unlike `dirent_next` it steps over a record that is too short; tombstones are left out. -/
def dirList (data : List UInt8) : (turns p : ℕ) → List DirEntry
  | 0, _ => []
  | turns + 1, p =>
    if data.length < p + direntSize then []
    else
      let e := parseDirent ((Buf.ofList data).at p)
      let rest := dirList data turns (p + max direntSize e.recLen)
      if e.ino ≠ 0 then e :: rest else rest

def Disk.readDirEntries (d : Disk) (ino : ℕ) : Except Errno (List DirEntry) := do
  let x ← d.inode sb ino
  if x.ty ≠ some .dir then .error .notdir
  else
    let data ← d.readFileBytes x
    pure (dirList data data.length 0)

def Disk.lookupFrom (d : Disk) (ino : ℕ) (ty : FileType) : List Name → Except Errno (ℕ × FileType)
  | [] => pure (ino, ty)
  | c :: cs =>
    if c = dot then d.lookupFrom ino ty cs
    else do
      let x ← d.inode sb ino
      if x.ty ≠ some .dir then .error .notdir
      else
        let ents ← d.readDirEntries sb ino
        match ents.find? fun e => e.nameStr = c with
        | none => .error .noent
        | some hit =>
          match FileType.fromDt hit.ty with
          | none => .error .inval
          | some ty => if cs ≠ [] ∧ ty ≠ .dir then .error .notdir else d.lookupFrom hit.ino ty cs

def Disk.lookup (d : Disk) (comps : List Name) : Except Errno (ℕ × FileType) :=
  d.lookupFrom sb sb.rootInode .dir comps

structure Stat where
  mode : ℕ
  uid : ℕ
  gid : ℕ
  size : ℕ
  mtime : ℕ
  ty : FileType
  deriving DecidableEq, Repr

def Disk.stat (d : Disk) (ino : ℕ) : Except Errno Stat := do
  let x ← d.inode sb ino
  match x.ty with
  | none => .error .inval
  | some ty =>
    pure { mode := x.mode, uid := x.uid, gid := x.gid, size := x.size, mtime := x.mtime, ty }

structure DirEnt where
  name : Name
  ino : ℕ
  ty : FileType
  deriving DecidableEq, Repr

def Disk.readDir (d : Disk) (ino : ℕ) : Except Errno (List DirEnt) := do
  let ents ← d.readDirEntries sb ino
  ents.mapM fun e =>
    match FileType.fromDt e.ty with
    | none => .error .inval
    | some ty => pure { name := e.nameStr, ino := e.ino, ty }

def v2Layout (totalBlocks inodeCount : ℕ) : Option Superblock :=
  let tableBlocks := (inodeCount * 64 + 511) / 512
  let mapBytes := (totalBlocks + inodeCount + 1 + 7) / 8
  let allocBlocks := (mapBytes + 511) / 512
  let inodeStart := 1 + allocBlocks
  let dataStart := inodeStart + tableBlocks
  if inodeCount < 2 ∨ totalBlocks ≤ dataStart + 1 then none
  else some { inodeCount, inodeStart, dataStart, rootInode := 2, totalBlocks, allocStart := 1
              allocBlocks }

def rootInode (block : ℕ) : Inode :=
  { Inode.fresh (sIfdir ||| 0o755) with
    size := 2 * direntSize
    blocks := update (fun _ => 0) 0 block }

def rootBlock : Buf :=
  (Buf.zero.copy 0 (encodeDirent (dotEntry dot 2)) direntSize).copy direntSize
    (encodeDirent (dotEntry dotdot 2)) direntSize

/-- The map of an empty store: every block through the root directory's, and the inodes
0, 1 and 2. -/
def formatMap (sb : Superblock) : ℕ → Bool :=
  let map := (List.range (sb.dataStart + 1)).foldl (bitmapSet sb.blockBits) fun _ => false
  (List.range 3).foldl (bitmapSet sb.inodeBits) map

/-- `format_v2`, and the superblock that `mount` reads back from it. -/
def formatV2 (totalBlocks : ℕ) : Option (Superblock × Disk) := do
  let sb ← v2Layout totalBlocks formatInodeCount
  pure (sb, {
    map := formatMap sb
    inodes := update (fun _ => Inode.zero) 2 (rootInode sb.dataStart)
    blocks := update (fun _ => Buf.zero) sb.dataStart rootBlock })

end AeroSLS.Posix
