import Dexter.Fs.Streamer
import Dexter.Fs.PathParser

/-!
# The FAT16 file system (`fs/fat16.c`)

Reading the volume needs no state but the disk. Opening and closing allocate and
release on the kernel heap: what a returned item or descriptor is built in are its
`frames`, and every function below keeps the frames of everybody else (`Kept`).

Directory items are read through a pointer into the memory they were loaded to,
so a name without a blank runs on into what follows it; `past` is the memory
behind the end of such an array.
-/

namespace Dexter
open Lib.Programs Lib.Faults KernelHeap

def fatFileReadOnly : UInt8 := 0x01
def fatFileSubdirectory : UInt8 := 0x10

def le16 (b : ℕ → UInt8) (i : ℕ) : ℕ := (b i).toNat + 256 * (b (i + 1)).toNat

def le32 (b : ℕ → UInt8) (i : ℕ) : ℕ := le16 b i + 65536 * le16 b (i + 2)

theorem le16_lt (b : ℕ → UInt8) (i : ℕ) : le16 b i < 65536 := by
  have hlow := (b i).toNat_lt
  have hhigh := (b (i + 1)).toNat_lt
  unfold le16
  omega

structure FatHeader where
  sectorsPerCluster : ℕ
  reservedSectors : ℕ
  fatCopies : ℕ
  rootDirEntries : ℕ
  sectorsPerFat : ℕ
  signature : ℕ
  deriving DecidableEq, Repr

def FatHeader.decode (b : ℕ → UInt8) : FatHeader where
  sectorsPerCluster := (b 13).toNat
  reservedSectors := le16 b 14
  fatCopies := (b 16).toNat
  rootDirEntries := le16 b 17
  sectorsPerFat := le16 b 22
  signature := (b 38).toNat

/-- The memory from a `struct fat_directory_item` on. -/
structure FatDirectoryItem where
  bytes : ℕ → UInt8

namespace FatDirectoryItem

def attributes (item : FatDirectoryItem) : UInt8 := item.bytes 11
def high16BitsFirstCluster (item : FatDirectoryItem) : ℕ := le16 item.bytes 20
def low16BitsFirstCluster (item : FatDirectoryItem) : ℕ := le16 item.bytes 26
def filesize (item : FatDirectoryItem) : ℕ := le32 item.bytes 28

end FatDirectoryItem

structure FatDirectory where
  addr : ℕ
  itemAddr : ℕ
  bytes : ℕ → UInt8
  total : ℤ

def FatDirectory.item (d : FatDirectory) (i : ℕ) : FatDirectoryItem :=
  ⟨fun k => d.bytes (32 * i + k)⟩

structure FatRootDirectory extends FatDirectory where
  sectorPos : ℤ
  endingSectorPos : ℤ

inductive FatItemBody
  | directory (d : Option FatDirectory)
  | file (addr : ℕ) (item : FatDirectoryItem)

structure FatItem where
  addr : ℕ
  body : FatItemBody

structure FatFileDescriptor where
  addr : ℕ
  item : FatItem
  pos : ℕ

structure FatPrivate where
  header : FatHeader
  rootDirectory : FatRootDirectory
  clusterReadStream : ℕ
  fatReadStream : ℕ
  directoryStream : ℕ

structure Disk where
  image : DiskImage
  /-- Memory behind an array of directory items. -/
  past : ℕ → UInt8
  /-- Whether `filesystem` has been set. -/
  filesystem : Bool
  fsPrivate : Option FatPrivate

inductive FileMode
  | read
  | write
  | append
  | invalid
  deriving DecidableEq, Repr

structure FileStat where
  flags : ℕ
  filesize : ℕ
  deriving DecidableEq, Repr

inductive FileSeekMode
  | set
  | cur
  | ending
  | other
  deriving DecidableEq, Repr

def Disk.loaded (disk : Disk) (data : List UInt8) : ℕ → UInt8 := fun i =>
  if i < data.length then data.getD i 0 else disk.past i

def Disk.privateData (disk : Disk) : Except Crash FatPrivate :=
  match disk.fsPrivate with
  | none => .error .nullPointer
  | some fatPrivate => .ok fatPrivate

theorem privateData_of_some {disk : Disk} {fatPrivate : FatPrivate}
    (hp : disk.fsPrivate = some fatPrivate) : disk.privateData = .ok fatPrivate := by
  rw [Disk.privateData, hp]

def fat16SectorToAbsolute (sector : ℤ) : ℤ := i32 (sector * dexterSectorSize)

/-- The loop of `fat16_get_total_items_for_directory`. Positions come back after `2^27` items
of 32 bytes, so a loop that takes longer never ends. -/
def fat16CountItems (d : DiskImage) : ℕ → ℤ → ℤ → Except Crash ℤ
  | 0, _, _ => .error .hang
  | fuel + 1, pos, i =>
    let r := diskstreamerRead d pos 32
    let filename0 := r.1.getD 0 0
    if filename0 = 0x00 then .ok i
    else if filename0 = 0xE5 then fat16CountItems d fuel r.2 i
    else fat16CountItems d fuel r.2 (i + 1)

def fat16GetTotalItemsForDirectory (disk : Disk) (directoryStartSector : ℕ) : Except Crash ℤ :=
  fat16CountItems disk.image 134217728 (i32 (directoryStartSector * dexterSectorSize)) 0

def fat16GetFirstCluster (item : FatDirectoryItem) : ℕ :=
  item.high16BitsFirstCluster ||| item.low16BitsFirstCluster

def fat16ClusterToSector (fatPrivate : FatPrivate) (cluster : ℤ) : ℤ :=
  i32 (fatPrivate.rootDirectory.endingSectorPos +
    i32 (i32 (cluster - 2) * fatPrivate.header.sectorsPerCluster))

def fat16GetFirstFatSector (fatPrivate : FatPrivate) : ℕ := fatPrivate.header.reservedSectors

def fat16GetFatEntry (disk : Disk) (fatPrivate : FatPrivate) (cluster : ℤ) : ℤ :=
  if fatPrivate.fatReadStream = 0 then -1
  else
    let fatTablePosition := u32 (fat16GetFirstFatSector fatPrivate * dexterSectorSize)
    let pos := i32 (u32 (fatTablePosition * u32 (i32 (cluster * 2))))
    let result := (diskstreamerRead disk.image pos 2).1
    le16 (fun i => result.getD i 0) 0

/-- The loop of `fat16_get_cluster_for_offset` with `clustersAhead` steps left. -/
def fat16ClusterAhead (disk : Disk) (fatPrivate : FatPrivate) : ℕ → ℤ → ℤ
  | 0, clusterToUse => clusterToUse
  | clustersAhead + 1, clusterToUse =>
    let entry := fat16GetFatEntry disk fatPrivate clusterToUse
    if entry = 0xFF8 ∨ entry = 0xFFF then -eIo
    else if entry = 0xFF7 then -eIo
    else if entry = 0xFF0 ∨ entry = 0xFF6 then -eIo
    else if entry = 0x00 then -eIo
    else fat16ClusterAhead disk fatPrivate clustersAhead entry

def fat16SizeOfClusterBytes (fatPrivate : FatPrivate) : ℕ :=
  fatPrivate.header.sectorsPerCluster * dexterSectorSize

def fat16GetClusterForOffset (disk : Disk) (fatPrivate : FatPrivate) (startingCluster offset : ℤ) :
    Except Crash ℤ :=
  let sizeOfClusterBytes := fat16SizeOfClusterBytes fatPrivate
  if sizeOfClusterBytes = 0 then .error .divideByZero
  else
    let clustersAhead := offset.tdiv sizeOfClusterBytes
    .ok (fat16ClusterAhead disk fatPrivate clustersAhead.toNat startingCluster)

/-- `fat16_read_internal_from_stream` with `k` calls of itself still to come: the result, and
the bytes written to `out`. -/
def fat16ReadInternalFromStream (disk : Disk) (fatPrivate : FatPrivate) :
    ℕ → (cluster offset total : ℤ) → Except Crash (ℤ × List UInt8)
  | k, cluster, offset, total => do
    let sizeOfClusterBytes := fat16SizeOfClusterBytes fatPrivate
    let clusterToUse ← fat16GetClusterForOffset disk fatPrivate cluster offset
    if clusterToUse < 0 then pure (clusterToUse, [])
    else
      let offsetFromCluster := offset.tmod sizeOfClusterBytes
      let startingSector := fat16ClusterToSector fatPrivate clusterToUse
      let startingPos := i32 (i32 (startingSector * dexterSectorSize) + offsetFromCluster)
      let totalToRead := if total > sizeOfClusterBytes then (sizeOfClusterBytes : ℤ) else total
      let out := (diskstreamerRead disk.image startingPos totalToRead).1
      match k with
      | 0 => pure (0, out)
      | k + 1 => do
        let rest ← fat16ReadInternalFromStream disk fatPrivate k cluster
          (i32 (offset + totalToRead)) (total - totalToRead)
        pure (rest.1, out ++ rest.2)

def fat16ReadInternal (disk : Disk) (startingCluster offset total : ℤ) :
    Except Crash (ℤ × List UInt8) := do
  let fatPrivate ← disk.privateData
  let k := ((total - 1) / fat16SizeOfClusterBytes fatPrivate).toNat
  fat16ReadInternalFromStream disk fatPrivate k startingCluster offset total

/-- The loop of `fat16_read` with `k` members left; the result is `nmemb` or an error. -/
def fat16ReadLoop (disk : Disk) (item : FatDirectoryItem) (size nmemb : ℕ) :
    ℕ → ℤ → Except Crash (ℤ × List UInt8)
  | 0, _ => .ok (i32 nmemb, [])
  | k + 1, offset => do
    let r ← fat16ReadInternal disk (fat16GetFirstCluster item) offset (i32 size)
    if r.1 < 0 then pure r
    else do
      let rest ← fat16ReadLoop disk item size nmemb k (i32 (offset + size))
      pure (rest.1, r.2 ++ rest.2)

def fat16Read (disk : Disk) (descriptor : FatFileDescriptor) (size nmemb : ℕ) :
    Except Crash (ℤ × List UInt8) :=
  match descriptor.item.body with
  -- never the item of a descriptor, see `fat16NewFatItemForDirectoryItem`
  | .directory _ => .error .nullPointer
  | .file addr item =>
    if addr = 0 then .error .nullPointer
    else fat16ReadLoop disk item size nmemb nmemb (i32 descriptor.pos)

def fat16Stat (descriptor : FatFileDescriptor) : Except Crash (ℤ × Option FileStat) :=
  match descriptor.item.body with
  | .directory _ => .ok (-eInvArg, none)
  | .file addr item =>
    if addr = 0 then .error .nullPointer
    else .ok (0, some
      { filesize := item.filesize
        flags := if item.attributes &&& fatFileReadOnly ≠ 0 then 1 else 0 })

def fat16Seek (desc : FatFileDescriptor) (offset : ℕ) (seekMode : FileSeekMode) :
    Except Crash (ℤ × FatFileDescriptor) :=
  match desc.item.body with
  | .directory _ => .ok (-eInvArg, desc)
  | .file addr item =>
    if addr = 0 then .error .nullPointer
    else if offset ≥ item.filesize then .ok (-eIo, desc)
    else
      match seekMode with
      | .set => .ok (0, { desc with pos := offset })
      | .ending => .ok (-eUnimp, desc)
      | .cur => .ok (0, { desc with pos := u32 (desc.pos + offset) })
      | .other => .ok (-eInvArg, desc)

def toupper (c : UInt8) : UInt8 := if 0x61 ≤ c ∧ c ≤ 0x7a then c - 0x61 + 0x41 else c

def schar (c : UInt8) : ℤ := if c.toNat < 128 then c.toNat else c.toNat - 256

/-- `istrncmp` of two buffers of one length, which is what it is called on. -/
def istrncmp : List UInt8 → List UInt8 → ℤ
  | a :: as, b :: bs =>
    let f := toupper a
    let l := toupper b
    if f = l ∧ as ≠ [] then istrncmp as bs else schar f - schar l
  | _, _ => 0

def pathBuffer (s : CString) : List UInt8 :=
  (s ++ List.replicate dexterMaxPath 0).take dexterMaxPath

/-- `fat16_to_proper_string` with `room` bytes left in the buffer. -/
def fat16ToProperString (mem : ℕ → UInt8) : (room i : ℕ) → Except Crash CString
  | room, i =>
    if mem i = 0x00 then .ok []
    else if mem i = 0x20 then if room = 0 then .error .overrun else .ok []
    else
      match room with
      | 0 => .error .overrun
      | room + 1 => do
        let rest ← fat16ToProperString mem room (i + 1)
        pure (mem i :: rest)

def fat16GetFullRelativeFilename (item : FatDirectoryItem) : Except Crash CString := do
  let name ← fat16ToProperString item.bytes dexterMaxPath 0
  if item.bytes 8 ≠ 0x00 ∧ item.bytes 8 ≠ 0x20 then
    if name.length = dexterMaxPath then .error .overrun
    else do
      let ext ← fat16ToProperString item.bytes (dexterMaxPath - name.length - 1) 8
      pure (name ++ 0x2e :: ext)
  else pure name

def diskstreamerNew : Prog Crash KernelHeap ℕ := do
  let streamer ← kzalloc 8
  if streamer = 0 then abort .nullPointer else pure streamer

def fat16GetRootDirectory (disk : Disk) (header : FatHeader) :
    Prog Crash KernelHeap (Except ℤ FatRootDirectory) := do
  let rootDirSectorPos := header.fatCopies * header.sectorsPerFat + header.reservedSectors
  let rootDirSize := header.rootDirEntries * 32
  let totalItems ← ofExcept (fat16GetTotalItemsForDirectory disk rootDirSectorPos)
  let dir ← kzalloc rootDirSize
  if dir = 0 then pure (.error (-eNoMem))
  else
    let pos := fat16SectorToAbsolute rootDirSectorPos
    pure (.ok
      { addr := 0
        itemAddr := dir
        bytes := disk.loaded (diskstreamerRead disk.image pos rootDirSize).1
        total := totalItems
        sectorPos := rootDirSectorPos
        endingSectorPos := (rootDirSectorPos : ℤ) + (rootDirSize / dexterSectorSize : ℕ) })

/-- The result, and `disk->fs_private` afterwards. -/
def fat16Resolve (disk : Disk) : Prog Crash KernelHeap (ℤ × Option FatPrivate) := do
  let fatPrivate ← kzalloc 92
  if fatPrivate = 0 then abort .nullPointer
  else do
    let clusterReadStream ← diskstreamerNew
    let fatReadStream ← diskstreamerNew
    let directoryStream ← diskstreamerNew
    let stream ← diskstreamerNew
    let bytes := (diskstreamerRead disk.image 0 62).1
    let header := FatHeader.decode fun i => bytes.getD i 0
    if header.signature ≠ 0x29 then do
      kfree stream
      kfree fatPrivate
      pure (-eFsNotUs, none)
    else do
      let root ← fat16GetRootDirectory disk header
      kfree stream
      match root with
      | .error _ => do
        kfree fatPrivate
        pure (-eIo, none)
      | .ok rootDirectory =>
        pure (0, some
          { header := header
            rootDirectory := rootDirectory
            clusterReadStream := clusterReadStream
            fatReadStream := fatReadStream
            directoryStream := directoryStream })

section Opening
variable {σ : Type} [Requests σ]

def fat16FreeDirectory (directory : Option FatDirectory) : Prog Crash σ Unit :=
  match directory with
  | none => pure ()
  | some d => do
    onlyIf (d.itemAddr ≠ 0) (kfree d.itemAddr)
    kfree d.addr

def fat16FatItemFree (item : FatItem) : Prog Crash σ Unit :=
  match item.body with
  | .directory d => do
    fat16FreeDirectory d
    kfree item.addr
  | .file addr _ => do
    kfree addr
    kfree item.addr

def fat16LoadFatDirectory (disk : Disk) (item : FatDirectoryItem) :
    Prog Crash σ (Option FatDirectory) :=
  if item.attributes &&& fatFileSubdirectory = 0 then do
    fat16FreeDirectory none
    pure none
  else do
    let directory ← kzalloc 16
    if directory = 0 then do
      fat16FreeDirectory none
      pure none
    else do
      let fatPrivate ← ofExcept disk.privateData
      let cluster := fat16GetFirstCluster item
      let clusterSector := fat16ClusterToSector fatPrivate cluster
      let total ← ofExcept (fat16GetTotalItemsForDirectory disk (u32 clusterSector))
      let directorySize := i32 (total * 32)
      let items ← kzalloc (u32 directorySize)
      if items = 0 then do
        fat16FreeDirectory (some ⟨directory, 0, disk.past, total⟩)
        pure (some ⟨directory, 0, disk.past, total⟩)
      else do
        let r ← ofExcept (fat16ReadInternal disk cluster 0 directorySize)
        let d : FatDirectory := ⟨directory, items, disk.loaded r.2, total⟩
        onlyIf (r.1 ≠ 0) (fat16FreeDirectory (some d))
        pure (some d)

def fat16CloneDirectoryItem (size : ℕ) : Prog Crash σ ℕ :=
  if size < 32 then pure 0 else kzalloc size

/-- A subdirectory is loaded as well, but the union is then overwritten with the copy of the
directory item, and the type with that of a file. -/
def fat16NewFatItemForDirectoryItem (disk : Disk) (item : FatDirectoryItem) :
    Prog Crash σ (Option FatItem) := do
  let fItem ← kzalloc 8
  if fItem = 0 then pure none
  else do
    onlyIf (item.attributes &&& fatFileSubdirectory ≠ 0) do
      let _ ← fat16LoadFatDirectory disk item
      pure ()
    let copy ← fat16CloneDirectoryItem 32
    pure (some ⟨fItem, .file copy item⟩)

def fat16FindItemInDirectory (disk : Disk) (directory : FatDirectory) (name : CString) :
    Prog Crash σ (Option FatItem) :=
  countUp (fun i fItem => do
    let tmpFilename ← ofExcept (fat16GetFullRelativeFilename (directory.item i))
    if istrncmp (pathBuffer tmpFilename) (pathBuffer name) = 0 then
      fat16NewFatItemForDirectoryItem disk (directory.item i)
    else pure fItem) directory.total.toNat none

def fat16WalkPath (disk : Disk) : List PathPart → Option FatItem →
    Prog Crash σ (Option FatItem)
  | [], currentItem => pure currentItem
  | nextPart :: rest, currentItem =>
    match currentItem with
    | none => abort .nullPointer
    | some item =>
      match item.body with
      | .file _ _ => pure none
      | .directory none => abort .nullPointer
      | .directory (some d) => do
        let tmpItem ← fat16FindItemInDirectory disk d nextPart.part
        fat16FatItemFree item
        fat16WalkPath disk rest tmpItem

def fat16GetDirectoryEntry (disk : Disk) (path : List PathPart) :
    Prog Crash σ (Option FatItem) :=
  match path with
  | [] => abort .nullPointer
  | first :: rest => do
    let fatPrivate ← ofExcept disk.privateData
    let rootItem ← fat16FindItemInDirectory disk fatPrivate.rootDirectory.toFatDirectory first.part
    match rootItem with
    | none => pure none
    | some item => fat16WalkPath disk rest (some item)

def fat16Open (disk : Disk) (path : List PathPart) (mode : FileMode) :
    Prog Crash σ (Except ℤ FatFileDescriptor) :=
  if mode ≠ .read then pure (.error (-eRdOnly))
  else do
    let descriptor ← kzalloc 8
    if descriptor = 0 then pure (.error (-eNoMem))
    else do
      let item ← fat16GetDirectoryEntry disk path
      match item with
      | none => pure (.error (-eIo))
      | some item => pure (.ok ⟨descriptor, item, 0⟩)

def fat16FreeFileDescriptor (desc : FatFileDescriptor) : Prog Crash σ Unit := do
  fat16FatItemFree desc.item
  kfree desc.addr

def fat16Close (descriptor : FatFileDescriptor) : Prog Crash σ ℤ := do
  fat16FreeFileDescriptor descriptor
  pure 0

end Opening

def FatItem.pointers (item : FatItem) : Set ℕ :=
  {item.addr} ∪
    match item.body with
    | .directory none => ∅
    | .directory (some d) => {d.addr, d.itemAddr}
    | .file addr _ => {addr}

def FatFileDescriptor.pointers (desc : FatFileDescriptor) : Set ℕ :=
  {desc.addr} ∪ desc.item.pointers

def BuiltDescriptor (A : Set ℕ) (c : Prop) : Except ℤ FatFileDescriptor → KernelHeap → Prop
  | .error e, k => e < 0 ∧ Kept A c k
  | .ok desc, k => Built A c desc.pointers k

def BuiltItem (A : Set ℕ) (c : Prop) : Option FatItem → KernelHeap → Prop
  | none, k => Kept A c k
  | some item, k => Built A c item.pointers k

section Kept
variable {A : Set ℕ} {c : Prop}

theorem BuiltItem.kept {item : Option FatItem} {k : KernelHeap} (h : BuiltItem A c item k) :
    Kept A c k := by
  cases item with
  | none => exact h
  | some item => exact Built.kept h

theorem fat16FreeDirectory_kept {d : FatDirectory} (h : Loose A {d.addr, d.itemAddr}) :
    Triple (Kept A c) (fat16FreeDirectory (some d)) fun _ => Kept A c := by
  unfold fat16FreeDirectory onlyIf
  refine Triple.bind (Q := fun _ => Kept A c) ?_ fun _ => h.kfree (Or.inl rfl)
  exact Triple.ite (fun _ => h.kfree (Or.inr rfl)) fun _ => Triple.pure fun _ hk => hk

theorem fat16FatItemFree_kept {item : FatItem} (h : Loose A item.pointers) :
    Triple (Kept A c) (fat16FatItemFree item) fun _ => Kept A c := by
  have haddr : Triple (Kept A c) (kfree item.addr) fun _ => Kept A c := h.kfree (Or.inl rfl)
  obtain ⟨addr, body⟩ := item
  cases body with
  | directory d =>
    cases d with
    | none => exact Triple.bind (Q := fun _ => Kept A c) (Triple.pure fun _ hk => hk) fun _ => haddr
    | some d =>
      have hd : Loose A {d.addr, d.itemAddr} := fun p hp => h p (Or.inr hp)
      exact Triple.bind (fat16FreeDirectory_kept hd) fun _ => haddr
  | file p item => exact Triple.bind (h.kfree (Or.inr rfl)) fun _ => haddr

theorem fat16LoadFatDirectory_kept (disk : Disk) (item : FatDirectoryItem) :
    Triple (Kept A c) (fat16LoadFatDirectory disk item) fun _ => Kept A c := by
  unfold fat16LoadFatDirectory
  have hnone : Triple (Kept A c) (do
      fat16FreeDirectory none
      pure none : Prog Crash KernelHeap (Option FatDirectory)) fun _ => Kept A c :=
    Triple.bind (Q := fun _ => Kept A c) (Triple.pure fun _ hk => hk) fun _ =>
      Triple.pure fun _ hk => hk
  apply Triple.ite
  · exact fun _ => hnone
  intro _
  refine kzalloc_loose (by decide) fun directory hdir => ?_
  apply Triple.ite
  · exact fun _ => hnone
  intro _
  refine Triple.bind (Q := fun _ => Kept A c) (Triple.ofExcept fun _ _ _ hk => hk) fun _ => ?_
  refine Triple.bind (Q := fun _ => Kept A c) (Triple.ofExcept fun _ _ _ hk => hk) fun total => ?_
  refine kzalloc_loose (u32_lt _) fun items hitems => ?_
  have hboth : Loose A {directory, items} := by
    intro p hp
    exact hp.elim (fun h => hdir p h) fun h => hitems p h
  apply Triple.ite
  · intro h0
    have hd : Loose A {directory, 0} := h0 ▸ hboth
    exact Triple.bind (fat16FreeDirectory_kept hd) fun _ => Triple.pure fun _ hk => hk
  intro _
  refine Triple.bind (Q := fun _ => Kept A c) (Triple.ofExcept fun _ _ _ hk => hk) fun r => ?_
  refine Triple.bind (Q := fun _ => Kept A c) ?_ fun _ => Triple.pure fun _ hk => hk
  exact Triple.ite (fun _ => fat16FreeDirectory_kept hboth) fun _ => Triple.pure fun _ hk => hk

theorem fat16NewFatItem_kept (disk : Disk) (item : FatDirectoryItem) :
    Triple (Kept A c) (fat16NewFatItemForDirectoryItem disk item) (BuiltItem A c) := by
  unfold fat16NewFatItemForDirectoryItem fat16CloneDirectoryItem
  refine kzalloc_object (by decide) (by decide) fun fItem hf => ?_
  apply Triple.ite
  · exact fun _ => Triple.pure fun k hk => hk.mono Set.subset_union_left
  intro _
  refine Triple.bind (Q := fun _ => Kept (A ∪ {fItem} \ {0}) c) ?_ fun _ => ?_
  · apply Triple.ite
    · exact fun _ => Triple.bind (fat16LoadFatDirectory_kept disk item) fun _ =>
        Triple.pure fun _ hk => hk
    · exact fun _ => Triple.pure fun _ hk => hk
  · rw [if_neg (by decide)]
    refine Triple.bind (kzalloc_built (by decide) (by decide)) fun copy => Triple.pure fun k hk => ?_
    exact hk.join hf

theorem fat16FindItem_kept (disk : Disk) (directory : FatDirectory) (name : CString) :
    Triple (Kept A c) (fat16FindItemInDirectory disk directory name) (BuiltItem A c) := by
  unfold fat16FindItemInDirectory
  have h0 : ∀ k, Kept A c k → BuiltItem A c none k := fun _ hk => hk
  refine (Triple.countUp (I := fun _ => BuiltItem A c) (fun i _ fItem => ?_) none).conseq h0
    fun _ _ h => h
  refine Triple.bind (Q := fun _ => BuiltItem A c fItem) (Triple.ofExcept fun _ _ _ hk => hk)
    fun _ => ?_
  apply Triple.ite
  · -- an item found before is forgotten
    exact fun _ => (fat16NewFatItem_kept disk _).conseq (fun _ hk => hk.kept) fun _ _ h => h
  · exact fun _ => Triple.pure fun _ hk => hk

theorem fat16WalkPath_kept (disk : Disk) (path : List PathPart) (item : Option FatItem) :
    Triple (BuiltItem A c item) (fat16WalkPath disk path item) (BuiltItem A c) := by
  induction path generalizing item with
  | nil => exact Triple.pure fun _ hk => hk
  | cons part rest ih =>
    unfold fat16WalkPath
    cases item with
    | none => exact Triple.abort
    | some item =>
      dsimp only
      split
      · exact Triple.pure fun _ hk => Built.kept hk
      · exact Triple.abort
      · intro k r k' hk hrun
        obtain ⟨tmp, k₁, hfind, hrun⟩ := bind_ok.mp hrun
        obtain ⟨u, k₂, hfree, hrun⟩ := bind_ok.mp hrun
        have htmp := fat16FindItem_kept disk _ _ hk.all hfind
        refine ih tmp ?_ hrun
        cases tmp with
        | none => exact fat16FatItemFree_kept hk.loose (htmp.mono Set.subset_union_left) hfree
        | some tmp =>
          have hjoin := Built.join hk.loose htmp
          have hsub : A ∪ tmp.pointers \ {0} ⊆ A ∪ (item.pointers ∪ tmp.pointers) \ {0} :=
            Set.union_subset_union_right A
              (Set.sdiff_subset_sdiff_left Set.subset_union_right)
          refine ⟨fun p hp => hjoin.loose p (Or.inr hp), ?_⟩
          exact fat16FatItemFree_kept (Built.loose_of hk.loose htmp) (hjoin.all.mono hsub) hfree

theorem fat16GetDirectoryEntry_kept (disk : Disk) (path : List PathPart) :
    Triple (Kept A c) (fat16GetDirectoryEntry disk path) (BuiltItem A c) := by
  cases path with
  | nil => exact Triple.abort
  | cons first rest =>
    unfold fat16GetDirectoryEntry
    refine Triple.bind (Q := fun _ => Kept A c) (Triple.ofExcept fun _ _ _ hk => hk)
      fun fatPrivate => ?_
    refine Triple.bind (fat16FindItem_kept disk _ _) fun rootItem => ?_
    cases rootItem with
    | none => exact Triple.pure fun _ hk => hk
    | some item => exact fat16WalkPath_kept disk rest (some item)

theorem fat16Open_kept (disk : Disk) (path : List PathPart) (mode : FileMode) :
    Triple (Kept A c) (fat16Open disk path mode) (BuiltDescriptor A c) := by
  unfold fat16Open
  apply Triple.ite
  · exact fun _ => Triple.pure fun _ hk => ⟨by decide, hk⟩
  intro _
  refine kzalloc_object (by decide) (by decide) fun descriptor hd => ?_
  apply Triple.ite
  · exact fun _ => Triple.pure fun _ hk => ⟨by decide, hk.mono Set.subset_union_left⟩
  intro _
  refine Triple.bind (fat16GetDirectoryEntry_kept disk path) fun item => ?_
  cases item with
  | none => exact Triple.pure fun _ hk => ⟨by decide, Kept.mono hk Set.subset_union_left⟩
  | some item => exact Triple.pure fun _ hk => Built.join hd hk

theorem fat16Close_kept {desc : FatFileDescriptor} (h : Loose A desc.pointers) :
    Triple (Kept A c) (fat16Close desc) fun r k => r = 0 ∧ Kept A c k := by
  have hitem : Loose A desc.item.pointers := fun p hp => h p (Or.inr hp)
  unfold fat16Close fat16FreeFileDescriptor
  refine Triple.bind (Q := fun _ => Kept A c) ?_ fun _ => Triple.pure fun _ hk => ⟨rfl, hk⟩
  exact Triple.bind (fat16FatItemFree_kept hitem) fun _ => h.kfree (Or.inl rfl)

end Kept

theorem fat16FatItemFree_ok (item : FatItem) (k : KernelHeap) :
    ∃ k', fat16FatItemFree item k = .ok ((), k') := by
  obtain ⟨addr, body⟩ := item
  cases body with
  | file copy item => exact ⟨_, rfl⟩
  | directory directory =>
    cases directory with
    | none => exact ⟨_, rfl⟩
    | some d =>
      have hitems : onlyIf (d.itemAddr ≠ 0) (kfree d.itemAddr) k =
          .ok ((), if d.itemAddr ≠ 0 then k.free d.itemAddr else k) := onlyIf_of_ok fun _ => rfl
      simp only [fat16FatItemFree, fat16FreeDirectory]
      rw [prog_bind_assoc, bind_of_ok hitems]
      exact ⟨_, rfl⟩

theorem fat16Close_ok (desc : FatFileDescriptor) (k : KernelHeap) :
    ∃ k', fat16Close desc k = .ok (0, k') := by
  obtain ⟨k', hitem⟩ := fat16FatItemFree_ok desc.item k
  refine ⟨k'.free desc.addr, ?_⟩
  rw [fat16Close, fat16FreeFileDescriptor, prog_bind_assoc, bind_of_ok hitem]
  rfl

def DiskImage.header (d : DiskImage) : FatHeader := FatHeader.decode d.byteAt

theorem header_of_read (d : DiskImage) :
    (FatHeader.decode fun i => ((diskstreamerRead d 0 62).1).getD i 0) = d.header := by
  have hread : (diskstreamerRead d 0 62).1 = (List.range 62).map fun i => d.byteAt (0 + i) :=
    @diskstreamerRead_eq d 0 62 (Or.inl rfl) (by decide)
  have hbyte : ∀ i < 62, ((diskstreamerRead d 0 62).1).getD i 0 = d.byteAt i := by
    intro i hi
    rw [hread, List.getD_eq_getElem?_getD, List.getElem?_map, List.getElem?_range hi]
    simp
  simp only [FatHeader.decode, DiskImage.header, le16]
  simp only [hbyte _ (by decide : 13 < 62), hbyte _ (by decide : 14 < 62),
    hbyte _ (by decide : 14 + 1 < 62), hbyte _ (by decide : 16 < 62),
    hbyte _ (by decide : 17 < 62), hbyte _ (by decide : 17 + 1 < 62),
    hbyte _ (by decide : 22 < 62), hbyte _ (by decide : 22 + 1 < 62),
    hbyte _ (by decide : 38 < 62)]

def resolvedPrivate (disk : Disk) (total : ℤ) (dir stream₁ stream₂ stream₃ : ℕ) : FatPrivate where
  header := disk.image.header
  rootDirectory :=
    let h := disk.image.header
    let rootDirSectorPos := h.fatCopies * h.sectorsPerFat + h.reservedSectors
    { addr := 0
      itemAddr := dir
      bytes := disk.loaded (diskstreamerRead disk.image (fat16SectorToAbsolute rootDirSectorPos)
        (h.rootDirEntries * 32 : ℕ)).1
      total := total
      sectorPos := rootDirSectorPos
      endingSectorPos := (rootDirSectorPos : ℤ) + (h.rootDirEntries * 32 / dexterSectorSize : ℕ) }
  clusterReadStream := stream₁
  fatReadStream := stream₂
  directoryStream := stream₃

section Resolved
variable {disk : Disk} {k k' : KernelHeap}

theorem fat16GetRootDirectory_ok {root : FatRootDirectory}
    (h : fat16GetRootDirectory disk disk.image.header k = .ok (.ok root, k')) :
    ∃ total dir, fat16GetTotalItemsForDirectory disk (disk.image.header.fatCopies *
      disk.image.header.sectorsPerFat + disk.image.header.reservedSectors) = .ok total ∧
        root = (resolvedPrivate disk total dir 0 0 0).rootDirectory := by
  rw [fat16GetRootDirectory, bind_ok] at h
  obtain ⟨total, k₁, htotal, h⟩ := h
  obtain ⟨dir, k₂, -, h⟩ := bind_ok.mp h
  split_ifs at h with hdir
  · cases h
  · obtain ⟨hroot, -⟩ := ok_inj h
    exact ⟨total, dir, (ofExcept_ok.mp htotal).1, (Except.ok.inj hroot).symm⟩

theorem diskstreamerNew_ne_zero {p : ℕ} (h : diskstreamerNew k = .ok (p, k')) : p ≠ 0 := by
  obtain ⟨streamer, k₁, -, h⟩ := bind_ok.mp h
  split_ifs at h with hstreamer
  · cases h
  · cases h
    exact hstreamer

theorem fat16Resolve_ok {fatPrivate : FatPrivate}
    (h : fat16Resolve disk k = .ok ((0, some fatPrivate), k')) :
    ∃ total dir s₁ s₂ s₃, s₂ ≠ 0 ∧ fat16GetTotalItemsForDirectory disk
      (disk.image.header.fatCopies * disk.image.header.sectorsPerFat +
        disk.image.header.reservedSectors) = .ok total ∧
        fatPrivate = resolvedPrivate disk total dir s₁ s₂ s₃ := by
  obtain ⟨p, k₁, -, h⟩ := bind_ok.mp h
  split_ifs at h with hp
  · cases h
  obtain ⟨s₁, k₂, -, h⟩ := bind_ok.mp h
  obtain ⟨s₂, k₃, hs₂, h⟩ := bind_ok.mp h
  obtain ⟨s₃, k₄, -, h⟩ := bind_ok.mp h
  obtain ⟨stream, k₅, -, h⟩ := bind_ok.mp h
  rw [header_of_read] at h
  split_ifs at h with hsignature
  · obtain ⟨u, k₆, -, h⟩ := bind_ok.mp h
    obtain ⟨v, k₇, -, h⟩ := bind_ok.mp h
    cases h
  · obtain ⟨root, k₆, hroot, h⟩ := bind_ok.mp h
    obtain ⟨u, k₇, -, h⟩ := bind_ok.mp h
    cases root with
    | error e =>
      obtain ⟨v, k₈, -, h⟩ := bind_ok.mp h
      cases h
    | ok root =>
      obtain ⟨heq, -⟩ := ok_inj h
      obtain ⟨total, dir, htotal, rfl⟩ := fat16GetRootDirectory_ok hroot
      exact ⟨total, dir, s₁, s₂, s₃, diskstreamerNew_ne_zero hs₂, htotal,
        (Option.some.inj (Prod.mk.inj heq).2).symm⟩

end Resolved

structure OneFile (name : CString) (fatPrivate : FatPrivate) (item : FatDirectoryItem) : Prop where
  total : fatPrivate.rootDirectory.total = 1
  first : fatPrivate.rootDirectory.toFatDirectory.item 0 = item
  named : ∃ filename, fat16GetFullRelativeFilename item = .ok filename ∧
    istrncmp (pathBuffer filename) (pathBuffer name) = 0
  ordinary : item.attributes &&& fatFileSubdirectory = 0

section Room
variable {m : ℕ} {disk : Disk} {total : ℤ}

theorem diskstreamerNew_room (hm : m + 1 ≤ 25600) :
    Returns (Room m) diskstreamerNew fun p k => p ≠ 0 ∧ Room (m + 1) k := by
  refine Returns.bind (kzalloc_page (by decide) (by decide) hm) fun p => Returns.fact fun hp => ?_
  exact Returns.ite_neg hp (Returns.pure fun _ hk => ⟨hp, hk⟩)

theorem fat16GetRootDirectory_room (hm : m + 1 ≤ 25600)
    (hsize : 1 ≤ disk.image.header.rootDirEntries * 32 ∧
      disk.image.header.rootDirEntries * 32 ≤ 4096)
    (htotal : fat16GetTotalItemsForDirectory disk (disk.image.header.fatCopies *
      disk.image.header.sectorsPerFat + disk.image.header.reservedSectors) = .ok total) :
    Returns (Room m) (fat16GetRootDirectory disk disk.image.header) fun r k =>
      (∃ dir, r = .ok (resolvedPrivate disk total dir 0 0 0).rootDirectory) ∧ Room (m + 1) k := by
  rw [fat16GetRootDirectory, htotal]
  refine Returns.bind_ofExcept rfl ?_
  refine Returns.bind (kzalloc_page hsize.1 hsize.2 hm) fun dir => Returns.fact fun hdir => ?_
  exact Returns.ite_neg hdir (Returns.pure fun _ hk => ⟨⟨dir, rfl⟩, hk⟩)

theorem fat16Resolve_room (hm : m + 6 ≤ 25600) (hsignature : disk.image.header.signature = 0x29)
    (hsize : 1 ≤ disk.image.header.rootDirEntries * 32 ∧
      disk.image.header.rootDirEntries * 32 ≤ 4096)
    (htotal : fat16GetTotalItemsForDirectory disk (disk.image.header.fatCopies *
      disk.image.header.sectorsPerFat + disk.image.header.reservedSectors) = .ok total) :
    Returns (Room m) (fat16Resolve disk) fun r k =>
      (∃ dir s₁ s₂ s₃, r = (0, some (resolvedPrivate disk total dir s₁ s₂ s₃)) ∧ s₂ ≠ 0) ∧
        Room (m + 6) k := by
  have hroom : ∀ i ≤ 6, m + i ≤ 25600 := fun i hi => (Nat.add_le_add_left hi m).trans hm
  unfold fat16Resolve
  refine Returns.bind (kzalloc_page (by decide) (by decide) (hroom 1 (by decide))) fun p =>
    Returns.fact fun hp => ?_
  refine Returns.ite_neg hp ?_
  refine Returns.bind (diskstreamerNew_room (hroom 2 (by decide))) fun s₁ => Returns.fact fun _ => ?_
  refine Returns.bind (diskstreamerNew_room (hroom 3 (by decide))) fun s₂ => Returns.fact fun hs₂ => ?_
  refine Returns.bind (diskstreamerNew_room (hroom 4 (by decide))) fun s₃ => Returns.fact fun _ => ?_
  refine Returns.bind (diskstreamerNew_room (hroom 5 (by decide))) fun stream => Returns.fact fun _ => ?_
  dsimp only
  rw [header_of_read]
  refine Returns.ite_neg (not_not.mpr hsignature) ?_
  refine Returns.bind (fat16GetRootDirectory_room hm hsize htotal) fun r =>
    Returns.fact fun hr => ?_
  obtain ⟨dir, rfl⟩ := hr
  refine Returns.bind (kfree_room stream) fun _ => Returns.pure fun k hk => ?_
  exact ⟨⟨dir, s₁, s₂, s₃, rfl, hs₂⟩, hk⟩

variable {fatPrivate : FatPrivate} {item : FatDirectoryItem} {name : CString}

theorem fat16NewFatItem_room (disk : Disk) (hm : m + 2 ≤ 25600)
    (hordinary : item.attributes &&& fatFileSubdirectory = 0) :
    Returns (Room m) (fat16NewFatItemForDirectoryItem disk item) fun r k =>
      (∃ addr copy, r = some ⟨addr, .file copy item⟩ ∧ copy ≠ 0) ∧ Room (m + 2) k := by
  refine Returns.bind (kzalloc_page (by decide) (by decide) (by omega)) fun fItem =>
    Returns.fact fun hf => ?_
  refine Returns.ite_neg hf ?_
  rw [onlyIf, if_neg (not_not.mpr hordinary)]
  refine Returns.bind (Q := fun _ => Room (m + 1)) (Returns.pure fun _ hk => hk) fun _ => ?_
  refine Returns.bind (kzalloc_page (by decide) (by decide) (by omega)) fun copy =>
    Returns.fact fun hcopy => ?_
  exact Returns.pure fun k hk => ⟨⟨fItem, copy, rfl, hcopy⟩, hk⟩

theorem fat16FindItem_room (disk : Disk) (hm : m + 2 ≤ 25600)
    (hone : OneFile name fatPrivate item) :
    Returns (Room m) (fat16FindItemInDirectory disk fatPrivate.rootDirectory.toFatDirectory name)
      fun r k => (∃ addr copy, r = some ⟨addr, .file copy item⟩ ∧ copy ≠ 0) ∧ Room (m + 2) k := by
  obtain ⟨filename, hfilename, hcmp⟩ := hone.named
  intro k hk
  obtain ⟨r, k', hrun, hr⟩ := fat16NewFatItem_room disk hm hone.ordinary hk
  refine ⟨r, k', ?_, hr⟩
  have hname : (ofExcept (fat16GetFullRelativeFilename item) : Prog Crash KernelHeap _) k =
      .ok (filename, k) := by
    rw [hfilename]
    rfl
  have htotal : fatPrivate.rootDirectory.toFatDirectory.total.toNat = 1 := by
    rw [hone.total]
    rfl
  rw [fat16FindItemInDirectory, htotal, countUp, countUp, bind_of_ok (pure_apply _ _), hone.first,
    bind_of_ok hname, if_pos hcmp, hrun]

theorem fat16Open_room (hp : disk.fsPrivate = some fatPrivate) (hone : OneFile name fatPrivate item)
    (part : PathPart) (hpart : part.part = name) (hm : m + 3 ≤ 25600) :
    Returns (Room m) (fat16Open disk [part] .read) fun r k =>
      (∃ addr fItem copy, r = .ok ⟨addr, ⟨fItem, .file copy item⟩, 0⟩ ∧ copy ≠ 0) ∧
        Room (m + 3) k := by
  have hdata := privateData_of_some hp
  unfold fat16Open
  refine Returns.ite_neg (by decide) ?_
  refine Returns.bind (kzalloc_page (by decide) (by decide) (by omega)) fun addr =>
    Returns.fact fun haddr => ?_
  refine Returns.ite_neg haddr ?_
  refine Returns.bind (Q := fun r k => (∃ addr copy, r = some ⟨addr, .file copy item⟩ ∧
    copy ≠ 0) ∧ Room (m + 3) k) ?_ fun r => Returns.fact fun hr => ?_
  · rw [fat16GetDirectoryEntry, hdata, hpart]
    refine Returns.bind_ofExcept rfl ?_
    refine Returns.bind (fat16FindItem_room disk (by omega) hone) fun r => Returns.fact fun hr => ?_
    obtain ⟨fItem, copy, rfl, hcopy⟩ := hr
    exact Returns.pure fun k hk => ⟨⟨fItem, copy, rfl, hcopy⟩, hk⟩
  · obtain ⟨fItem, copy, rfl, hcopy⟩ := hr
    exact Returns.pure fun k hk => ⟨⟨addr, fItem, copy, rfl, hcopy⟩, hk⟩

end Room

/-- One sector of FAT, one sector of root directory, and the file `A`: 600 bytes in the clusters
2 and 4. The bytes of a cluster are its number. -/
def sampleImage : DiskImage where
  sector lba i :=
    if lba = 0 then
      match i with
      | 13 | 14 | 16 | 22 => 1
      | 17 => 16
      | 38 => 0x29
      | _ => 0
    else if lba = 1 then
      match i with
      | 4 => 4
      | 8 | 9 => 0xff
      | _ => 0
    else if lba = 2 then
      match i with
      | 0 => 0x41
      | 11 => 0x20
      | 26 => 2
      | 28 => 0x58
      | 29 => 2
      | _ => if i < 11 then 0x20 else 0
    else UInt8.ofNat (lba - 1).toNat
  stack := fun _ => 0

def sampleDisk (fsPrivate : Option FatPrivate) : Disk := ⟨sampleImage, fun _ => 0, true, fsPrivate⟩

def samplePrivate (dir stream₁ stream₂ stream₃ : ℕ) : FatPrivate where
  header := ⟨1, 1, 1, 16, 1, 0x29⟩
  rootDirectory :=
    { addr := 0
      itemAddr := dir
      bytes := (sampleDisk none).loaded (diskstreamerRead sampleImage 1024 512).1
      total := 1
      sectorPos := 2
      endingSectorPos := 3 }
  clusterReadStream := stream₁
  fatReadStream := stream₂
  directoryStream := stream₃

theorem fat16Resolve_sample {m : ℕ} (hm : m + 6 ≤ 25600) :
    Returns (Room m) (fat16Resolve (sampleDisk none)) fun r k =>
      (∃ dir s₁ s₂ s₃, r = (0, some (samplePrivate dir s₁ s₂ s₃)) ∧ s₂ ≠ 0) ∧ Room (m + 6) k := by
  have hheader : (sampleDisk none).image.header = ⟨1, 1, 1, 16, 1, 0x29⟩ := by decide +kernel
  have htotal : fat16GetTotalItemsForDirectory (sampleDisk none) 2 = .ok 1 := by decide +kernel
  have hsample : ∀ dir s₁ s₂ s₃, resolvedPrivate (sampleDisk none) 1 dir s₁ s₂ s₃ =
      samplePrivate dir s₁ s₂ s₃ := fun dir s₁ s₂ s₃ => by
    have hpos : fat16SectorToAbsolute ((1 * 1 + 1 : ℕ) : ℤ) = 1024 := by decide
    rw [resolvedPrivate, hheader]
    dsimp only
    rw [hpos]
    rfl
  have hres := @fat16Resolve_room m (sampleDisk none) 1 hm (by rw [hheader])
    (by rw [hheader]; decide) (by rw [hheader]; exact htotal)
  simp only [hsample] at hres
  exact hres

def sampleItem : FatDirectoryItem := (samplePrivate 0 0 0 0).rootDirectory.item 0

theorem sampleItem_name : fat16GetFullRelativeFilename sampleItem = .ok [0x41] := by
  decide +kernel

theorem sample_oneFile (dir s₁ s₂ s₃ : ℕ) : OneFile [0x41] (samplePrivate dir s₁ s₂ s₃) sampleItem where
  total := rfl
  first := rfl
  named := ⟨_, sampleItem_name, by decide⟩
  ordinary := by decide +kernel

end Dexter
