import Dexter.Fs.File
import Dexter.Lib.TwoRuns

/-!
# The shared streams (`fs/streamer.c`, `fs/fat16.c`)

All descriptors of a volume read through the three `disk_stream` objects of its
`struct fat_private`. Here their positions are state that every function passes on, and
every sector that is requested of the disk is put on record together with the range of
bytes that is taken from it. The functions are those of `fs/fat16.c` and `fs/file.c` once
more, under the same names, with a seek that moves a stream and a read that finds it
where the last one left it. Forgetting the streams gives the functions without them
(`run_erases`).
-/

namespace Dexter.Streamed
open Lib.Programs Lib.TwoRuns KernelHeap

inductive StreamId
  | clusterReadStream
  | fatReadStream
  | directoryStream
  deriving DecidableEq, Repr

/-- A sector that is read, and the bytes taken from it. -/
structure Request where
  sector : ℤ
  offset : ℤ
  count : ℤ
  deriving DecidableEq, Repr

structure Streams where
  pos : StreamId → ℤ
  requests : List Request

def diskstreamerSeek (stream : StreamId) (pos : ℤ) : Prog Crash Streams Unit :=
  modify fun s => { s with pos := Function.update s.pos stream pos }

def diskstreamerReadSector (d : DiskImage) (stream : StreamId) (totalToRead : ℤ) :
    Prog Crash Streams (List UInt8) :=
  step fun s =>
    let sector := (s.pos stream).tdiv dexterSectorSize
    let offset := (s.pos stream).tmod dexterSectorSize
    ((List.range totalToRead.toNat).map fun i : ℕ => d.buf sector (offset + i),
      { pos := Function.update s.pos stream (i32 (s.pos stream + totalToRead))
        requests := s.requests ++ [⟨sector, offset, totalToRead⟩] })

def diskstreamerReadLoop (d : DiskImage) (stream : StreamId) :
    ℕ → ℤ → Prog Crash Streams (List UInt8)
  | 0, total => diskstreamerReadSector d stream (min total dexterSectorSize)
  | k + 1, total => do
    let out ← diskstreamerReadSector d stream dexterSectorSize
    let rest ← diskstreamerReadLoop d stream k (total - dexterSectorSize)
    pure (out ++ rest)

def diskstreamerRead (d : DiskImage) (stream : StreamId) (total : ℤ) :
    Prog Crash Streams (List UInt8) :=
  diskstreamerReadLoop d stream ((total - 1) / dexterSectorSize).toNat total

def fat16CountItems (d : DiskImage) : ℕ → ℤ → Prog Crash Streams ℤ
  | 0, _ => abort .hang
  | fuel + 1, i => do
    let item ← diskstreamerRead d .directoryStream 32
    if item.getD 0 0 = 0x00 then pure i
    else if item.getD 0 0 = 0xE5 then fat16CountItems d fuel i
    else fat16CountItems d fuel (i + 1)

def fat16GetTotalItemsForDirectory (disk : Disk) (directoryStartSector : ℕ) :
    Prog Crash Streams ℤ := do
  diskstreamerSeek .directoryStream (i32 (directoryStartSector * dexterSectorSize))
  fat16CountItems disk.image 134217728 0

def fat16GetFatEntry (disk : Disk) (fatPrivate : FatPrivate) (cluster : ℤ) :
    Prog Crash Streams ℤ :=
  if fatPrivate.fatReadStream = 0 then pure (-1)
  else do
    let fatTablePosition := u32 (fat16GetFirstFatSector fatPrivate * dexterSectorSize)
    diskstreamerSeek .fatReadStream (i32 (u32 (fatTablePosition * u32 (i32 (cluster * 2)))))
    let result ← diskstreamerRead disk.image .fatReadStream 2
    pure (le16 (fun i => result.getD i 0) 0)

def fat16ClusterAhead (disk : Disk) (fatPrivate : FatPrivate) : ℕ → ℤ → Prog Crash Streams ℤ
  | 0, clusterToUse => pure clusterToUse
  | clustersAhead + 1, clusterToUse => do
    let entry ← fat16GetFatEntry disk fatPrivate clusterToUse
    if entry = 0xFF8 ∨ entry = 0xFFF then pure (-eIo)
    else if entry = 0xFF7 then pure (-eIo)
    else if entry = 0xFF0 ∨ entry = 0xFF6 then pure (-eIo)
    else if entry = 0x00 then pure (-eIo)
    else fat16ClusterAhead disk fatPrivate clustersAhead entry

def fat16GetClusterForOffset (disk : Disk) (fatPrivate : FatPrivate) (startingCluster offset : ℤ) :
    Prog Crash Streams ℤ :=
  let sizeOfClusterBytes := fat16SizeOfClusterBytes fatPrivate
  if sizeOfClusterBytes = 0 then abort .divideByZero
  else
    let clustersAhead := offset.tdiv sizeOfClusterBytes
    fat16ClusterAhead disk fatPrivate clustersAhead.toNat startingCluster

/-- `fat16_read_internal_from_stream` up to the end of the cluster, and what follows then. -/
def fat16ReadCluster (disk : Disk) (fatPrivate : FatPrivate) (stream : StreamId)
    (cluster offset total : ℤ) (next : List UInt8 → Prog Crash Streams (ℤ × List UInt8)) :
    Prog Crash Streams (ℤ × List UInt8) := do
  let sizeOfClusterBytes := fat16SizeOfClusterBytes fatPrivate
  let clusterToUse ← fat16GetClusterForOffset disk fatPrivate cluster offset
  if clusterToUse < 0 then pure (clusterToUse, [])
  else do
    let offsetFromCluster := offset.tmod sizeOfClusterBytes
    let startingSector := fat16ClusterToSector fatPrivate clusterToUse
    let startingPos := i32 (i32 (startingSector * dexterSectorSize) + offsetFromCluster)
    let totalToRead := if total > sizeOfClusterBytes then (sizeOfClusterBytes : ℤ) else total
    diskstreamerSeek stream startingPos
    let out ← diskstreamerRead disk.image stream totalToRead
    next out

def fat16ReadInternalFromStream (disk : Disk) (fatPrivate : FatPrivate) (stream : StreamId) :
    ℕ → (cluster offset total : ℤ) → Prog Crash Streams (ℤ × List UInt8)
  | 0, cluster, offset, total =>
    fat16ReadCluster disk fatPrivate stream cluster offset total fun out => pure (0, out)
  | k + 1, cluster, offset, total =>
    fat16ReadCluster disk fatPrivate stream cluster offset total fun out => do
      let sizeOfClusterBytes := fat16SizeOfClusterBytes fatPrivate
      let totalToRead := if total > sizeOfClusterBytes then (sizeOfClusterBytes : ℤ) else total
      let rest ← fat16ReadInternalFromStream disk fatPrivate stream k cluster
        (i32 (offset + totalToRead)) (total - totalToRead)
      pure (rest.1, out ++ rest.2)

def fat16ReadInternal (disk : Disk) (startingCluster offset total : ℤ) :
    Prog Crash Streams (ℤ × List UInt8) := do
  let fatPrivate ← ofExcept disk.privateData
  let k := ((total - 1) / fat16SizeOfClusterBytes fatPrivate).toNat
  fat16ReadInternalFromStream disk fatPrivate .clusterReadStream k startingCluster offset total

def fat16ReadLoop (disk : Disk) (item : FatDirectoryItem) (size nmemb : ℕ) :
    ℕ → ℤ → Prog Crash Streams (ℤ × List UInt8)
  | 0, _ => pure (i32 nmemb, [])
  | k + 1, offset => do
    let r ← fat16ReadInternal disk (fat16GetFirstCluster item) offset (i32 size)
    if r.1 < 0 then pure r
    else do
      let rest ← fat16ReadLoop disk item size nmemb k (i32 (offset + size))
      pure (rest.1, r.2 ++ rest.2)

def fat16Read (disk : Disk) (descriptor : FatFileDescriptor) (size nmemb : ℕ) :
    Prog Crash Streams (ℤ × List UInt8) :=
  match descriptor.item.body with
  | .directory _ => abort .nullPointer
  | .file addr item =>
    if addr = 0 then abort .nullPointer
    else fat16ReadLoop disk item size nmemb nmemb (i32 descriptor.pos)

def onHeap {α : Type} (prog : Prog Crash KernelHeap α) : Prog Crash (KernelHeap × Streams) α :=
  zoom Prod.fst (fun k c => (k, c.2)) prog

def onStreams {σ α : Type} (prog : Prog Crash Streams α) : Prog Crash (σ × Streams) α :=
  zoom Prod.snd (fun t c => (c.1, t)) prog

def fat16LoadFatDirectory (disk : Disk) (item : FatDirectoryItem) :
    Prog Crash (KernelHeap × Streams) (Option FatDirectory) :=
  if item.attributes &&& fatFileSubdirectory = 0 then do
    onHeap (fat16FreeDirectory none)
    pure none
  else do
    let directory ← onHeap (kzalloc 16)
    if directory = 0 then do
      onHeap (fat16FreeDirectory none)
      pure none
    else do
      let fatPrivate ← onHeap (ofExcept disk.privateData)
      let cluster := fat16GetFirstCluster item
      let clusterSector := fat16ClusterToSector fatPrivate cluster
      let total ← onStreams (fat16GetTotalItemsForDirectory disk (u32 clusterSector))
      let directorySize := i32 (total * 32)
      let items ← onHeap (kzalloc (u32 directorySize))
      if items = 0 then do
        onHeap (fat16FreeDirectory (some ⟨directory, 0, disk.past, total⟩))
        pure (some ⟨directory, 0, disk.past, total⟩)
      else do
        let r ← onStreams (fat16ReadInternal disk cluster 0 directorySize)
        let d : FatDirectory := ⟨directory, items, disk.loaded r.2, total⟩
        onHeap (onlyIf (r.1 ≠ 0) (fat16FreeDirectory (some d)))
        pure (some d)

def fat16NewFatItemForDirectoryItem (disk : Disk) (item : FatDirectoryItem) :
    Prog Crash (KernelHeap × Streams) (Option FatItem) := do
  let fItem ← onHeap (kzalloc 8)
  if fItem = 0 then pure none
  else do
    onlyIf (item.attributes &&& fatFileSubdirectory ≠ 0) do
      let _ ← fat16LoadFatDirectory disk item
      pure ()
    let copy ← onHeap (fat16CloneDirectoryItem 32)
    pure (some ⟨fItem, .file copy item⟩)

def fat16FindItemInDirectory (disk : Disk) (directory : FatDirectory) (name : CString) :
    Prog Crash (KernelHeap × Streams) (Option FatItem) :=
  countUp (fun i fItem => do
    let tmpFilename ← onHeap (ofExcept (fat16GetFullRelativeFilename (directory.item i)))
    if istrncmp (pathBuffer tmpFilename) (pathBuffer name) = 0 then
      fat16NewFatItemForDirectoryItem disk (directory.item i)
    else pure fItem) directory.total.toNat none

def fat16WalkPath (disk : Disk) : List PathPart → Option FatItem →
    Prog Crash (KernelHeap × Streams) (Option FatItem)
  | [], currentItem => pure currentItem
  | nextPart :: rest, currentItem =>
    match currentItem with
    | none => abort .nullPointer
    | some item =>
      match item.body with
      | .file _ _ => pure none
      | .directory none => abort .nullPointer
      | .directory (some d) => do
        let tmpItem ← fat16FindItemInDirectory disk d nextPart.part
        onHeap (fat16FatItemFree item)
        fat16WalkPath disk rest tmpItem

def fat16GetDirectoryEntry (disk : Disk) (path : List PathPart) :
    Prog Crash (KernelHeap × Streams) (Option FatItem) :=
  match path with
  | [] => abort .nullPointer
  | first :: rest => do
    let fatPrivate ← onHeap (ofExcept disk.privateData)
    let rootItem ← fat16FindItemInDirectory disk fatPrivate.rootDirectory.toFatDirectory first.part
    match rootItem with
    | none => pure none
    | some item => fat16WalkPath disk rest (some item)

def fat16Open (disk : Disk) (path : List PathPart) (mode : FileMode) :
    Prog Crash (KernelHeap × Streams) (Except ℤ FatFileDescriptor) :=
  if mode ≠ .read then pure (.error (-eRdOnly))
  else do
    let descriptor ← onHeap (kzalloc 8)
    if descriptor = 0 then pure (.error (-eNoMem))
    else do
      let item ← fat16GetDirectoryEntry disk path
      match item with
      | none => pure (.error (-eIo))
      | some item => pure (.ok ⟨descriptor, item, 0⟩)

def fopenPrivate (disk : Disk) (filename modeStr : CString) :
    Prog Crash (KernelHeap × Streams) (Except ℤ FatFileDescriptor) := do
  let rootPath ← onHeap (pathparserParse filename)
  match rootPath with
  | none => pure (.error (-eInvArg))
  | some root =>
    if root.first = [] then pure (.error (-eInvArg))
    else if root.driveNo ≠ 0 then pure (.error (-eIo))
    else if disk.filesystem = false then pure (.error (-eIo))
    else if fileGetModeByString modeStr = .invalid then pure (.error (-eInvArg))
    else fat16Open disk root.first (fileGetModeByString modeStr)

def onFiles {α : Type} (prog : Prog Crash FileState α) : Prog Crash (FileState × Streams) α :=
  zoom Prod.fst (fun s c => (s, c.2)) prog

def fopenBody (disk : Disk) (filename modeStr : CString) :
    Prog Crash (FileState × Streams) (ℤ × Option FileDescriptor) := do
  let descriptorPrivateData ← zoom (fun c => (c.1.heap, c.2))
    (fun h c => ({ c.1 with heap := h.1 }, h.2)) (fopenPrivate disk filename modeStr)
  match descriptorPrivateData with
  | .error r => pure (r, none)
  | .ok privateData => do
    let desc ← onFiles (fileNewDescriptor privateData)
    match desc with
    | .error r => pure (r, none)
    | .ok desc => pure (desc.index, some desc)

def fopen (disk : Disk) (filename modeStr : CString) : Prog Crash (FileState × Streams) ℤ := do
  let r ← fopenBody disk filename modeStr
  if r.1 < 0 then pure 0 else pure r.1

def fread (disk : Disk) (size nmemb : ℕ) (fd : ℤ) :
    Prog Crash (FileState × Streams) (ℤ × List UInt8) := do
  let s ← onFiles get
  if size = 0 ∨ nmemb = 0 ∨ fd < 1 then pure (-eInvArg, [])
  else
    match fileGetDescriptor s fd with
    | none => pure (-eInvArg, [])
    | some desc => onStreams (fat16Read disk desc.privateData size nmemb)

def run (disk : Disk) : FileCall → Prog Crash (FileState × Streams) Unit
  | .fopen filename modeStr => do
    let _ ← fopen disk filename modeStr
    pure ()
  | .fread size nmemb fd => do
    let _ ← fread disk size nmemb fd
    pure ()
  | .fseek fd offset whence => do
    let _ ← onFiles (fseek fd offset whence)
    pure ()
  | .fstat fd => do
    let _ ← onFiles (fstat fd)
    pure ()
  | .fclose fd => do
    let _ ← onFiles (fclose fd)
    pure ()

def requestsFrom : ℕ → ℤ → ℤ → List Request
  | 0, pos, total =>
    [⟨pos.tdiv dexterSectorSize, pos.tmod dexterSectorSize, min total dexterSectorSize⟩]
  | k + 1, pos, total =>
    ⟨pos.tdiv dexterSectorSize, pos.tmod dexterSectorSize, dexterSectorSize⟩ ::
      requestsFrom k (i32 (pos + dexterSectorSize)) (total - dexterSectorSize)

section Reads
variable {d : DiskImage} {stream : StreamId} {s : Streams}

theorem diskstreamerReadSector_run (totalToRead : ℤ) :
    diskstreamerReadSector d stream totalToRead s =
      .ok ((Dexter.diskstreamerReadSector d (s.pos stream) totalToRead).1,
        { pos := Function.update s.pos stream (i32 (s.pos stream + totalToRead))
          requests := s.requests ++ [⟨(s.pos stream).tdiv dexterSectorSize,
            (s.pos stream).tmod dexterSectorSize, totalToRead⟩] }) := rfl

theorem diskstreamerReadLoop_run (k : ℕ) (total : ℤ) :
    diskstreamerReadLoop d stream k total s =
      .ok ((Dexter.diskstreamerReadLoop d k (s.pos stream) total).1,
        { pos := Function.update s.pos stream
            (Dexter.diskstreamerReadLoop d k (s.pos stream) total).2
          requests := s.requests ++ requestsFrom k (s.pos stream) total }) := by
  induction k generalizing s total with
  | zero => rfl
  | succ k ih =>
    rw [diskstreamerReadLoop, bind_of_ok (diskstreamerReadSector_run _), bind_of_ok (ih _),
      pure_apply]
    simp only [Function.update_self, Function.update_idem, List.append_assoc,
      Dexter.diskstreamerReadLoop, Dexter.diskstreamerReadSector_pos, requestsFrom,
      List.singleton_append]

theorem diskstreamerRead_run (total : ℤ) :
    diskstreamerRead d stream total s =
      .ok ((Dexter.diskstreamerRead d (s.pos stream) total).1,
        { pos := Function.update s.pos stream (Dexter.diskstreamerRead d (s.pos stream) total).2
          requests := s.requests ++
            requestsFrom ((total - 1) / dexterSectorSize).toNat (s.pos stream) total }) :=
  diskstreamerReadLoop_run _ _

/-- A seek with a read behind it finds nothing of where the streams were before. -/
theorem seek_read_run (pos total : ℤ) :
    (do
      diskstreamerSeek stream pos
      diskstreamerRead d stream total) s =
      .ok ((Dexter.diskstreamerRead d pos total).1,
        { pos := Function.update s.pos stream (Dexter.diskstreamerRead d pos total).2
          requests := s.requests ++
            requestsFrom ((total - 1) / dexterSectorSize).toNat pos total }) := by
  rw [diskstreamerSeek, bind_of_ok (modify_apply _ s), diskstreamerRead_run]
  simp only [Function.update_self, Function.update_idem]

end Reads

section Yields
variable {disk : Disk} {fatPrivate : FatPrivate}

theorem seek_read_yields {α : Type} (d : DiskImage) (stream : StreamId) (pos total : ℤ)
    {f : List UInt8 → Prog Crash Streams α} {x : Except Crash α}
    (hf : Yields (f (Dexter.diskstreamerRead d pos total).1) x) :
    Yields (do
      diskstreamerSeek stream pos
      let out ← diskstreamerRead d stream total
      f out) x := by
  rw [← prog_bind_assoc]
  intro s
  rw [bind_of_ok (seek_read_run pos total)]
  exact hf _

theorem fat16CountItems_fst (d : DiskImage) (fuel : ℕ) (i : ℤ) (s : Streams) :
    (fat16CountItems d fuel i s).map Prod.fst =
      Dexter.fat16CountItems d fuel (s.pos .directoryStream) i := by
  induction fuel generalizing i s with
  | zero => rfl
  | succ fuel ih =>
    rw [fat16CountItems, bind_of_ok (diskstreamerRead_run _), Lib.Programs.ite_apply, Lib.Programs.ite_apply,
      Dexter.fat16CountItems]
    split_ifs
    · rfl
    · rw [ih]
      simp only [Function.update_self]
    · rw [ih]
      simp only [Function.update_self]

theorem fat16GetTotalItems_yields (sector : ℕ) :
    Yields (fat16GetTotalItemsForDirectory disk sector)
      (Dexter.fat16GetTotalItemsForDirectory disk sector) := by
  intro s
  rw [fat16GetTotalItemsForDirectory, diskstreamerSeek, bind_of_ok (modify_apply _ s),
    fat16CountItems_fst, Dexter.fat16GetTotalItemsForDirectory]
  simp only [Function.update_self]

theorem fat16GetFatEntry_yields (cluster : ℤ) :
    Yields (fat16GetFatEntry disk fatPrivate cluster)
      (.ok (Dexter.fat16GetFatEntry disk fatPrivate cluster)) := by
  unfold fat16GetFatEntry Dexter.fat16GetFatEntry
  split_ifs
  · exact Yields.pure _
  · exact seek_read_yields _ _ _ _ (Yields.pure _)

theorem fat16ClusterAhead_yields (clustersAhead : ℕ) (clusterToUse : ℤ) :
    Yields (fat16ClusterAhead disk fatPrivate clustersAhead clusterToUse)
      (.ok (Dexter.fat16ClusterAhead disk fatPrivate clustersAhead clusterToUse)) := by
  induction clustersAhead generalizing clusterToUse with
  | zero => exact Yields.pure _
  | succ clustersAhead ih =>
    have hrest : Yields (fat16ClusterAhead disk fatPrivate (clustersAhead + 1) clusterToUse)
        ((.ok (Dexter.fat16GetFatEntry disk fatPrivate clusterToUse)) >>= fun entry =>
          if entry = 0xFF8 ∨ entry = 0xFFF then .ok (-eIo)
          else if entry = 0xFF7 then .ok (-eIo)
          else if entry = 0xFF0 ∨ entry = 0xFF6 then .ok (-eIo)
          else if entry = 0x00 then .ok (-eIo)
          else .ok (Dexter.fat16ClusterAhead disk fatPrivate clustersAhead entry)) :=
      (fat16GetFatEntry_yields _).bind fun entry => (Yields.pure _).ite ((Yields.pure _).ite
        ((Yields.pure _).ite ((Yields.pure _).ite (ih entry))))
    rw [Dexter.fat16ClusterAhead]
    dsimp only [bind, Except.bind] at hrest
    convert hrest using 1
    split_ifs <;> rfl

theorem fat16GetClusterForOffset_yields (startingCluster offset : ℤ) :
    Yields (fat16GetClusterForOffset disk fatPrivate startingCluster offset)
      (Dexter.fat16GetClusterForOffset disk fatPrivate startingCluster offset) :=
  (Yields.abort _).ite (fat16ClusterAhead_yields _ _)

theorem fat16ReadInternalFromStream_yields (stream : StreamId) (k : ℕ)
    (cluster offset total : ℤ) :
    Yields (fat16ReadInternalFromStream disk fatPrivate stream k cluster offset total)
      (Dexter.fat16ReadInternalFromStream disk fatPrivate k cluster offset total) := by
  induction k generalizing offset total with
  | zero =>
    rw [fat16ReadInternalFromStream, Dexter.fat16ReadInternalFromStream, fat16ReadCluster]
    refine (fat16GetClusterForOffset_yields _ _).bind fun clusterToUse => (Yields.pure _).ite ?_
    exact seek_read_yields _ _ _ _ (Yields.pure _)
  | succ k ih =>
    rw [fat16ReadInternalFromStream, Dexter.fat16ReadInternalFromStream, fat16ReadCluster]
    refine (fat16GetClusterForOffset_yields _ _).bind fun clusterToUse => (Yields.pure _).ite ?_
    exact seek_read_yields _ _ _ _ ((ih _ _).bind fun rest => Yields.pure _)

theorem fat16ReadInternal_yields (startingCluster offset total : ℤ) :
    Yields (fat16ReadInternal disk startingCluster offset total)
      (Dexter.fat16ReadInternal disk startingCluster offset total) :=
  (Yields.ofExcept _).bind fun _ => fat16ReadInternalFromStream_yields _ _ _ _ _

theorem fat16ReadLoop_yields (item : FatDirectoryItem) (size nmemb k : ℕ) (offset : ℤ) :
    Yields (fat16ReadLoop disk item size nmemb k offset)
      (Dexter.fat16ReadLoop disk item size nmemb k offset) := by
  induction k generalizing offset with
  | zero => exact Yields.pure _
  | succ k ih =>
    exact (fat16ReadInternal_yields _ _ _).bind fun r => (Yields.pure _).ite
      ((ih _).bind fun rest => Yields.pure _)

theorem fat16Read_yields (descriptor : FatFileDescriptor) (size nmemb : ℕ) :
    Yields (fat16Read disk descriptor size nmemb) (Dexter.fat16Read disk descriptor size nmemb) := by
  unfold fat16Read Dexter.fat16Read
  cases descriptor.item.body with
  | directory d => exact Yields.abort _
  | file addr item => exact (Yields.abort _).ite (fat16ReadLoop_yields _ _ _ _ _)

end Yields

section Erases
variable {disk : Disk}

theorem onHeap_erases {α : Type} (prog : Prog Crash KernelHeap α) : Erases (onHeap prog) prog :=
  Erases.first prog

theorem onStreams_erases {σ α : Type} {prog : Prog Crash Streams α} {x : Except Crash α}
    (h : Yields prog x) :
    Erases (onStreams prog : Prog Crash (σ × Streams) α) (ofExcept x : Prog Crash σ α) :=
  Erases.second h

theorem onFiles_erases {α : Type} (prog : Prog Crash FileState α) : Erases (onFiles prog) prog :=
  Erases.first prog

theorem fat16LoadFatDirectory_erases (item : FatDirectoryItem) :
    Erases (fat16LoadFatDirectory disk item) (Dexter.fat16LoadFatDirectory disk item) := by
  have hnone : Erases (do
      onHeap (fat16FreeDirectory none)
      pure none : Prog Crash (KernelHeap × Streams) (Option FatDirectory)) (do
      fat16FreeDirectory none
      pure none) := (onHeap_erases _).bind fun _ => Erases.pure none
  unfold fat16LoadFatDirectory Dexter.fat16LoadFatDirectory
  refine hnone.ite ((onHeap_erases _).bind fun directory => hnone.ite ?_)
  refine (onHeap_erases _).bind fun fatPrivate => ?_
  refine (onStreams_erases (fat16GetTotalItems_yields _)).bind fun total => ?_
  refine (onHeap_erases _).bind fun items => Erases.ite ?_ ?_
  · exact (onHeap_erases _).bind fun _ => Erases.pure _
  · refine (onStreams_erases (fat16ReadInternal_yields _ _ _)).bind fun r => ?_
    exact (onHeap_erases _).bind fun _ => Erases.pure _

theorem fat16NewFatItem_erases (item : FatDirectoryItem) :
    Erases (fat16NewFatItemForDirectoryItem disk item)
      (Dexter.fat16NewFatItemForDirectoryItem disk item) := by
  refine (onHeap_erases _).bind fun fItem => (Erases.pure none).ite ?_
  refine Erases.bind (Erases.ite ?_ (Erases.pure ())) fun _ => ?_
  · exact (fat16LoadFatDirectory_erases item).bind fun _ => Erases.pure ()
  · exact (onHeap_erases _).bind fun copy => Erases.pure _

theorem fat16FindItem_erases (directory : FatDirectory) (name : CString) :
    Erases (fat16FindItemInDirectory disk directory name)
      (Dexter.fat16FindItemInDirectory disk directory name) :=
  Erases.countUp (fun _ fItem => (onHeap_erases _).bind fun _ =>
    (fat16NewFatItem_erases _).ite (Erases.pure fItem)) _ _

theorem fat16WalkPath_erases (path : List PathPart) (currentItem : Option FatItem) :
    Erases (fat16WalkPath disk path currentItem) (Dexter.fat16WalkPath disk path currentItem) := by
  induction path generalizing currentItem with
  | nil => exact Erases.pure _
  | cons nextPart rest ih =>
    unfold fat16WalkPath Dexter.fat16WalkPath
    cases currentItem with
    | none => exact Erases.abort _
    | some item =>
      dsimp only
      cases item.body with
      | file addr raw => exact Erases.pure none
      | directory d =>
        cases d with
        | none => exact Erases.abort _
        | some d =>
          exact (fat16FindItem_erases _ _).bind fun tmpItem =>
            (onHeap_erases _).bind fun _ => ih tmpItem

theorem fat16Open_erases (path : List PathPart) (mode : FileMode) :
    Erases (fat16Open disk path mode) (Dexter.fat16Open disk path mode) := by
  have hentry : Erases (fat16GetDirectoryEntry disk path)
      (Dexter.fat16GetDirectoryEntry disk path) := by
    cases path with
    | nil => exact Erases.abort _
    | cons first rest =>
      refine (onHeap_erases _).bind fun fatPrivate => ?_
      refine (fat16FindItem_erases _ _).bind fun rootItem => ?_
      cases rootItem with
      | none => exact Erases.pure none
      | some item => exact fat16WalkPath_erases rest (some item)
  refine (Erases.pure _).ite ((onHeap_erases _).bind fun descriptor => (Erases.pure _).ite ?_)
  refine hentry.bind fun item => ?_
  cases item with
  | none => exact Erases.pure _
  | some item => exact Erases.pure _

theorem fopen_erases (filename modeStr : CString) :
    Erases (fopen disk filename modeStr) (Dexter.fopen disk filename modeStr) := by
  have hprivate : Erases (fopenPrivate disk filename modeStr)
      (Dexter.fopenPrivate disk filename modeStr) := by
    refine (onHeap_erases _).bind fun rootPath => ?_
    cases rootPath with
    | none => exact Erases.pure _
    | some root =>
      exact (Erases.pure _).ite ((Erases.pure _).ite ((Erases.pure _).ite ((Erases.pure _).ite
        (fat16Open_erases _ _))))
  have hbody : Erases (fopenBody disk filename modeStr) (Dexter.fopenBody disk filename modeStr) := by
    have hheap := @Erases.part Crash FileState Streams _ KernelHeap DescriptorLayer.heap
      (fun k s => { s with heap := k }) _ _ hprivate
    refine Erases.bind hheap fun x => ?_
    cases x with
    | error r => exact Erases.pure _
    | ok privateData =>
      apply Erases.bind (onFiles_erases (fileNewDescriptor privateData))
      intro desc
      cases desc with
      | error r => exact Erases.pure _
      | ok desc => exact Erases.pure _
  exact hbody.bind fun r => (Erases.pure 0).ite (Erases.pure r.1)

theorem fread_erases (size nmemb : ℕ) (fd : ℤ) :
    Erases (fread disk size nmemb fd) (Dexter.fread disk size nmemb fd) := by
  refine (onFiles_erases get).bind fun s => (Erases.pure _).ite ?_
  cases fileGetDescriptor s fd with
  | none => exact Erases.pure _
  | some desc => exact onStreams_erases (fat16Read_yields _ _ _)

theorem run_erases (call : FileCall) : Erases (run disk call) (call.run disk) := by
  cases call with
  | fopen filename modeStr => exact (fopen_erases _ _).bind fun _ => Erases.pure ()
  | fread size nmemb fd => exact (fread_erases _ _ _).bind fun _ => Erases.pure ()
  | fseek fd offset whence => exact (onFiles_erases _).bind fun _ => Erases.pure ()
  | fstat fd => exact (onFiles_erases _).bind fun _ => Erases.pure ()
  | fclose fd => exact (onFiles_erases _).bind fun _ => Erases.pure ()

end Erases

end Dexter.Streamed
