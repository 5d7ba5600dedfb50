import Dexter.Proc.TaskRuns
import Dexter.Proc.Image
import Dexter.Fs.OpenClose

/-!
# Processes (`proc/process.c`)

`processAt p` is the `struct process` at the address `p`. The bytes of a program are
stored under the kernel's directory, which maps every address to itself. A process is
loaded through a `FileLayer`: what `process_load_binary` needs of `fs/file.c`, with the
frames an open file is built in and the laws that these calls leave the frames of
everybody else alone. `fat16Layer` is the file layer of the repository.
-/

namespace Dexter
open Lib.Programs KernelHeap

structure FileLayer where
  fopen : CString → Prog Crash FileState ℤ
  fstat : ℤ → Prog Crash FileState (ℤ × Option FileStat)
  fread : ℕ → ℕ → ℤ → Prog Crash FileState (ℤ × List UInt8)
  fclose : ℤ → Prog Crash FileState ℤ
  holds : ℤ → FileState → Set ℕ
  holds_heap : ∀ fd s k, holds fd { s with heap := k } = holds fd s
  fopen_built : ∀ {A c} filename, Triple (fun s => Kept A c s.heap) (fopen filename)
    fun fd s => Built A c (holds fd s) s.heap
  fstat_same : ∀ {fd s r s'}, fstat fd s = .ok (r, s') → s' = s ∧ r.1 ≤ 0
  fread_same : ∀ {size nmemb fd s r s'}, fread size nmemb fd s = .ok (r, s') → s' = s
  fclose_kept : ∀ {A c fd s r s'}, Loose A (holds fd s) → Kept A c s.heap →
    fclose fd s = .ok (r, s') → Kept A c s'.heap

structure KeyboardBuffer where
  buffer : ℕ → UInt8
  tail : ℤ
  head : ℤ

structure Process where
  id : ℕ
  filename : List UInt8
  task : ℕ
  ptr : ℕ
  stack : ℕ
  size : ℕ
  keyboard : KeyboardBuffer

def Process.zero : Process := ⟨0, List.replicate dexterMaxPath 0, 0, 0, 0, 0, ⟨fun _ => 0, 0, 0⟩⟩

structure KernelState extends TaskLayer KernelHeap where
  fileDescriptors : ℕ → Option FileDescriptor
  processes : ℕ → ℕ
  processAt : ℕ → Option Process
  currentProcess : ℕ

namespace KernelState

def onTasks {α : Type} (prog : Prog Crash TaskState α) : Prog Crash KernelState α :=
  zoom toTaskLayer (fun t s => { s with toTaskLayer := t }) prog

def onMemory {α : Type} (prog : Prog Crash Memory α) : Prog Crash KernelState α :=
  onTasks (TaskLayer.onMemory prog)

def onHeap {α : Type} (prog : Prog Crash KernelHeap α) : Prog Crash KernelState α :=
  onMemory (PagingLayer.onHeap prog)

def files (s : KernelState) : FileState := ⟨s.heap, s.fileDescriptors⟩

def onFiles {α : Type} (prog : Prog Crash FileState α) : Prog Crash KernelState α :=
  zoom files (fun f s => { s with heap := f.heap, fileDescriptors := f.fileDescriptors }) prog

def getProcess (p : ℕ) : Prog Crash KernelState Process := do
  let s ← get
  if p = 0 then abort .nullPointer
  else
    match s.processAt p with
    | none => abort .nullPointer
    | some x => pure x

def putProcess (p : ℕ) (x : Process) (s : KernelState) : KernelState :=
  { s with processAt := Function.update s.processAt p (some x) }

def setProcess (p : ℕ) (f : Process → Process) : Prog Crash KernelState Unit := do
  let x ← getProcess p
  modify (putProcess p (f x))

/-- The `memset` in `kzalloc`, for a block whose bytes a program sees. -/
def clearBytes (p size : ℕ) : Prog Crash KernelState Unit := onTasks (TaskLayer.clearBlock p size)

def storeBytes (p : ℕ) (bytes : List UInt8) : Prog Crash KernelState Unit :=
  modify fun s =>
    { s with ram := fun q => if p ≤ q ∧ q < p + bytes.length then bytes.getD (q - p) 0 else s.ram q }

end KernelState
open KernelState

def strncpyBytes (src : CString) (n : ℕ) : List UInt8 := src.take n ++ List.replicate (n - src.length) 0

def processCurrent : Prog Crash KernelState ℕ := do
  let s ← get
  pure s.currentProcess

def processGet (s : KernelState) (processId : ℤ) : ℕ :=
  if processId < 0 ∨ processId ≥ dexterMaxProcesses then 0 else s.processes processId.toNat

/-- `process_load_binary` behind its `fopen`, up to the label `out`. -/
def processLoadBinaryBody (files : FileLayer) (fd : ℤ) (process : ℕ) : Prog Crash KernelState ℤ :=
  if fd = 0 then pure (-eIo)
  else do
    let stat ← onFiles (files.fstat fd)
    if stat.1 ≠ dexterAllOk then pure stat.1
    else do
      let filesize := u32 ((stat.2.map FileStat.filesize).getD 0)
      let programDataPtr ← onHeap (kzalloc filesize)
      if programDataPtr = 0 then pure (-eNoMem)
      else do
        clearBytes programDataPtr filesize
        let count ← onFiles (files.fread filesize 1 fd)
        storeBytes programDataPtr count.2
        if count.1 ≠ 1 then pure (-eIo)
        else do
          setProcess process fun x => { x with ptr := programDataPtr, size := filesize }
          pure stat.1

def processLoadBinary (files : FileLayer) (filename : CString) (process : ℕ) :
    Prog Crash KernelState ℤ := do
  let fd ← onFiles (files.fopen filename)
  let r ← processLoadBinaryBody files fd process
  let _ ← onFiles (files.fclose fd)
  pure r

def processLoadData (files : FileLayer) (filename : CString) (process : ℕ) :
    Prog Crash KernelState ℤ := processLoadBinary files filename process

/-- The mapping of `total` bytes at `phys` from `virt` on, of which the result is ignored. -/
def processMapRegion (process virt phys total : ℕ) : Prog Crash KernelState Unit := do
  let x ← getProcess process
  let t ← onTasks (TaskLayer.taskAt x.task)
  let _ ← onMemory (pagingMapTo t.pageDirectory virt phys (pagingAlignAddress (u32 (phys + total)))
    (pagingIsPresent ||| pagingAccessFromAll ||| pagingIsWriteable))
  pure ()

def processMapBinary (process : ℕ) : Prog Crash KernelState ℤ := do
  let x ← getProcess process
  processMapRegion process dexterProgramVirtualAddress x.ptr x.size
  pure 0

def processMapMemory (process : ℕ) : Prog Crash KernelState ℤ := do
  let r ← processMapBinary process
  if r < 0 then pure r
  else do
    let x ← getProcess process
    processMapRegion process dexterProgramVirtualStackAddressEnd x.stack dexterUserProgramStackSize
    pure r

def processGetFreeSlot (s : KernelState) : ℤ :=
  match (List.range dexterMaxProcesses).find? fun i => s.processes i == 0 with
  | some i => i
  | none => -eIsTkn

def storeSlot (slot : ℤ) (process : ℕ) : Prog Crash KernelState Unit :=
  if slot < 0 ∨ slot ≥ dexterMaxProcesses then abort .overrun
  else modify fun s => { s with processes := Function.update s.processes slot.toNat process }

/-- `process_load_for_slot` from `task_new` up to the label `out`: the result, and the value
of `*process`, 0 where it is not written. -/
def processLoadTask (processSlot : ℤ) (process : ℕ) : Prog Crash KernelState (ℤ × ℕ) := do
  let task ← onTasks (taskNew process)
  if i32 task = 0 then pure (i32 task, 0)
  else do
    setProcess process fun x => { x with task := task }
    let r ← processMapMemory process
    if r < 0 then pure (r, 0)
    else do
      storeSlot processSlot process
      pure (r, process)

def processLoadForSlotBody (files : FileLayer) (filename : CString) (processSlot : ℤ)
    (process : ℕ) : Prog Crash KernelState (ℤ × ℕ) := do
  let r ← processLoadData files filename process
  if r < 0 then pure (r, 0)
  else do
    let programStackPtr ← onHeap (kzalloc dexterUserProgramStackSize)
    if programStackPtr = 0 then pure (-eNoMem, 0)
    else do
      clearBytes programStackPtr dexterUserProgramStackSize
      setProcess process fun x =>
        { x with
          filename := strncpyBytes filename dexterMaxPath
          stack := programStackPtr
          id := u16 processSlot }
      processLoadTask processSlot process

def processLoadOut (process : ℕ) (r : ℤ) : Prog Crash KernelState Unit :=
  onlyIf (r < 0) do
    let x ← getProcess process
    onlyIf (x.task ≠ 0) (onTasks (taskFree x.task))

/-- Of a slot that is taken `_process` has no value at the label `out`, where it is read. -/
def processLoadForSlot (files : FileLayer) (filename : CString) (processSlot : ℤ) :
    Prog Crash KernelState (ℤ × ℕ) := do
  let s ← get
  if processGet s processSlot ≠ 0 then abort .uninitialised
  else do
    let process ← onHeap (kzalloc 5256)
    if process = 0 then pure (-eNoMem, 0)
    else do
      modify (putProcess process .zero)
      let r ← processLoadForSlotBody files filename processSlot process
      processLoadOut process r.1
      pure r

def processLoad (files : FileLayer) (filename : CString) : Prog Crash KernelState (ℤ × ℕ) := do
  let s ← get
  if processGetFreeSlot s < 0 then pure (-eIsTkn, 0)
  else processLoadForSlot files filename (processGetFreeSlot s)

theorem KernelHeap.Built.mono {A P P' : Set ℕ} {c : Prop} {k : KernelHeap} (h : Built A c P k)
    (hP : P' ⊆ P) : Built A c P' k :=
  ⟨fun p hp => h.loose p (hP hp),
    h.all.mono (Set.union_subset_union_right A (Set.sdiff_subset_sdiff_left hP))⟩

def openPointers (fd : ℤ) (s : FileState) : Set ℕ :=
  {p | ∃ desc, fileGetDescriptor s fd = some desc ∧ p ∈ desc.pointers}

theorem fopen_openPointers {A : Set ℕ} {c : Prop} (disk : Disk) (filename modeStr : CString) :
    Triple (fun s => Kept A c s.heap) (fopen disk filename modeStr)
      fun fd s => Built A c (openPointers fd s) s.heap := by
  intro s fd s' hk h
  obtain ⟨r₀, desc, -, hspec⟩ := fopen_spec hk h
  cases hspec with
  | fails s' why table kept =>
    have hempty : openPointers 0 s' = ∅ := by
      simp [openPointers, fileGetDescriptor]
    rw [hempty]
    exact ⟨fun p hp => absurd hp (Set.notMem_empty p), kept.mono (by simp)⟩
  | opens i desc s' opened slot index object table built =>
    refine built.mono fun p hp => ?_
    obtain ⟨d, hd, hp⟩ := hp
    have hslot : s'.fileDescriptors i = some d := by
      unfold fileGetDescriptor at hd
      split_ifs at hd
      simpa using hd
    rw [table, Function.update_self] at hslot
    obtain rfl := Option.some.inj hslot
    exact hp

theorem fstat_nonpos {s s' : FileState} {fd : ℤ} {r : ℤ × Option FileStat}
    (h : fstat fd s = .ok (r, s')) : r.1 ≤ 0 := by
  rw [fstat, bind_of_ok (get_apply s)] at h
  cases hfd : fileGetDescriptor s fd with
  | none =>
    rw [hfd] at h
    obtain ⟨rfl, -⟩ := ok_inj h
    decide
  | some desc =>
    rw [hfd] at h
    have hstat := (ofExcept_ok.mp h).1
    unfold fat16Stat at hstat
    split at hstat
    · obtain rfl := Except.ok.inj hstat
      decide
    · split at hstat
      · cases hstat
      · obtain rfl := Except.ok.inj hstat
        exact le_rfl

def fat16Layer (disk : Disk) : FileLayer where
  fopen filename := fopen disk filename [0x72]
  fstat := fstat
  fread := fread disk
  fclose := fclose
  holds := openPointers
  holds_heap _ _ _ := rfl
  fopen_built filename := fopen_openPointers disk filename [0x72]
  fstat_same h := ⟨Dexter.fstat_same h, fstat_nonpos h⟩
  fread_same h := Dexter.fread_same h
  fclose_kept hloose hk h := by
    cases fclose_spec h with
    | rejects unknown => exact hk
    | closes desc s' found table kept => exact kept _ _ (fun p hp => hloose p ⟨desc, found, hp⟩) hk

namespace KernelState
variable {s s' : KernelState} {p : ℕ} {x : Process}

theorem onFiles_ok {α : Type} {prog : Prog Crash FileState α} {a : α} :
    onFiles prog s = .ok (a, s') ↔ ∃ f, prog s.files = .ok (a, f) ∧
      s' = { s with heap := f.heap, fileDescriptors := f.fileDescriptors } := zoom_ok

theorem onHeap_kzalloc (s : KernelState) (size : ℕ) : onHeap (kzalloc size) s =
    .ok ((s.heap.malloc size).1, { s with heap := (s.heap.malloc size).2 }) := rfl

theorem clearBytes_apply (s : KernelState) (p size : ℕ) : clearBytes p size s =
    .ok ((), { s with ram := TaskLayer.cleared p size s.ram }) := rfl

theorem onTasks_ok {α : Type} {prog : Prog Crash TaskState α} {a : α} :
    onTasks prog s = .ok (a, s') ↔ ∃ t, prog s.toTaskLayer = .ok (a, t) ∧
      s' = { s with toTaskLayer := t } := zoom_ok

theorem getProcess_ok : getProcess p s = .ok (x, s') ↔ p ≠ 0 ∧ s.processAt p = some x ∧ s' = s := by
  rw [getProcess, bind_of_ok (get_apply s)]
  split_ifs with hp
  · simp [hp]
  · cases h : s.processAt p with
    | none => simp
    | some y => simp [hp, eq_comm]

theorem setProcess_ok {f : Process → Process} {u : Unit} : setProcess p f s = .ok (u, s') ↔
    p ≠ 0 ∧ ∃ x, s.processAt p = some x ∧ s' = s.putProcess p (f x) := by
  rw [setProcess, bind_ok]
  constructor
  · intro ⟨x, s₁, hget, hmodify⟩
    obtain ⟨hp, hx, rfl⟩ := getProcess_ok.mp hget
    rw [modify_apply] at hmodify
    exact ⟨hp, x, hx, (ok_inj hmodify).2.symm⟩
  · intro ⟨hp, x, hx, hs'⟩
    subst hs'
    exact ⟨x, s, getProcess_ok.mpr ⟨hp, hx, rfl⟩, rfl⟩

@[simp] theorem putProcess_self (s : KernelState) (p : ℕ) (x : Process) :
    (s.putProcess p x).processAt p = some x := Function.update_self _ _ _

theorem setProcess_put (hp : p ≠ 0) (f : Process → Process) (x : Process) (s : KernelState) :
    setProcess p f (s.putProcess p x) = .ok ((), s.putProcess p (f x)) := by
  rw [setProcess_ok]
  refine ⟨hp, x, putProcess_self _ _ _, ?_⟩
  simp only [putProcess, Function.update_idem]

theorem putProcess_of_ne {q : ℕ} (h : q ≠ p) (s : KernelState) (x : Process) :
    (s.putProcess p x).processAt q = s.processAt q := Function.update_of_ne h _ _

end KernelState

def bootKernel : KernelState where
  toTaskLayer := TaskRuns.bootTasks
  fileDescriptors := fun _ => none
  processes := fun _ => 0
  processAt := fun _ => none
  currentProcess := 0

end Dexter
