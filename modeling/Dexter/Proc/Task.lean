import Dexter.Mem.Paging
import Dexter.Lib.LinkedList

/-!
# Tasks (`proc/task.c`)

`tasks t` is the `struct task` at the address `t`, or `none` where no such object
is allocated. Bytes outside the typed objects are `ram`, reached through the
directory that is loaded. An access to a page that is not present never gets on:
the fault handler returns to the same instruction.
-/

namespace Dexter
open Lib.Programs Lib.TwoLevel Lib.Faults

structure Registers where
  edi : ℕ
  esi : ℕ
  ebp : ℕ
  ebx : ℕ
  edx : ℕ
  ecx : ℕ
  eax : ℕ
  ip : ℕ
  cs : ℕ
  flags : ℕ
  esp : ℕ
  ss : ℕ
  deriving DecidableEq, Repr

structure InterruptFrame extends Registers where
  reserved : ℕ
  deriving DecidableEq, Repr

structure Task where
  pageDirectory : ℕ
  registers : Registers
  process : ℕ
  next : ℕ
  prev : ℕ
  deriving DecidableEq, Repr

structure TaskLayer (σ : Type) extends PagingLayer σ where
  tasks : ℕ → Option Task
  taskHead : ℕ
  taskTail : ℕ
  currentTask : ℕ
  kernelChunk : ℕ
  ram : ℕ → UInt8

abbrev TaskState := TaskLayer KernelHeap

def Registers.zero : Registers := ⟨0, 0, 0, 0, 0, 0, 0, 0, 0, 0, 0, 0⟩

def Task.zero : Task := ⟨0, .zero, 0, 0, 0⟩

def Task.links (t : Task) : ℕ × ℕ := (t.next, t.prev)

namespace TaskLayer
section Objects
variable {σ : Type}

def onMemory {α : Type} (prog : Prog Crash (PagingLayer σ) α) : Prog Crash (TaskLayer σ) α :=
  zoom toPagingLayer (fun m s => { s with toPagingLayer := m }) prog

def onHeap {α : Type} (prog : Prog Crash σ α) : Prog Crash (TaskLayer σ) α :=
  onMemory (PagingLayer.onHeap prog)

def taskAt (t : ℕ) : Prog Crash (TaskLayer σ) Task := do
  let s ← get
  if t = 0 then abort .nullPointer
  else
    match s.tasks t with
    | none => abort .freedTask
    | some task => pure task

def putTask (t : ℕ) (task : Option Task) (s : TaskLayer σ) : TaskLayer σ :=
  { s with tasks := Function.update s.tasks t task }

def setTask (t : ℕ) (f : Task → Task) : Prog Crash (TaskLayer σ) Unit := do
  let task ← taskAt t
  modify (putTask t (some (f task)))

end Objects

def translate (s : TaskState) (v : ℕ) : Option ℕ :=
  let directoryEntry := s.pages s.cr3 (pageCell v).1
  let entry := s.pages (entryTable directoryEntry) (pageCell v).2
  if directoryEntry % 2 = 1 ∧ entry % 2 = 1 then some (entryTable entry + v % 4096) else none

def readByte (v : ℕ) : Prog Crash TaskState UInt8 := do
  let s ← get
  match s.translate v with
  | none => abort .hang
  | some p => pure (s.ram p)

def writeByte (v : ℕ) (c : UInt8) : Prog Crash TaskState Unit := do
  let s ← get
  match s.translate v with
  | none => abort .hang
  | some p => modify fun s => { s with ram := Function.update s.ram p c }

def readUint32 (v : ℕ) : Prog Crash TaskState ℕ := do
  let b0 ← readByte v
  let b1 ← readByte (u32 (v + 1))
  let b2 ← readByte (u32 (v + 2))
  let b3 ← readByte (u32 (v + 3))
  pure (b0.toNat + 256 * b1.toNat + 65536 * b2.toNat + 16777216 * b3.toNat)

def cleared (p size : ℕ) (ram : ℕ → UInt8) : ℕ → UInt8 :=
  fun q => if p ≤ q ∧ q < p + size then 0 else ram q

theorem cleared_of_not_mem {p size q : ℕ} (h : ¬(p ≤ q ∧ q < p + size)) (ram : ℕ → UInt8) :
    cleared p size ram q = ram q := if_neg h

/-- The end of `kzalloc`: the kernel's directory shows it the block at its own address. -/
def clearBlock (p size : ℕ) : Prog Crash TaskState Unit :=
  modify fun s => { s with ram := cleared p size s.ram }

/-- The bytes `strncpy` takes from `src + i` on, with `k` left: zeros after the terminator. -/
def strncpySource (src : ℕ) : (k i : ℕ) → Bool → Prog Crash TaskState (List UInt8)
  | 0, _, _ => pure []
  | k + 1, i, ended => do
    let c ← if ended then pure 0 else readByte (u32 (src + i))
    let rest ← strncpySource src k (i + 1) (ended || c == 0)
    pure (c :: rest)

def strncpy (dest src : ℕ) : (k i : ℕ) → Bool → Prog Crash TaskState Unit
  | 0, _, _ => pure ()
  | k + 1, i, ended => do
    let c ← if ended then pure 0 else readByte (u32 (src + i))
    writeByte (u32 (dest + i)) c
    strncpy dest src k (i + 1) (ended || c == 0)

end TaskLayer
open TaskLayer

def kernelPage : Prog Crash TaskState Unit := do
  let s ← get
  onMemory (pagingSwitch s.kernelChunk)

def taskSwitch (task : ℕ) : Prog Crash TaskState Unit := do
  modify fun s => { s with currentTask := task }
  let t ← taskAt task
  onMemory (pagingSwitch t.pageDirectory)

def taskPage : Prog Crash TaskState Unit := do
  let s ← get
  taskSwitch s.currentTask

def taskPageTask (task : ℕ) : Prog Crash TaskState Unit := do
  let t ← taskAt task
  onMemory (pagingSwitch t.pageDirectory)

/-- The result, and the bytes at `phys` afterwards where they are written. -/
def copyStringFromTask (task virt : ℕ) (max : ℕ) :
    Prog Crash TaskState (ℤ × Option (List UInt8)) :=
  if max ≥ pagingPageSize then pure (-eInvArg, none)
  else do
    let tmp ← onHeap (kzalloc max)
    if tmp = 0 then pure (-eNoMem, none)
    else do
      clearBlock tmp max
      let t ← taskAt task
      let taskDirectory ← onMemory (PagingLayer.directoryEntry t.pageDirectory)
      let oldEntry ← onMemory (pagingGet taskDirectory tmp)
      let _ ← onMemory (pagingMap t.pageDirectory tmp tmp
        (pagingIsWriteable ||| pagingIsPresent ||| pagingAccessFromAll))
      onMemory (pagingSwitch t.pageDirectory)
      strncpy tmp virt max 0 false
      kernelPage
      let r ← onMemory (pagingSet taskDirectory tmp oldEntry)
      if r < 0 then do
        onHeap (kfree tmp)
        pure (-eIo, none)
      else do
        let phys ← strncpySource tmp max 0 false
        onHeap (kfree tmp)
        pure (r, some phys)

section Lists
variable {σ : Type} [Requests σ]

def taskGetNext : Prog Crash (TaskLayer σ) ℕ := do
  let s ← get
  let t ← taskAt s.currentTask
  if t.next = 0 then pure s.taskHead else pure t.next

def taskListRemove (task : ℕ) : Prog Crash (TaskLayer σ) Unit := do
  let t ← taskAt task
  onlyIf (t.prev ≠ 0) (setTask t.prev fun p => { p with next := t.next })
  let t ← taskAt task
  modify fun s => if task = s.taskHead then { s with taskHead := t.next } else s
  modify fun s => if task = s.taskTail then { s with taskTail := t.prev } else s
  let s ← get
  onlyIf (task = s.currentTask) do
    let next ← taskGetNext
    modify fun s => { s with currentTask := next }

def taskFree (task : ℕ) : Prog Crash (TaskLayer σ) Unit := do
  let t ← taskAt task
  onMemory (pagingFree4gb t.pageDirectory)
  taskListRemove task
  onHeap (kfree task)
  modify (putTask task none)

def taskInit (task process : ℕ) : Prog Crash (TaskLayer σ) ℤ := do
  setTask task fun _ => .zero
  let pageDirectory ← onMemory (pagingNew4gb (pagingIsPresent ||| pagingAccessFromAll))
  setTask task fun t => { t with pageDirectory := pageDirectory }
  if pageDirectory = 0 then pure (-eIo)
  else do
    setTask task fun t =>
      { t with
        registers := { t.registers with
          ip := dexterProgramVirtualAddress
          ss := userDataSegment
          cs := userCodeSegment
          esp := dexterProgramVirtualStackAddressStart }
        process := process }
    pure 0

def taskListAppend (task : ℕ) : Prog Crash (TaskLayer σ) Unit := do
  let s ← get
  if s.taskHead = 0 then
    modify fun s => { s with taskHead := task, taskTail := task, currentTask := task }
  else do
    setTask s.taskTail fun t => { t with next := task }
    setTask task fun t => { t with prev := s.taskTail }
    modify fun s => { s with taskTail := task }

def taskNewBody (task process : ℕ) : Prog Crash (TaskLayer σ) ℤ :=
  if task = 0 then pure (-eNoMem)
  else do
    modify (putTask task (some .zero))
    let res ← taskInit task process
    if res ≠ dexterAllOk then pure res
    else do
      taskListAppend task
      pure res

/-- The new task, or an error number as a pointer. -/
def taskNew (process : ℕ) : Prog Crash (TaskLayer σ) ℕ := do
  let task ← onHeap (kzalloc 64)
  let res ← taskNewBody task process
  if res < 0 then do
    taskFree task
    pure (u32 res)
  else pure task

end Lists

def taskSaveState (task : ℕ) (frame : InterruptFrame) : Prog Crash TaskState Unit :=
  setTask task fun t => { t with registers := frame.toRegisters }

def taskCurrentSaveState (frame : InterruptFrame) : Prog Crash TaskState Unit := do
  let s ← get
  if s.currentTask = 0 then abort .hang else taskSaveState s.currentTask frame

def taskGetStackItem (task : ℕ) (index : ℕ) : Prog Crash TaskState ℕ := do
  let t ← taskAt task
  let spPtr := t.registers.esp
  taskPageTask task
  let r ← readUint32 (u32 (spPtr + 4 * index))
  kernelPage
  pure r

namespace TaskLayer
variable {s s' : TaskState} {t : ℕ} {task : Task}

theorem translate_some {v p : ℕ} : s.translate v = some p ↔
    (s.pages s.cr3 (pageCell v).1 % 2 = 1 ∧
      lookup entryTable s.pages s.cr3 (pageCell v) % 2 = 1) ∧
    p = entryTable (lookup entryTable s.pages s.cr3 (pageCell v)) + v % 4096 := by
  unfold translate
  dsimp only
  split_ifs with h
  · exact ⟨fun hp => ⟨h, (Option.some.inj hp).symm⟩, fun hp => congrArg some hp.2.symm⟩
  · exact ⟨False.elim, fun hp => absurd hp.1 h⟩

section Stores
variable {σ : Type} {s s' : TaskLayer σ}

theorem taskAt_ok : taskAt t s = .ok (task, s') ↔ t ≠ 0 ∧ s.tasks t = some task ∧ s' = s := by
  rw [taskAt, bind_of_ok (get_apply _)]
  split_ifs with ht
  · simp [ht]
  · cases h : s.tasks t with
    | none => simp
    | some x => simp [ht, eq_comm]

theorem taskAt_of_some (ht : t ≠ 0) (h : s.tasks t = some task) : taskAt t s = .ok (task, s) :=
  taskAt_ok.mpr ⟨ht, h, rfl⟩

theorem setTask_ok {f : Task → Task} {u : Unit} : setTask t f s = .ok (u, s') ↔
    t ≠ 0 ∧ ∃ task, s.tasks t = some task ∧ s' = s.putTask t (some (f task)) := by
  rw [setTask, bind_ok]
  constructor
  · intro ⟨task, s₁, hat, hmod⟩
    obtain ⟨ht, htask, rfl⟩ := taskAt_ok.mp hat
    rw [modify_apply] at hmod
    exact ⟨ht, task, htask, (ok_inj hmod).2.symm⟩
  · intro ⟨ht, task, htask, hs'⟩
    subst hs'
    exact ⟨task, s, taskAt_of_some ht htask, rfl⟩

theorem setTask_of_some {f : Task → Task} (ht : t ≠ 0) (h : s.tasks t = some task) :
    setTask t f s = .ok ((), s.putTask t (some (f task))) :=
  setTask_ok.mpr ⟨ht, task, h, rfl⟩

@[simp] theorem putTask_self (s : TaskLayer σ) (t : ℕ) (x : Option Task) :
    (s.putTask t x).tasks t = x := Function.update_self _ _ _
theorem putTask_of_ne {u : ℕ} (h : u ≠ t) (s : TaskLayer σ) (x : Option Task) :
    (s.putTask t x).tasks u = s.tasks u := Function.update_of_ne h _ _
@[simp] theorem putTask_toMemory (s : TaskLayer σ) (t : ℕ) (x : Option Task) :
    (s.putTask t x).toPagingLayer = s.toPagingLayer := rfl

theorem onMemory_of_ok {α : Type} {prog : Prog Crash (PagingLayer σ) α} {a : α}
    {m : PagingLayer σ} (h : prog s.toPagingLayer = .ok (a, m)) :
    onMemory prog s = .ok (a, { s with toPagingLayer := m }) :=
  zoom_of_ok h

theorem onMemory_ok {α : Type} {prog : Prog Crash (PagingLayer σ) α} {a : α} :
    onMemory prog s = .ok (a, s') ↔
      ∃ m, prog s.toPagingLayer = .ok (a, m) ∧ s' = { s with toPagingLayer := m } := zoom_ok

end Stores

end TaskLayer

def TaskLayer.onKernel (s : TaskState) : TaskState :=
  { s with cr3 := s.chunks s.kernelChunk, currentDirectory := s.chunks s.kernelChunk }

def TaskLayer.onTask (s : TaskState) (x : Task) : TaskState :=
  { s with cr3 := s.chunks x.pageDirectory, currentDirectory := s.chunks x.pageDirectory }

section Switch
variable {s s' : TaskState} {t : ℕ}

theorem kernelPage_ok {u : Unit} : kernelPage s = .ok (u, s') ↔
    s.kernelChunk ≠ 0 ∧ s' = s.onKernel := by
  rw [kernelPage, bind_of_ok (get_apply s), onMemory_ok]
  simp [pagingSwitch_ok, onKernel]

theorem taskPageTask_ok {u : Unit} : taskPageTask t s = .ok (u, s') ↔ t ≠ 0 ∧
    ∃ x, s.tasks t = some x ∧ x.pageDirectory ≠ 0 ∧ s' = s.onTask x := by
  rw [taskPageTask, bind_ok]
  simp only [taskAt_ok, onMemory_ok, pagingSwitch_ok]
  constructor
  · intro ⟨x, s₁, ⟨ht, hx, hs₁⟩, m, ⟨hc, hm⟩, hs'⟩
    subst hs₁ hm
    exact ⟨ht, x, hx, hc, hs'⟩
  · intro ⟨ht, x, hx, hc, hs'⟩
    exact ⟨x, s, ⟨ht, hx, rfl⟩, _, ⟨hc, rfl⟩, hs'⟩

theorem taskSwitch_ok {u : Unit} : taskSwitch t s = .ok (u, s') ↔ t ≠ 0 ∧
    ∃ x, s.tasks t = some x ∧ x.pageDirectory ≠ 0 ∧
      s' = TaskLayer.onTask { s with currentTask := t } x := by
  rw [taskSwitch, bind_of_ok (modify_apply _ s)]
  exact taskPageTask_ok

theorem taskPage_ok {u : Unit} : taskPage s = .ok (u, s') ↔ s.currentTask ≠ 0 ∧
    ∃ x, s.tasks s.currentTask = some x ∧ x.pageDirectory ≠ 0 ∧ s' = s.onTask x := by
  rw [taskPage, bind_of_ok (get_apply s)]
  exact taskSwitch_ok

end Switch

def initialRegisters : Registers :=
  { Registers.zero with
    ip := dexterProgramVirtualAddress
    ss := userDataSegment
    cs := userCodeSegment
    esp := dexterProgramVirtualStackAddressStart }

section Request
variable {σ : Type} [Requests σ] {s : TaskLayer σ} {t process chunk : ℕ} {m : PagingLayer σ}

theorem taskInit_of_ok (ht : t ≠ 0) {x : Task} (hx : s.tasks t = some x)
    (h : pagingNew4gb 5 s.toPagingLayer = .ok (chunk, m)) (hc : chunk ≠ 0) :
    taskInit t process s = .ok (0, { s with
      toPagingLayer := m
      tasks := Function.update s.tasks t (some ⟨chunk, initialRegisters, process, 0, 0⟩) }) := by
  have hmem : onMemory (pagingNew4gb (pagingIsPresent ||| pagingAccessFromAll))
      (s.putTask t (some .zero)) = _ := onMemory_of_ok h
  have h₁ : TaskLayer.tasks { s.putTask t (some .zero) with toPagingLayer := m } t = some .zero :=
    putTask_self s t _
  rw [taskInit, bind_of_ok (setTask_of_some ht hx), bind_of_ok hmem,
    bind_of_ok (setTask_of_some ht h₁), if_neg hc,
    bind_of_ok (setTask_of_some ht (putTask_self _ _ _)), pure_apply]
  simp only [putTask, Function.update_idem]
  rfl

theorem taskInit_of_error (ht : t ≠ 0) {x : Task} (hx : s.tasks t = some x) {e : Crash}
    (h : pagingNew4gb 5 s.toPagingLayer = .error e) : taskInit t process s = .error e := by
  have hmem : onMemory (pagingNew4gb (pagingIsPresent ||| pagingAccessFromAll))
      (s.putTask t (some .zero)) = .error e := by
    simp only [onMemory, zoom, putTask_toMemory]
    rw [show pagingIsPresent ||| pagingAccessFromAll = 5 from rfl, h]
  rw [taskInit, bind_of_ok (setTask_of_some ht hx), bind_of_error hmem]

def TaskLayer.withNewTask (s : TaskLayer σ) (m : PagingLayer σ) (t chunk process : ℕ) :
    TaskLayer σ :=
  { s with
    toPagingLayer := m
    tasks := Function.update s.tasks t (some ⟨chunk, initialRegisters, process, 0, 0⟩) }

theorem withNewTask_self (s : TaskLayer σ) (m : PagingLayer σ) (t chunk process : ℕ) :
    (s.withNewTask m t chunk process).tasks t =
      some ⟨chunk, initialRegisters, process, 0, 0⟩ := Function.update_self _ _ _

theorem withNewTask_of_ne {u : ℕ} (h : u ≠ t) (s : TaskLayer σ) (m : PagingLayer σ)
    (chunk process : ℕ) :
    (s.withNewTask m t chunk process).tasks u = s.tasks u := Function.update_of_ne h _ _

def TaskLayer.afterKzalloc (s : TaskLayer σ) (size : ℕ) : PagingLayer σ :=
  { s.toPagingLayer with heap := (Requests.ask size s.heap).2 }

/-- `task_new` returns a task or it does not return: an out-of-memory task is released through
its null pointer, and a directory is never null. -/
theorem taskNew_eq (process : ℕ) (s : TaskLayer σ) : taskNew process s =
    if (Requests.ask 64 s.heap).1 = 0 then .error .nullPointer
    else match pagingNew4gb 5 (s.afterKzalloc 64) with
      | .error e => .error e
      | .ok (chunk, m) =>
        match taskListAppend (Requests.ask 64 s.heap).1
          (s.withNewTask m (Requests.ask 64 s.heap).1 chunk process) with
        | .error e => .error e
        | .ok (_, s') => .ok ((Requests.ask 64 s.heap).1, s') := by
  have halloc : onHeap (kzalloc 64) s = .ok ((Requests.ask 64 s.heap).1,
      { s with toPagingLayer := s.afterKzalloc 64 }) := rfl
  rw [taskNew, bind_of_ok halloc]
  generalize (Requests.ask 64 s.heap).1 = t
  split_ifs with ht
  · have hfree : ∀ s : TaskLayer σ, taskFree t s = .error .nullPointer := by
      intro s
      subst ht
      rfl
    have hbody : ∀ s : TaskLayer σ, taskNewBody t process s = .ok (-eNoMem, s) := by
      intro s
      rw [taskNewBody, if_pos ht, pure_apply]
    rw [bind_of_ok (hbody _), if_pos (by decide), bind_of_error (hfree _)]
  · set s₁ := TaskLayer.putTask t (some .zero) { s with toPagingLayer := s.afterKzalloc 64 } with hs₁
    have hx : s₁.tasks t = some .zero := putTask_self _ _ _
    cases h : pagingNew4gb 5 (s.afterKzalloc 64) with
    | error e =>
      have hbody : taskNewBody t process { s with toPagingLayer := s.afterKzalloc 64 } = .error e := by
        rw [taskNewBody, if_neg ht, bind_of_ok (modify_apply _ _)]
        exact bind_of_error (taskInit_of_error ht hx h) _
      rw [bind_of_error hbody]
    | ok r =>
      obtain ⟨chunk, m⟩ := r
      have hc : chunk ≠ 0 := pagingNew4gb_ne h
      have hinit := @taskInit_of_ok _ _ _ _ process _ _ ht _ hx h hc
      have hs₂ : ({ s₁ with
          toPagingLayer := m
          tasks := Function.update s₁.tasks t (some ⟨chunk, initialRegisters, process, 0, 0⟩) } :
          TaskLayer σ) = s.withNewTask m t chunk process := by
        simp only [hs₁, putTask, withNewTask, Function.update_idem]
      rw [hs₂] at hinit
      dsimp only
      cases happ : taskListAppend t (s.withNewTask m t chunk process) with
      | error e =>
        have hbody : taskNewBody t process { s with toPagingLayer := s.afterKzalloc 64 } =
            .error e := by
          rw [taskNewBody, if_neg ht, bind_of_ok (modify_apply _ _), bind_of_ok hinit,
            if_neg (by decide)]
          exact bind_of_error happ _
        rw [bind_of_error hbody]
      | ok r =>
        have hbody : taskNewBody t process { s with toPagingLayer := s.afterKzalloc 64 } =
            .ok (0, r.2) := by
          rw [taskNewBody, if_neg ht, bind_of_ok (modify_apply _ _), bind_of_ok hinit,
            if_neg (by decide), bind_of_ok happ, pure_apply]
        rw [bind_of_ok hbody, if_neg (by decide), pure_apply]

end Request

section New
variable {s s' : TaskState} {t process chunk : ℕ} {m : Memory}

theorem taskNew_ok (h : taskNew process s = .ok (t, s')) : ∃ chunk m,
    t ≠ 0 ∧ t = (s.heap.malloc 64).1 ∧ pagingNew4gb 5 (s.afterKzalloc 64) = .ok (chunk, m) ∧
      taskListAppend t (s.withNewTask m t chunk process) = .ok ((), s') := by
  rw [taskNew_eq, KernelHeap.ask_eq] at h
  split_ifs at h with ht
  cases hp : pagingNew4gb 5 (s.afterKzalloc 64) with
  | error e => simp [hp] at h
  | ok r =>
    obtain ⟨chunk, m⟩ := r
    simp only [hp] at h
    cases ha : taskListAppend (s.heap.malloc 64).1
        (s.withNewTask m (s.heap.malloc 64).1 chunk process) with
    | error e => simp [ha] at h
    | ok r =>
      simp only [ha] at h
      obtain ⟨rfl, rfl⟩ := ok_inj h
      exact ⟨chunk, m, ht, rfl, rfl, ha⟩

theorem taskListAppend_ok {σ : Type} [Requests σ] {s s' : TaskLayer σ}
    (h : taskListAppend t s = .ok ((), s')) :
    s'.toPagingLayer = s.toPagingLayer ∧ s'.kernelChunk = s.kernelChunk ∧ s'.ram = s.ram ∧
    (∀ u, (s'.tasks u).map (fun x => (x.pageDirectory, x.registers, x.process)) =
      (s.tasks u).map fun x => (x.pageDirectory, x.registers, x.process)) ∧
    ∀ u, u ≠ t → u ≠ s.taskTail → s'.tasks u = s.tasks u := by
  rw [taskListAppend, bind_of_ok (get_apply s)] at h
  split_ifs at h
  · rw [modify_apply] at h
    obtain ⟨-, rfl⟩ := ok_inj h
    exact ⟨rfl, rfl, rfl, fun _ => rfl, fun _ _ _ => rfl⟩
  · obtain ⟨u₁, s₁, h₁, h⟩ := bind_ok.mp h
    obtain ⟨-, x, hx, rfl⟩ := setTask_ok.mp h₁
    obtain ⟨u₂, s₂, h₂, h⟩ := bind_ok.mp h
    obtain ⟨-, y, hy, rfl⟩ := setTask_ok.mp h₂
    rw [modify_apply] at h
    obtain ⟨-, rfl⟩ := ok_inj h
    refine ⟨rfl, rfl, rfl, fun u => ?_, fun u hut hul => ?_⟩
    · have hy' : (s.tasks t).map (fun x => (x.pageDirectory, x.registers, x.process)) =
          some (y.pageDirectory, y.registers, y.process) := by
        by_cases htl : t = s.taskTail
        · rw [← htl, putTask_self] at hy
          rw [htl, hx, ← Option.some.inj hy]
          rfl
        · rw [putTask_of_ne htl] at hy
          rw [hy]
          rfl
      by_cases hut : u = t
      · subst hut
        simp only [putTask_self, Option.map_some]
        exact hy'.symm
      · by_cases hul : u = s.taskTail
        · subst hul
          simp only [putTask_of_ne hut, putTask_self, hx, Option.map_some]
        · simp only [putTask_of_ne hut, putTask_of_ne hul]
    · simp only [putTask_of_ne hut, putTask_of_ne hul]

theorem taskListAppend_current (h : taskListAppend t s = .ok ((), s')) :
    s'.currentTask = s.currentTask ∨ s'.currentTask = t := by
  rw [taskListAppend, bind_of_ok (get_apply s)] at h
  split_ifs at h
  · obtain ⟨-, rfl⟩ := ok_inj h
    exact Or.inr rfl
  · obtain ⟨u₁, s₁, h₁, h₂⟩ := bind_ok.mp h
    obtain ⟨-, x, -, rfl⟩ := setTask_ok.mp h₁
    obtain ⟨u₂, s₂, h₃, h₄⟩ := bind_ok.mp h₂
    obtain ⟨-, y, -, rfl⟩ := setTask_ok.mp h₃
    obtain ⟨-, rfl⟩ := ok_inj h₄
    exact Or.inl rfl

def Task.content (t : Task) : ℕ × Registers × ℕ := (t.pageDirectory, t.registers, t.process)

structure NewTask (A : Set ℕ) (process : ℕ) (s : TaskState) (t chunk : ℕ) (s' : TaskState) :
    Prop where
  nonzero : t ≠ 0
  fresh : t ∉ A
  space : NewSpace (A ∪ {t}) 5 (s.afterKzalloc 64) chunk s'.toPagingLayer
  content : ∀ u, (s'.tasks u).map Task.content =
    if u = t then some (chunk, initialRegisters, process) else (s.tasks u).map Task.content
  kernelChunk : s'.kernelChunk = s.kernelChunk
  ram : s'.ram = s.ram
  current : s'.currentTask = s.currentTask ∨ s'.currentTask = t

theorem taskNew_spec {A : Set ℕ} (hA : s.heap.Owns A) (h : taskNew process s = .ok (t, s')) :
    ∃ chunk, NewTask A process s t chunk s' := by
  obtain ⟨chunk, m, ht, htm, hpaging, happend⟩ := taskNew_ok h
  have hmalloc := @KernelHeap.malloc_spec s.heap 64 (by decide)
  rw [← htm] at hmalloc
  have hself := hmalloc.owns_first ht (by decide) (by decide)
  obtain ⟨hmem, hkernel, hram, hcontent, -⟩ := taskListAppend_ok happend
  have hcurrent := taskListAppend_current happend
  refine ⟨chunk, ht, hmalloc.fresh hA, ?_, fun u => ?_, hkernel, hram, hcurrent⟩
  · rw [hmem]
    exact pagingNew4gb_spec (by decide) ((hmalloc.owns hA).union hself) hpaging
  · refine (hcontent u).trans ?_
    split_ifs with hu
    · rw [hu, withNewTask_self]
      rfl
    · rw [withNewTask_of_ne hu]
      rfl

theorem NewTask.owned {A : Set ℕ} {chunk : ℕ} (h : NewTask A process s t chunk s') :
    s'.heap.Owns (A ∪ {t} ∪ s'.spaceFrames chunk) := h.space.owned.union h.space.space.owned

theorem NewTask.short {A : Set ℕ} {chunk : ℕ} (h : NewTask A process s t chunk s')
    (hs : s'.heap.short = false) : s.heap.short = false :=
  KernelHeap.malloc_short_mono rfl (h.space.short hs)

theorem NewTask.agree {A : Set ℕ} {chunk : ℕ} (h : NewTask A process s t chunk s') :
    PagingLayer.AgreeOn A s.toPagingLayer s'.toPagingLayer := fun p hp => h.space.agree p (Or.inl hp)

end New

def TaskLayer.unlinked (s : TaskState) (t : ℕ) (x : Task) : TaskState :=
  let head := if t = s.taskHead then x.next else s.taskHead
  { s with
    tasks := if x.prev = 0 then s.tasks else Function.update s.tasks x.prev
      ((s.tasks x.prev).map fun p => { p with next := x.next })
    taskHead := head
    taskTail := if t = s.taskTail then x.prev else s.taskTail
    currentTask :=
      if t = s.currentTask then if x.next = 0 then head else x.next else s.currentTask }

section Free
variable {s : TaskState} {t : ℕ} {x : Task}

theorem taskListRemove_eq (ht : t ≠ 0) (hx : s.tasks t = some x)
    (hprev : x.prev ≠ 0 → x.prev ≠ t ∧ ∃ p, s.tasks x.prev = some p) :
    taskListRemove t s = .ok ((), s.unlinked t x) := by
  -- the link of the task before, if there is one
  have hbefore : onlyIf (x.prev ≠ 0) (setTask x.prev fun p => { p with next := x.next }) s =
      .ok ((), { s with
        tasks := if x.prev = 0 then s.tasks else Function.update s.tasks x.prev
          ((s.tasks x.prev).map fun p => { p with next := x.next }) }) := by
    unfold onlyIf
    by_cases h0 : x.prev = 0
    · rw [if_neg (not_not.mpr h0), if_pos h0, pure_apply]
    · obtain ⟨-, p, hp⟩ := hprev h0
      rw [if_pos h0, if_neg h0, setTask_of_some h0 hp, hp]
      rfl
  have hx₁ : (if x.prev = 0 then s.tasks else Function.update s.tasks x.prev
      ((s.tasks x.prev).map fun p => { p with next := x.next })) t = some x := by
    by_cases h0 : x.prev = 0
    · rw [if_pos h0, hx]
    · rw [if_neg h0, Function.update_of_ne (hprev h0).1.symm, hx]
  rw [taskListRemove, bind_of_ok (taskAt_of_some ht hx), bind_of_ok hbefore,
    bind_of_ok (taskAt_of_some ht hx₁), bind_of_ok (modify_apply _ _),
    bind_of_ok (modify_apply _ _), bind_of_ok (get_apply _)]
  unfold unlinked
  generalize (if x.prev = 0 then s.tasks else Function.update s.tasks x.prev
      ((s.tasks x.prev).map fun p => { p with next := x.next })) = tasks at hx₁
  -- the state in which the current task is looked at
  set s₂ : TaskState := { s with
    tasks := tasks
    taskHead := if t = s.taskHead then x.next else s.taskHead
    taskTail := if t = s.taskTail then x.prev else s.taskTail } with hs₂
  have hcond : ∀ s₃ : TaskState, s₃ = s₂ → onlyIf (t = s₃.currentTask) (do
      let next ← taskGetNext
      Lib.Programs.modify fun s => { s with currentTask := next }) s₃ =
      .ok ((), { s₂ with
        currentTask := if t = s.currentTask then
          if x.next = 0 then if t = s.taskHead then x.next else s.taskHead else x.next
          else s.currentTask }) := by
    intro s₃ h₃
    subst h₃
    unfold onlyIf
    by_cases hc : t = s.currentTask
    · have hnext : taskGetNext s₂ = .ok (if x.next = 0 then s₂.taskHead else x.next, s₂) := by
        have hcur : s₂.currentTask = t := hc.symm
        rw [taskGetNext, bind_of_ok (get_apply s₂), hcur, bind_of_ok (taskAt_of_some ht hx₁)]
        split_ifs <;> rfl
      have hc₂ : t = s₂.currentTask := hc
      rw [if_pos hc₂, bind_of_ok hnext, modify_apply, if_pos hc]
    · have hc₂ : ¬t = s₂.currentTask := hc
      rw [if_neg hc₂, pure_apply, if_neg hc]
  apply hcond
  rw [hs₂]
  split_ifs <;> rfl

theorem taskFree_eq {A : Set ℕ} (ht : t ≠ 0) (hx : s.tasks t = some x)
    (hprev : x.prev ≠ 0 → x.prev ≠ t ∧ ∃ p, s.tasks x.prev = some p)
    (hs : s.AddressSpace x.pageDirectory) (hA : s.heap.Owns A)
    (hdis : Disjoint A (s.spaceFrames x.pageDirectory)) (htA : t ∉ A) (hal : t % 4096 = 0)
    (hlt : t < 4294967296) :
    ∃ k : KernelHeap, k.Owns A ∧ k.short = s.heap.short ∧ taskFree t s =
      .ok ((), TaskLayer.putTask t none
        { s.unlinked t x with toPagingLayer := { s.toPagingLayer with heap := k } }) := by
  obtain ⟨k, hfree, hk, hshort⟩ := pagingFree4gb_spec hs hA hdis
  refine ⟨k.free t, KernelHeap.free_owns hk hal hlt htA, hshort, ?_⟩
  have hremove : taskListRemove t { s with toPagingLayer := { s.toPagingLayer with heap := k } } =
      .ok ((), _) := taskListRemove_eq ht hx hprev
  rw [taskFree, bind_of_ok (taskAt_of_some ht hx), bind_of_ok (onMemory_of_ok hfree),
    bind_of_ok hremove]
  rfl

end Free

end Dexter
