import Dexter.Proc.LoadContract

/-!
# The kernel's directory (`sys/kernel.c`)

`start_paging` builds the directory that the kernel runs on. The kernel that has
started is the one the interrupts and the loads of this development begin with;
a program of one byte is loaded into it.
-/

namespace Dexter
open Lib.Programs KernelHeap TaskLayer

/-- `enable_paging` only sets a bit of the processor. -/
def startPaging : Prog Crash TaskState Unit := do
  let kernelChunk ← onMemory
    (pagingNew4gb (pagingIsWriteable ||| pagingIsPresent ||| pagingAccessFromAll))
  modify fun s => { s with kernelChunk := kernelChunk }
  onMemory (pagingSwitch kernelChunk)

section Start
variable {s s' : TaskState} {m m' : Memory} {chunk b : ℕ}

theorem startPaging_returns (hb : s.heap.Unused b) (hroom : b + 1026 ≤ kernelHeapBlocks) :
    ∃ m chunk, startPaging s = .ok ((), { s with toPagingLayer := m, kernelChunk := chunk }) ∧
      chunk ≠ 0 ∧ m.heap.Unused (b + 1026) ∧ m.heap.short = s.heap.short := by
  obtain ⟨chunk, m, hpaging, hrest, hshort⟩ := pagingNew4gb_returns 7 hb hroom
  have hc : chunk ≠ 0 :=
    (pagingNew4gb_spec (by decide) (KernelHeap.Owns.empty _) hpaging).space.chunk_ne
  have hnew : onMemory (pagingNew4gb
      (pagingIsWriteable ||| pagingIsPresent ||| pagingAccessFromAll)) s =
      .ok (chunk, { s with toPagingLayer := m }) := onMemory_of_ok hpaging
  have hswitch : onMemory (pagingSwitch chunk) { s with toPagingLayer := m, kernelChunk := chunk } =
      .ok ((), { s with
        toPagingLayer := { m with cr3 := m.chunks chunk, currentDirectory := m.chunks chunk }
        kernelChunk := chunk }) := onMemory_of_ok (pagingSwitch_ok.mpr ⟨hc, rfl⟩)
  refine ⟨{ m with cr3 := m.chunks chunk, currentDirectory := m.chunks chunk }, chunk, ?_, hc,
    hrest, hshort⟩
  rw [startPaging, bind_of_ok hnew, bind_of_ok (modify_apply _ _)]
  exact hswitch

end Start

structure Unloaded (s : KernelState) : Prop where
  tasks : ∀ t, s.tasks t = none
  list : s.taskHead = 0 ∧ s.taskTail = 0
  currentTask : s.currentTask = 0
  processes : ∀ i, s.processes i = 0
  currentProcess : s.currentProcess = 0

structure ProgramLoaded (s s' : KernelState) (p : ℕ) (x : Process) (task : Task) : Prop where
  unloaded : Unloaded s
  kernelChunk : s.kernelChunk ≠ 0 ∧ s'.kernelChunk = s.kernelChunk
  load : processLoad (LoadContract.givenFile [0xC3]) [0x78] s = .ok ((0, p), s')
  short : s'.heap.short = false
  current : s'.currentTask ≠ 0
  object : s'.processAt p = some x
  keyboard : x.keyboard = Process.zero.keyboard
  currentObject : s'.tasks s'.currentTask = some task
  owner : task.process = p
  space : task.pageDirectory ≠ 0
  image : LoadContract.SeesImage s' x task

theorem programLoaded_exists : ∃ s s' p x task, ProgramLoaded s s' p x task := by
  obtain ⟨m, chunk, hstart, hchunk, hunused, hshort⟩ := startPaging_returns
    (s := TaskRuns.bootTasks) kheapInit_unused (by decide)
  set s : KernelState := { bootKernel with toPagingLayer := m, kernelChunk := chunk } with hs
  have hslot : processGetFreeSlot s = (0 : ℕ) :=
    (by decide : processGetFreeSlot bootKernel = (0 : ℕ))
  obtain ⟨p, t, s', hload, -, hshort', hentered⟩ := @LoadContract.givenFile_loads [0xC3]
    [0x78] s _ [] 0 (by decide) hslot rfl (LoadContract.held_nil _)
    ⟨⟨rfl, rfl⟩, Or.inr ⟨rfl, rfl⟩⟩ hunused hshort (by decide) (by decide)
  have hcurrent := hentered.current
  have hspec := processLoad_spec (A := ∅) (c := True) ⟨Owns.empty _, fun _ => trivial⟩ hload
  cases hspec with
  | fails r p k table ram y slot object nonzero negative kept => exact absurd negative (lt_irrefl 0)
  | loads p slot t chunk' x s' free object nonzero new whole sized loaded =>
    have hcontent := loaded.content t
    rw [if_pos rfl] at hcontent
    obtain ⟨task, htask, hc⟩ := Option.map_eq_some_iff.mp hcontent
    obtain ⟨hspace, -, hprocess⟩ : task.pageDirectory = chunk' ∧
        task.registers = initialRegisters ∧ task.process = p := by
      simpa [Task.content] using hc
    have hplaced := loaded.placement hshort'
    rw [← hspace] at hplaced
    have ht : s'.currentTask = t := loaded.current.resolve_left hcurrent
    refine ⟨s, s', p, x, task, ⟨fun _ => rfl, ⟨rfl, rfl⟩, rfl, fun _ => rfl, rfl⟩,
      ⟨hchunk, loaded.kernelChunk⟩, hload, hshort', hcurrent, ?_, loaded.keyboard, ?_, hprocess,
      hplaced.mapped.space.chunk_ne, LoadContract.seesImage_of_placement hplaced⟩
    · rw [loaded.object, Function.update_self]
    · rw [ht, htask]

end Dexter
