import Dexter.Sys.Kernel

/-!
# Interrupts (`sys/idt.c`, `proc/commands.c`)

A handler runs on the kernel's directory: it loads it, saves the registers of the
current task, runs the command or the callback and loads the directory of the task
that is current then. `Handled` is what a command can do, `Returned` what a whole
system call does. A callback is code of the kernel that is not there yet; it is a
program that leaves the kernel's directory loaded.
-/

namespace Dexter
open Lib.Programs Lib.Runs Lib.TwoLevel KernelHeap TaskLayer
open KernelState (onTasks onTasks_ok)

def isr80hCommand0Sum (_ : InterruptFrame) : Prog Crash TaskState ℕ := do
  let s ← get
  let v2 ← taskGetStackItem s.currentTask 1
  let s ← get
  let v1 ← taskGetStackItem s.currentTask 0
  pure (u32 (i32 v1 + i32 v2))

def isr80hCommand1Print (_ : InterruptFrame) : Prog Crash TaskState ℕ := do
  let s ← get
  let userSpaceMsgBuf ← taskGetStackItem s.currentTask 0
  let s ← get
  let _ ← copyStringFromTask s.currentTask userSpaceMsgBuf 1024
  pure 0

def isr80hCommands : ℕ → Option (InterruptFrame → Prog Crash TaskState ℕ)
  | 0 => some isr80hCommand0Sum
  | 1 => some isr80hCommand1Print
  | _ => none

def isr80hHandleCommand (command : ℤ) (frame : InterruptFrame) : Prog Crash TaskState ℕ :=
  if command < 0 ∨ command ≥ dexterMaxIsr80hCommands then pure 0
  else
    match isr80hCommands command.toNat with
    | none => pure 0
    | some commandFunc => commandFunc frame

def isr80hHandler (command : ℤ) (frame : InterruptFrame) : Prog Crash KernelState ℕ := do
  onTasks kernelPage
  onTasks (taskCurrentSaveState frame)
  let r ← onTasks (isr80hHandleCommand command frame)
  onTasks taskPage
  pure r

structure KernelActive (d : ℕ) (s : TaskState) : Prop where
  kernel : s.chunks s.kernelChunk = d
  cr3 : s.cr3 = d
  directory : s.currentDirectory = d

def TaskActive (s : TaskState) : Prop :=
  ∃ x, s.currentTask ≠ 0 ∧ s.tasks s.currentTask = some x ∧ s.cr3 = s.chunks x.pageDirectory ∧
    s.currentDirectory = s.chunks x.pageDirectory

abbrev InterruptCallback := InterruptFrame → Prog Crash KernelState Unit

def interruptHandler (interruptCallbacks : Fin dexterTotalInterrupts → Option InterruptCallback)
    (interrupt : Fin dexterTotalInterrupts) (frame : InterruptFrame) :
    Prog Crash KernelState Unit := do
  onTasks kernelPage
  match interruptCallbacks interrupt with
  | none => onTasks taskPage
  | some callback => do
    onTasks (taskCurrentSaveState frame)
    callback frame
    onTasks taskPage

structure KernelCallback where
  run : InterruptCallback
  leaves : ∀ d frame, Triple (fun s => KernelActive d s.toTaskLayer) (run frame)
    fun _ s => KernelActive d s.toTaskLayer

section Switch
variable {s s' : TaskState} {t max virt : ℕ}

theorem readByte_ok {v : ℕ} {c : UInt8} :
    readByte v s = .ok (c, s') ↔ ∃ p, s.translate v = some p ∧ c = s.ram p ∧ s' = s := by
  rw [readByte, bind_of_ok (get_apply s)]
  cases s.translate v with
  | none => simp
  | some p => simp [eq_comm]

theorem writeByte_ok {v : ℕ} {c : UInt8} {u : Unit} : writeByte v c s = .ok (u, s') ↔
    ∃ p, s.translate v = some p ∧ s' = { s with ram := Function.update s.ram p c } := by
  rw [writeByte, bind_of_ok (get_apply s)]
  cases s.translate v with
  | none => simp
  | some p => simp [eq_comm]

theorem readByte_same {v : ℕ} {c : UInt8} (h : readByte v s = .ok (c, s')) : s' = s := by
  obtain ⟨p, -, -, hs'⟩ := readByte_ok.mp h
  exact hs'

theorem readUint32_same {v r : ℕ} (h : readUint32 v s = .ok (r, s')) : s' = s := by
  obtain ⟨b₀, s₀, h₀, hrest₀⟩ := bind_ok.mp h
  obtain ⟨b₁, s₁, h₁, hrest₁⟩ := bind_ok.mp hrest₀
  obtain ⟨b₂, s₂, h₂, hrest₂⟩ := bind_ok.mp hrest₁
  obtain ⟨b₃, s₃, h₃, hpure⟩ := bind_ok.mp hrest₂
  obtain ⟨-, rfl⟩ := ok_inj hpure
  rw [readByte_same h₃, readByte_same h₂, readByte_same h₁, readByte_same h₀]

theorem taskGetStackItem_ok {index r : ℕ} (h : taskGetStackItem t index s = .ok (r, s')) :
    s' = s.onKernel := by
  obtain ⟨x, s₁, htask, h₁⟩ := bind_ok.mp h
  obtain ⟨-, -, rfl⟩ := taskAt_ok.mp htask
  obtain ⟨u, s₂, hpage, h₂⟩ := bind_ok.mp h₁
  obtain ⟨-, y, -, -, rfl⟩ := taskPageTask_ok.mp hpage
  obtain ⟨v, s₃, hread, h₃⟩ := bind_ok.mp h₂
  obtain rfl := readUint32_same hread
  obtain ⟨w, s₄, hkernel, h₄⟩ := bind_ok.mp h₃
  obtain ⟨-, rfl⟩ := kernelPage_ok.mp hkernel
  exact (ok_inj h₄).2.symm

def nextByte (src i : ℕ) (ended : Bool) : Prog Crash TaskState UInt8 :=
  if ended then pure 0 else readByte (u32 (src + i))

theorem strncpy_succ (dest src k i : ℕ) (ended : Bool) : strncpy dest src (k + 1) i ended = (do
    let c ← nextByte src i ended
    writeByte (u32 (dest + i)) c
    strncpy dest src k (i + 1) (ended || c == 0)) := by
  cases ended with
  | true => rfl
  | false => rfl

theorem strncpySource_succ (src k i : ℕ) (ended : Bool) : strncpySource src (k + 1) i ended = (do
    let c ← nextByte src i ended
    let rest ← strncpySource src k (i + 1) (ended || c == 0)
    pure (c :: rest)) := by
  cases ended with
  | true => rfl
  | false => rfl

theorem nextByte_same {src i : ℕ} {ended : Bool} {c : UInt8}
    (h : nextByte src i ended s = .ok (c, s')) : s' = s := by
  unfold nextByte at h
  cases ended with
  | true => exact (ok_inj h).2.symm
  | false => exact readByte_same h

theorem strncpy_ok {dest src k i : ℕ} {ended : Bool} {u : Unit}
    (h : strncpy dest src k i ended s = .ok (u, s')) : ∃ ram, s' = { s with ram := ram } := by
  induction k generalizing i ended s with
  | zero => exact ⟨s.ram, (ok_inj h).2.symm⟩
  | succ k ih =>
    rw [strncpy_succ] at h
    obtain ⟨c, s₁, hread, h₁⟩ := bind_ok.mp h
    obtain ⟨v, s₂, hwrite, hrest⟩ := bind_ok.mp h₁
    obtain rfl := nextByte_same hread
    obtain ⟨p, -, rfl⟩ := writeByte_ok.mp hwrite
    obtain ⟨ram, rfl⟩ := ih hrest
    exact ⟨ram, rfl⟩

theorem strncpySource_same {src k i : ℕ} {ended : Bool} {bytes : List UInt8}
    (h : strncpySource src k i ended s = .ok (bytes, s')) : s' = s := by
  induction k generalizing i ended bytes s with
  | zero => exact (ok_inj h).2.symm
  | succ k ih =>
    rw [strncpySource_succ] at h
    obtain ⟨c, s₁, hread, h₁⟩ := bind_ok.mp h
    obtain ⟨rest, s₂, hrest, hpure⟩ := bind_ok.mp h₁
    obtain ⟨-, rfl⟩ := ok_inj hpure
    rw [ih hrest, nextByte_same hread]

theorem readWord_same {p i w : ℕ} {m m' : Memory} (h : PagingLayer.readWord p i m = .ok (w, m')) :
    m' = m := by
  rw [PagingLayer.readWord, bind_of_ok (get_apply m)] at h
  split_ifs at h
  · cases h
  · exact (ok_inj h).2.symm

theorem pagingGet_same {directory v w : ℕ} {m m' : Memory}
    (h : pagingGet directory v m = .ok (w, m')) : m' = m := by
  obtain ⟨entry, m₁, hread, hread'⟩ := bind_ok.mp h
  rw [readWord_same hread', readWord_same hread]

theorem directoryEntry_ok {chunk directory : ℕ} {m m' : Memory}
    (h : PagingLayer.directoryEntry chunk m = .ok (directory, m')) :
    directory = m.chunks chunk ∧ m' = m := by
  rw [PagingLayer.directoryEntry, bind_of_ok (get_apply m)] at h
  split_ifs at h
  · cases h
  · obtain ⟨hd, hm⟩ := ok_inj h
    exact ⟨hd.symm, hm.symm⟩

theorem pagingMap_restored {m m₁ m₂ : Memory} {chunk v old : ℕ} {r r' : ℤ} {cr3 directory : ℕ}
    (hget : pagingGet (m.chunks chunk) v m = .ok (old, m))
    (hmap : pagingMap chunk v v 7 m = .ok (r, m₁))
    (hset : pagingSet (m.chunks chunk) v old { m₁ with cr3 := cr3, currentDirectory := directory } =
      .ok (r', m₂))
    (hs : m.AddressSpace chunk) (hal : v % 4096 = 0) (hv : v < 4294967296) :
    r' = 0 ∧ m₂.pages = m.pages := by
  rw [pagingGet_eq hs hal hv] at hget
  rw [pagingMap_eq hs hal hv hal] at hmap
  obtain ⟨rfl, -⟩ := ok_inj hget
  obtain ⟨-, rfl⟩ := ok_inj hmap
  have hs₁ := (hs.withEntry hv (v ||| 7)).1
  have hs₂ : PagingLayer.AddressSpace { m.withEntry chunk v (v ||| 7) with
      cr3 := cr3
      currentDirectory := directory } chunk := ⟨hs₁.owned, hs₁.separated⟩
  have hback := (pagingSet_eq hs₂ hal hv (m.entryAt chunk v)).symm.trans hset
  obtain ⟨rfl, rfl⟩ := ok_inj hback
  exact ⟨rfl, hs.separated.store_back (pageCell_lt hv) _⟩

/-- What `copy_string_from_task` can do. The mapping of the buffer is taken back where the task's
address space is one. -/
inductive CopyString (s : TaskState) (t max : ℕ) : TaskState → Prop
  | early (k : KernelHeap) (heap : k = s.heap ∨ k = (s.heap.malloc max).2 ∧ (s.heap.malloc max).1 = 0) :
      CopyString s t max { s with heap := k }
  | late (x : Task) (pages : ℕ → ℕ → ℕ) (ram : ℕ → UInt8) (object : s.tasks t = some x)
      (nonzero : (s.heap.malloc max).1 ≠ 0)
      (restored : PagingLayer.AddressSpace { s.toPagingLayer with heap := (s.heap.malloc max).2 }
        x.pageDirectory → (s.heap.malloc max).1 % 4096 = 0 → (s.heap.malloc max).1 < 4294967296 →
        pages = s.pages) :
      CopyString s t max { s with
        heap := (s.heap.malloc max).2.free (s.heap.malloc max).1
        pages := pages
        cr3 := s.chunks s.kernelChunk
        currentDirectory := s.chunks s.kernelChunk
        ram := ram }

inductive CopyResult (s : TaskState) (tmp max : ℕ) (r : ℤ) : ℤ × Option (List UInt8) → Prop
  | unmapped (negative : r < 0) : CopyResult s tmp max r (-eIo, none)
  | copied (bytes : List UInt8) (returned : 0 ≤ r)
      (read : strncpySource tmp max 0 false s = .ok (bytes, s)) :
      CopyResult s tmp max r (r, some bytes)

theorem copyString_end {tmp : ℕ} {r : ℤ} {out : ℤ × Option (List UInt8)}
    (h : (if r < 0 then do
        onHeap (kfree tmp)
        pure (-eIo, none)
      else do
        let phys ← strncpySource tmp max 0 false
        onHeap (kfree tmp)
        pure (r, some phys) : Prog Crash TaskState (ℤ × Option (List UInt8))) s = .ok (out, s')) :
    s' = { s with heap := s.heap.free tmp } ∧ CopyResult s tmp max r out := by
  split_ifs at h with hr
  · obtain ⟨u, s₁, hfree, hpure⟩ := bind_ok.mp h
    obtain ⟨rfl, rfl⟩ := ok_inj hpure
    exact ⟨(ok_inj hfree).2.symm, .unmapped hr⟩
  · obtain ⟨bytes, s₁, hread, h₁⟩ := bind_ok.mp h
    obtain ⟨u, s₂, hfree, hpure⟩ := bind_ok.mp h₁
    obtain ⟨rfl, rfl⟩ := ok_inj hpure
    obtain rfl := strncpySource_same hread
    exact ⟨(ok_inj hfree).2.symm, .copied bytes (not_lt.mp hr) hread⟩

/-- The steps of a copy that has a buffer: its mapping is noted, changed and taken back around
the copy under the task's directory. -/
inductive CopySteps (s : TaskState) (t virt max : ℕ) (r : ℤ × Option (List UInt8)) :
    TaskState → Prop
  | steps (x : Task) (old : ℕ) (r₁ r₂ : ℤ) (m₁ m₂ : Memory) (ram : ℕ → UInt8)
      (object : s.tasks t = some x) (nonzero : (s.heap.malloc max).1 ≠ 0)
      (get : pagingGet (s.chunks x.pageDirectory) (s.heap.malloc max).1 (s.afterKzalloc max) =
        .ok (old, s.afterKzalloc max))
      (map : pagingMap x.pageDirectory (s.heap.malloc max).1 (s.heap.malloc max).1 7
        (s.afterKzalloc max) = .ok (r₁, m₁))
      (copy : strncpy (s.heap.malloc max).1 virt max 0 false
        (TaskLayer.onTask { s with
          toPagingLayer := m₁
          ram := cleared (s.heap.malloc max).1 max s.ram } x) =
          .ok ((), { TaskLayer.onTask { s with toPagingLayer := m₁ } x with ram := ram }))
      (set : pagingSet (s.chunks x.pageDirectory) (s.heap.malloc max).1 old
        (TaskLayer.onKernel { s with toPagingLayer := m₁ }).toPagingLayer = .ok (r₂, m₂))
      (result : CopyResult { s with toPagingLayer := m₂, ram := ram } (s.heap.malloc max).1 max r₂ r) :
      CopySteps s t virt max r { s with
        toPagingLayer := { m₂ with heap := m₂.heap.free (s.heap.malloc max).1 }
        ram := ram }

theorem copyStringFromTask_steps {r : ℤ × Option (List UInt8)}
    (h : copyStringFromTask t virt max s = .ok (r, s')) :
    (s' = s ∧ 4096 ≤ max) ∨
    ((s.heap.malloc max).1 = 0 ∧ s' = { s with heap := (s.heap.malloc max).2 } ∧
      r = (-eNoMem, none)) ∨
    CopySteps s t virt max r s' := by
  unfold copyStringFromTask at h
  by_cases hmax : max ≥ pagingPageSize
  · rw [if_pos hmax] at h
    obtain ⟨-, rfl⟩ := ok_inj h
    exact Or.inl ⟨rfl, hmax⟩
  rw [if_neg hmax] at h
  have halloc : onHeap (kzalloc max) s =
      .ok ((s.heap.malloc max).1, { s with toPagingLayer := s.afterKzalloc max }) := rfl
  rw [bind_of_ok halloc] at h
  by_cases h0 : (s.heap.malloc max).1 = 0
  · rw [if_pos h0] at h
    obtain ⟨rfl, rfl⟩ := ok_inj h
    exact Or.inr (Or.inl ⟨h0, rfl, rfl⟩)
  rw [if_neg h0, clearBlock, bind_of_ok (modify_apply _ _)] at h
  obtain ⟨x, s₁, htask, h₁⟩ := bind_ok.mp h
  obtain ⟨ht, hx, rfl⟩ := taskAt_ok.mp htask
  obtain ⟨d, s₂, hentry, h₂⟩ := bind_ok.mp h₁
  obtain ⟨m₂, hd, rfl⟩ := onMemory_ok.mp hentry
  obtain ⟨rfl, rfl⟩ := directoryEntry_ok hd
  obtain ⟨old, s₃, hold, h₃⟩ := bind_ok.mp h₂
  obtain ⟨m₃, hget, rfl⟩ := onMemory_ok.mp hold
  obtain rfl := pagingGet_same hget
  obtain ⟨r₁, s₄, hmapping, h₄⟩ := bind_ok.mp h₃
  obtain ⟨m₄, hmap, rfl⟩ := onMemory_ok.mp hmapping
  obtain ⟨u, s₅, hswitch, h₅⟩ := bind_ok.mp h₄
  obtain ⟨m₅, hcr3, rfl⟩ := onMemory_ok.mp hswitch
  obtain ⟨-, rfl⟩ := pagingSwitch_ok.mp hcr3
  obtain ⟨v, s₆, hcopy, h₆⟩ := bind_ok.mp h₅
  obtain ⟨ram, rfl⟩ := strncpy_ok hcopy
  obtain ⟨w, s₇, hkernel, h₇⟩ := bind_ok.mp h₆
  obtain ⟨-, rfl⟩ := kernelPage_ok.mp hkernel
  obtain ⟨r₂, s₈, hback, h₈⟩ := bind_ok.mp h₇
  obtain ⟨m₈, hset, rfl⟩ := onMemory_ok.mp hback
  obtain ⟨rfl, hresult⟩ := copyString_end h₈
  exact Or.inr (Or.inr (.steps x old r₁ r₂ m₄ m₈ ram hx h0 hget hmap hcopy hset hresult))

theorem copyStringFromTask_ok {r : ℤ × Option (List UInt8)}
    (h : copyStringFromTask t virt max s = .ok (r, s')) : CopyString s t max s' := by
  rcases copyStringFromTask_steps h with ⟨rfl, -⟩ | ⟨h0, rfl, -⟩ | hsteps
  · exact .early s'.heap (Or.inl rfl)
  · exact .early _ (Or.inr ⟨rfl, h0⟩)
  · obtain ⟨x, old, r₁, r₂, m₁, m₂, ram, hx, h0, hget, hmap, -, hset, -⟩ := hsteps
    have hrestored := fun hs hal hv => (pagingMap_restored hget hmap hset hs hal hv).2
    obtain ⟨pages₁, rfl⟩ := pagingMap_pages _ _ _ _ (SameButPages.refl _) hmap
    obtain ⟨pages, rfl⟩ := pagingSet_pages _ _ _ (SameButPages.refl _) hset
    exact .late x pages ram hx h0 hrestored

end Switch

section Syscall
variable {s s' : TaskState} {frame : InterruptFrame} {command : ℤ} {r : ℕ}

inductive Command (s : TaskState) : TaskState → Prop
  | ignored : Command s s
  | sums : Command s s.onKernel
  | prints (s' : TaskState) (copied : CopyString s.onKernel s.currentTask 1024 s') : Command s s'

theorem isr80hHandleCommand_ok (h : isr80hHandleCommand command frame s = .ok (r, s')) :
    Command s s' := by
  unfold isr80hHandleCommand isr80hCommands at h
  split_ifs at h with hrange
  · obtain ⟨-, rfl⟩ := ok_inj h
    exact .ignored
  match hcommand : command.toNat with
  | 0 =>
    rw [hcommand] at h
    obtain ⟨t, s₁, hget, h₁⟩ := bind_ok.mp h
    obtain ⟨rfl, rfl⟩ := ok_inj hget
    obtain ⟨v₂, s₂, hitem, h₂⟩ := bind_ok.mp h₁
    obtain rfl := taskGetStackItem_ok hitem
    rw [bind_of_ok (get_apply _)] at h₂
    obtain ⟨v₁, s₃, hitem', h₃⟩ := bind_ok.mp h₂
    obtain rfl := taskGetStackItem_ok hitem'
    obtain ⟨-, rfl⟩ := ok_inj h₃
    exact .sums
  | 1 =>
    rw [hcommand] at h
    obtain ⟨t, s₁, hget, h₁⟩ := bind_ok.mp h
    obtain ⟨rfl, rfl⟩ := ok_inj hget
    obtain ⟨buf, s₂, hitem, h₂⟩ := bind_ok.mp h₁
    obtain rfl := taskGetStackItem_ok hitem
    rw [bind_of_ok (get_apply _)] at h₂
    obtain ⟨out, s₃, hcopy, h₃⟩ := bind_ok.mp h₂
    obtain ⟨-, rfl⟩ := ok_inj h₃
    exact .prints _ (copyStringFromTask_ok hcopy)
  | n + 2 =>
    rw [hcommand] at h
    obtain ⟨-, rfl⟩ := ok_inj h
    exact .ignored

structure Unmoved (s s' : TaskState) : Prop where
  chunks : s'.chunks = s.chunks
  kernelChunk : s'.kernelChunk = s.kernelChunk
  currentTask : s'.currentTask = s.currentTask
  tasks : s'.tasks = s.tasks

theorem Command.unmoved (h : Command s s') : Unmoved s s' := by
  cases h with
  | ignored => exact ⟨rfl, rfl, rfl, rfl⟩
  | sums => exact ⟨rfl, rfl, rfl, rfl⟩
  | prints s' copied =>
    cases copied with
    | early k heap => exact ⟨rfl, rfl, rfl, rfl⟩
    | late x pages ram object nonzero restored => exact ⟨rfl, rfl, rfl, rfl⟩

theorem Command.short (h : Command s s') (hshort : s'.heap.short = false) :
    s.heap.short = false := by
  cases h with
  | ignored => exact hshort
  | sums => exact hshort
  | prints s' copied =>
    cases copied with
    | early k heap =>
      rcases heap with rfl | ⟨rfl, -⟩
      · exact hshort
      · exact malloc_short_mono rfl hshort
    | late x pages ram object nonzero restored => exact malloc_short_mono rfl hshort

/-- Where the current task has an address space, a command changes no page in the end, and the
frames of `A` stay owned. -/
theorem Command.memory {A : Set ℕ} {x : Task} (h : Command s s') (hx : s.tasks s.currentTask = some x)
    (hs : s.AddressSpace x.pageDirectory) (hA : s.heap.Owns A) : s'.pages = s.pages ∧ s'.heap.Owns A := by
  have hmalloc := @malloc_spec s.heap 1024 (by decide)
  have hhanded : Handed A True 1024 (s.heap.malloc 1024).1 (s.heap.malloc 1024).2 :=
    kzalloc_kept (by decide) ⟨hA, fun _ => trivial⟩ (step_apply _ _)
  cases h with
  | ignored => exact ⟨rfl, hA⟩
  | sums => exact ⟨rfl, hA⟩
  | prints s' copied =>
    cases copied with
    | early k heap =>
      rcases heap with rfl | ⟨rfl, -⟩
      · exact ⟨rfl, hA⟩
      · exact ⟨rfl, hmalloc.owns hA⟩
    | late y pages ram object nonzero restored =>
      obtain rfl := Option.some.inj (hx.symm.trans object)
      refine ⟨restored ⟨hmalloc.owns hs.owned, hs.separated⟩ hhanded.aligned hhanded.lt, ?_⟩
      exact free_owns (hmalloc.owns hA) hhanded.aligned hhanded.lt (hmalloc.fresh hA)

theorem Command.kernelActive {d : ℕ} (h : Command s s') (hs : KernelActive d s) :
    KernelActive d s' := by
  cases h with
  | ignored => exact hs
  | sums => exact ⟨hs.kernel, hs.kernel, hs.kernel⟩
  | prints s' copied =>
    cases copied with
    | early k heap => exact ⟨hs.kernel, hs.kernel, hs.kernel⟩
    | late x pages ram object nonzero restored => exact ⟨hs.kernel, hs.kernel, hs.kernel⟩

end Syscall

def TaskLayer.saved (s : TaskState) (x : Task) (frame : InterruptFrame) : TaskState :=
  s.onKernel.putTask s.currentTask (some { x with registers := frame.toRegisters })

def saveOnKernel (frame : InterruptFrame) : Prog Crash KernelState Unit := do
  onTasks kernelPage
  onTasks (taskCurrentSaveState frame)

def Syscall (s : KernelState) (frame : InterruptFrame) (s' : KernelState) : Prop :=
  ∃ x s₂, s.currentTask ≠ 0 ∧ s.tasks s.currentTask = some x ∧
    Command (s.toTaskLayer.saved x frame) s₂ ∧
    s' = { s with toTaskLayer := s₂.onTask { x with registers := frame.toRegisters } }

section Handlers
variable {s s' : KernelState} {frame : InterruptFrame} {command : ℤ} {r : ℕ}

theorem saveOnKernel_ok {u : Unit} : saveOnKernel frame s = .ok (u, s') ↔
    s.kernelChunk ≠ 0 ∧ s.currentTask ≠ 0 ∧ ∃ x, s.tasks s.currentTask = some x ∧
      s' = { s with toTaskLayer := s.toTaskLayer.saved x frame } := by
  rw [saveOnKernel, bind_ok]
  constructor
  · intro ⟨v, s₁, hkernel, hsave⟩
    obtain ⟨t, hpage, rfl⟩ := onTasks_ok.mp hkernel
    obtain ⟨hc, rfl⟩ := kernelPage_ok.mp hpage
    obtain ⟨t', hstate, rfl⟩ := onTasks_ok.mp hsave
    rw [taskCurrentSaveState, bind_of_ok (get_apply _)] at hstate
    split_ifs at hstate with h0
    · cases hstate
    · obtain ⟨ht, x, hx, rfl⟩ := setTask_ok.mp hstate
      exact ⟨hc, ht, x, hx, rfl⟩
  · intro ⟨hc, ht, x, hx, hs'⟩
    have hsave : taskCurrentSaveState frame s.onKernel = .ok ((), s.toTaskLayer.saved x frame) := by
      have hcurrent : ¬s.onKernel.currentTask = 0 := ht
      rw [taskCurrentSaveState, bind_of_ok (get_apply _), if_neg hcurrent]
      exact setTask_of_some ht hx
    refine ⟨(), { s with toTaskLayer := s.onKernel }, onTasks_ok.mpr ⟨_, kernelPage_ok.mpr ⟨hc, rfl⟩, rfl⟩, ?_⟩
    rw [hs']
    exact onTasks_ok.mpr ⟨_, hsave, rfl⟩

theorem isr80hHandler_eq (command : ℤ) (frame : InterruptFrame) :
    isr80hHandler command frame = (do
      saveOnKernel frame
      let r ← onTasks (isr80hHandleCommand command frame)
      onTasks taskPage
      pure r) := by
  rw [isr80hHandler, saveOnKernel, prog_bind_assoc]

theorem isr80hHandler_ok (h : isr80hHandler command frame s = .ok (r, s')) :
    Syscall s frame s' := by
  rw [isr80hHandler_eq] at h
  obtain ⟨u, s₁, hsave, h₁⟩ := bind_ok.mp h
  obtain ⟨-, ht, x, hx, rfl⟩ := saveOnKernel_ok.mp hsave
  obtain ⟨r₂, s₂, hcommand, h₂⟩ := bind_ok.mp h₁
  obtain ⟨t₂, hrun, rfl⟩ := onTasks_ok.mp hcommand
  have hspec := isr80hHandleCommand_ok hrun
  obtain ⟨v, s₃, hpage, h₃⟩ := bind_ok.mp h₂
  obtain ⟨t₃, hrun', rfl⟩ := onTasks_ok.mp hpage
  obtain ⟨-, y, hy, -, rfl⟩ := taskPage_ok.mp hrun'
  obtain ⟨-, rfl⟩ := ok_inj h₃
  refine ⟨x, t₂, ht, hx, hspec, ?_⟩
  have hmoved := hspec.unmoved
  have hself : (s.toTaskLayer.saved x frame).tasks s.currentTask =
      some { x with registers := frame.toRegisters } := putTask_self _ _ _
  have hy' : t₂.tasks t₂.currentTask = some y := hy
  rw [hmoved.currentTask, hmoved.tasks] at hy'
  obtain rfl := Option.some.inj (hself.symm.trans hy')
  rfl

end Handlers

/-- An interrupt, with the bytes of memory and the registers it finds. -/
inductive Event
  | isr80h (command : ℤ) (frame : InterruptFrame) (ram : ℕ → UInt8)
  | interrupt (interruptCallbacks : Fin dexterTotalInterrupts → Option KernelCallback)
      (number : Fin dexterTotalInterrupts) (frame : InterruptFrame) (ram : ℕ → UInt8)

namespace Event

def frame : Event → InterruptFrame
  | .isr80h _ frame _ => frame
  | .interrupt _ _ frame _ => frame

def arrive : Event → KernelState → KernelState
  | .isr80h _ _ ram, s => { s with ram := ram }
  | .interrupt _ _ _ ram, s => { s with ram := ram }

def handler : Event → Prog Crash KernelState Unit
  | .isr80h command frame _ => do
    let _ ← isr80hHandler command frame
    pure ()
  | .interrupt interruptCallbacks number frame _ =>
    interruptHandler (fun n => (interruptCallbacks n).map KernelCallback.run) number frame

def body : Event → Option (Prog Crash KernelState Unit)
  | .isr80h command frame _ => some do
    let _ ← onTasks (isr80hHandleCommand command frame)
    pure ()
  | .interrupt interruptCallbacks number frame _ =>
    (interruptCallbacks number).map fun callback => callback.run frame

theorem handler_of_body {e : Event} {body : Prog Crash KernelState Unit} (h : e.body = some body) :
    e.handler = (do
      saveOnKernel e.frame
      body
      onTasks taskPage) := by
  cases e with
  | isr80h command frame ram =>
    obtain rfl := Option.some.inj h
    rw [handler, isr80hHandler_eq]
    simp only [prog_bind_assoc, prog_pure_bind]
    congr 1
    funext u
    congr 1
    funext r
    exact prog_bind_pure _
  | interrupt interruptCallbacks number frame ram =>
    obtain ⟨callback, hcallback, rfl⟩ := Option.map_eq_some_iff.mp h
    simp only [handler, interruptHandler, hcallback, Option.map_some, saveOnKernel, prog_bind_assoc]
    rfl

theorem handler_of_none {e : Event} (h : e.body = none) : e.handler = (do
    onTasks kernelPage
    onTasks taskPage) := by
  cases e with
  | isr80h command frame ram => cases h
  | interrupt interruptCallbacks number frame ram =>
    have hnone : interruptCallbacks number = none := Option.map_eq_none_iff.mp h
    simp only [handler, interruptHandler, hnone, Option.map_none]

def step (s : KernelState) (e : Event) : Option KernelState :=
  if s.currentTask = 0 then none
  else
    match e.handler (e.arrive s) with
    | .ok (_, s') => some s'
    | .error _ => none

end Event

/-- Of an interrupt that arrives in `s`: its handler is the body between the saving of the registers
and `task_page`, the body starts and ends on the kernel's directory `d`, and the handler returns on
the directory of the current task. -/
structure RightDirectory (d : ℕ) (s : KernelState) (e : Event) : Prop where
  runs : ∀ body, e.body = some body → e.handler = (do
    saveOnKernel e.frame
    body
    onTasks taskPage)
  skips : e.body = none → e.handler = (do
    onTasks kernelPage
    onTasks taskPage)
  starts : ∀ s₁, e.body ≠ none → saveOnKernel e.frame (e.arrive s) = .ok ((), s₁) →
    KernelActive d s₁.toTaskLayer
  ends : ∀ body s₁ s₂, e.body = some body → saveOnKernel e.frame (e.arrive s) = .ok ((), s₁) →
    body s₁ = .ok ((), s₂) → KernelActive d s₂.toTaskLayer
  returns : ∀ s', e.handler (e.arrive s) = .ok ((), s') → TaskActive s'.toTaskLayer

section Directory
variable {s s' : KernelState} {e : Event} {d : ℕ}

theorem saveOnKernel_active {frame : InterruptFrame} {u : Unit}
    (hd : s.chunks s.kernelChunk = d) (h : saveOnKernel frame s = .ok (u, s')) :
    KernelActive d s'.toTaskLayer := by
  obtain ⟨-, -, x, -, rfl⟩ := saveOnKernel_ok.mp h
  exact ⟨hd, hd, hd⟩

theorem taskPage_active {u : Unit} (h : onTasks taskPage s = .ok (u, s')) :
    TaskActive s'.toTaskLayer ∧ s'.chunks s'.kernelChunk = s.chunks s.kernelChunk := by
  obtain ⟨t, hpage, rfl⟩ := onTasks_ok.mp h
  obtain ⟨ht, x, hx, -, rfl⟩ := taskPage_ok.mp hpage
  exact ⟨⟨x, ht, hx, rfl, rfl⟩, rfl⟩

theorem body_active {body : Prog Crash KernelState Unit} (hbody : e.body = some body)
    (hs : KernelActive d s.toTaskLayer) (h : body s = .ok ((), s')) :
    KernelActive d s'.toTaskLayer := by
  cases e with
  | isr80h command frame ram =>
    obtain rfl := Option.some.inj hbody
    obtain ⟨r, s₁, hcommand, hpure⟩ := bind_ok.mp h
    obtain ⟨t, hrun, rfl⟩ := onTasks_ok.mp hcommand
    obtain ⟨-, rfl⟩ := ok_inj hpure
    exact (isr80hHandleCommand_ok hrun).kernelActive hs
  | interrupt interruptCallbacks number frame ram =>
    obtain ⟨callback, -, rfl⟩ := Option.map_eq_some_iff.mp hbody
    exact callback.leaves d frame hs h

theorem handler_active (hd : s.chunks s.kernelChunk = d) (h : e.handler s = .ok ((), s')) :
    TaskActive s'.toTaskLayer ∧ s'.chunks s'.kernelChunk = d := by
  cases hbody : e.body with
  | some body =>
    rw [Event.handler_of_body hbody] at h
    obtain ⟨u, s₁, hsave, h₁⟩ := bind_ok.mp h
    obtain ⟨v, s₂, hrun, hpage⟩ := bind_ok.mp h₁
    have hactive := body_active hbody (saveOnKernel_active hd hsave) hrun
    obtain ⟨htask, hkernel⟩ := taskPage_active hpage
    exact ⟨htask, hkernel.trans hactive.kernel⟩
  | none =>
    rw [Event.handler_of_none hbody] at h
    obtain ⟨u, s₁, hkernel, hpage⟩ := bind_ok.mp h
    obtain ⟨t, hrun, rfl⟩ := onTasks_ok.mp hkernel
    obtain ⟨-, rfl⟩ := kernelPage_ok.mp hrun
    obtain ⟨htask, hkept⟩ := taskPage_active hpage
    exact ⟨htask, hkept.trans hd⟩

theorem arrive_kernel (e : Event) (s : KernelState) :
    (e.arrive s).chunks (e.arrive s).kernelChunk = s.chunks s.kernelChunk := by
  cases e with
  | isr80h command frame ram => rfl
  | interrupt interruptCallbacks number frame ram => rfl

theorem rightDirectory_of_kernel (e : Event) (hd : s.chunks s.kernelChunk = d) :
    RightDirectory d s e := by
  have harrive := (arrive_kernel e s).trans hd
  constructor
  · exact fun body hbody => Event.handler_of_body hbody
  · exact fun hbody => Event.handler_of_none hbody
  · exact fun s₁ _ hsave => saveOnKernel_active harrive hsave
  · exact fun body s₁ s₂ hbody hsave hrun =>
      body_active hbody (saveOnKernel_active harrive hsave) hrun
  · exact fun s' h => (handler_active harrive h).1

theorem step_kernel (h : Event.step s e = some s') (hd : s.chunks s.kernelChunk = d) :
    s'.chunks s'.kernelChunk = d := by
  unfold Event.step at h
  split_ifs at h with h0
  cases hrun : e.handler (e.arrive s) with
  | error c => simp [hrun] at h
  | ok r =>
    rw [hrun] at h
    obtain rfl := Option.some.inj h
    exact (handler_active ((arrive_kernel e s).trans hd) hrun).2

/-- In every sequence of interrupts that arrive while a task is current, each command and callback
starts and ends on the kernel's directory, and each handler returns on the directory of the
current task. -/
theorem right_directory {events : List Event} (h : exec Event.step s events = some s')
    (e : Event) : RightDirectory (s.chunks s.kernelChunk) s' e := by
  have hkernel : s'.chunks s'.kernelChunk = s.chunks s.kernelChunk :=
    exec_invariant (I := fun t => t.chunks t.kernelChunk = s.chunks s.kernelChunk)
      (fun t e t' ht hstep => step_kernel hstep ht) rfl h
  exact rightDirectory_of_kernel e hkernel

end Directory

section Returns
variable {s : TaskState} {x : Task} {t v : ℕ}

theorem readByte_returns (h : s.translate v ≠ none) : ∃ c, readByte v s = .ok (c, s) := by
  obtain ⟨p, hp⟩ := Option.ne_none_iff_exists'.mp h
  exact ⟨s.ram p, readByte_ok.mpr ⟨p, hp, rfl, rfl⟩⟩

theorem readUint32_returns (hv : v + 4 ≤ 4294967296)
    (h : ∀ w, v ≤ w → w < v + 4 → s.translate w ≠ none) : ∃ r, readUint32 v s = .ok (r, s) := by
  have haddress : ∀ j : ℕ, j < 4 → u32 ((v : ℤ) + j) = v + j := by
    intro j hj
    exact_mod_cast u32_natCast (x := v + j) (by omega)
  have hbyte : ∀ j : ℕ, j < 4 → ∃ c, readByte (u32 ((v : ℤ) + j)) s = .ok (c, s) := by
    intro j hj
    rw [haddress j hj]
    exact readByte_returns (h _ (by omega) (by omega))
  obtain ⟨b₀, hb₀⟩ := readByte_returns (h v le_rfl (by omega))
  obtain ⟨b₁, hb₁⟩ := hbyte 1 (by decide)
  obtain ⟨b₂, hb₂⟩ := hbyte 2 (by decide)
  obtain ⟨b₃, hb₃⟩ := hbyte 3 (by decide)
  rw [readUint32, bind_of_ok hb₀]
  exact ⟨_, (bind_of_ok hb₁ _).trans ((bind_of_ok hb₂ _).trans (bind_of_ok hb₃ _))⟩

theorem taskGetStackItem_returns {index : ℕ} (ht : t ≠ 0) (hx : s.tasks t = some x)
    (hc : x.pageDirectory ≠ 0) (hk : s.kernelChunk ≠ 0)
    (hv : x.registers.esp + 4 * index + 4 ≤ 4294967296)
    (h : ∀ w, x.registers.esp + 4 * index ≤ w → w < x.registers.esp + 4 * index + 4 →
      (s.onTask x).translate w ≠ none) :
    ∃ r, taskGetStackItem t index s = .ok (r, s.onKernel) := by
  have haddress : u32 ((x.registers.esp : ℤ) + 4 * index) = x.registers.esp + 4 * index := by
    exact_mod_cast u32_natCast (x := x.registers.esp + 4 * index) (by omega)
  obtain ⟨r, hr⟩ := readUint32_returns hv h
  have hkernel : kernelPage (s.onTask x) = .ok ((), s.onKernel) := kernelPage_ok.mpr ⟨hk, rfl⟩
  refine ⟨r, ?_⟩
  rw [taskGetStackItem, bind_of_ok (taskAt_of_some ht hx),
    bind_of_ok (taskPageTask_ok (u := ()).mpr ⟨ht, x, hx, hc, rfl⟩), haddress, bind_of_ok hr,
    bind_of_ok hkernel, pure_apply]

structure ReadableStack (s : KernelState) (x : Task) (frame : InterruptFrame) : Prop where
  current : s.currentTask ≠ 0
  object : s.tasks s.currentTask = some x
  space : x.pageDirectory ≠ 0
  kernel : s.kernelChunk ≠ 0
  range : frame.esp + 8 ≤ 4294967296
  mapped : ∀ w, frame.esp ≤ w → w < frame.esp + 8 → (s.toTaskLayer.onTask x).translate w ≠ none

def KernelState.served (s : KernelState) (x : Task) (frame : InterruptFrame) : KernelState :=
  { s with
    toTaskLayer := (s.toTaskLayer.saved x frame).onTask { x with registers := frame.toRegisters } }

namespace ReadableStack
variable {s : KernelState} {frame : InterruptFrame}

theorem item (h : ReadableStack s x frame) {index : ℕ} (hindex : index < 2) :
    ∃ r, taskGetStackItem s.currentTask index (s.toTaskLayer.saved x frame) =
      .ok (r, s.toTaskLayer.saved x frame) := by
  have hx : (s.toTaskLayer.saved x frame).tasks s.currentTask =
      some { x with registers := frame.toRegisters } := putTask_self _ _ _
  have hrange := h.range
  apply taskGetStackItem_returns h.current hx h.space h.kernel
  · show frame.esp + 4 * index + 4 ≤ 4294967296
    omega
  · intro w (hw : frame.esp + 4 * index ≤ w) (hw' : w < frame.esp + 4 * index + 4)
    exact h.mapped w (by omega) (by omega)

theorem save (h : ReadableStack s x frame) :
    saveOnKernel frame s = .ok ((), { s with toTaskLayer := s.toTaskLayer.saved x frame }) :=
  saveOnKernel_ok.mpr ⟨h.kernel, h.current, x, h.object, rfl⟩

theorem page (h : ReadableStack s x frame) :
    onTasks taskPage { s with toTaskLayer := s.toTaskLayer.saved x frame } =
      .ok ((), s.served x frame) :=
  onTasks_ok.mpr ⟨_, taskPage_ok.mpr ⟨h.current, _, putTask_self _ _ _, h.space, rfl⟩, rfl⟩

theorem sum (h : ReadableStack s x frame) :
    ∃ r, isr80hHandler 0 frame s = .ok (r, s.served x frame) := by
  obtain ⟨v₁, hv₁⟩ := h.item (by decide : 0 < 2)
  obtain ⟨v₂, hv₂⟩ := h.item (by decide : 1 < 2)
  set t := s.toTaskLayer.saved x frame with ht
  have hcommand : isr80hHandleCommand 0 frame t = .ok (u32 (i32 v₁ + i32 v₂), t) := by
    show isr80hCommand0Sum frame t = _
    rw [isr80hCommand0Sum, bind_of_ok (get_apply t)]
    exact (bind_of_ok hv₂ _).trans ((bind_of_ok (get_apply t) _).trans ((bind_of_ok hv₁ _).trans rfl))
  have hrun : onTasks (isr80hHandleCommand 0 frame) { s with toTaskLayer := t } = .ok (_, _) :=
    onTasks_ok.mpr ⟨t, hcommand, rfl⟩
  rw [isr80hHandler_eq, bind_of_ok h.save, bind_of_ok hrun, bind_of_ok h.page, pure_apply]
  exact ⟨_, rfl⟩

theorem served (h : ReadableStack s x frame) :
    ReadableStack (s.served x frame) { x with registers := frame.toRegisters } frame :=
  ⟨h.current, putTask_self _ _ _, h.space, h.kernel, h.range, h.mapped⟩

end ReadableStack

def stackCallback : KernelCallback where
  run _ := onTasks do
    let s ← get
    let _ ← taskGetStackItem s.currentTask 0
    pure ()
  leaves d frame := by
    intro s u s' hs h
    obtain ⟨t, hrun, rfl⟩ := onTasks_ok.mp h
    obtain ⟨t₀, s₀, hget, hitem⟩ := bind_ok.mp hrun
    obtain ⟨rfl, rfl⟩ := ok_inj hget
    obtain ⟨r, s₁, hread, hpure⟩ := bind_ok.mp hitem
    obtain rfl := taskGetStackItem_ok hread
    obtain ⟨-, rfl⟩ := ok_inj hpure
    exact ⟨hs.kernel, hs.kernel, hs.kernel⟩

def timerEvent (frame : InterruptFrame) (ram : ℕ → UInt8) : Event :=
  .interrupt (Function.update (fun _ => none) 0x20 (some stackCallback)) 0x20 frame ram

theorem timerEvent_body (frame : InterruptFrame) (ram : ℕ → UInt8) :
    (timerEvent frame ram).body = some (stackCallback.run frame) := by
  rw [timerEvent, Event.body, Function.update_self, Option.map_some]

theorem ReadableStack.timer {s : KernelState} {frame : InterruptFrame}
    (h : ReadableStack s x frame) (ram : ℕ → UInt8) :
    (timerEvent frame ram).handler s = .ok ((), s.served x frame) := by
  obtain ⟨r, hr⟩ := h.item (by decide : 0 < 2)
  have hrun : stackCallback.run frame { s with toTaskLayer := s.toTaskLayer.saved x frame } =
      .ok ((), { s with toTaskLayer := s.toTaskLayer.saved x frame }) :=
    onTasks_ok.mpr ⟨_, (bind_of_ok (get_apply _) _).trans (bind_of_ok hr _), rfl⟩
  rw [Event.handler_of_body (timerEvent_body frame ram)]
  exact (bind_of_ok h.save _).trans ((bind_of_ok hrun _).trans h.page)

def bottomFrame : InterruptFrame :=
  { Registers.zero with esp := dexterProgramVirtualStackAddressEnd, reserved := 0 }

theorem programLoaded_stack {s₀ s : KernelState} {p : ℕ} {x : Process} {task : Task}
    (h : ProgramLoaded s₀ s p x task) : ReadableStack s task bottomFrame := by
  have hkernel : s.kernelChunk ≠ 0 := fun h0 => h.kernelChunk.1 (h.kernelChunk.2 ▸ h0)
  refine ⟨h.current, h.currentObject, h.space, hkernel, by decide, ?_⟩
  intro w hw hw'
  have hesp : bottomFrame.esp = 0x3FB000 := rfl
  have hshows := h.image.stack (w - dexterProgramVirtualStackAddressEnd) (by
    show w - 0x3FB000 < 16384
    omega)
  have haddress : dexterProgramVirtualStackAddressEnd + (w - dexterProgramVirtualStackAddressEnd) =
      w := Nat.add_sub_cancel' hw
  rw [haddress] at hshows
  exact fun hnone => Option.some_ne_none _ (hshows.translates.symm.trans hnone)

end Returns

theorem right_directory_sample : ∃ s s' s'' : KernelState,
    exec Event.step s [.isr80h 0 bottomFrame s.ram, timerEvent bottomFrame s.ram] = some s' ∧
      (timerEvent bottomFrame s'.ram).handler s' = .ok ((), s'') ∧
      RightDirectory (s.chunks s.kernelChunk) s' (timerEvent bottomFrame s'.ram) := by
  obtain ⟨s₀, s, p, x, task, hloaded⟩ := programLoaded_exists
  have hstack := programLoaded_stack hloaded
  obtain ⟨r, hrun⟩ := hstack.sum
  have hcall : Event.step s (.isr80h 0 bottomFrame s.ram) = some (s.served task bottomFrame) := by
    have hhandler : Event.handler (.isr80h 0 bottomFrame s.ram) s =
        .ok ((), s.served task bottomFrame) := by
      rw [Event.handler, bind_of_ok hrun, pure_apply]
    have harrive : Event.arrive (.isr80h 0 bottomFrame s.ram) s = s := rfl
    rw [Event.step, if_neg hloaded.current, harrive, hhandler]
  set s₁ := s.served task bottomFrame with hs₁
  set task₁ : Task := { task with registers := bottomFrame.toRegisters } with htask₁
  have htimer : Event.step s₁ (timerEvent bottomFrame s.ram) =
      some (s₁.served task₁ bottomFrame) := by
    have harrive : (timerEvent bottomFrame s.ram).arrive s₁ = s₁ := rfl
    rw [Event.step, if_neg hstack.served.current, harrive, hstack.served.timer s.ram]
  have hexec : exec Event.step s [.isr80h 0 bottomFrame s.ram, timerEvent bottomFrame s.ram] =
      some (s₁.served task₁ bottomFrame) := by
    rw [exec, hcall, Option.bind_some, exec, htimer]
    rfl
  exact ⟨s, _, _, hexec, hstack.served.served.timer _, right_directory hexec _⟩

end Dexter
