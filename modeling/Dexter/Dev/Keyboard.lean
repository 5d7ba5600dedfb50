import Dexter.Proc.ProcessRuns

/-!
# The keyboard buffer (`dev/keyboard.c`)

`keyboard_push` writes to the buffer of `process_current()`, `keyboard_pop` reads the
one of `task_current()->process`. Nothing in the kernel writes `current_process`, so
it stays null and what is pushed is dropped, whatever task is running.
-/

namespace Dexter.Keyboard
open Lib.Programs Lib.Runs KernelHeap KernelState ProcessRuns

@[simp] abbrev dexterKeyboardBufferSize : ℕ := 1024

/-- The index is taken of an unsigned word: `sizeof` is one. -/
def keyboardGetTailIndex (process : Process) : ℕ :=
  u32 process.keyboard.tail % dexterKeyboardBufferSize

def keyboardGetHeadIndex (process : Process) : ℕ :=
  u32 process.keyboard.head % dexterKeyboardBufferSize

def pushed (c : UInt8) (x : Process) : Process :=
  { x with
    keyboard := { x.keyboard with
      buffer := Function.update x.keyboard.buffer (keyboardGetTailIndex x) c
      tail := i32 (x.keyboard.tail + 1) } }

def popped (x : Process) : Process :=
  { x with
    keyboard := { x.keyboard with
      buffer := Function.update x.keyboard.buffer (keyboardGetHeadIndex x) 0
      head := i32 (x.keyboard.head + 1) } }

def backspaced (x : Process) : Process :=
  let y := { x with keyboard := { x.keyboard with tail := i32 (x.keyboard.tail - 1) } }
  { y with
    keyboard := { y.keyboard with
      buffer := Function.update y.keyboard.buffer (keyboardGetTailIndex y) 0 } }

def keyboardBackspace (process : ℕ) : Prog Crash KernelState Unit :=
  setProcess process backspaced

def keyboardPush (c : UInt8) : Prog Crash KernelState Unit := do
  let process ← processCurrent
  if process = 0 then pure () else setProcess process (pushed c)

def keyboardPop : Prog Crash KernelState UInt8 := do
  let s ← get
  if s.currentTask = 0 then pure 0
  else do
    let task ← onTasks (TaskLayer.taskAt s.currentTask)
    let x ← getProcess task.process
    let c := x.keyboard.buffer (keyboardGetHeadIndex x)
    if c = 0 then pure 0
    else do
      setProcess task.process popped
      pure c

def PopsFrom (s : KernelState) (x : Process) : Prop :=
  ∃ a, s.tasks s.currentTask = some a ∧ s.processAt a.process = some x

def Appends (s : KernelState) (c : UInt8) : Prop :=
  ∃ a x, s.tasks s.currentTask = some a ∧ s.processAt a.process = some x ∧
    keyboardPush c s = .ok ((), s.putProcess a.process (pushed c x))

def BufferEmpty (x : Process) : Prop :=
  (∀ i, x.keyboard.buffer i = 0) ∧ x.keyboard.head = x.keyboard.tail

def PopsNext (s : KernelState) (c : UInt8) : Prop :=
  ∃ s₁ s₂, keyboardPush c s = .ok ((), s₁) ∧ keyboardPop s₁ = .ok (c, s₂)

structure Unplugged (s : KernelState) : Prop where
  currentProcess : s.currentProcess = 0
  owner : ∀ t a, s.tasks t = some a → a.process ≠ 0 ∧ ∃ x, s.processAt a.process = some x
  current : s.currentTask ≠ 0 → ∃ a, s.tasks s.currentTask = some a

section Step
variable {s s' : KernelState} {files : FileLayer} {filename : CString} {out : ℤ × ℕ}

theorem processAt_put {p q : ℕ} {y : Process} (h : ∃ x, s.processAt q = some x) :
    ∃ x, (s.putProcess p y).processAt q = some x := by
  by_cases hq : q = p
  · exact ⟨y, hq ▸ putProcess_self s p y⟩
  · rw [putProcess_of_ne hq]
    exact h

theorem load_unplugged (h : Unplugged s) (hload : processLoad files filename s = .ok (out, s')) :
    Unplugged s' := by
  have hspec := processLoad_spec (A := ∅) (c := True) ⟨Owns.empty _, fun _ => trivial⟩ hload
  cases hspec with
  | noSlot none => exact h
  | noProcess slot full => exact ⟨h.currentProcess, h.owner, h.current⟩
  | fails r p k table ram y slot object nonzero negative kept =>
    exact ⟨h.currentProcess, fun t a ha => ⟨(h.owner t a ha).1, processAt_put (h.owner t a ha).2⟩,
      h.current⟩
  | loads p slot t chunk y s' free object nonzero new whole sized loaded =>
    have hcontent : ∀ u, (s'.tasks u).map Task.content =
        if u = t then some (chunk, initialRegisters, p) else (s.tasks u).map Task.content :=
      loaded.content
    refine ⟨loaded.process.trans h.currentProcess, fun u a ha => ?_, fun hcurrent => ?_⟩
    · have hu := hcontent u
      rw [ha, Option.map_some] at hu
      rw [loaded.object]
      split_ifs at hu with hut
      · have hp : a.process = p := (Prod.mk.inj (Prod.mk.inj (Option.some.inj hu)).2).2
        rw [hp]
        exact ⟨nonzero, y, Function.update_self _ _ _⟩
      · obtain ⟨b, hb, hab⟩ := Option.map_eq_some_iff.mp hu.symm
        have hp : a.process = b.process := by
          simp only [Task.content, Prod.mk.injEq] at hab
          exact hab.2.2.symm
        rw [hp]
        exact ⟨(h.owner u b hb).1, processAt_put (processAt_put (h.owner u b hb).2)⟩
    · have htask : s'.currentTask = t ∨ s.tasks s'.currentTask ≠ none := by
        rcases loaded.current with hc | hc
        · obtain ⟨b, hb⟩ := h.current (hc ▸ hcurrent)
          have hsame : s'.currentTask = s.currentTask := hc
          exact Or.inr (by simp [hsame, hb])
        · exact Or.inl hc
      have hmap := hcontent s'.currentTask
      cases ha : s'.tasks s'.currentTask with
      | some a => exact ⟨a, rfl⟩
      | none =>
        rw [ha] at hmap
        split_ifs at hmap with ht
        · cases hmap
        · exact absurd (Option.map_eq_none_iff.mp hmap.symm) (htask.resolve_left ht)

theorem Unplugged.of_identity (h : Unplugged s) (hprocess : s'.currentProcess = s.currentProcess)
    (hobjects : s'.processAt = s.processAt)
    (htasks : ∀ t, (s'.tasks t).map identity = (s.tasks t).map identity)
    (hcurrent : s.tasks s'.currentTask ≠ none) : Unplugged s' := by
  refine ⟨hprocess.trans h.currentProcess, fun t a ha => ?_, fun _ => ?_⟩
  · have hmap := htasks t
    rw [ha, Option.map_some] at hmap
    obtain ⟨b, hb, hab⟩ := Option.map_eq_some_iff.mp hmap.symm
    have hp : b.process = a.process := (Prod.mk.inj hab).2
    rw [hobjects, ← hp]
    exact h.owner t b hb
  · have hmap := htasks s'.currentTask
    cases ha : s'.tasks s'.currentTask with
    | some a => exact ⟨a, rfl⟩
    | none =>
      rw [ha] at hmap
      exact absurd (Option.map_eq_none_iff.mp hmap.symm) hcurrent

theorem step_unplugged {op : Op} (h : Unplugged s) (hstep : step s op = some s') :
    Unplugged s' := by
  cases op with
  | load files filename =>
    obtain ⟨out, hload⟩ := step_load.mp hstep
    exact load_unplugged h hload
  | switch task =>
    obtain ⟨u, hrun⟩ := step_switch.mp hstep
    obtain ⟨-, x, hx, rfl⟩ := switch_ok hrun
    refine h.of_identity ?_ ?_ ?_ ?_
    · rfl
    · rfl
    · exact fun _ => rfl
    · exact fun hnone => Option.some_ne_none x (hx.symm.trans hnone)
  | syscall command frame ram =>
    obtain ⟨r, hrun⟩ := step_syscall.mp hstep
    obtain ⟨x, s₂, -, hx, hcommand, rfl⟩ := isr80hHandler_ok hrun
    have hmoved := hcommand.unmoved
    refine h.of_identity ?_ ?_ ?_ ?_
    · rfl
    · rfl
    · intro t
      show (s₂.tasks t).map identity = _
      rw [hmoved.tasks]
      exact saved_identity (s := { s with ram := ram }) hx t
    · show s.tasks s₂.currentTask ≠ none
      rw [hmoved.currentTask]
      exact fun hnone => Option.some_ne_none x (hx.symm.trans hnone)

theorem run_unplugged {s₀ : KernelState} {ops : List Op} (h₀ : Unloaded s₀)
    (h : exec step s₀ ops = some s) : Unplugged s := by
  apply exec_invariant (I := Unplugged) (fun _ _ _ hs hstep => step_unplugged hs hstep) ?_ h
  refine ⟨h₀.currentProcess, fun t a ha => ?_, fun hc => absurd h₀.currentTask hc⟩
  rw [h₀.tasks t] at ha
  cases ha

end Step

section Push
variable {s : KernelState} {c : UInt8}

theorem push_drops (h : s.currentProcess = 0) (c : UInt8) : keyboardPush c s = .ok ((), s) := by
  have hprocess : processCurrent s = .ok (0, s) := by
    rw [processCurrent, bind_of_ok (get_apply s), h, pure_apply]
  rw [keyboardPush, bind_of_ok hprocess, if_pos rfl, pure_apply]

theorem tail_moves (x : Process) (h : i32 (x.keyboard.tail + 1) = x.keyboard.tail) : False := by
  unfold i32 at h
  omega

theorem not_appends (h : s.currentProcess = 0) : ¬Appends s c := by
  intro ⟨a, x, ha, hx, hpush⟩
  rw [push_drops h] at hpush
  have hs := (ok_inj hpush).2
  have hobject := congrArg (fun s => KernelState.processAt s a.process) hs
  simp only [putProcess_self, hx, Option.some.injEq] at hobject
  exact tail_moves x (congrArg (fun x => x.keyboard.tail) hobject).symm

theorem not_popsNext (h : Unplugged s) (hcurrent : s.currentTask ≠ 0) (hc : c ≠ 0)
    (hempty : ∀ x, PopsFrom s x → BufferEmpty x) : ¬PopsNext s c := by
  intro ⟨s₁, s₂, hpush, hpop⟩
  rw [push_drops h.currentProcess] at hpush
  obtain ⟨-, rfl⟩ := ok_inj hpush
  obtain ⟨a, ha⟩ := h.current hcurrent
  obtain ⟨hp, x, hx⟩ := h.owner _ a ha
  have htask : onTasks (TaskLayer.taskAt s.currentTask) s = .ok (a, s) :=
    onTasks_ok.mpr ⟨_, TaskLayer.taskAt_of_some hcurrent ha, rfl⟩
  have hzero := (hempty x ⟨a, ha, hx⟩).1 (keyboardGetHeadIndex x)
  rw [keyboardPop, bind_of_ok (get_apply s), if_neg hcurrent, bind_of_ok htask,
    bind_of_ok (getProcess_ok.mpr ⟨hp, hx, rfl⟩), if_pos hzero] at hpop
  exact hc (ok_inj hpop).1.symm

/-- In no state with a current task that loads, task switches and system calls lead to does a push
reach the buffer that `keyboard_pop` reads, and a character pushed onto an empty buffer is not
what the next pop returns. -/
theorem pushed_never_reaches {s₀ : KernelState} {ops : List Op} (h₀ : Unloaded s₀)
    (h : exec step s₀ ops = some s) (hcurrent : s.currentTask ≠ 0) (c : UInt8) :
    ¬Appends s c ∧ (c ≠ 0 → (∀ x, PopsFrom s x → BufferEmpty x) → ¬PopsNext s c) := by
  have hs := run_unplugged h₀ h
  exact ⟨not_appends hs.currentProcess, fun hc hempty => not_popsNext hs hcurrent hc hempty⟩

end Push

theorem programLoaded_run {s₀ s : KernelState} {p : ℕ} {x : Process} {a : Task}
    (h : ProgramLoaded s₀ s p x a) :
    exec step s₀ [.load (LoadContract.givenFile [0xC3]) [0x78]] = some s := by
  have hload : step s₀ (.load (LoadContract.givenFile [0xC3]) [0x78]) = some s :=
    step_load.mpr ⟨_, h.load⟩
  rw [exec, hload]
  rfl

theorem pushed_never_reaches_sample : ∃ (s₀ s : KernelState) (ops : List Op),
    exec step s₀ ops = some s ∧ s.currentTask ≠ 0 ∧ ¬Appends s 0x41 ∧ ¬PopsNext s 0x41 := by
  obtain ⟨s₀, s, p, x, a, hloaded⟩ := programLoaded_exists
  have hnever := pushed_never_reaches hloaded.unloaded (programLoaded_run hloaded) hloaded.current 0x41
  refine ⟨s₀, s, _, programLoaded_run hloaded, hloaded.current, hnever.1, hnever.2 (by decide) ?_⟩
  intro y ⟨b, hb, hy⟩
  obtain rfl := Option.some.inj (hloaded.currentObject.symm.trans hb)
  rw [hloaded.owner] at hy
  obtain rfl := Option.some.inj (hloaded.object.symm.trans hy)
  have hkeyboard := hloaded.keyboard
  simp only [BufferEmpty, hkeyboard]
  exact ⟨fun _ => rfl, rfl⟩

/-- A program of one byte has been loaded and is running, and a character is pushed. -/
theorem pushed_lost : ¬∀ (s₀ s : KernelState) (ops : List Op), Unloaded s₀ →
    exec step s₀ ops = some s → s.currentTask ≠ 0 → ∀ c, Appends s c ∧
      (c ≠ 0 → (∀ x, PopsFrom s x → BufferEmpty x) → PopsNext s c) := by
  intro h
  obtain ⟨s₀, s, p, x, a, hloaded⟩ := programLoaded_exists
  have hrun := programLoaded_run hloaded
  have hs := run_unplugged hloaded.unloaded hrun
  exact not_appends hs.currentProcess (h s₀ s _ hloaded.unloaded hrun hloaded.current 0x41).1

end Dexter.Keyboard
