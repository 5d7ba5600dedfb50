import Dexter.X86.Interrupts
import Dexter.Sys.PrintBuf

/-!
# System calls as a program sees them

A program puts a command into `eax`, its arguments on its stack, and executes `int 0x80`. It goes on
with a result in `eax` and all its other registers as they were; the kernel has kept a copy of them
in the task.
-/

namespace Dexter
open Lib.Programs Lib.LittleEndian Processor TaskLayer
open KernelState (onTasks_ok)

def Sees (s : TaskState) (c : Processor) : Prop :=
  ∀ v < 4294967296, ∀ p, s.translate v = some p → c.memory v = s.ram p

/-- The result of the command in `eax`: the sum of the two words on top of the stack for command 0,
and 0 for all the others. -/
def systemCallResult (c : Processor) : ℕ :=
  if c.eax = 0 then (load c.memory 4 c.esp + load c.memory 4 (c.esp + 4)) % 4294967296 else 0

theorem systemCallResult_lt (c : Processor) : systemCallResult c < 4294967296 := by
  unfold systemCallResult
  split_ifs <;> omega

section Results
variable {s s' : TaskState} {c : Processor} {x : Task} {frame : InterruptFrame} {t v index w r : ℕ}

theorem Sees.byte {b : UInt8} (h : Sees s c) (hv : v < 4294967296)
    (hread : readByte v s = .ok (b, s')) : b = c.memory v := by
  obtain ⟨p, hp, rfl, -⟩ := readByte_ok.mp hread
  exact (h v hv p hp).symm

theorem Sees.uint32 (h : Sees s c) (hv : v + 4 ≤ 4294967296)
    (hread : readUint32 v s = .ok (w, s')) : w = load c.memory 4 v := by
  have haddress : ∀ j < 4, u32 ((v : ℤ) + (j : ℕ)) = v + j := by
    intro j hj
    exact_mod_cast u32_natCast (x := v + j) (by omega)
  have hbyte : ∀ {j b s'}, j < 4 → readByte (u32 ((v : ℤ) + (j : ℕ))) s = .ok (b, s') →
      b = c.memory (v + j) := by
    intro j b s' hj hread
    rw [haddress j hj] at hread
    exact h.byte (by omega) hread
  obtain ⟨b₀, s₀, h₀, hrest₀⟩ := bind_ok.mp hread
  obtain ⟨b₁, s₁, h₁, hrest₁⟩ := bind_ok.mp hrest₀
  obtain ⟨b₂, s₂, h₂, hrest₂⟩ := bind_ok.mp hrest₁
  obtain ⟨b₃, s₃, h₃, hpure⟩ := bind_ok.mp hrest₂
  obtain rfl := readByte_same h₀
  obtain rfl := readByte_same h₁
  obtain rfl := readByte_same h₂
  obtain ⟨rfl, -⟩ := ok_inj hpure
  rw [h.byte (by omega) h₀, hbyte (j := 1) (by decide) h₁, hbyte (j := 2) (by decide) h₂,
    hbyte (j := 3) (by decide) h₃]
  simp only [load]
  ring

theorem taskGetStackItem_value (h : Sees (s.onTask x) c) (hx : s.tasks t = some x)
    (hv : x.registers.esp + 4 * index + 4 ≤ 4294967296)
    (hitem : taskGetStackItem t index s = .ok (w, s')) :
    w = load c.memory 4 (x.registers.esp + 4 * index) := by
  have haddress : u32 ((x.registers.esp : ℤ) + 4 * index) = x.registers.esp + 4 * index := by
    exact_mod_cast u32_natCast (x := x.registers.esp + 4 * index) (by omega)
  obtain ⟨y, s₁, htask, h₁⟩ := bind_ok.mp hitem
  obtain ⟨-, hy, rfl⟩ := taskAt_ok.mp htask
  obtain rfl := Option.some.inj (hx.symm.trans hy)
  obtain ⟨u, s₂, hpage, h₂⟩ := bind_ok.mp h₁
  obtain ⟨-, z, hz, -, rfl⟩ := taskPageTask_ok.mp hpage
  obtain rfl := Option.some.inj (hx.symm.trans hz)
  obtain ⟨w', s₃, hread, h₃⟩ := bind_ok.mp h₂
  obtain ⟨u', s₄, -, hpure⟩ := bind_ok.mp h₃
  obtain ⟨rfl, -⟩ := ok_inj hpure
  rw [haddress] at hread
  exact h.uint32 hv hread

theorem isr80hCommand0Sum_value (h : Sees (s.onTask x) c) (hx : s.tasks s.currentTask = some x)
    (hv : x.registers.esp + 8 ≤ 4294967296) (hrun : isr80hCommand0Sum frame s = .ok (r, s')) :
    r = (load c.memory 4 x.registers.esp + load c.memory 4 (x.registers.esp + 4)) % 4294967296 := by
  rw [isr80hCommand0Sum, bind_of_ok (get_apply s)] at hrun
  obtain ⟨v₂, s₁, hitem, h₁⟩ := bind_ok.mp hrun
  obtain rfl := taskGetStackItem_ok hitem
  rw [bind_of_ok (get_apply _)] at h₁
  obtain ⟨v₁, s₂, hitem', hpure⟩ := bind_ok.mp h₁
  obtain ⟨rfl, -⟩ := ok_inj hpure
  have h₂ := taskGetStackItem_value h hx (by omega) hitem
  have h₁ := taskGetStackItem_value (s := s.onKernel) h hx (by omega) hitem'
  rw [mul_zero, add_zero] at h₁
  rw [mul_one] at h₂
  rw [h₁, h₂]
  unfold u32 i32
  omega

theorem isr80hCommand1Print_value (hrun : isr80hCommand1Print frame s = .ok (r, s')) : r = 0 := by
  rw [isr80hCommand1Print, bind_of_ok (get_apply s)] at hrun
  obtain ⟨buf, s₁, -, h₁⟩ := bind_ok.mp hrun
  rw [bind_of_ok (get_apply _)] at h₁
  obtain ⟨out, s₂, -, hpure⟩ := bind_ok.mp h₁
  exact (ok_inj hpure).1.symm

theorem isr80hHandleCommand_value {command : ℤ} (h : Sees (s.onTask x) c)
    (hx : s.tasks s.currentTask = some x) (hregisters : x.registers.esp = c.esp)
    (hesp : c.esp + 8 ≤ 4294967296) (hcommand : command = 0 ↔ c.eax = 0)
    (hrun : isr80hHandleCommand command frame s = .ok (r, s')) : r = systemCallResult c := by
  unfold systemCallResult
  unfold isr80hHandleCommand isr80hCommands at hrun
  split_ifs at hrun with hrange
  · have hne : command ≠ 0 := by
      rintro rfl
      exact absurd hrange (by decide)
    rw [if_neg (mt hcommand.mpr hne)]
    exact (ok_inj hrun).1.symm
  · match hnat : command.toNat with
    | 0 =>
      rw [hnat] at hrun
      rw [if_pos (hcommand.mp (by omega)), ← hregisters]
      exact isr80hCommand0Sum_value h hx (by omega) hrun
    | 1 =>
      rw [hnat] at hrun
      rw [if_neg (mt hcommand.mpr (by omega))]
      exact isr80hCommand1Print_value hrun
    | n + 2 =>
      rw [hnat] at hrun
      rw [if_neg (mt hcommand.mpr (by omega))]
      exact (ok_inj hrun).1.symm

end Results

theorem isr80hHandler_value {s s' : KernelState} {c : Processor} {x : Task} {reserved r : ℕ}
    (hsees : Sees s.toTaskLayer c) (hx : s.tasks s.currentTask = some x)
    (hcr3 : s.cr3 = s.chunks x.pageDirectory) (hesp : c.esp + 8 ≤ 4294967296)
    (heax : c.eax < 4294967296)
    (h : isr80hHandler (i32 c.eax) (c.frame reserved) s = .ok (r, s')) :
    r = systemCallResult c := by
  rw [isr80hHandler_eq] at h
  obtain ⟨u, s₁, hsave, h₁⟩ := bind_ok.mp h
  obtain ⟨-, -, y, hy, rfl⟩ := saveOnKernel_ok.mp hsave
  obtain rfl := Option.some.inj (hx.symm.trans hy)
  obtain ⟨r₂, s₂, hcommand, h₂⟩ := bind_ok.mp h₁
  obtain ⟨t₂, hrun, rfl⟩ := onTasks_ok.mp hcommand
  obtain ⟨v, s₃, -, hpure⟩ := bind_ok.mp h₂
  obtain ⟨rfl, -⟩ := ok_inj hpure
  have hcommand : i32 c.eax = 0 ↔ c.eax = 0 := by
    unfold i32
    omega
  refine isr80hHandleCommand_value (x := { x with registers := (c.frame reserved).toRegisters })
    (fun v hv p hp => ?_) (putTask_self _ _ _) rfl hesp hcommand hrun
  refine hsees v hv p (Eq.trans ?_ hp)
  unfold TaskLayer.translate
  rw [hcr3]
  rfl

/-- A system call, from `int 0x80` to the next instruction: only `eax` has changed for the program,
and of the tasks only the copy of its registers. -/
theorem systemCall_changes_eax (t : SystemRegisters) (h : Handlers) (f : Handler t.esp0)
    (tmpRes : ℕ) (next : UInt32) (c d : Processor) (s s' : KernelState) (x : Task) (r : ℕ)
    (hc : UserMode c) (hi : Installed t h c.memory)
    (htmp : tmpRes + 4 ≤ t.esp0 - 52 ∨ t.esp0 ≤ tmpRes) (hsees : Sees s.toTaskLayer c)
    (hx : s.tasks s.currentTask = some x) (hcr3 : s.cr3 = s.chunks x.pageDirectory)
    (hesp : c.esp + 8 ≤ 4294967296)
    (hhandler : isr80hHandler (i32 c.eax) (c.frame (t.esp0 - 20)) s = .ok (r, s'))
    (hrun : f.run (calling t h 0x80 .software c.eax next c) = .ok ((), d)) (heax : d.eax = r) :
    (∃ m, (do
      interrupt t 0x80 .software
      codeAt (h.address 0x80) (isr80hWrapper f tmpRes next)) c =
        .ok ((), { c with eax := systemCallResult c, memory := m })) ∧
    s'.currentTask = s.currentTask ∧ s'.cr3 = s.cr3 ∧ s'.tasks = Function.update s.tasks
      s.currentTask (some { x with registers := (c.frame (t.esp0 - 20)).toRegisters }) := by
  have hlt : c.eax < 4294967296 := hc.words c.eax (by simp)
  have hvalue := isr80hHandler_value hsees hx hcr3 hesp hlt hhandler
  have hresult : d.eax = systemCallResult c := heax.trans hvalue
  have hwrapper := isr80hWrapper_returns f hc hi htmp hrun (hresult ▸ systemCallResult_lt c)
  obtain ⟨y, s₂, -, hy, hcommand, rfl⟩ := isr80hHandler_ok hhandler
  obtain rfl := Option.some.inj (hx.symm.trans hy)
  have hmoved := hcommand.unmoved
  refine ⟨⟨store d.memory 4 tmpRes d.eax, ?_⟩, hmoved.currentTask, ?_, hmoved.tasks⟩
  · rw [hwrapper, ← hresult]
  · exact (congrFun hmoved.chunks _).trans hcr3.symm

def addingProgram : Processor :=
  { someProgram with
    eax := 0
    memory := (idtInit someHandlers someObjects
      (store (store (fun _ => 0) 4 0x3FF000 2) 4 0x3FF004 3)).2 }

theorem addingProgram_result : systemCallResult addingProgram = 5 := by
  have hframe : ∀ p, 0x3FF000 ≤ p → load addingProgram.memory 4 p =
      load (store (store (fun _ => 0) 4 0x3FF000 2) 4 0x3FF004 3) 4 p := fun p hp =>
    load_congr fun q hq _ => idtInit_frame someHandlers someObjects _
      (Or.inr (le_trans (by decide) (hp.trans hq))) (Or.inr (le_trans (by decide) (hp.trans hq)))
  have h₁ : load addingProgram.memory 4 0x3FF000 = 2 := by
    rw [hframe _ le_rfl, load_store_of_disjoint (by omega), load_store_self]
    rfl
  have h₂ : load addingProgram.memory 4 (0x3FF000 + 4) = 3 := by
    rw [hframe _ (by decide), load_store_self]
    rfl
  have heax : addingProgram.eax = 0 := rfl
  have hesp : addingProgram.esp = 0x3FF000 := rfl
  rw [systemCallResult, if_pos heax, hesp, h₁, h₂]

theorem userMode_addingProgram : UserMode addingProgram where
  cs := rfl
  ss := rfl
  segments := ⟨rfl, rfl, rfl, rfl⟩
  words := by decide

theorem systemCall_changes_eax_sum : ∃ (f : Handler 0x600000) (m : ℕ → UInt8), (do
    interrupt (systemRegisters ⟨4095, 0x110000⟩) 0x80 .software
    codeAt (someHandlers.address 0x80) (isr80hWrapper f 0x120000 0x100050)) addingProgram =
      .ok ((), { addingProgram with eax := 5, memory := m }) := by
  obtain ⟨m, chunk, hprinting⟩ := PrintBuf.printing_exists
  set s : KernelState :=
    { bootKernel with toTaskLayer := PrintBuf.printer m chunk addingProgram.memory }
  have htranslate : ∀ v < 4294967296, s.translate v = some v := fun v hv =>
    hprinting.translate hv
  have hstack : ReadableStack s (PrintBuf.printerTask chunk)
      (addingProgram.frame (0x600000 - 20)) := by
    refine ⟨(by decide : (64 : ℕ) ≠ 0), rfl, hprinting.chunk_ne, hprinting.chunk_ne, by decide, ?_⟩
    intro w hw (hw' : w < 0x3FF000 + 8)
    exact (htranslate w (by omega)).symm ▸ Option.some_ne_none w
  obtain ⟨r, hhandler⟩ := hstack.sum
  have hcommand : i32 addingProgram.eax = 0 := by decide
  rw [← hcommand] at hhandler
  obtain ⟨⟨m', hcall⟩, -⟩ := systemCall_changes_eax (systemRegisters ⟨4095, 0x110000⟩) someHandlers
    (Handler.returning _ r) 0x120000 0x100050 addingProgram _ s _ (PrintBuf.printerTask chunk) r
    userMode_addingProgram (installed_idtInit someHandlers someObjects _) (by decide)
    (fun v hv p hp => by
      obtain rfl := Option.some.inj ((htranslate v hv).symm.trans hp)
      rfl) rfl rfl (by decide) hhandler rfl rfl
  rw [addingProgram_result] at hcall
  exact ⟨_, m', hcall⟩

end Dexter
