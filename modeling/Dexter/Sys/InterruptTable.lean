import Dexter.Sys.Idt

/-!
# The table of interrupt callbacks (`sys/idt.c`)

`idt_register_interrupt_callback` turns away the numbers that lie outside the table, but for the
first one behind it. Where that one is not asked for, an interrupt finds what was registered for it
last.
-/

namespace Dexter.InterruptTable
open Lib.Programs Lib.Runs
open KernelState (onTasks)

abbrev Callbacks := Fin dexterTotalInterrupts → Option InterruptCallback

def idtRegisterInterruptCallback (interrupt : ℤ) (callback : Option InterruptCallback) :
    Prog Crash Callbacks ℤ :=
  if interrupt < 0 ∨ interrupt > dexterTotalInterrupts then pure (-eInvArg)
  else if h : interrupt.toNat < dexterTotalInterrupts then do
    modify fun callbacks => Function.update callbacks ⟨interrupt.toNat, h⟩ callback
    pure dexterAllOk
  else abort .overrun

structure Registration where
  interrupt : ℤ
  callback : Option InterruptCallback

def Registration.run (call : Registration) : Prog Crash Callbacks ℤ :=
  idtRegisterInterruptCallback call.interrupt call.callback

def step (callbacks : Callbacks) (call : Registration) : Option Callbacks :=
  match call.run callbacks with
  | .ok (_, callbacks') => some callbacks'
  | .error _ => none

/-- The call fails and changes nothing, or it writes to the entry of its number. -/
def InBounds (callbacks : Callbacks) (call : Registration) : Prop :=
  ∃ r callbacks', call.run callbacks = .ok (r, callbacks') ∧
    (r < 0 ∧ callbacks' = callbacks ∨
      0 ≤ r ∧ ∃ n : Fin dexterTotalInterrupts, (n.val : ℤ) = call.interrupt ∧
        callbacks' = Function.update callbacks n call.callback)

def lastRegistered (before : Option InterruptCallback) (calls : List Registration) (n : ℕ) :
    Option InterruptCallback :=
  calls.foldl (fun last (call : Registration) =>
    if call.interrupt = (n : ℤ) then call.callback else last) before

def served (callback : Option InterruptCallback) (frame : InterruptFrame) :
    Prog Crash KernelState Unit := do
  onTasks kernelPage
  match callback with
  | none => onTasks taskPage
  | some callback => do
    onTasks (taskCurrentSaveState frame)
    callback frame
    onTasks taskPage

/-- Every call keeps to the table, and then each interrupt is served by what was registered last. -/
def Dispatches (calls : List Registration) : Prop :=
  Each step InBounds (fun _ => none) calls ∧
    ∃ callbacks, exec step (fun _ => none) calls = some callbacks ∧
      ∀ n frame, interruptHandler callbacks n frame = served (lastRegistered none calls n) frame

section Calls
variable {callbacks callbacks' : Callbacks} {call : Registration} {calls : List Registration}

theorem run_behind (h : call.interrupt = 512) : call.run callbacks = .error .overrun := by
  rw [Registration.run, idtRegisterInterruptCallback, h, if_neg (by decide), dif_neg (by decide),
    abort_apply]

theorem run_outside (h : call.interrupt < 0 ∨ 512 < call.interrupt) :
    call.run callbacks = .ok (-eInvArg, callbacks) := by
  have hout : call.interrupt < 0 ∨ call.interrupt > dexterTotalInterrupts := h
  rw [Registration.run, idtRegisterInterruptCallback, if_pos hout, pure_apply]

theorem run_inside {n : Fin dexterTotalInterrupts} (h : call.interrupt = n.val) :
    call.run callbacks = .ok (dexterAllOk, Function.update callbacks n call.callback) := by
  have hn := n.isLt
  have hin : ¬((n.val : ℤ) < 0 ∨ (n.val : ℤ) > dexterTotalInterrupts) := by omega
  rw [Registration.run, idtRegisterInterruptCallback, h, if_neg hin, dif_pos (by simp)]
  rfl

theorem interrupt_cases (call : Registration) : call.interrupt = 512 ∨
    (call.interrupt < 0 ∨ 512 < call.interrupt) ∨
    ∃ n : Fin dexterTotalInterrupts, call.interrupt = n.val := by
  rcases lt_or_ge call.interrupt 0 with hneg | hnonneg
  · exact Or.inr (Or.inl (Or.inl hneg))
  · rcases lt_trichotomy call.interrupt 512 with hlt | heq | hgt
    · exact Or.inr (Or.inr ⟨⟨call.interrupt.toNat, by simp only [dexterTotalInterrupts]; omega⟩,
        (Int.toNat_of_nonneg hnonneg).symm⟩)
    · exact Or.inl heq
    · exact Or.inr (Or.inl (Or.inr hgt))

theorem inBounds_iff : InBounds callbacks call ↔ call.interrupt ≠ 512 := by
  constructor
  · rintro ⟨r, callbacks', hrun, -⟩ h512
    rw [run_behind h512] at hrun
    cases hrun
  · intro hne
    rcases interrupt_cases call with h512 | hout | ⟨n, hn⟩
    · exact absurd h512 hne
    · exact ⟨_, _, run_outside hout, Or.inl ⟨by decide, rfl⟩⟩
    · exact ⟨_, _, run_inside hn, Or.inr ⟨by decide, n, hn.symm, rfl⟩⟩

theorem step_of_ne (callbacks : Callbacks) (h : call.interrupt ≠ 512) :
    ∃ callbacks', step callbacks call = some callbacks' ∧
      ∀ n : Fin dexterTotalInterrupts,
        callbacks' n = if call.interrupt = n.val then call.callback else callbacks n := by
  rcases interrupt_cases call with h512 | hout | ⟨m, hm⟩
  · exact absurd h512 h
  · refine ⟨callbacks, by rw [step, run_outside hout], fun n => ?_⟩
    have hn := n.isLt
    rw [if_neg (by simp only [dexterTotalInterrupts] at hn; omega)]
  · refine ⟨_, by rw [step, run_inside hm], fun n => ?_⟩
    by_cases hmn : n = m
    · subst hmn
      rw [Function.update_self, if_pos hm]
    · rw [Function.update_of_ne hmn, if_neg fun h => hmn (Fin.ext (by omega))]

theorem exec_of_ne (callbacks : Callbacks) (h : ∀ call ∈ calls, call.interrupt ≠ 512) :
    ∃ callbacks', exec step callbacks calls = some callbacks' ∧
      ∀ n : Fin dexterTotalInterrupts,
        callbacks' n = lastRegistered (callbacks n) calls n := by
  induction calls generalizing callbacks with
  | nil => exact ⟨callbacks, rfl, fun n => rfl⟩
  | cons call calls ih =>
    obtain ⟨hcall, hrest⟩ := List.forall_mem_cons.mp h
    obtain ⟨callbacks₁, hstep, hat⟩ := step_of_ne callbacks hcall
    obtain ⟨callbacks₂, hexec, hlast⟩ := ih callbacks₁ hrest
    refine ⟨callbacks₂, exec_cons_some.mpr ⟨callbacks₁, hstep, hexec⟩, fun n => ?_⟩
    rw [hlast n, hat n, lastRegistered, lastRegistered, List.foldl_cons]

theorem each_inBounds_iff :
    Each step InBounds callbacks calls ↔ ∀ call ∈ calls, call.interrupt ≠ 512 := by
  induction calls generalizing callbacks with
  | nil => exact iff_of_true trivial fun call h => absurd h List.not_mem_nil
  | cons call calls ih =>
    rw [List.forall_mem_cons, Each, inBounds_iff]
    refine and_congr_right fun hne => ?_
    obtain ⟨callbacks', hstep, -⟩ := step_of_ne callbacks hne
    constructor
    · exact fun hrest => ih.mp (hrest callbacks' hstep)
    · exact fun hrest s' _ => ih.mpr hrest

end Calls

/-- Registering and dispatching go by the table exactly if nothing is registered for 512. -/
theorem dispatches_iff (calls : List Registration) :
    Dispatches calls ↔ ∀ call ∈ calls, call.interrupt ≠ 512 := by
  refine ⟨fun h => each_inBounds_iff.mp h.1, fun h => ⟨each_inBounds_iff.mpr h, ?_⟩⟩
  obtain ⟨callbacks, hexec, hlast⟩ := exec_of_ne (fun _ => none) h
  refine ⟨callbacks, hexec, fun n frame => ?_⟩
  rw [interruptHandler, hlast n]
  rfl

theorem write_behind_table : ¬∀ calls, Dispatches calls := by
  intro h
  obtain ⟨r, callbacks', hrun, -⟩ := (h [⟨512, none⟩]).1.1
  rw [run_behind rfl] at hrun
  cases hrun

end Dexter.InterruptTable
