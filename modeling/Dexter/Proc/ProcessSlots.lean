import Dexter.Proc.LoadContract
import Dexter.Lib.Runs

/-!
# The process table (`proc/process.c`)

`process_load_for_slot` takes any `int` for the slot. A slot outside the table looks free to it, since
`process_get` has one null pointer for both; of a slot that is taken it reads a local variable before
it has a value. The table is right as long as no call asks for such a slot.
-/

namespace Dexter.ProcessSlots
open Lib.Programs Lib.Runs KernelHeap KernelState LoadContract

inductive Call
  | load (files : FileLayer) (filename : CString)
  | loadForSlot (files : FileLayer) (filename : CString) (slot : ℤ)

def Call.run : Call → Prog Crash KernelState (ℤ × ℕ)
  | .load files filename => processLoad files filename
  | .loadForSlot files filename slot => processLoadForSlot files filename slot

def step (s : KernelState) (call : Call) : Option KernelState :=
  match call.run s with
  | .ok (_, s') => some s'
  | .error _ => none

def Invalid (s : KernelState) (slot : ℤ) : Prop :=
  slot < 0 ∨ 12 ≤ slot ∨ s.processes slot.toNat ≠ 0

def Stored (s : KernelState) (p : ℕ) (s' : KernelState) : Prop :=
  ∃ slot < 12, s.processes slot = 0 ∧ s'.processes = Function.update s.processes slot p ∧
    p ≠ 0 ∧ ∃ x, s'.processAt p = some x ∧ x.id = slot

def Remain (s s' : KernelState) : Prop := ∀ i, s.processes i ≠ 0 →
  s'.processes i = s.processes i ∧ s'.processAt (s.processes i) = s.processAt (s.processes i)

structure Unchanged (s s' : KernelState) : Prop where
  processes : s'.processes = s.processes
  tasks : s'.tasks = s.tasks ∧ s'.taskHead = s.taskHead ∧ s'.taskTail = s.taskTail
  heap : SameTable s.heap s'.heap

/-- What a call has to keep to: where it succeeds it stores the process in a free slot, it leaves
the others alone, and it refuses a slot that is invalid. -/
structure SlotChecked (s : KernelState) (call : Call) : Prop where
  stored : ∀ r p s', call.run s = .ok ((r, p), s') → 0 ≤ r → Stored s p s'
  remain : ∀ r p s', call.run s = .ok ((r, p), s') → Remain s s'
  refused : ∀ files filename slot, call = .loadForSlot files filename slot → Invalid s slot →
    ∃ r p s', call.run s = .ok ((r, p), s') ∧ r < 0 ∧ Unchanged s s'

/-- The call asks for a slot that is there and free, or for one that is not there while the heap
has no room for a process. -/
def AsksWell (s : KernelState) : Call → Prop
  | .load _ _ => True
  | .loadForSlot _ _ slot => ¬Invalid s slot ∨ (slot < 0 ∨ 12 ≤ slot) ∧ NoProcessRun s.heap

def Ready (s : KernelState) : Prop := ∀ i, s.processes i ≠ 0 → s.heap.Owns {s.processes i}

def tableFrames (s : KernelState) : Set ℕ := {p | ∃ i, s.processes i = p ∧ p ≠ 0}

section Step
variable {files : FileLayer} {filename : CString} {s s' : KernelState} {slot : ℤ} {r : ℤ} {p : ℕ}
  {call : Call}

theorem Ready.owns (h : Ready s) : s.heap.Owns (tableFrames s) := by
  intro p ⟨i, hi, hp⟩
  subst hi
  exact h i hp _ rfl

theorem processGet_outside (h : slot < 0 ∨ 12 ≤ slot) : processGet s slot = 0 := by
  rw [processGet, if_pos (by simp only [dexterMaxProcesses]; omega)]

theorem loadForSlot_spec (h : Ready s)
    (hrun : processLoadForSlot files filename slot s = .ok ((r, p), s')) :
    (0 ≤ r → Stored s p s') ∧ Remain s s' ∧ Ready s' ∧
      ((s.heap.malloc 5256).1 ≠ 0 → r < 0 → ¬SameTable s.heap s'.heap) := by
  have hmalloc := @malloc_spec s.heap 5256 (by decide)
  have hnew : (s.heap.malloc 5256).1 ∉ tableFrames s := hmalloc.fresh h.owns
  have hother : ∀ i, s.processes i ≠ 0 → s.processes i ≠ (s.heap.malloc 5256).1 :=
    fun i hi heq => hnew (heq ▸ ⟨i, rfl, hi⟩)
  cases processLoadForSlot_spec (A := tableFrames s) (c := True) ⟨h.owns, fun _ => trivial⟩ hrun with
  | noProcess full =>
    refine ⟨fun hr => absurd hr (by decide), fun i _ => ⟨rfl, rfl⟩, fun i hi => ?_,
      fun hp => absurd full hp⟩
    exact hmalloc.owns (h i hi)
  | fails r p k table ram y object nonzero negative kept =>
    subst object
    refine ⟨fun hr => absurd hr (not_le.mpr negative), fun i hi => ⟨rfl, ?_⟩, fun i hi => ?_,
      fun hp _ => ?_⟩
    · exact putProcess_of_ne (hother i hi) _ _
    · refine kept.owns.mono fun q hq => Or.inl ?_
      obtain rfl := Set.mem_singleton_iff.mp hq
      exact ⟨i, rfl, hi⟩
    · exact hmalloc.not_sameTable hp (kept.owns.mono
        (Set.singleton_subset_iff.mpr (Or.inr (mem_processFrames s.heap))))
  | loads n p t chunk y s' place inside free object nonzero new whole sized named loaded =>
    subst object
    have hslots : s'.processes = Function.update s.processes n (s.heap.malloc 5256).1 :=
      loaded.slots
    have hself : s'.processAt (s.heap.malloc 5256).1 = some y := by
      rw [loaded.object, Function.update_self]
    refine ⟨fun _ => ⟨n, inside, free, hslots, nonzero, y, hself, named.id⟩, fun i hi => ⟨?_, ?_⟩,
      fun i hi => ?_, fun _ hr => absurd hr (lt_irrefl 0)⟩
    · have hin : i ≠ n := fun heq => hi (heq ▸ free)
      rw [hslots, Function.update_of_ne hin]
    · rw [loaded.object, Function.update_of_ne (hother i hi)]
      exact putProcess_of_ne (hother i hi) _ _
    · refine loaded.kept.owns.mono fun q hq => ?_
      obtain rfl := Set.mem_singleton_iff.mp hq
      rw [hslots] at hi ⊢
      by_cases hin : i = n
      · rw [hin, Function.update_self]
        exact Or.inr (mem_processFrames s.heap)
      · rw [Function.update_of_ne hin] at hi ⊢
        exact Or.inl ⟨i, rfl, hi⟩

theorem load_spec (h : Ready s) (hrun : processLoad files filename s = .ok ((r, p), s')) :
    (0 ≤ r → Stored s p s') ∧ Remain s s' ∧ Ready s' := by
  rcases processGetFreeSlot_cases s with hslot | ⟨slot, -, hslot, -⟩
  · rw [processLoad, bind_of_ok (get_apply s), if_pos (by rw [hslot]; decide)] at hrun
    obtain ⟨hr, rfl⟩ := ok_inj hrun
    obtain ⟨rfl, -⟩ := Prod.mk.inj hr
    exact ⟨fun h0 => absurd h0 (by decide), fun _ _ => ⟨rfl, rfl⟩, h⟩
  · rw [processLoad_eq hslot] at hrun
    obtain ⟨hstored, hremain, hready, -⟩ := loadForSlot_spec h hrun
    exact ⟨hstored, hremain, hready⟩

theorem step_some : step s call = some s' ↔ ∃ r p, call.run s = .ok ((r, p), s') := by
  unfold step
  cases hrun : call.run s with
  | error e => simp
  | ok out => simp [Prod.ext_iff]

theorem step_ready (h : Ready s) (hstep : step s call = some s') : Ready s' := by
  obtain ⟨r, p, hrun⟩ := step_some.mp hstep
  cases call with
  | load files filename => exact (load_spec h hrun).2.2
  | loadForSlot files filename slot => exact (loadForSlot_spec h hrun).2.2.1

theorem outside_not_refused (h : Ready s) (hslot : slot < 0 ∨ 12 ≤ slot)
    (hp : (s.heap.malloc 5256).1 ≠ 0) :
    ¬SlotChecked s (.loadForSlot files filename slot) := by
  intro hchecked
  have hinvalid : Invalid s slot := hslot.elim Or.inl fun h => Or.inr (Or.inl h)
  obtain ⟨r, p, s', hrun, hr, hsame⟩ := hchecked.refused _ _ _ rfl hinvalid
  exact (loadForSlot_spec h hrun).2.2.2 hp hr hsame.heap

theorem taken_not_refused {i : ℕ} (hi : i < 12) (htaken : s.processes i ≠ 0) :
    ¬SlotChecked s (.loadForSlot files filename i) := by
  intro hchecked
  have hinvalid : Invalid s i := Or.inr (Or.inr htaken)
  obtain ⟨r, p, s', hrun, -⟩ := hchecked.refused _ _ _ rfl hinvalid
  have hget : processGet s i ≠ 0 := (processGet_inside hi).trans_ne htaken
  rw [Call.run, processLoadForSlot, bind_of_ok (get_apply s), if_pos hget] at hrun
  cases hrun

theorem outside_refused (hslot : slot < 0 ∨ 12 ≤ slot) (hp : (s.heap.malloc 5256).1 = 0) :
    ∃ r p s', processLoadForSlot files filename slot s = .ok ((r, p), s') ∧ r < 0 ∧
      Unchanged s s' := by
  refine ⟨-eNoMem, 0, { s with heap := (s.heap.malloc 5256).2 }, ?_, by decide, rfl,
    ⟨rfl, rfl, rfl⟩, fun b _ => ?_⟩
  · rw [processLoadForSlot_free (processGet_outside hslot), if_pos hp]
  · exact congrFun (malloc_null_same hp) b

theorem slotChecked_iff (h : Ready s) : SlotChecked s call ↔ AsksWell s call := by
  cases call with
  | load files filename =>
    refine iff_of_true ⟨fun r p s' hrun => (load_spec h hrun).1, fun r p s' hrun =>
      (load_spec h hrun).2.1, fun _ _ _ heq => ?_⟩ trivial
    cases heq
  | loadForSlot files filename slot =>
    have hspec : ∀ r p s', processLoadForSlot files filename slot s = .ok ((r, p), s') → _ :=
      fun r p s' hrun => loadForSlot_spec h hrun
    rw [AsksWell, ← malloc_process_eq_zero_iff]
    constructor
    · intro hchecked
      by_contra hno
      obtain ⟨hinvalid, hroom⟩ := not_or.mp hno
      by_cases hout : slot < 0 ∨ 12 ≤ slot
      · exact outside_not_refused h hout (fun hp => hroom ⟨hout, hp⟩) hchecked
      · obtain ⟨i, rfl⟩ : ∃ i : ℕ, slot = i := ⟨slot.toNat, by omega⟩
        have htaken : s.processes i ≠ 0 := by
          rcases not_not.mp hinvalid with h0 | h12 | htaken
          · exact absurd (Or.inl h0) hout
          · exact absurd (Or.inr h12) hout
          · exact htaken
        exact taken_not_refused (by omega) htaken hchecked
    · intro hasks
      refine ⟨fun r p s' hrun => (hspec r p s' hrun).1, fun r p s' hrun => (hspec r p s' hrun).2.1,
        fun _ _ _ heq hinvalid => ?_⟩
      obtain ⟨rfl, rfl, rfl⟩ := Call.loadForSlot.inj heq
      obtain ⟨hout, hp⟩ := hasks.resolve_left (not_not.mpr hinvalid)
      exact outside_refused hout hp

end Step

/-- In a run of loads from an empty table on, every call keeps to what it should exactly if every
call asks for a slot that is there and free; one that is not there does no harm while the heap has
no room. -/
theorem slots_checked_iff (s : KernelState) (calls : List Call) :
    Each step SlotChecked { s with processes := fun _ => 0 } calls ↔
      Each step AsksWell { s with processes := fun _ => 0 } calls :=
  each_iff_each (fun _ _ h => slotChecked_iff h) (fun _ _ _ h _ hstep => step_ready h hstep)
    (I := Ready) fun _ hi => absurd rfl hi

/-- Slot 12 of a fresh kernel. -/
theorem slot_outside_table : ¬Each step SlotChecked bootKernel
    [.loadForSlot (fat16Layer (sampleDisk none)) samplePath 12] := by
  intro h
  have hp : (bootKernel.heap.malloc 5256).1 ≠ 0 := by decide +kernel
  exact outside_not_refused (fun _ hi => absurd rfl hi) (Or.inr le_rfl) hp h.1

end Dexter.ProcessSlots
