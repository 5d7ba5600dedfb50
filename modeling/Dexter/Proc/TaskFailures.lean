import Dexter.Proc.Task
import Dexter.Mem.PageRequests

/-!
# Making a task while requests fail

`paging_new_4gb` and `task_new` over a heap of which the requests of a pattern `fails` return null
(`Lib.Faults`).

The directory and its tables are filled without a look at the pointer, and the cleanup of
`task_new` frees a directory that may not be there. So the first request that is not answered is
followed by an access through null.
-/

namespace Dexter
open Lib.Programs Lib.Faults

def PagingLayer.withFaults (fails : ℕ → Bool) (m : Memory) :
    PagingLayer (Faulty fails KernelHeap) :=
  ⟨⟨m.heap, []⟩, m.pages, m.chunks, m.cr3, m.currentDirectory⟩

def TaskLayer.withFaults (fails : ℕ → Bool) (s : TaskState) :
    TaskLayer (Faulty fails KernelHeap) :=
  { toPagingLayer := s.toPagingLayer.withFaults fails
    tasks := s.tasks
    taskHead := s.taskHead
    taskTail := s.taskTail
    currentTask := s.currentTask
    kernelChunk := s.kernelChunk
    ram := s.ram }

namespace Failing
open PagingLayer TaskLayer KernelHeap

section Directory
variable {fails : ℕ → Bool} {k : KernelHeap} {n flags directory i : ℕ} {offset : ℤ}
  {m : PagingLayer (Faulty fails KernelHeap)}

theorem onHeap_answered (size : ℕ) (h0 : 1 ≤ size) (hsize : size ≤ 4096) (h : Answered fails k n)
    (hm : m.heap = behind fails k n) : onHeap (kzalloc size) m =
      .ok (k.page n, { m with heap := behind fails k (n + 1) }) := by
  have hrun := kzalloc_answered h0 hsize h
  rw [← hm] at hrun
  exact zoom_of_ok hrun

theorem onHeap_null (size : ℕ) (h0 : 1 ≤ size) (hsize : size ≤ 4096) (h : ¬Answered fails k n)
    (hm : m.heap = behind fails k n) : ∃ m', onHeap (kzalloc size) m = .ok (0, m') := by
  obtain ⟨c, hrun⟩ := kzalloc_null size h0 hsize h
  rw [← hm] at hrun
  exact ⟨_, zoom_of_ok hrun⟩

theorem pagingNewTable_answered (hd : directory ≠ 0) (h : Answered fails k n)
    (hm : m.heap = behind fails k n) : ∃ o m', pagingNewTable flags directory i offset m =
      .ok (o, m') ∧ m'.heap = behind fails k (n + 1) := by
  refine ⟨i32 (offset + pagingTotalEntriesPerTable * pagingPageSize),
    { m with
      heap := behind fails k (n + 1)
      pages := nextPages m.pages flags directory (k.page n) i offset }, ?_, rfl⟩
  rw [pagingNewTable, bind_of_ok (onHeap_answered _ (by decide) (by decide) h hm),
    bind_of_ok (pagingFillTable_eq h.2 _ _ _), bind_of_ok (writeWord_of_ne hd _ _ _), pure_apply]
  rfl

theorem pagingNewTable_null (h : ¬Answered fails k n) (hm : m.heap = behind fails k n) :
    pagingNewTable flags directory i offset m = .error .nullPointer := by
  obtain ⟨m', hrun⟩ := onHeap_null (4 * pagingTotalEntriesPerTable) (by decide) (by decide) h hm
  rw [pagingNewTable, bind_of_ok hrun, bind_of_error (pagingFillTable_null _ _ _)]

theorem pagingNewTables_directory (flags : ℕ) (offset : ℤ)
    (m : PagingLayer (Faulty fails KernelHeap)) :
    countUp (pagingNewTable flags 0) 1024 offset m = .error .nullPointer := by
  apply countUp_of_error
  have hrun : onHeap (kzalloc (4 * pagingTotalEntriesPerTable)) m = .ok (_, _) :=
    zoom_of_ok (step_apply _ _)
  rw [pagingNewTable, bind_of_ok hrun]
  generalize (Requests.ask (4 * pagingTotalEntriesPerTable) m.heap).1 = entry
  by_cases hentry : entry = 0
  · rw [hentry, bind_of_error (pagingFillTable_null _ _ _)]
  · rw [bind_of_ok (pagingFillTable_eq hentry _ _ _), bind_of_error]
    rw [writeWord, if_pos rfl, abort_apply]

theorem pagingNewTables_answered (hd : directory ≠ 0) {count : ℕ}
    (h : ∀ i < count, Answered fails k (n + i)) (hm : m.heap = behind fails k n) (offset : ℤ) :
    ∃ o m', countUp (pagingNewTable flags directory) count offset m = .ok (o, m') ∧
      m'.heap = behind fails k (n + count) := by
  have hloop := @Returns.countUp Crash _ _ (pagingNewTable flags directory)
    (fun i _ m => m.heap = behind fails k (n + i)) count ?_ offset
  · exact hloop hm
  · intro i hi o m hm
    exact pagingNewTable_answered hd (h i hi) hm

theorem pagingNewTables_null (hd : directory ≠ 0) {count : ℕ}
    (h : ¬∀ i < count, Answered fails k (n + i)) (hm : m.heap = behind fails k n) (offset : ℤ) :
    countUp (pagingNewTable flags directory) count offset m = .error .nullPointer := by
  induction count with
  | zero => exact absurd (fun i hi => absurd hi (Nat.not_lt_zero i)) h
  | succ count ih =>
    by_cases hall : ∀ i < count, Answered fails k (n + i)
    · -- the tables before the last one are built
      obtain ⟨o, m', hrun, hm'⟩ := @pagingNewTables_answered _ _ _ flags _ _ hd _ hall hm offset
      rw [countUp, bind_of_ok hrun]
      refine pagingNewTable_null (fun hlast => h fun i hi => ?_) hm'
      rcases Nat.lt_succ_iff_lt_or_eq.mp hi with hlt | rfl
      · exact hall i hlt
      · exact hlast
    · rw [countUp, bind_of_error (ih hall)]

theorem pagingNew4gb_answered (h : ∀ i < 1026, Answered fails k (n + i))
    (hm : m.heap = behind fails k n) : ∃ m', pagingNew4gb flags m = .ok (k.page (n + 1025), m') ∧
      m'.heap = behind fails k (n + 1026) := by
  have hfirst : Answered fails k n := h 0 (by decide)
  have hdirectory := onHeap_answered (4 * pagingTotalEntriesPerTable) (by decide) (by decide)
    hfirst hm
  have htables : ∀ i < 1024, Answered fails k (n + 1 + i) := by
    intro i hi
    rw [Nat.add_assoc, Nat.add_comm 1 i]
    exact h (i + 1) (by omega)
  obtain ⟨o, m₂, hloop, hm₂⟩ := @pagingNewTables_answered _ _ _ flags _
    { m with heap := behind fails k (n + 1) } hfirst.2 _ htables rfl 0
  have hlast : Answered fails k (n + 1 + 1024) := h 1025 (by decide)
  have hchunk := onHeap_answered 4 (by decide) (by decide) hlast hm₂
  refine ⟨{ m₂ with
    heap := behind fails k (n + 1 + 1024 + 1)
    chunks := Function.update m₂.chunks (k.page (n + 1 + 1024)) (k.page n) }, ?_, rfl⟩
  rw [pagingNew4gb, bind_of_ok hdirectory, bind_of_ok hloop, bind_of_ok hchunk,
    bind_of_ok (setDirectoryEntry_ok (u := ()).mpr ⟨hlast.2, rfl⟩), pure_apply]

theorem pagingNew4gb_null (h : ¬∀ i < 1026, Answered fails k (n + i))
    (hm : m.heap = behind fails k n) : pagingNew4gb flags m = .error .nullPointer := by
  by_cases hfirst : Answered fails k n
  · have hdirectory := onHeap_answered (4 * pagingTotalEntriesPerTable) (by decide) (by decide)
      hfirst hm
    rw [pagingNew4gb, bind_of_ok hdirectory]
    by_cases htables : ∀ i < 1024, Answered fails k (n + 1 + i)
    · obtain ⟨o, m₂, hloop, hm₂⟩ := @pagingNewTables_answered _ _ _ flags _
        { m with heap := behind fails k (n + 1) } hfirst.2 _ htables rfl 0
      have hlast : ¬Answered fails k (n + 1 + 1024) := by
        intro hlast
        refine h fun i hi => ?_
        rcases Nat.eq_zero_or_pos i with rfl | hpos
        · exact hfirst
        · obtain ⟨j, rfl⟩ : ∃ j, i = 1 + j := ⟨i - 1, by omega⟩
          rw [← Nat.add_assoc]
          rcases Nat.lt_or_ge j 1024 with hlt | hge
          · exact htables j hlt
          · obtain rfl : j = 1024 := by omega
            exact hlast
      obtain ⟨m₃, hchunk⟩ := onHeap_null 4 (by decide) (by decide) hlast hm₂
      rw [bind_of_ok hloop, bind_of_ok hchunk, bind_of_error]
      rw [setDirectoryEntry, if_pos rfl, abort_apply]
    · rw [bind_of_error (pagingNewTables_null hfirst.2 htables rfl 0)]
  · obtain ⟨m₁, hdirectory⟩ :=
      onHeap_null (4 * pagingTotalEntriesPerTable) (by decide) (by decide) hfirst hm
    rw [pagingNew4gb, bind_of_ok hdirectory, bind_of_error (pagingNewTables_directory flags 0 m₁)]

end Directory

section TaskRequests
variable {fails : ℕ → Bool} {t process : ℕ}

theorem taskListAppend_null {σ : Type} [Requests σ] {s : TaskLayer σ} (ht : t ≠ 0) :
    taskListAppend t s = .error .nullPointer ↔ s.taskHead ≠ 0 ∧ s.taskTail = 0 := by
  have hset : ∀ {u : ℕ} {f : Task → Task} {s : TaskLayer σ}, u ≠ 0 →
      setTask u f s ≠ .error .nullPointer := by
    intro u f s hu
    cases hat : s.tasks u with
    | none =>
      have herr : taskAt u s = .error .freedTask := by
        rw [taskAt, bind_of_ok (get_apply s), if_neg hu, hat]
        exact abort_apply _ _
      rw [setTask, bind_of_error herr]
      simp
    | some x => simp [setTask_of_some hu hat]
  rw [taskListAppend, bind_of_ok (get_apply s)]
  by_cases hhead : s.taskHead = 0
  · simp [hhead]
  · rw [if_neg hhead]
    refine ⟨fun hnull => ⟨hhead, ?_⟩, fun h => ?_⟩
    · by_contra htail
      cases h₁ : setTask s.taskTail (fun x => { x with next := t }) s with
      | error e =>
        rw [bind_of_error h₁] at hnull
        exact hset htail (h₁.trans hnull)
      | ok r =>
        rw [bind_of_ok h₁] at hnull
        cases h₂ : setTask t (fun x => { x with prev := s.taskTail }) r.2 with
        | error e =>
          rw [bind_of_error h₂] at hnull
          exact hset ht (h₂.trans hnull)
        | ok r' =>
          rw [bind_of_ok h₂, modify_apply] at hnull
          cases hnull
    · have hat : taskAt s.taskTail s = .error .nullPointer := by
        rw [taskAt, bind_of_ok (get_apply s), if_pos h.2, abort_apply]
      have htail : setTask s.taskTail (fun x => { x with next := t }) s = .error .nullPointer := by
        rw [setTask, bind_of_error hat]
      rw [bind_of_error htail]

variable {k : KernelHeap} {s : TaskLayer (Faulty fails KernelHeap)}

theorem taskNew_answered (hs : s.heap = behind fails k 0) (h : ∀ i < 1027, Answered fails k i) :
    ∃ m, m.heap = behind fails k 1027 ∧ taskNew process s =
      match taskListAppend (k.page 0) (s.withNewTask m (k.page 0) (k.page 1026) process) with
      | .error e => .error e
      | .ok (_, s') => .ok (k.page 0, s') := by
  have hfirst : Answered fails k 0 := h 0 (by decide)
  have hask : Requests.ask 64 s.heap = (k.page 0, behind fails k 1) := by
    rw [hs]
    exact ask_behind (by decide) (by decide) hfirst.1
  have hafter : (s.afterKzalloc 64).heap = behind fails k 1 := by rw [afterKzalloc, hask]
  obtain ⟨m, hpaging, hm⟩ := @pagingNew4gb_answered _ _ _ 5 _
    (fun i hi => Nat.add_comm i 1 ▸ h (i + 1) (by omega)) hafter
  refine ⟨m, hm, ?_⟩
  rw [taskNew_eq, hask, if_neg hfirst.2, hpaging]
  dsimp only
  cases taskListAppend (k.page 0) (s.withNewTask m (k.page 0) (k.page 1026) process) <;> rfl

theorem taskNew_null (hs : s.heap = behind fails k 0) (h : ¬∀ i < 1027, Answered fails k i) :
    taskNew process s = .error .nullPointer := by
  rw [taskNew_eq]
  by_cases hfirst : Answered fails k 0
  · have hask : Requests.ask 64 s.heap = (k.page 0, behind fails k 1) := by
      rw [hs]
      exact ask_behind (by decide) (by decide) hfirst.1
    have hafter : (s.afterKzalloc 64).heap = behind fails k 1 := by rw [afterKzalloc, hask]
    have hrest : ¬∀ i < 1026, Answered fails k (1 + i) := by
      intro hrest
      refine h fun i hi => ?_
      cases i with
      | zero => exact hfirst
      | succ i => exact Nat.add_comm 1 i ▸ hrest i (by omega)
    rw [hask, if_neg hfirst.2, pagingNew4gb_null hrest hafter]
  · -- the task that is not there is freed
    obtain ⟨c, hrun⟩ := kzalloc_null 64 (by decide) (by decide) hfirst
    rw [← hs] at hrun
    have hnull : (Requests.ask 64 s.heap).1 = 0 := (ok_inj hrun).1
    rw [if_pos hnull]

end TaskRequests

/-- `paging_new_4gb` never gets to null, and undoes what it did where a request fails. -/
structure PagingSurvives (flags : ℕ) {fails : ℕ → Bool}
    (m : PagingLayer (Faulty fails KernelHeap)) : Prop where
  noNull : pagingNew4gb flags m ≠ .error .nullPointer
  undone : ∀ {chunk : ℕ} {m' : PagingLayer (Faulty fails KernelHeap)},
    pagingNew4gb flags m = .ok (chunk, m') → 0 ∈ m'.heap.given →
      chunk = 0 ∧ SameTable m.heap.store m'.heap.store

structure TaskSurvives (process : ℕ) {fails : ℕ → Bool}
    (s : TaskLayer (Faulty fails KernelHeap)) : Prop where
  noNull : taskNew process s ≠ .error .nullPointer
  undone : ∀ {r : ℕ} {s' : TaskLayer (Faulty fails KernelHeap)},
    taskNew process s = .ok (r, s') → 0 ∈ s'.heap.given →
      i32 r < 0 ∧ SameTable s.heap.store s'.heap.store ∧ s'.taskHead = s.taskHead ∧
        s'.taskTail = s.taskTail ∧ s'.currentTask = s.currentTask

theorem answered_iff {fails : ℕ → Bool} {k : KernelHeap} {n : ℕ} (hn : 0 < n) :
    (∀ i < n, Answered fails k i) ↔ (∀ i < n, fails i = false) ∧ k.FreeBlocks n := by
  constructor
  · intro h
    refine ⟨fun i hi => (h i hi).1, freeBlocks_iff.mpr ?_⟩
    have hlast := page_ne_zero.mp (h (n - 1) (by omega)).2
    omega
  · rintro ⟨hfails, hfree⟩ i hi
    exact ⟨hfails i hi, hfree.page_ne hi⟩

theorem pagingSurvives_iff (fails : ℕ → Bool) (flags : ℕ) (m : Memory) :
    PagingSurvives flags (m.withFaults fails) ↔ ∀ i < 1026, Answered fails m.heap i := by
  constructor
  · intro h
    by_contra hnot
    refine h.noNull (@pagingNew4gb_null _ m.heap 0 flags _ (fun hall => hnot ?_) rfl)
    exact fun i hi => Nat.zero_add i ▸ hall i hi
  · intro h
    obtain ⟨m', hrun, hm'⟩ := @pagingNew4gb_answered fails m.heap 0 flags (m.withFaults fails)
      (fun i hi => (Nat.zero_add i).symm ▸ h i hi) rfl
    constructor
    · simp [hrun]
    · intro chunk m'' hrun' hzero
      have hsame := (ok_inj (hrun.symm.trans hrun')).2
      rw [← hsame, hm', Nat.zero_add] at hzero
      exact absurd hzero (zero_notMem_given h)

theorem taskSurvives_iff (fails : ℕ → Bool) (process : ℕ) (s : TaskState) :
    TaskSurvives process (s.withFaults fails) ↔
      (∀ i < 1027, Answered fails s.heap i) ∧ (s.taskHead ≠ 0 → s.taskTail ≠ 0) := by
  constructor
  · intro h
    by_contra hnot
    by_cases hall : ∀ i < 1027, Answered fails s.heap i
    · obtain ⟨m, -, hrun⟩ := @taskNew_answered fails process s.heap (s.withFaults fails) rfl hall
      have happ := (@taskListAppend_null (s.heap.page 0) _ _
        ((s.withFaults fails).withNewTask m (s.heap.page 0) (s.heap.page 1026) process)
        (hall 0 (by decide)).2).mpr (by
          by_contra hlist
          exact hnot ⟨hall, fun hhead htail => hlist ⟨hhead, htail⟩⟩)
      rw [happ] at hrun
      exact h.noNull hrun
    · exact h.noNull (taskNew_null rfl hall)
  · rintro ⟨hall, hlist⟩
    obtain ⟨m, hm, hrun⟩ := @taskNew_answered fails process s.heap (s.withFaults fails) rfl hall
    have happ := @taskListAppend_null (s.heap.page 0) _ _
      ((s.withFaults fails).withNewTask m (s.heap.page 0) (s.heap.page 1026) process)
      (hall 0 (by decide)).2
    cases hl : taskListAppend (s.heap.page 0)
        ((s.withFaults fails).withNewTask m (s.heap.page 0) (s.heap.page 1026) process) with
    | error e =>
      rw [hl] at hrun happ
      refine ⟨fun hnull => ?_, fun hrun' => ?_⟩
      · rw [hrun] at hnull
        obtain rfl : e = .nullPointer := Except.error.inj hnull
        obtain ⟨hhead, htail⟩ := happ.mp rfl
        exact hlist hhead htail
      · rw [hrun] at hrun'
        cases hrun'
    | ok r =>
      rw [hl] at hrun
      have hheap : r.2.heap = m.heap := congrArg PagingLayer.heap (taskListAppend_ok hl).1
      refine ⟨by simp [hrun], ?_⟩
      intro t s'' hrun' hzero
      have hsame := (ok_inj (hrun.symm.trans hrun')).2
      rw [← hsame, hheap, hm] at hzero
      exact absurd hzero (zero_notMem_given hall)

/-- A failed request is survived on no path: what survives is a call all of whose requests are
answered. -/
theorem survives_iff (fails : ℕ → Bool) (flags process : ℕ) (m : Memory) (s : TaskState) :
    (PagingSurvives flags (m.withFaults fails) ↔
      (∀ i < 1026, fails i = false) ∧ m.heap.FreeBlocks 1026) ∧
    (TaskSurvives process (s.withFaults fails) ↔
      ((∀ i < 1027, fails i = false) ∧ s.heap.FreeBlocks 1027) ∧
        (s.taskHead ≠ 0 → s.taskTail ≠ 0)) := by
  rw [← answered_iff (by decide), ← answered_iff (by decide)]
  exact ⟨pagingSurvives_iff fails flags m, taskSurvives_iff fails process s⟩

def fullState : TaskState where
  heap := fullHeap
  pages := fun _ _ => 0
  chunks := fun _ => 0
  cr3 := 0
  currentDirectory := 0
  tasks := fun _ => none
  taskHead := 0
  taskTail := 0
  currentTask := 0
  kernelChunk := 0
  ram := fun _ => 0

/-- On a full heap both go through null. -/
theorem full_heap_not_survived :
    ¬PagingSurvives 5 (fullState.toPagingLayer.withFaults fun _ => false) ∧
    ¬TaskSurvives 0 (fullState.withFaults fun _ => false) := by
  refine ⟨fun h => h.noNull ?_, fun h => h.noNull (taskNew_null rfl fun hall => ?_)⟩
  · refine @pagingNew4gb_null _ fullHeap 0 5 _ (fun hall => ?_) rfl
    exact fullHeap_not_answered _ _ (hall 0 (by decide))
  · exact fullHeap_not_answered _ _ (hall 0 (by decide))

end Failing

end Dexter
