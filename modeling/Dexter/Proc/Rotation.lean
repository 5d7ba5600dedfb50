import Dexter.Proc.TaskRuns

/-!
# Taking turns

`task_switch(task_get_next())` again and again. A `Round` is what this is for: the tasks in the
order of their creation, and whose turn it is. The turn goes to the next task, and from the last
one back to the first; a new task joins behind the last one. The task list turns as a round does.
-/

namespace Dexter.Rotation
open Lib.Programs Lib.Runs Lib.LinkedList TaskLayer TaskRuns

@[ext] structure Round where
  tasks : List ℕ
  turn : ℕ
  inside : turn < tasks.length

namespace Round
variable (r : Round)

def current : ℕ := r.tasks.get ⟨r.turn, r.inside⟩

def advance (n : ℕ) : Round where
  tasks := r.tasks
  turn := (r.turn + n) % r.tasks.length
  inside := Nat.mod_lt _ (Nat.zero_lt_of_lt r.inside)

def next : Round := r.advance 1

def join (t : ℕ) : Round where
  tasks := r.tasks ++ [t]
  turn := r.turn
  inside := by
    have h := r.inside
    rw [List.length_append]
    omega

def visits (n : ℕ) : List ℕ := (List.range n).map fun k => (r.advance (k + 1)).current

variable {r}

theorem next_advance (n : ℕ) : r.next.advance n = r.advance (n + 1) := by
  ext1
  · rfl
  · show ((r.turn + 1) % r.tasks.length + n) % r.tasks.length = _
    rw [Nat.mod_add_mod, add_assoc, add_comm 1 n]
    rfl

@[simp] theorem advance_zero : r.advance 0 = r := by
  ext1
  · rfl
  · exact Nat.mod_eq_of_lt r.inside

@[simp] theorem advance_length : r.advance r.tasks.length = r := by
  ext1
  · rfl
  · show (r.turn + r.tasks.length) % r.tasks.length = r.turn
    rw [Nat.add_mod_right, Nat.mod_eq_of_lt r.inside]

theorem visits_succ (n : ℕ) : r.visits (n + 1) = r.next.current :: r.next.visits n := by
  simp only [visits, List.range_succ_eq_map, List.map_cons, List.map_map, next_advance]
  rfl

theorem visits_length : r.visits r.tasks.length = r.tasks.rotate (r.turn + 1) := by
  apply List.ext_getElem
  · simp [visits]
  · intro k h₁ h₂
    simp only [visits, List.getElem_map, List.getElem_range, List.getElem_rotate, current,
      advance, List.get_eq_getElem]
    congr 2
    omega

theorem join_current (t : ℕ) : (r.join t).current = r.current :=
  List.getElem_append_left r.inside

theorem current_mem : r.current ∈ r.tasks := List.get_mem _ _

theorem split : ∃ l₁ l₂, r.tasks = l₁ ++ r.current :: l₂ ∧ l₁.length = r.turn := by
  refine ⟨r.tasks.take r.turn, r.tasks.drop (r.turn + 1), ?_, ?_⟩
  · rw [current, List.get_eq_getElem, List.getElem_cons_drop, List.take_append_drop]
  · rw [List.length_take, Nat.min_eq_left r.inside.le]

theorem next_current {l₁ l₂ : List ℕ} (h : r.tasks = l₁ ++ r.current :: l₂)
    (hlen : l₁.length = r.turn) : r.next.current = l₂.headD (r.tasks.headD 0) := by
  have hget : ∀ k (hk : k < r.tasks.length), k = (r.turn + 1) % r.tasks.length →
      r.next.current = r.tasks.get ⟨k, hk⟩ := by
    intro k hk heq
    subst heq
    rfl
  have htotal : r.tasks.length = r.turn + 1 + l₂.length := by
    rw [h, List.length_append, List.length_cons, hlen]
    omega
  cases l₂ with
  | nil =>
    have hz : 0 < r.tasks.length := Nat.zero_lt_of_lt r.inside
    rw [hget 0 hz (by rw [htotal, List.length_nil, add_zero, Nat.mod_self])]
    rw [List.headD_nil, List.get_eq_getElem, List.headD_eq_head?_getD, List.head?_eq_getElem?,
      List.getElem?_eq_getElem hz, Option.getD_some]
  | cons y l₂ =>
    rw [List.length_cons] at htotal
    have hlt : r.turn + 1 < r.tasks.length := by omega
    rw [hget (r.turn + 1) hlt (Nat.mod_eq_of_lt hlt).symm, List.headD_cons, List.get_eq_getElem]
    have hopt : r.tasks[r.turn + 1]? = some y := by
      rw [h, List.getElem?_append_right (by omega), show r.turn + 1 - l₁.length = 1 by omega]
      rfl
    exact Option.some.inj ((List.getElem?_eq_getElem hlt).symm.trans hopt)

end Round

def rotate : Prog Crash TaskState Unit := do
  let task ← taskGetNext
  taskSwitch task

def turns : ℕ → Prog Crash TaskState (List ℕ)
  | 0 => pure []
  | n + 1 => do
    rotate
    let s ← get
    let rest ← turns n
    pure (s.currentTask :: rest)

structure Turning (s : TaskState) (r : Round) : Prop where
  held : Held s r.tasks
  linked : Linked (node s) s.taskHead s.taskTail r.tasks
  current : s.currentTask = r.current

section Step
variable {s s' : TaskState} {r : Round}

theorem Turning.taskGetNext (h : Turning s r) :
    taskGetNext s = .ok (r.next.current, s) := by
  obtain ⟨l₁, l₂, hsplit, hlen⟩ := r.split
  have hwalk := h.linked.walk
  rw [hsplit] at hwalk
  obtain ⟨q, hnode⟩ := hwalk.next
  obtain ⟨x, hx, hnext, -⟩ := node_eq_some hnode
  have hne := (h.linked.walk.node_ne r.current_mem).1
  have hhead : s.taskHead = r.tasks.headD 0 := by
    cases ht : r.tasks with
    | nil => exact h.linked.head_eq_zero.mpr ht
    | cons y ys =>
      have hw := h.linked.walk
      rw [ht] at hw
      exact hw.1
  rw [Dexter.taskGetNext, bind_of_ok (get_apply s), h.current, bind_of_ok (taskAt_of_some hne hx),
    r.next_current hsplit hlen, hnext, hhead]
  cases l₂ with
  | nil => rfl
  | cons y l₂ =>
    have hy : y ≠ 0 := (h.linked.walk.node_ne (by rw [hsplit]; simp)).1
    rw [List.headD_cons, if_neg hy, List.headD_cons]
    rfl

theorem held_elsewhere {live : List ℕ} (h : Held s live) (task loaded directory : ℕ) :
    Held { s with currentTask := task, cr3 := loaded, currentDirectory := directory } live :=
  And.left (h.congr (fun _ _ => rfl) (fun _ _ => ⟨rfl, rfl⟩) h.owns)

theorem Turning.rotate (h : Turning s r) : ∃ s', rotate s = .ok ((), s') ∧ Turning s' r.next := by
  have hmem : r.next.current ∈ r.tasks := r.next.current_mem
  obtain ⟨hne, n, q, hnode⟩ := h.linked.walk.node_ne hmem
  obtain ⟨x, hx, -, -⟩ := node_eq_some hnode
  obtain ⟨chunk, hchunk, hs, -⟩ := h.held.held _ hmem
  obtain rfl : x.pageDirectory = chunk := by
    rw [spaceOf, hx] at hchunk
    exact Option.some.inj hchunk
  refine ⟨TaskLayer.onTask { s with currentTask := r.next.current } x, ?_, ?_⟩
  · rw [Rotation.rotate, bind_of_ok h.taskGetNext]
    exact taskSwitch_ok.mpr ⟨hne, x, hx, hs.chunk_ne, rfl⟩
  · exact ⟨held_elsewhere h.held _ _ _, h.linked, rfl⟩

theorem Turning.turns (h : Turning s r) (n : ℕ) :
    ∃ s', turns n s = .ok (r.visits n, s') ∧ Turning s' (r.advance n) := by
  induction n generalizing s r with
  | zero =>
    refine ⟨s, rfl, ?_⟩
    rwa [Round.advance_zero]
  | succ n ih =>
    obtain ⟨s₁, hrun, h₁⟩ := h.rotate
    obtain ⟨s₂, hrest, h₂⟩ := ih h₁
    refine ⟨s₂, ?_, ?_⟩
    · rw [Rotation.turns, bind_of_ok hrun, bind_of_ok (get_apply s₁), bind_of_ok hrest,
        pure_apply, h₁.current, Round.visits_succ]
    · rwa [← Round.next_advance]

theorem taskListAppend_keeps {t : ℕ} (hhead : s.taskHead ≠ 0)
    (h : taskListAppend t s = .ok ((), s')) : s'.currentTask = s.currentTask := by
  rw [taskListAppend, bind_of_ok (get_apply s), if_neg hhead] at h
  obtain ⟨u₁, s₁, h₁, h⟩ := bind_ok.mp h
  obtain ⟨-, x, -, rfl⟩ := setTask_ok.mp h₁
  obtain ⟨u₂, s₂, h₂, h⟩ := bind_ok.mp h
  obtain ⟨-, y, -, rfl⟩ := setTask_ok.mp h₂
  rw [modify_apply] at h
  obtain ⟨-, rfl⟩ := ok_inj h
  rfl

theorem Turning.new (h : Turning s r) {t process : ℕ} (hnew : taskNew process s = .ok (t, s')) :
    Turning s' (r.join t) := by
  have hw : WellFormed s r.tasks := ⟨h.linked, Or.inl (h.current ▸ r.current_mem)⟩
  refine ⟨h.held.new hnew, (new_wellFormed h.held hw hnew).linked, ?_⟩
  obtain ⟨chunk, m, -, -, -, happend⟩ := taskNew_ok hnew
  have hhead : s.taskHead ≠ 0 := by
    intro h0
    have hnil := h.linked.head_eq_zero.mp h0
    exact absurd r.inside (by simp [hnil])
  have hsame := taskListAppend_keeps (s := s.withNewTask m t chunk process) hhead happend
  rw [Round.join_current]
  exact hsame.trans h.current

end Step

inductive Op
  | new (process : ℕ)
  | turn
  deriving DecidableEq, Repr

def step : TaskState × Round → Op → Option (TaskState × Round)
  | (s, r), .new process =>
    match taskNew process s with
    | .ok (t, s') => if i32 t < 0 then none else some (s', r.join t)
    | .error _ => none
  | (s, r), .turn =>
    match rotate s with
    | .ok (_, s') => some (s', r.next)
    | .error _ => none

structure InTurn (s : TaskState) (r : Round) : Prop where
  current : s.currentTask = r.current
  distinct : r.tasks.Nodup
  onward : ∀ n, ∃ s', turns n s = .ok (r.visits n, s') ∧ s'.currentTask = (r.advance n).current
  around : ∃ s', turns r.tasks.length s = .ok (r.tasks.rotate (r.turn + 1), s') ∧
    s'.currentTask = r.current

section Runs
variable {s : TaskState} {r : Round}

theorem Turning.inTurn (h : Turning s r) : InTurn s r := by
  refine ⟨h.current, h.held.nodup, fun n => ?_, ?_⟩
  · obtain ⟨s', hrun, h'⟩ := h.turns n
    exact ⟨s', hrun, h'.current⟩
  · obtain ⟨s', hrun, h'⟩ := h.turns r.tasks.length
    rw [Round.visits_length] at hrun
    rw [Round.advance_length] at h'
    exact ⟨s', hrun, h'.current⟩

theorem step_turning {a : Op} {c' : TaskState × Round} (h : Turning s r)
    (hstep : step (s, r) a = some c') : Turning c'.1 c'.2 := by
  cases a with
  | new process =>
    dsimp only [step] at hstep
    cases hrun : taskNew process s with
    | error e => simp [hrun] at hstep
    | ok p =>
      simp only [hrun] at hstep
      split_ifs at hstep
      obtain rfl := Option.some.inj hstep
      exact h.new hrun
  | turn =>
    obtain ⟨s', hrun, h'⟩ := h.rotate
    simp only [step, hrun] at hstep
    obtain rfl := Option.some.inj hstep
    exact h'

theorem turning_throughout (h : Turning s r) (ops : List Op) :
    Throughout step (fun c => InTurn c.1 c.2) (s, r) ops := by
  induction ops generalizing s r with
  | nil => exact h.inTurn
  | cons a ops ih => exact ⟨h.inTurn, fun c' hstep => ih (step_turning h hstep)⟩

theorem created_held {c c' : TaskState × List ℕ} {processes : List ℕ}
    (h : Held c.1 c.2) (hw : WellFormed c.1 c.2)
    (hrun : exec TaskRuns.step c (processes.map .new) = some c') :
    (Held c'.1 c'.2 ∧ WellFormed c'.1 c'.2) ∧ c'.2.length = c.2.length + processes.length := by
  induction processes generalizing c with
  | nil =>
    obtain rfl := Option.some.inj hrun
    exact ⟨⟨h, hw⟩, rfl⟩
  | cons process rest ih =>
    obtain ⟨c₁, hstep, hrest⟩ := exec_cons_some.mp hrun
    have h₁ := step_held h hw hstep
    obtain ⟨t, s₁, -, rfl⟩ := step_new hstep
    obtain ⟨hgood, hlen⟩ := ih h₁.1 (h₁.2.mpr trivial) hrest
    refine ⟨hgood, hlen.trans ?_⟩
    rw [List.length_append, List.length_singleton, List.length_cons]
    omega

/-- From a list of `n` new tasks on, whichever of them is current, the turns visit the tasks in
the order of their creation, everyone once in a round, and go on so with the tasks that join. -/
theorem turns_in_order_of_creation (m : Memory) (tasks : ℕ → Option Task) (kernelChunk : ℕ)
    (ram : ℕ → UInt8) (processes : List ℕ) {live : List ℕ}
    (hrun : exec TaskRuns.step (⟨m, tasks, 0, 0, 0, kernelChunk, ram⟩, [])
      (processes.map .new) = some (s, live)) (hr : r.tasks = live) (ops : List Op) :
    live.length = processes.length ∧ Throughout step (fun c => InTurn c.1 c.2)
      ({ s with currentTask := r.current }, r) ops := by
  have hheld : Held ⟨m, tasks, 0, 0, 0, kernelChunk, ram⟩ [] :=
    ⟨List.Pairwise.nil, fun t ht => absurd ht List.not_mem_nil⟩
  have hw : WellFormed ⟨m, tasks, 0, 0, 0, kernelChunk, ram⟩ [] :=
    ⟨⟨rfl, rfl⟩, Or.inr ⟨rfl, rfl⟩⟩
  obtain ⟨⟨h, hw'⟩, hlen⟩ := created_held hheld hw hrun
  subst hr
  have hturning : Turning { s with currentTask := r.current } r :=
    ⟨held_elsewhere h _ _ _, hw'.linked, rfl⟩
  exact ⟨hlen.trans (Nat.zero_add _), turning_throughout hturning ops⟩

theorem turns_in_order_of_creation_two : ∃ (s : TaskState) (r : Round),
    r.tasks.length = 2 ∧ r.turn = 1 ∧ Throughout step (fun c => InTurn c.1 c.2)
      ({ s with currentTask := r.current }, r) [.turn, .new 7, .turn] := by
  obtain ⟨s₁, s₂, t, hs₁, hs₂, -⟩ := boot_creates_two 5 6
  have hrun : exec TaskRuns.step (bootTasks, []) ([5, 6].map .new) =
      some (s₂, [16777216, t]) := by
    simp only [List.map_cons, List.map_nil, exec, hs₁, Option.bind_some, hs₂]
  have h := turns_in_order_of_creation bootTasks.toPagingLayer bootTasks.tasks 0 bootTasks.ram [5, 6]
    hrun (r := ⟨[16777216, t], 1, by simp⟩) rfl [.turn, .new 7, .turn]
  exact ⟨s₂, ⟨[16777216, t], 1, by simp⟩, h.1, rfl, h.2⟩

end Runs

end Dexter.Rotation
