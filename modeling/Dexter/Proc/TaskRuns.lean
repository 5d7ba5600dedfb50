import Dexter.Proc.Task
import Dexter.Lib.Runs

/-!
# Runs of task creations and releases

The state of a run is the task state with the list of the live tasks in creation
order, which no operation of the source reads. `Held` says that the live tasks and
their address spaces are built in frames of their own; every successful step keeps
it. The shape of the list is kept by every creation, and by a release exactly when
it releases the last task of the list: `task_list_remove` does not write the `prev`
link of the task behind the one it takes out.
-/

namespace Dexter.TaskRuns
open Lib.Programs Lib.Runs Lib.LinkedList TaskLayer

def node (s : TaskState) (t : ℕ) : Option (ℕ × ℕ) := (s.tasks t).map Task.links

def spaceOf (s : TaskState) (t : ℕ) : Option ℕ := (s.tasks t).map Task.pageDirectory

def taskFrames (s : TaskState) (t : ℕ) : Set ℕ :=
  {p | p = t ∨ ∃ chunk, spaceOf s t = some chunk ∧ p ∈ s.spaceFrames chunk}

structure Held (s : TaskState) (live : List ℕ) : Prop where
  apart : live.Pairwise fun t u => Disjoint (taskFrames s t) (taskFrames s u)
  held : ∀ t ∈ live, ∃ chunk, spaceOf s t = some chunk ∧ s.AddressSpace chunk ∧
    s.heap.Owns (taskFrames s t)

/-- From the head on, the list visits the live tasks in creation order and ends at the tail,
with the links back, and the current task is one of them. -/
structure WellFormed (s : TaskState) (live : List ℕ) : Prop where
  linked : Linked (node s) s.taskHead s.taskTail live
  current : s.currentTask ∈ live ∨ live = [] ∧ s.currentTask = 0

def NoFreedAccess (s : TaskState) (live : List ℕ) : Prop :=
  (∀ process, taskNew process s ≠ .error .freedTask) ∧
    ∀ t ∈ live, taskFree t s ≠ .error .freedTask

inductive Op
  | new (process : ℕ)
  | free (task : ℕ)
  deriving DecidableEq, Repr

def step : TaskState × List ℕ → Op → Option (TaskState × List ℕ)
  | (s, live), .new process =>
    match taskNew process s with
    | .ok (t, s') => if i32 t < 0 then none else some (s', live ++ [t])
    | .error _ => none
  | (s, live), .free t =>
    if t ∈ live then
      match taskFree t s with
      | .ok (_, s') => some (s', live.erase t)
      | .error _ => none
    else none

def Good (c : TaskState × List ℕ) : Prop := WellFormed c.1 c.2 ∧ NoFreedAccess c.1 c.2

/-- The step releases the last task of the list, if it releases one. -/
def FreesLast (c : TaskState × List ℕ) : Op → Prop
  | .new _ => True
  | .free t => c.2.getLast? = some t

section Frames
variable {s s' : TaskState} {live : List ℕ} {t u chunk : ℕ}

def allFrames (s : TaskState) (live : List ℕ) : Set ℕ := {p | ∃ t ∈ live, p ∈ taskFrames s t}

theorem Held.owns (h : Held s live) : s.heap.Owns (allFrames s live) := by
  intro p ⟨t, ht, hp⟩
  obtain ⟨chunk, -, -, howns⟩ := h.held t ht
  exact howns p hp

theorem mem_allFrames (ht : t ∈ live) : t ∈ allFrames s live := ⟨t, ht, Or.inl rfl⟩

theorem taskFrames_congr (hspace : spaceOf s' t = spaceOf s t)
    (hframes : ∀ chunk, spaceOf s t = some chunk → s'.spaceFrames chunk = s.spaceFrames chunk) :
    taskFrames s' t = taskFrames s t := by
  ext p
  constructor
  · intro hp
    rcases hp with hp | ⟨chunk, hc, hp⟩
    · exact Or.inl hp
    · rw [hspace] at hc
      exact Or.inr ⟨chunk, hc, hframes chunk hc ▸ hp⟩
  · intro hp
    rcases hp with hp | ⟨chunk, hc, hp⟩
    · exact Or.inl hp
    · exact Or.inr ⟨chunk, hspace.trans hc, (hframes chunk hc).symm ▸ hp⟩

theorem Held.congr (h : Held s live) (hspace : ∀ t ∈ live, spaceOf s' t = spaceOf s t)
    (hagree : PagingLayer.AgreeOn (allFrames s live) s.toPagingLayer s'.toPagingLayer)
    (howns : s'.heap.Owns (allFrames s live)) :
    Held s' live ∧ ∀ t ∈ live, taskFrames s' t = taskFrames s t := by
  have hsub : ∀ t ∈ live, ∀ chunk, spaceOf s t = some chunk →
      s.spaceFrames chunk ⊆ allFrames s live := fun t ht chunk hc p hp =>
    ⟨t, ht, Or.inr ⟨chunk, hc, hp⟩⟩
  have hag : ∀ t ∈ live, ∀ chunk, spaceOf s t = some chunk →
      PagingLayer.AgreeOn (s.spaceFrames chunk) s.toPagingLayer s'.toPagingLayer := fun t ht chunk hc p hp =>
    hagree p (hsub t ht chunk hc hp)
  have hframes : ∀ t ∈ live, taskFrames s' t = taskFrames s t := fun t ht =>
    taskFrames_congr (hspace t ht) fun chunk hc => PagingLayer.spaceFrames_congr (hag t ht chunk hc)
  refine ⟨⟨?_, ?_⟩, hframes⟩
  · apply h.apart.imp_of_mem
    intro t u ht hu hdis
    rwa [hframes t ht, hframes u hu]
  · intro t ht
    obtain ⟨chunk, hc, hs, -⟩ := h.held t ht
    refine ⟨chunk, (hspace t ht).trans hc, ?_, ?_⟩
    · exact hs.congr (hag t ht chunk hc) (howns.mono (hsub t ht chunk hc))
    · rw [hframes t ht]
      exact howns.mono fun p hp => ⟨t, ht, hp⟩

theorem Held.nodup (h : Held s live) : live.Nodup := by
  apply h.apart.imp
  intro t u hdis heq
  exact Set.disjoint_left.mp hdis (Or.inl rfl) (Or.inl heq)

end Frames

section New
variable {s s' : TaskState} {live : List ℕ} {t process : ℕ}

theorem spaceOf_new {A : Set ℕ} {chunk : ℕ} (h : NewTask A process s t chunk s') (u : ℕ) :
    spaceOf s' u = if u = t then some chunk else spaceOf s u := by
  have hspace := congrArg (Option.map fun x : ℕ × Registers × ℕ => x.1) (h.content u)
  rw [Option.map_map, apply_ite (Option.map _), Option.map_map] at hspace
  exact hspace

theorem Held.new (h : Held s live) (hnew : taskNew process s = .ok (t, s')) :
    Held s' (live ++ [t]) := by
  obtain ⟨chunk, htask⟩ := taskNew_spec h.owns hnew
  have hself : spaceOf s' t = some chunk := (spaceOf_new htask t).trans (if_pos rfl)
  have hne : ∀ u ∈ live, u ≠ t := fun u hu heq => htask.fresh (heq ▸ mem_allFrames hu)
  have hother : ∀ u ∈ live, spaceOf s' u = spaceOf s u := fun u hu =>
    (spaceOf_new htask u).trans (if_neg (hne u hu))
  have hold := h.congr hother htask.agree
    (htask.owned.mono fun p hp => Or.inl (Or.inl hp))
  have hframe : taskFrames s' t = {t} ∪ s'.spaceFrames chunk := by
    ext p
    simp [taskFrames, hself]
  constructor
  · refine List.pairwise_append.mpr ⟨hold.1.apart, List.pairwise_singleton _ _, ?_⟩
    intro u hu v hv
    obtain rfl := List.mem_singleton.mp hv
    rw [hold.2 u hu, hframe, Set.disjoint_left]
    intro p hp hpt
    have hpA : p ∈ allFrames s live := ⟨u, hu, hp⟩
    rcases hpt with hpt | hpt
    · exact htask.fresh (hpt ▸ hpA)
    · exact Set.disjoint_left.mp htask.space.fresh (Or.inl hpA) hpt
  · intro u hu
    rcases List.mem_append.mp hu with hu | hu
    · exact hold.1.held u hu
    · obtain rfl := List.mem_singleton.mp hu
      refine ⟨chunk, hself, htask.space.space, ?_⟩
      rw [hframe]
      refine htask.owned.mono fun p hp => ?_
      exact hp.imp_left Or.inr

theorem node_eq_some {n q : ℕ} (h : node s t = some (n, q)) :
    ∃ x, s.tasks t = some x ∧ x.next = n ∧ x.prev = q := by
  unfold node at h
  obtain ⟨x, hx, hxl⟩ := Option.map_eq_some_iff.mp h
  obtain ⟨hn, hq⟩ := Prod.mk.inj hxl
  exact ⟨x, hx, hn, hq⟩

theorem node_of_tasks {x : Task} (h : s.tasks t = some x) : node s t = some (x.next, x.prev) := by
  rw [node, h]
  rfl

theorem node_putTask_of_ne {u : ℕ} (h : u ≠ t) (x : Option Task) :
    node (s.putTask t x) u = node s u := by
  rw [node, putTask_of_ne h, node]

theorem taskListAppend_wellFormed (h : WellFormed s live) (ht : t ≠ 0) {y : Task}
    (hy : s.tasks t = some y) (hlinks : y.links = (0, 0)) (hnodup : (live ++ [t]).Nodup) :
    ∃ s', taskListAppend t s = .ok ((), s') ∧ WellFormed s' (live ++ [t]) := by
  obtain ⟨hnext, hprev⟩ := Prod.mk.inj hlinks
  have htlive := (nodup_snoc hnodup).2
  rw [taskListAppend, bind_of_ok (get_apply s)]
  by_cases hhead : s.taskHead = 0
  · obtain rfl := h.linked.head_eq_zero.mp hhead
    have htail : s.taskTail = 0 := h.linked.last
    have hl := @Linked.snoc _ (node s) _ _ _ _ h.linked ht hnodup
      (by rw [node_of_tasks hy, hnext, hprev, htail]) (fun q _ hm => absurd hm List.not_mem_nil)
      (fun _ _ _ => rfl)
    rw [if_pos hhead] at hl
    rw [if_pos hhead]
    exact ⟨_, rfl, hl, Or.inl List.mem_cons_self⟩
  · have hne : live ≠ [] := fun hl => hhead (h.linked.head_eq_zero.mpr hl)
    have hmem := h.linked.tail_mem hne
    obtain ⟨ht0, n, q, hnode⟩ := h.linked.walk.node_ne hmem
    obtain ⟨x, hx, -, hxq⟩ := node_eq_some hnode
    have htt : t ≠ s.taskTail := fun heq => htlive (heq ▸ hmem)
    have hy' : (s.putTask s.taskTail (some { x with next := t })).tasks t = some y := by
      rw [putTask_of_ne htt, hy]
    rw [if_neg hhead, bind_of_ok (setTask_of_some ht0 hx), bind_of_ok (setTask_of_some ht hy')]
    refine ⟨_, rfl, ?_, ?_⟩
    · have hl := @Linked.snoc _ (node (TaskLayer.putTask t
        (some { y with prev := s.taskTail }) (s.putTask s.taskTail (some { x with next := t }))))
        _ _ _ _ h.linked ht hnodup (by rw [node_of_tasks (putTask_self _ _ _), hnext]) ?_ ?_
      · rw [if_neg hhead] at hl
        exact hl
      · intro r hr _
        rw [node_putTask_of_ne htt.symm, node_of_tasks (putTask_self _ _ _)]
        rw [node_of_tasks hx] at hr
        rw [← (Prod.mk.inj (Option.some.inj hr)).2]
      · intro u hu hut
        have hut' : u ≠ t := fun heq => htlive (heq ▸ hu)
        rw [node_putTask_of_ne hut', node_putTask_of_ne hut]
    · exact Or.inl (List.mem_append_left _ (h.current.resolve_right fun hc => hne hc.1))

theorem new_appends (h : Held s live) (hw : WellFormed s live)
    (ht : (s.heap.malloc 64).1 ≠ 0) (m : Memory) (chunk process : ℕ) :
    ∃ s', taskListAppend (s.heap.malloc 64).1
      (s.withNewTask m (s.heap.malloc 64).1 chunk process) = .ok ((), s') ∧
      WellFormed s' (live ++ [(s.heap.malloc 64).1]) := by
  have hmalloc := @KernelHeap.malloc_spec s.heap 64 (by decide)
  have htA := hmalloc.fresh h.owns
  generalize (s.heap.malloc 64).1 = t at ht htA
  have hlive : t ∉ live := fun hm => htA (mem_allFrames hm)
  have hsame : ∀ u ∈ live, node (s.withNewTask m t chunk process) u = node s u := by
    intro u hu
    have hut : u ≠ t := fun heq => hlive (heq ▸ hu)
    rw [node, withNewTask_of_ne hut, node]
  have hw' : WellFormed (s.withNewTask m t chunk process) live :=
    ⟨hw.linked.congr hsame, hw.current⟩
  apply taskListAppend_wellFormed hw' ht (withNewTask_self s m t chunk process) rfl
  exact List.nodup_append.mpr ⟨h.nodup, List.nodup_singleton t, fun u hu v hv heq =>
    hlive (List.mem_singleton.mp hv ▸ heq ▸ hu)⟩

theorem new_wellFormed (h : Held s live) (hw : WellFormed s live)
    (hnew : taskNew process s = .ok (t, s')) : WellFormed s' (live ++ [t]) := by
  obtain ⟨chunk, m, ht, rfl, -, happ⟩ := taskNew_ok hnew
  obtain ⟨s'', happ', hw'⟩ := new_appends h hw ht m chunk process
  rw [happ'] at happ
  exact (ok_inj happ).2 ▸ hw'

theorem new_avoids (h : Held s live) (hw : WellFormed s live) :
    taskNew process s ≠ .error .freedTask := by
  rw [taskNew_eq, KernelHeap.ask_eq]
  split_ifs with ht
  · simp
  · cases hp : pagingNew4gb 5 (s.afterKzalloc 64) with
    | error e =>
      intro he
      exact pagingNew4gb_avoids 5 _ (hp.trans (congrArg _ (Except.error.inj he)))
    | ok r =>
      obtain ⟨s'', happ, -⟩ := new_appends h hw ht r.2 r.1 process
      simp [happ]

end New

section Free
variable {s s' : TaskState} {live l₁ l₂ : List ℕ} {t u : ℕ}

structure Released (s : TaskState) (t : ℕ) (x : Task) (s' : TaskState) : Prop where
  run : taskFree t s = .ok ((), s')
  object : s.tasks t = some x
  tasks : s'.tasks = Function.update (s.unlinked t x).tasks t none
  head : s'.taskHead = if t = s.taskHead then x.next else s.taskHead
  tail : s'.taskTail = if t = s.taskTail then x.prev else s.taskTail
  current : s'.currentTask =
    if t = s.currentTask then if x.next = 0 then s'.taskHead else x.next else s.currentTask

theorem Held.disjoint (h : Held s live) {u : ℕ} (ht : t ∈ live) (hu : u ∈ live) (hne : u ≠ t) :
    Disjoint (taskFrames s u) (taskFrames s t) := by
  have hsymm : Std.Symm fun t u => Disjoint (taskFrames s t) (taskFrames s u) :=
    ⟨fun _ _ hd => hd.symm⟩
  exact h.apart.forall hu ht hne

theorem Held.sublist (h : Held s live) {rest : List ℕ} (hsub : rest.Sublist live) :
    Held s rest :=
  ⟨h.apart.sublist hsub, fun t ht => h.held t (hsub.subset ht)⟩

theorem prev_live (hw : WellFormed s live) (hnodup : live.Nodup) (ht : t ∈ live) {x : Task}
    (hx : s.tasks t = some x) (h0 : x.prev ≠ 0) : x.prev ≠ t ∧ x.prev ∈ live := by
  obtain ⟨l₁, l₂, rfl⟩ := List.append_of_mem ht
  obtain ⟨n, hn⟩ := hw.linked.walk.prev
  rw [node_of_tasks hx] at hn
  have hp : x.prev = l₁.getLastD 0 := (Prod.mk.inj (Option.some.inj hn)).2
  rcases List.eq_nil_or_concat' l₁ with rfl | ⟨ys, y, rfl⟩
  · exact absurd hp h0
  · have hpy : x.prev = y := by simpa using hp
    rw [hpy]
    refine ⟨fun heq => ?_, by simp⟩
    simp [heq, List.nodup_append] at hnodup

theorem spaceOf_unlinked {x : Task} (u : ℕ) : spaceOf (s.unlinked t x) u = spaceOf s u := by
  unfold spaceOf unlinked
  by_cases h0 : x.prev = 0
  · simp only [h0, if_true]
  · simp only [h0, if_false]
    by_cases hu : u = x.prev
    · subst hu
      rw [Function.update_self, Option.map_map]
      rfl
    · rw [Function.update_of_ne hu]

theorem free_spec (h : Held s live) (hw : WellFormed s live) (ht : t ∈ live) :
    ∃ x s', Released s t x s' ∧ Held s' (live.erase t) := by
  obtain ⟨ht0, n, q, hnode⟩ := hw.linked.walk.node_ne ht
  obtain ⟨x, hx, -, -⟩ := node_eq_some hnode
  have hprev : x.prev ≠ 0 → x.prev ≠ t ∧ ∃ p, s.tasks x.prev = some p := by
    intro h0
    obtain ⟨hne, hlive⟩ := prev_live hw h.nodup ht hx h0
    obtain ⟨-, n', q', hny⟩ := hw.linked.walk.node_ne hlive
    obtain ⟨p, hp, -, -⟩ := node_eq_some hny
    exact ⟨hne, p, hp⟩
  obtain ⟨chunk, hchunk, hs, howns⟩ := h.held t ht
  obtain rfl : x.pageDirectory = chunk := by
    rw [spaceOf, hx] at hchunk
    exact Option.some.inj hchunk
  -- the frames of the other tasks are not among those of `t`
  have hrest := h.sublist (live.erase_sublist (a := t))
  have hout : ∀ p ∈ allFrames s (live.erase t), p ∉ taskFrames s t := by
    intro p ⟨u, hu, hp⟩ hpt
    have hut : u ≠ t := fun heq => h.nodup.not_mem_erase (heq ▸ hu)
    exact Set.disjoint_left.mp (h.disjoint ht (List.mem_of_mem_erase hu) hut) hp hpt
  have hdis : Disjoint (allFrames s (live.erase t)) (s.spaceFrames x.pageDirectory) := by
    rw [Set.disjoint_left]
    exact fun p hp hpx => hout p hp (Or.inr ⟨_, hchunk, hpx⟩)
  have htA : t ∉ allFrames s (live.erase t) := fun hm => hout t hm (Or.inl rfl)
  have hal := howns.pos (Or.inl rfl : t ∈ taskFrames s t)
  obtain ⟨k, hk, -, hrun⟩ := taskFree_eq ht0 hx hprev hs hrest.owns hdis htA hal.2.2 (by omega)
  generalize hs' : TaskLayer.putTask t none
    { s.unlinked t x with toPagingLayer := { s.toPagingLayer with heap := k } } = s' at hrun
  have hmem : s'.toPagingLayer = { s.toPagingLayer with heap := k } := by rw [← hs', putTask_toMemory]
  have hreleased : Released s t x s' := by
    subst hs'
    exact ⟨hrun, hx, rfl, rfl, rfl, rfl⟩
  refine ⟨x, s', hreleased, ?_⟩
  refine (hrest.congr (fun u hu => ?_) (fun p _ => by simp only [hmem, and_self]) ?_).1
  · have hut : u ≠ t := fun heq => h.nodup.not_mem_erase (heq ▸ hu)
    have hspace := spaceOf_unlinked (s := s) (t := t) (x := x) u
    unfold spaceOf at hspace ⊢
    rw [hreleased.tasks, Function.update_of_ne hut, hspace]
  · rw [hmem]
    exact hk

theorem Released.node_same {x : Task} (h : Released s t x s') (hu : u ≠ t) (hux : u ≠ x.prev) :
    node s' u = node s u := by
  unfold node
  rw [h.tasks, Function.update_of_ne hu]
  unfold unlinked
  by_cases h0 : x.prev = 0
  · simp only [h0, if_true]
  · simp only [h0, if_false, Function.update_of_ne hux]

theorem Released.node_prev {x : Task} (h : Released s t x s') (h0 : x.prev ≠ 0)
    (hne : x.prev ≠ t) {n q : ℕ} (hn : node s x.prev = some (n, q)) :
    node s' x.prev = some (x.next, q) := by
  obtain ⟨p, hp, -, rfl⟩ := node_eq_some hn
  unfold node
  rw [h.tasks, Function.update_of_ne hne]
  unfold unlinked
  simp only [h0, if_false, Function.update_self, hp, Option.map_some, Task.links]

theorem free_last (hw : WellFormed s (live ++ [t])) (hnodup : (live ++ [t]).Nodup) {x : Task}
    (h : Released s t x s') : WellFormed s' live := by
  have htail : s.taskTail = t := by simpa using hw.linked.last
  obtain ⟨-, ht0, hnt⟩ := segment_snoc.mp hw.linked.walk
  have hlinked := hw.linked
  rw [node_of_tasks h.object] at hnt
  obtain ⟨hnext, hprev⟩ := Prod.mk.inj (Option.some.inj hnt)
  have htlive := (nodup_snoc hnodup).2
  rw [htail] at hlinked
  have hl : Linked (node s') s'.taskHead s'.taskTail live := by
    rw [h.head, h.tail, if_pos htail.symm, hnext]
    apply hlinked.dropLast hnodup
    · rw [node_of_tasks h.object, hnext]
    · intro n r hm hn
      have hne : x.prev ≠ t := fun heq => htlive (heq ▸ hm)
      have h0 := (hw.linked.walk.node_ne (List.mem_append_left [t] hm)).1
      rw [h.node_prev h0 hne hn, hnext]
    · intro y hy hyp
      exact h.node_same (fun heq => htlive (heq ▸ hy)) hyp
  refine ⟨hl, ?_⟩
  rw [h.current]
  split_ifs with hc
  · -- the current task goes over to the head
    by_cases hlive : live = []
    · exact Or.inr ⟨hlive, hl.head_eq_zero.mpr hlive⟩
    · exact Or.inl (hl.head_mem hlive)
  · rcases hw.current with hm | ⟨hnil, -⟩
    · rcases List.mem_append.mp hm with hm | hm
      · exact Or.inl hm
      · exact absurd (List.mem_singleton.mp hm).symm hc
    · simp at hnil

/-- Taking out any other task leaves a link to it behind. -/
theorem free_inner (hw : WellFormed s (l₁ ++ t :: u :: l₂)) (hnodup : (l₁ ++ t :: u :: l₂).Nodup)
    {x : Task} (h : Released s t x s') : ¬WellFormed s' (l₁ ++ u :: l₂) := by
  intro hw'
  have hsplit : l₁ ++ t :: u :: l₂ = (l₁ ++ [t]) ++ u :: l₂ := by simp
  obtain ⟨m, hl₁, -, ht0, n, hnt, -⟩ := segment_append.mp hw.linked.walk
  have hwalk := hw.linked.walk
  rw [hsplit] at hwalk
  obtain ⟨n₁, hn₁⟩ := hwalk.prev
  obtain ⟨n₂, hn₂⟩ := hw'.linked.walk.prev
  rw [node_of_tasks h.object] at hnt
  have hxp : x.prev = l₁.getLastD 0 := (Prod.mk.inj (Option.some.inj hnt)).2
  have ht₁ : t ∉ l₁ := by
    rw [hsplit] at hnodup
    exact (nodup_snoc (List.nodup_append.mp hnodup).1).2
  have hut : u ≠ t := by
    intro heq
    simp [heq, List.nodup_append] at hnodup
  have hlast : l₁.getLastD 0 = 0 ∨ l₁.getLastD 0 ∈ l₁ := by
    rcases List.eq_nil_or_concat' l₁ with rfl | ⟨ys, y, rfl⟩
    · exact Or.inl rfl
    · right
      simp
  -- the link of `u` still leads to `t`
  have hback : ∃ n, node s' u = some (n, t) := by
    have hn : node s u = some (n₁, t) := by simpa using hn₁
    by_cases hux : u = x.prev
    · have hu₁ : u ∈ l₁ := by
        rcases hlast with h0 | hm
        · have hu0 := (hw.linked.walk.node_ne (x := u) (by simp)).1
          exact absurd (hux.trans (hxp.trans h0)) hu0
        · exact hux ▸ hxp ▸ hm
      have hne := (List.nodup_append.mp hnodup).2.2 u hu₁ u (by simp)
      exact absurd rfl hne
    · exact ⟨n₁, (h.node_same hut hux).trans hn⟩
  obtain ⟨n', hn'⟩ := hback
  have hteq : t = l₁.getLastD 0 := by
    rw [hn'] at hn₂
    exact (Prod.mk.inj (Option.some.inj hn₂)).2
  rcases hlast with h0 | hm
  · exact ht0 (hteq.trans h0)
  · exact ht₁ (hteq ▸ hm)

end Free

section Runs
variable {c c' : TaskState × List ℕ} {a : Op}

theorem good_iff {s : TaskState} {live : List ℕ} (h : Held s live) :
    Good (s, live) ↔ WellFormed s live := by
  constructor
  · exact fun hg => hg.1
  · intro hw
    refine ⟨hw, fun process => new_avoids h hw, fun t ht => ?_⟩
    obtain ⟨x, s', hr, -⟩ := free_spec h hw ht
    simp [hr.run]

theorem step_new {s : TaskState} {live : List ℕ} {process : ℕ}
    (h : step (s, live) (.new process) = some c') :
    ∃ t s', taskNew process s = .ok (t, s') ∧ c' = (s', live ++ [t]) := by
  unfold step at h
  cases hr : taskNew process s with
  | error e => simp [hr] at h
  | ok r =>
    simp only [hr] at h
    split_ifs at h
    exact ⟨r.1, r.2, rfl, (Option.some.inj h).symm⟩

theorem step_free {s : TaskState} {live : List ℕ} {t : ℕ}
    (h : step (s, live) (.free t) = some c') :
    t ∈ live ∧ ∃ u s', taskFree t s = .ok (u, s') ∧ c' = (s', live.erase t) := by
  dsimp only [step] at h
  split_ifs at h with ht
  cases hr : taskFree t s with
  | error e => simp [hr] at h
  | ok r =>
    simp only [hr] at h
    exact ⟨ht, r.1, r.2, rfl, (Option.some.inj h).symm⟩

theorem step_held (h : Held c.1 c.2) (hw : WellFormed c.1 c.2) (hstep : step c a = some c') :
    Held c'.1 c'.2 ∧ (WellFormed c'.1 c'.2 ↔ FreesLast c a) := by
  obtain ⟨s, live⟩ := c
  cases a with
  | new process =>
    obtain ⟨t, s', hnew, rfl⟩ := step_new hstep
    exact ⟨h.new hnew, fun _ => trivial, fun _ => new_wellFormed h hw hnew⟩
  | free t =>
    obtain ⟨ht, u, s', hfree, rfl⟩ := step_free hstep
    obtain ⟨x, s'', hr, hheld⟩ := free_spec h hw ht
    rw [hr.run] at hfree
    obtain ⟨-, rfl⟩ := ok_inj hfree
    refine ⟨hheld, ?_⟩
    have hnodup := h.nodup
    obtain ⟨l₁, l₂, rfl⟩ := List.append_of_mem ht
    have ht₁ : t ∉ l₁ := fun hm => (List.nodup_append.mp hnodup).2.2 t hm t (by simp) rfl
    have herase : (l₁ ++ t :: l₂).erase t = l₁ ++ l₂ := by
      rw [List.erase_append_right _ ht₁, List.erase_cons_head]
    dsimp only
    rw [herase]
    cases l₂ with
    | nil =>
      rw [List.append_nil]
      exact ⟨fun _ => by simp [FreesLast], fun _ => free_last hw hnodup hr⟩
    | cons u l₂ =>
      refine ⟨fun hw' => absurd hw' (free_inner hw hnodup hr), fun hlast => ?_⟩
      -- the last task is another one
      have hmem : t ∈ u :: l₂ := by
        have hl : (l₁ ++ t :: u :: l₂).getLast? = (u :: l₂).getLast? := by
          rw [List.getLast?_append_of_ne_nil _ (by simp), List.getLast?_cons_cons]
        rw [FreesLast, hl] at hlast
        exact List.mem_of_getLast? hlast
      have hout := (List.nodup_cons.mp (List.nodup_append.mp hnodup).2.1).1
      exact absurd hmem hout

/-- Over any sequence of successful creations and releases that starts without tasks, the list
stays well formed, and no freed task is accessed, exactly if every release is one of the last
task of the list. -/
theorem well_formed_iff_frees_last (m : Memory) (tasks : ℕ → Option Task) (kernelChunk : ℕ)
    (ram : ℕ → UInt8) (ops : List Op) :
    Throughout step Good (⟨m, tasks, 0, 0, 0, kernelChunk, ram⟩, []) ops ↔
      Along step FreesLast (⟨m, tasks, 0, 0, 0, kernelChunk, ram⟩, []) ops := by
  have hheld : Held ⟨m, tasks, 0, 0, 0, kernelChunk, ram⟩ [] :=
    ⟨List.Pairwise.nil, fun t ht => absurd ht List.not_mem_nil⟩
  apply throughout_iff_along (I := fun c => Held c.1 c.2)
  · intro c a c' hI hP hstep
    have hs := step_held hI hP.1 hstep
    exact (good_iff hs.1).trans hs.2
  · intro c a c' hI hP hstep _
    exact (step_held hI hP.1 hstep).1
  · exact hheld
  · exact (good_iff hheld).mpr ⟨⟨rfl, rfl⟩, Or.inr ⟨rfl, rfl⟩⟩

end Runs

section Returns
variable {s : TaskState} {live : List ℕ} {b : ℕ}

theorem taskNew_returns (h : Held s live) (hw : WellFormed s live) (hb : s.heap.Unused b)
    (hroom : b + 1027 ≤ kernelHeapBlocks) (process : ℕ) :
    ∃ s', taskNew process s = .ok ((s.heap.malloc 64).1, s') ∧ s'.heap.Unused (b + 1027) ∧
      s'.heap.short = s.heap.short := by
  obtain ⟨ht, hrest, hshort⟩ := @KernelHeap.malloc_of_unused _ _ 64 hb (by decide) (by
    show b + 1 ≤ kernelHeapBlocks
    omega)
  obtain ⟨chunk, m, hpaging, hm, hshort'⟩ := pagingNew4gb_returns (m := s.afterKzalloc 64) 5 hrest (by
    show b + 1 + 1026 ≤ kernelHeapBlocks
    omega)
  obtain ⟨s', happ, -⟩ := new_appends h hw ht m chunk process
  have hmem : s'.toPagingLayer = m := (taskListAppend_ok happ).1
  refine ⟨s', ?_, ?_, ?_⟩
  · simp only [taskNew_eq, KernelHeap.ask_eq, if_neg ht, hpaging, happ]
  · rw [hmem]
    exact hm
  · rw [hmem]
    exact hshort'.trans hshort

theorem step_new_returns (h : Held s live) (hw : WellFormed s live) (hb : s.heap.Unused b)
    (hroom : b + 1027 ≤ kernelHeapBlocks) (process : ℕ) :
    ∃ s', step (s, live) (.new process) = some (s', live ++ [(s.heap.malloc 64).1]) ∧
      s'.heap.Unused (b + 1027) ∧ Held s' (live ++ [(s.heap.malloc 64).1]) ∧
      WellFormed s' (live ++ [(s.heap.malloc 64).1]) := by
  obtain ⟨s', hnew, hb', -⟩ := taskNew_returns h hw hb hroom process
  have hheld := h.new hnew
  have hmem : (s.heap.malloc 64).1 ∈ live ++ [(s.heap.malloc 64).1] := by simp
  have hpos := hheld.owns.pos (mem_allFrames hmem)
  refine ⟨s', ?_, hb', hheld, new_wellFormed h hw hnew⟩
  have hnonneg : ¬i32 (s.heap.malloc 64).1 < 0 := by
    rw [i32_of_range (by omega) (by omega)]
    omega
  simp only [step, hnew, if_neg hnonneg]

end Returns

def bootTasks : TaskState where
  heap := kheapInit
  pages := fun _ _ => 0
  chunks := fun _ => 0
  cr3 := 0
  currentDirectory := 0
  tasks := fun _ => none
  taskHead := 0
  taskTail := 0
  currentTask := 0
  kernelChunk := 0
  ram := fun _ => 0

theorem boot_creates_two (process process' : ℕ) : ∃ s₁ s₂ t,
    step (bootTasks, []) (.new process) = some (s₁, [16777216]) ∧
    step (s₁, [16777216]) (.new process') = some (s₂, [16777216, t]) ∧
    Held s₂ [16777216, t] ∧ WellFormed s₂ [16777216, t] := by
  have hfirst : (bootTasks.heap.malloc 64).1 = 16777216 := by decide +kernel
  have hunused : bootTasks.heap.Unused 0 := fun b _ _ => by
    show heapGetEntryType heapBlockTableEntryFree = heapBlockTableEntryFree
    decide
  obtain ⟨s₁, hs₁, hb₁, hheld₁, hw₁⟩ := @step_new_returns bootTasks [] 0
    ⟨List.Pairwise.nil, fun t ht => absurd ht List.not_mem_nil⟩
    ⟨⟨rfl, rfl⟩, Or.inr ⟨rfl, rfl⟩⟩ hunused (by decide) process
  rw [hfirst, List.nil_append] at hs₁ hheld₁ hw₁
  obtain ⟨s₂, hs₂, -, hheld₂, hw₂⟩ := step_new_returns hheld₁ hw₁ hb₁ (by decide) process'
  exact ⟨s₁, s₂, _, hs₁, hs₂, hheld₂, hw₂⟩

/-- Two tasks are created and the first one is released: the `prev` link of the new head
still leads to the released task. -/
theorem free_head_not_good :
    ¬Throughout step Good (bootTasks, []) [.new 0, .new 0, .free 16777216] := by
  intro h
  obtain ⟨s₁, s₂, t, hs₁, hs₂, hheld, hw⟩ := boot_creates_two 0 0
  obtain ⟨x, s₃, hr, -⟩ := free_spec hheld hw (t := 16777216) (by simp)
  have hs₃ : step (s₂, [16777216, t]) (.free 16777216) =
      some (s₃, [16777216, t].erase 16777216) := by
    simp [step, hr.run]
  have hgood : Good _ := ((h.2 _ hs₁).2 _ hs₂).2 _ hs₃
  have hlast := (step_held hheld hw hs₃).2.mp hgood.1
  have hsame : t = 16777216 := by simpa [FreesLast] using hlast
  have hnodup := hheld.nodup
  simp [hsame] at hnodup

end Dexter.TaskRuns
