import Dexter.Sys.Idt

/-!
# Runs of loads, task switches and system calls

A run starts in a kernel without processes. Every task that lives holds frames of its
own: its object, its process, its address space and its image. As long as no request
has been short these are apart from those of the other tasks, and the task's address
space shows its image. A load puts a task of its own beside the others, a task switch
moves nothing, and a system call takes its mapping back.
-/

namespace Dexter.ProcessRuns
open Lib.Programs Lib.Runs Lib.TwoLevel KernelHeap KernelState TaskLayer

inductive Op
  | load (files : FileLayer) (filename : CString)
  | switch (task : ℕ)
  | syscall (command : ℤ) (frame : InterruptFrame) (ram : ℕ → UInt8)

def Op.run : Op → KernelState → Except Crash KernelState
  | .load files filename, s => (processLoad files filename s).map Prod.snd
  | .switch task, s => (onTasks (taskSwitch task) s).map Prod.snd
  | .syscall command frame ram, s => (isr80hHandler command frame { s with ram := ram }).map Prod.snd

def step (s : KernelState) (op : Op) : Option KernelState := (op.run s).toOption

section Step
variable {s s' : KernelState} {files : FileLayer} {filename : CString} {task : ℕ} {command : ℤ}
  {frame : InterruptFrame} {ram : ℕ → UInt8}

theorem toOption_map_snd {α : Type} {r : Except Crash (α × KernelState)} :
    (r.map Prod.snd).toOption = some s' ↔ ∃ a, r = .ok (a, s') := by
  cases r with
  | error e => simp [Except.map, Except.toOption]
  | ok p =>
    obtain ⟨a, t⟩ := p
    simp [Except.map, Except.toOption]

theorem step_load : step s (.load files filename) = some s' ↔
    ∃ out, processLoad files filename s = .ok (out, s') := toOption_map_snd

theorem step_switch : step s (.switch task) = some s' ↔
    ∃ u, onTasks (taskSwitch task) s = .ok (u, s') := toOption_map_snd

theorem step_syscall : step s (.syscall command frame ram) = some s' ↔
    ∃ r, isr80hHandler command frame { s with ram := ram } = .ok (r, s') := toOption_map_snd

end Step

def identity (t : Task) : ℕ × ℕ := (t.pageDirectory, t.process)

def live (s : KernelState) : Set ℕ := {t | s.tasks t ≠ none}

/-- The frames of a task: its object, the two frames of its process, its address space and its
image. -/
def heldBy (s : KernelState) (t : ℕ) : Set ℕ :=
  {q | ∃ a x, s.tasks t = some a ∧ s.processAt a.process = some x ∧
    (q = t ∨ q ∈ frames a.process 2 ∨ q ∈ s.spaceFrames a.pageDirectory ∨
      q ∈ imageFrames x.ptr x.size x.stack)}

def allHeld (s : KernelState) (tasks : Set ℕ) : Set ℕ := {q | ∃ t ∈ tasks, q ∈ heldBy s t}

/-- Each of the tasks shows its image, and holds frames that no other one holds. -/
structure Isolated (s : KernelState) (tasks : Set ℕ) : Prop where
  shown : ∀ t ∈ tasks, ∃ a x, s.tasks t = some a ∧ s.processAt a.process = some x ∧
    Mapped s.toPagingLayer a.pageDirectory x.ptr x.size x.stack
  owned : ∀ t ∈ tasks, s.heap.Owns (heldBy s t)
  apart : ∀ t ∈ tasks, ∀ u ∈ tasks, t ≠ u → Disjoint (heldBy s t) (heldBy s u)

section Frames
variable {s s' : KernelState} {tasks : Set ℕ} {t : ℕ}

theorem process_mem_frames (p : ℕ) : p ∈ frames p 2 := ⟨0, by decide, rfl⟩

theorem heldBy_eq {a : Task} {x : Process} (ha : s.tasks t = some a)
    (hx : s.processAt a.process = some x) : heldBy s t =
      {q | q = t ∨ q ∈ frames a.process 2 ∨ q ∈ s.spaceFrames a.pageDirectory ∨
        q ∈ imageFrames x.ptr x.size x.stack} := by
  ext q
  constructor
  · intro ⟨b, y, hb, hy, hq⟩
    obtain rfl := Option.some.inj (ha.symm.trans hb)
    obtain rfl := Option.some.inj (hx.symm.trans hy)
    exact hq
  · exact fun hq => ⟨a, x, ha, hx, hq⟩

theorem Isolated.allOwned (h : Isolated s tasks) : s.heap.Owns (allHeld s tasks) := by
  intro q ⟨t, ht, hq⟩
  exact h.owned t ht q hq

theorem heldBy_subset (ht : t ∈ tasks) : heldBy s t ⊆ allHeld s tasks := fun _ hq => ⟨t, ht, hq⟩

theorem Isolated.congr (h : Isolated s tasks)
    (htasks : ∀ t ∈ tasks, (s'.tasks t).map identity = (s.tasks t).map identity)
    (hprocess : ∀ p ∈ allHeld s tasks, s'.processAt p = s.processAt p)
    (hagree : PagingLayer.AgreeOn (allHeld s tasks) s.toPagingLayer s'.toPagingLayer)
    (howns : s'.heap.Owns (allHeld s tasks)) :
    Isolated s' tasks ∧ ∀ t ∈ tasks, heldBy s' t = heldBy s t := by
  have hshown : ∀ t ∈ tasks, ∃ a b x, s.tasks t = some a ∧ s'.tasks t = some b ∧
      identity b = identity a ∧ s.processAt a.process = some x ∧
      s'.processAt b.process = some x ∧ Mapped s.toPagingLayer a.pageDirectory x.ptr x.size x.stack := by
    intro t ht
    obtain ⟨a, x, ha, hx, hmapped⟩ := h.shown t ht
    have hmap := htasks t ht
    rw [ha, Option.map_some] at hmap
    obtain ⟨b, hb, hab⟩ := Option.map_eq_some_iff.mp hmap
    have hp : a.process ∈ allHeld s tasks := 
      ⟨t, ht, a, x, ha, hx, Or.inr (Or.inl (process_mem_frames _))⟩
    refine ⟨a, b, x, ha, hb, hab, hx, ?_, hmapped⟩
    rw [(Prod.mk.inj hab).2, hprocess _ hp, hx]
  have hspace : ∀ t ∈ tasks, ∀ a x, s.tasks t = some a → s.processAt a.process = some x →
      PagingLayer.AgreeOn (s.spaceFrames a.pageDirectory) s.toPagingLayer s'.toPagingLayer ∧
        s'.heap.Owns (s.spaceFrames a.pageDirectory) := by
    intro t ht a x ha hx
    have hsub : s.spaceFrames a.pageDirectory ⊆ allHeld s tasks := fun q hq =>
      ⟨t, ht, a, x, ha, hx, Or.inr (Or.inr (Or.inl hq))⟩
    exact ⟨fun q hq => hagree q (hsub hq), howns.mono hsub⟩
  have hheld : ∀ t ∈ tasks, heldBy s' t = heldBy s t := by
    intro t ht
    obtain ⟨a, b, x, ha, hb, hab, hx, hx', -⟩ := hshown t ht
    obtain ⟨hag, -⟩ := hspace t ht a x ha hx
    rw [heldBy_eq ha hx, heldBy_eq hb hx', (Prod.mk.inj hab).1, (Prod.mk.inj hab).2,
      PagingLayer.spaceFrames_congr hag]
  refine ⟨⟨fun t ht => ?_, fun t ht => ?_, fun t ht u hu hne => ?_⟩, hheld⟩
  · obtain ⟨a, b, x, ha, hb, hab, hx, hx', hmapped⟩ := hshown t ht
    obtain ⟨hag, hown⟩ := hspace t ht a x ha hx
    refine ⟨b, x, hb, hx', ?_⟩
    rw [(Prod.mk.inj hab).1]
    exact hmapped.congr hag hown
  · rw [hheld t ht]
    exact howns.mono (heldBy_subset ht)
  · rw [hheld t ht, hheld u hu]
    exact h.apart t ht u hu hne

theorem Isolated.insert (h : Isolated s tasks) {a : Task} {x : Process} (ha : s.tasks t = some a)
    (hx : s.processAt a.process = some x)
    (hmapped : Mapped s.toPagingLayer a.pageDirectory x.ptr x.size x.stack)
    (howned : s.heap.Owns (heldBy s t)) (hapart : Disjoint (allHeld s tasks) (heldBy s t)) :
    Isolated s (insert t tasks) := by
  constructor
  · intro u hu
    rcases hu with rfl | hu
    · exact ⟨a, x, ha, hx, hmapped⟩
    · exact h.shown u hu
  · intro u hu
    rcases hu with rfl | hu
    · exact howned
    · exact h.owned u hu
  · intro u hu v hv hne
    rcases hu with rfl | hu
    · rcases hv with rfl | hv
      · exact absurd rfl hne
      · exact (hapart.mono_left (heldBy_subset hv)).symm
    · rcases hv with rfl | hv
      · exact hapart.mono_left (heldBy_subset hu)
      · exact h.apart u hu v hv hne

end Frames

section Load
variable {files : FileLayer} {filename : CString} {A : Set ℕ} {s s' : KernelState} {out : ℤ × ℕ}

theorem load_short (h : processLoad files filename s = .ok (out, s'))
    (hshort : s'.heap.short = false) : s.heap.short = false := by
  have hspec := processLoad_spec (A := ∅) (c := s.heap.short = false) ⟨Owns.empty _, id⟩ h
  cases hspec with
  | noSlot none => exact hshort
  | noProcess slot full => exact malloc_short_mono rfl hshort
  | fails r p k table ram y slot object nonzero negative kept => exact kept.short hshort
  | loads p slot t chunk y s' free object nonzero new whole sized loaded => exact loaded.kept.short hshort

theorem identity_of_content {a b : Option Task} (h : a.map Task.content = b.map Task.content) :
    a.map identity = b.map identity := by
  have hmap := congrArg (Option.map fun c : ℕ × Registers × ℕ => (c.1, c.2.2)) h
  simp only [Option.map_map] at hmap
  exact hmap

theorem live_of_content {t : ℕ} {c : ℕ × Registers × ℕ} (h : ∀ u, (s'.tasks u).map Task.content =
    if u = t then some c else (s.tasks u).map Task.content) : live s' = insert t (live s) := by
  ext u
  have hu := h u
  by_cases hut : u = t
  · rw [if_pos hut] at hu
    refine iff_of_true (fun hnone => ?_) (Or.inl hut)
    simp [hnone] at hu
  · rw [if_neg hut] at hu
    have hiff : s'.tasks u = none ↔ s.tasks u = none := by
      rw [← Option.map_eq_none_iff (f := Task.content), hu, Option.map_eq_none_iff]
    exact ⟨fun hl => Or.inr fun hnone => hl (hiff.mpr hnone),
      fun hl hnone => hl.elim hut fun hl => hl (hiff.mp hnone)⟩

theorem Isolated.loaded {p slot t chunk : ℕ} {y : Process} {c : Prop} {k : KernelHeap}
    (h : Isolated s (live s)) (hnew : Disjoint (allHeld s (live s)) (frames p 2))
    (hloaded : Loaded (allHeld s (live s) ∪ frames p 2) c
      (KernelState.putProcess p .zero { s with heap := k }) p slot .zero y t chunk s')
    (hshort : s'.heap.short = false) : Isolated s' (live s') := by
  have hplaced := hloaded.placement hshort
  have hcontent : ∀ u, (s'.tasks u).map Task.content =
      if u = t then some (chunk, initialRegisters, p) else (s.tasks u).map Task.content :=
    hloaded.content
  have hfresh : ∀ q ∈ allHeld s (live s), q ≠ t ∧ q ≠ p := fun q hq =>
    ⟨fun ht => hloaded.fresh (ht ▸ Or.inl hq),
      fun hp => Set.disjoint_left.mp hnew hq (hp ▸ process_mem_frames p)⟩
  obtain ⟨hold, hheld⟩ := @Isolated.congr _ s' _ h
    (fun u hu => by
      have hself : u ∈ allHeld s (live s) := by
        obtain ⟨a, x, ha, hx, -⟩ := h.shown u hu
        exact ⟨u, hu, a, x, ha, hx, Or.inl rfl⟩
      refine identity_of_content ((hcontent u).trans ?_)
      rw [if_neg (hfresh u hself).1])
    (fun q hq => by
      rw [hloaded.object, Function.update_of_ne (hfresh q hq).2]
      exact putProcess_of_ne (hfresh q hq).2 _ _)
    (fun q hq => hplaced.agree q (Or.inl hq))
    (hloaded.kept.owns.mono Set.subset_union_left)
  -- the new task
  obtain ⟨a, ha, hc⟩ := Option.map_eq_some_iff.mp ((hcontent t).trans (if_pos rfl))
  obtain ⟨rfl, -, rfl⟩ : a.pageDirectory = chunk ∧ a.registers = initialRegisters ∧ a.process = p := by
    simpa [Task.content] using hc
  have hx : s'.processAt a.process = some y := by rw [hloaded.object, Function.update_self]
  rw [live_of_content hcontent]
  refine hold.insert ha hx hplaced.mapped ?_ ?_
  · rw [heldBy_eq ha hx]
    refine hplaced.owned.mono fun q hq => ?_
    rcases hq with hq | hq | hq | hq
    · exact Or.inl (Or.inr (Or.inl hq))
    · exact Or.inl (Or.inl (Or.inr hq))
    · exact Or.inl (Or.inr (Or.inr hq))
    · exact Or.inr hq
  · rw [heldBy_eq ha hx]
    refine Set.disjoint_left.mpr fun q hq hqt => ?_
    obtain ⟨u, hu, hqu⟩ := hq
    rw [hheld u hu] at hqu
    have hqA : q ∈ allHeld s (live s) := ⟨u, hu, hqu⟩
    rcases hqt with hqt | hqt | hqt | hqt
    · exact (hfresh q hqA).1 hqt
    · exact Set.disjoint_left.mp hnew hqA hqt
    · exact Set.disjoint_left.mp hplaced.freshTask (Or.inl hqA) (Or.inr hqt)
    · exact Set.disjoint_left.mp hplaced.freshImage (Or.inl (Or.inl hqA)) hqt

theorem load_isolated (h : Isolated s (live s)) (hload : processLoad files filename s = .ok (out, s'))
    (hshort : s'.heap.short = false) : Isolated s' (live s') := by
  have hspec := processLoad_spec (A := allHeld s (live s)) (c := True)
    ⟨h.allOwned, fun _ => trivial⟩ hload
  have hmalloc := @malloc_spec s.heap 5256 (by decide)
  cases hspec with
  | noSlot none => exact h
  | noProcess slot full =>
    exact (@Isolated.congr _ { s with heap := (s.heap.malloc 5256).2 } _ h (fun _ _ => rfl)
      (fun _ _ => rfl) (fun _ _ => ⟨rfl, rfl⟩) (hmalloc.owns h.allOwned)).1
  | fails r p k table ram y slot object nonzero negative kept =>
    have hnew : p ∉ allHeld s (live s) := object ▸ hmalloc.fresh h.allOwned
    exact (@Isolated.congr _ (KernelState.putProcess p y
      { s with heap := k, fileDescriptors := table, ram := ram }) _ h (fun _ _ => rfl)
      (fun q hq => putProcess_of_ne (fun hp : q = p => hnew (hp ▸ hq)) _ _) (fun _ _ => ⟨rfl, rfl⟩)
      (kept.owns.mono Set.subset_union_left)).1
  | loads p slot t chunk y s' free object nonzero new whole sized loaded =>
    rw [whole hshort] at new loaded
    exact h.loaded new loaded hshort

end Load

section Calls
variable {s s' : KernelState} {task : ℕ} {command : ℤ} {frame : InterruptFrame} {r : ℕ} {u : Unit}

theorem switch_ok (h : onTasks (taskSwitch task) s = .ok (u, s')) : task ≠ 0 ∧
    ∃ x, s.tasks task = some x ∧
      s' = { s with toTaskLayer := TaskLayer.onTask { s.toTaskLayer with currentTask := task } x } := by
  obtain ⟨t, hrun, rfl⟩ := onTasks_ok.mp h
  obtain ⟨ht, x, hx, -, rfl⟩ := taskSwitch_ok.mp hrun
  exact ⟨ht, x, hx, rfl⟩

theorem switch_isolated (h : Isolated s (live s)) (hrun : onTasks (taskSwitch task) s = .ok (u, s')) :
    Isolated s' (live s') := by
  obtain ⟨-, x, -, rfl⟩ := switch_ok hrun
  exact (@Isolated.congr _ { s with
    toTaskLayer := TaskLayer.onTask { s.toTaskLayer with currentTask := task } x } _ h (fun _ _ => rfl)
    (fun _ _ => rfl) (fun _ _ => ⟨rfl, rfl⟩) h.allOwned).1

theorem saved_map {α : Type} {f : Task → α} {x : Task} (hx : s.tasks s.currentTask = some x)
    (hf : f { x with registers := frame.toRegisters } = f x) (t : ℕ) :
    ((s.toTaskLayer.saved x frame).tasks t).map f = (s.tasks t).map f := by
  by_cases ht : t = s.currentTask
  · have hself : (s.toTaskLayer.saved x frame).tasks s.currentTask =
        some { x with registers := frame.toRegisters } := putTask_self _ _ _
    rw [ht, hx, hself, Option.map_some, hf, Option.map_some]
  · exact congrArg (Option.map f) (putTask_of_ne ht _ _)

theorem saved_identity {x : Task} (hx : s.tasks s.currentTask = some x) (t : ℕ) :
    ((s.toTaskLayer.saved x frame).tasks t).map identity = (s.tasks t).map identity :=
  saved_map hx rfl t

theorem live_of_identity (h : ∀ t, (s'.tasks t).map identity = (s.tasks t).map identity) :
    live s' = live s := by
  ext t
  have hiff : s'.tasks t = none ↔ s.tasks t = none := by
    rw [← Option.map_eq_none_iff (f := identity), h t, Option.map_eq_none_iff]
  exact not_congr hiff

theorem syscall_isolated (h : Isolated s (live s)) (hcall : Syscall s frame s') :
    Isolated s' (live s') := by
  obtain ⟨x, s₂, ht, hx, hcommand, rfl⟩ := hcall
  have hlive : s.currentTask ∈ live s := by
    show s.tasks s.currentTask ≠ none
    simp [hx]
  obtain ⟨a, y, ha, hy, hmapped⟩ := h.shown _ hlive
  obtain rfl := Option.some.inj (hx.symm.trans ha)
  have hself : (s.toTaskLayer.saved x frame).tasks s.currentTask =
      some { x with registers := frame.toRegisters } := putTask_self _ _ _
  have hspace : (s.toTaskLayer.saved x frame).AddressSpace x.pageDirectory :=
    ⟨hmapped.space.owned, hmapped.space.separated⟩
  obtain ⟨hpages, howns⟩ := hcommand.memory hself hspace h.allOwned
  have hmoved := hcommand.unmoved
  have hidentity : ∀ t, (s₂.tasks t).map identity = (s.tasks t).map identity := fun t => by
    rw [hmoved.tasks]
    exact saved_identity hx t
  set s' : KernelState :=
    { s with toTaskLayer := s₂.onTask { x with registers := frame.toRegisters } } with hs'
  have hall : live s' = live s := live_of_identity hidentity
  rw [hall]
  refine (@Isolated.congr _ s' _ h (fun t _ => hidentity t) (fun _ _ => rfl) (fun q _ => ?_) howns).1
  exact ⟨congrFun hpages q, congrFun hmoved.chunks q⟩

end Calls

section Runs
variable {s s' : KernelState} {op : Op}

theorem step_short (h : step s op = some s') (hshort : s'.heap.short = false) :
    s.heap.short = false := by
  cases op with
  | load files filename =>
    obtain ⟨out, hload⟩ := step_load.mp h
    exact load_short hload hshort
  | switch task =>
    obtain ⟨u, hrun⟩ := step_switch.mp h
    obtain ⟨-, x, -, rfl⟩ := switch_ok hrun
    exact hshort
  | syscall command frame ram =>
    obtain ⟨r, hrun⟩ := step_syscall.mp h
    obtain ⟨x, s₂, -, -, hcommand, rfl⟩ := isr80hHandler_ok hrun
    exact hcommand.short hshort

theorem step_isolated (h : s.heap.short = false → Isolated s (live s)) (hstep : step s op = some s')
    (hshort : s'.heap.short = false) : Isolated s' (live s') := by
  have hs := h (step_short hstep hshort)
  cases op with
  | load files filename =>
    obtain ⟨out, hload⟩ := step_load.mp hstep
    exact load_isolated hs hload hshort
  | switch task =>
    obtain ⟨u, hrun⟩ := step_switch.mp hstep
    exact switch_isolated hs hrun
  | syscall command frame ram =>
    obtain ⟨r, hrun⟩ := step_syscall.mp hstep
    have hs' := (@Isolated.congr _ { s with ram := ram } _ hs (fun _ _ => rfl)
      (fun _ _ => rfl) (fun _ _ => ⟨rfl, rfl⟩) hs.allOwned).1
    exact syscall_isolated hs' (isr80hHandler_ok hrun)

theorem unloaded_isolated (h : Unloaded s) : Isolated s (live s) := by
  have hnone : ∀ t, t ∉ live s := fun t ht => ht (h.tasks t)
  exact ⟨fun t ht => absurd ht (hnone t), fun t ht => absurd ht (hnone t),
    fun t ht => absurd ht (hnone t)⟩

theorem run_isolated {s₀ : KernelState} {ops : List Op} (h₀ : Unloaded s₀)
    (h : exec step s₀ ops = some s) (hshort : s.heap.short = false) : Isolated s (live s) :=
  exec_invariant (I := fun s => s.heap.short = false → Isolated s (live s))
    (fun _ _ _ hs hstep hshort => step_isolated hs hstep hshort) (fun _ => unloaded_isolated h₀) h hshort

end Runs

def writeableFrames (s : KernelState) (a : Task) : Set ℕ :=
  {q | ∃ v < 4294967296, s.entryAt a.pageDirectory v &&& pagingIsWriteable ≠ 0 ∧
    q = entryTable (s.entryAt a.pageDirectory v)}

section Writeable
variable {s : KernelState} {a : Task} {x : Process}

theorem frames_entry {q n v base : ℕ} (howned : s.heap.Owns (frames q n)) (hbase : base % 4096 = 0)
    (hle : base ≤ v) (hlt : v < base + 4096 * n) :
    entryTable ((q + (v / 4096 * 4096 - base)) ||| 7) ∈ frames q n := by
  have hmem : q + (v / 4096 * 4096 - base) ∈ frames q n :=
    ⟨(v - base) / 4096, by omega, by omega⟩
  have hpos := howned.pos hmem
  rw [entryTable_or hpos.2.2 (by omega) (by decide)]
  exact hmem

theorem translate_mapped (h : Mapped s.toPagingLayer a.pageDirectory x.ptr x.size x.stack)
    (hv : v < 4294967296) : (s.toTaskLayer.onTask a).translate v =
      some (entryTable (imageEntry x.ptr x.size x.stack v) + v % 4096) := by
  have hentry : lookup entryTable s.pages (s.chunks a.pageDirectory) (pageCell v) =
      imageEntry x.ptr x.size x.stack v := h.entries v hv
  have hword := h.words _ (pageCell_lt hv)
  refine translate_some.mpr ⟨⟨?_, ?_⟩, ?_⟩
  · show s.pages (s.chunks a.pageDirectory) (pageCell v).1 % 2 = 1
    rw [hword]
    exact Nat.or_mod_two_eq_one.mpr (Or.inr rfl)
  · show lookup entryTable s.pages (s.chunks a.pageDirectory) (pageCell v) % 2 = 1
    rw [hentry]
    unfold imageEntry
    split_ifs <;> exact Nat.or_mod_two_eq_one.mpr (Or.inr rfl)
  · show _ = entryTable (lookup entryTable s.pages (s.chunks a.pageDirectory) (pageCell v)) + _
    rw [hentry]

theorem writeableFrames_subset (h : Mapped s.toPagingLayer a.pageDirectory x.ptr x.size x.stack)
    (howned : s.heap.Owns (imageFrames x.ptr x.size x.stack)) :
    writeableFrames s a ⊆ imageFrames x.ptr x.size x.stack := by
  intro q ⟨v, hv, hwriteable, hq⟩
  have hentry := h.entries v hv
  rw [hentry] at hwriteable hq
  unfold imageEntry at hwriteable hq
  split_ifs at hwriteable hq with hprogram hstack
  · rw [hq]
    exact Or.inl (frames_entry (howned.mono Set.subset_union_left) (by decide) hprogram.1 hprogram.2)
  · rw [hq]
    exact Or.inr (frames_entry (howned.mono Set.subset_union_right) (by decide) hstack.1 hstack.2)
  · rw [LoadContract.page_and_flags (by omega) (by decide)] at hwriteable
    exact absurd rfl hwriteable

/-- After any sequence of loads, task switches and system calls in which no request has been
short, a writeable entry of a task leads to the image of its own process, and those of two tasks
never lead to the same frame. -/
theorem isolation {s₀ : KernelState} {ops : List Op} (h₀ : Unloaded s₀)
    (h : exec step s₀ ops = some s) (hshort : s.heap.short = false) :
    (∀ t a, s.tasks t = some a → ∃ x, s.processAt a.process = some x ∧
      writeableFrames s a ⊆ imageFrames x.ptr x.size x.stack) ∧
    ∀ t u a b, t ≠ u → s.tasks t = some a → s.tasks u = some b →
      a.process ≠ b.process ∧ Disjoint (writeableFrames s a) (writeableFrames s b) := by
  have hisolated := run_isolated h₀ h hshort
  have hlive : ∀ t a, s.tasks t = some a → t ∈ live s := by
    intro t a ha hnone
    simp [ha] at hnone
  have hheld : ∀ t a, s.tasks t = some a → ∃ x, s.processAt a.process = some x ∧
      writeableFrames s a ⊆ imageFrames x.ptr x.size x.stack ∧
      imageFrames x.ptr x.size x.stack ⊆ heldBy s t ∧ a.process ∈ heldBy s t := by
    intro t a ha
    obtain ⟨b, x, hb, hx, hmapped⟩ := hisolated.shown t (hlive t a ha)
    obtain rfl := Option.some.inj (ha.symm.trans hb)
    have hsub : imageFrames x.ptr x.size x.stack ⊆ heldBy s t := fun q hq =>
      ⟨a, x, ha, hx, Or.inr (Or.inr (Or.inr hq))⟩
    have howned := (hisolated.owned t (hlive t a ha)).mono hsub
    exact ⟨x, hx, writeableFrames_subset hmapped howned, hsub, a, x, ha, hx,
      Or.inr (Or.inl (process_mem_frames _))⟩
  constructor
  · intro t a ha
    obtain ⟨x, hx, hsub, -, -⟩ := hheld t a ha
    exact ⟨x, hx, hsub⟩
  · intro t u a b hne ha hb
    obtain ⟨x, -, hsubx, hx, hpa⟩ := hheld t a ha
    obtain ⟨y, -, hsuby, hy, hpb⟩ := hheld u b hb
    have hapart := hisolated.apart t (hlive t a ha) u (hlive u b hb) hne
    exact ⟨fun heq => Set.disjoint_left.mp hapart hpa (heq ▸ hpb),
      hapart.mono (hsubx.trans hx) (hsuby.trans hy)⟩

end Writeable

structure Populated (s : KernelState) (tasks : List ℕ) (b : ℕ) : Prop where
  isolated : Isolated s (live s)
  wellFormed : TaskRuns.WellFormed s.toTaskLayer tasks
  distinct : tasks.Nodup
  slots : ∀ i, s.processes i = 0 ↔ tasks.length ≤ i
  unused : s.heap.Unused b
  long : s.heap.short = false
  kernel : s.kernelChunk ≠ 0

def loadByte : Op := .load (LoadContract.givenFile [0xC3]) [0x78]

namespace Populated
variable {s : KernelState} {tasks : List ℕ} {b t : ℕ}

theorem object (h : Populated s tasks b) (ht : t ∈ tasks) :
    ∃ a x, s.tasks t = some a ∧ s.processAt a.process = some x ∧
      Mapped s.toPagingLayer a.pageDirectory x.ptr x.size x.stack := by
  obtain ⟨-, n, q, hnode⟩ := h.wellFormed.linked.walk.node_ne ht
  obtain ⟨a, ha, -⟩ := Option.map_eq_some_iff.mp hnode
  refine h.isolated.shown t fun hnone => ?_
  rw [ha] at hnone
  cases hnone

theorem mem_live (h : Populated s tasks b) (ht : t ∈ tasks) : t ∈ live s := by
  obtain ⟨a, x, ha, -⟩ := h.object ht
  intro hnone
  rw [ha] at hnone
  cases hnone

theorem held (h : Populated s tasks b) : TaskRuns.Held s.toTaskLayer tasks := by
  have hspace : ∀ {t a}, s.tasks t = some a →
      TaskRuns.spaceOf s.toTaskLayer t = some a.pageDirectory := fun ha => by
    rw [TaskRuns.spaceOf, ha, Option.map_some]
  have hsub : ∀ t ∈ tasks, TaskRuns.taskFrames s.toTaskLayer t ⊆ heldBy s t := by
    intro t ht q hq
    obtain ⟨a, x, ha, hx, -⟩ := h.object ht
    rcases hq with hq | ⟨chunk, hchunk, hq⟩
    · exact ⟨a, x, ha, hx, Or.inl hq⟩
    · obtain rfl := Option.some.inj ((hspace ha).symm.trans hchunk)
      exact ⟨a, x, ha, hx, Or.inr (Or.inr (Or.inl hq))⟩
  constructor
  · refine List.Pairwise.imp_of_mem (fun {t u} ht hu hne => ?_) h.distinct
    exact (h.isolated.apart t (h.mem_live ht) u (h.mem_live hu) hne).mono (hsub t ht) (hsub u hu)
  · intro t ht
    obtain ⟨a, x, ha, -, hmapped⟩ := h.object ht
    exact ⟨_, hspace ha, hmapped.space, (h.isolated.owned t (h.mem_live ht)).mono (hsub t ht)⟩

theorem slot (h : Populated s tasks b) (hlt : tasks.length < 12) :
    processGetFreeSlot s = tasks.length := by
  have hfind : ((List.range dexterMaxProcesses).find? fun i => s.processes i == 0) =
      some tasks.length := by
    refine List.find?_range_eq_some.mpr ⟨?_, List.mem_range.mpr hlt, fun j hj => ?_⟩
    · exact beq_iff_eq.mpr ((h.slots _).mpr le_rfl)
    · rw [Bool.not_eq_true', beq_eq_false_iff_ne]
      exact fun h0 => absurd ((h.slots j).mp h0) (not_le.mpr hj)
  rw [processGetFreeSlot, hfind]

theorem load (h : Populated s tasks b) (hlt : tasks.length < 12) (hroom : b + 1034 ≤ 25600) :
    ∃ t s', step s loadByte = some s' ∧ Populated s' (tasks ++ [t]) (b + 1034) := by
  have hneed : needed [(0xC3 : UInt8)].length = 1 := by decide
  obtain ⟨p, t, s', hrun, hp, hlong, hentered⟩ := @LoadContract.givenFile_loads [0xC3] [0x78] s b
    tasks tasks.length hlt (h.slot hlt) ((h.slots _).mpr le_rfl) h.held h.wellFormed h.unused h.long
    (by decide) (by rw [hneed]; omega)
  rw [hneed] at hentered
  refine ⟨t, s', step_load.mpr ⟨_, hrun⟩, load_isolated h.isolated hrun hlong, hentered.wellFormed,
    hentered.distinct, fun i => ?_, hentered.unused, hlong, hentered.kernelChunk ▸ h.kernel⟩
  rw [hentered.processes, List.length_append, List.length_singleton]
  by_cases hi : i = tasks.length
  · rw [hi, Function.update_self]
    exact iff_of_false hp (by omega)
  · rw [Function.update_of_ne hi, h.slots i]
    omega

theorem switch (h : Populated s tasks b) (ht : t ∈ tasks) :
    ∃ s', step s (.switch t) = some s' ∧ Populated s' tasks b ∧ s'.currentTask = t ∧
      s'.tasks = s.tasks := by
  obtain ⟨a, x, ha, -, hmapped⟩ := h.object ht
  have hrun : onTasks (taskSwitch t) s = .ok ((), { s with
      toTaskLayer := TaskLayer.onTask { s.toTaskLayer with currentTask := t } a }) :=
    onTasks_ok.mpr ⟨_, taskSwitch_ok.mpr ⟨(h.wellFormed.linked.walk.node_ne ht).1, a, ha,
      hmapped.space.chunk_ne, rfl⟩, rfl⟩
  exact ⟨_, step_switch.mpr ⟨(), hrun⟩, ⟨switch_isolated h.isolated hrun,
    ⟨h.wellFormed.linked, Or.inl ht⟩, h.distinct, h.slots, h.unused, h.long, h.kernel⟩, rfl, rfl⟩

theorem syscall (h : Populated s tasks b) (hcurrent : s.currentTask ∈ tasks) (ram : ℕ → UInt8) :
    ∃ s', step s (.syscall 0 bottomFrame ram) = some s' ∧ Populated s' tasks b ∧ s'.ram = ram ∧
      ∀ t, (s'.tasks t).map identity = (s.tasks t).map identity := by
  obtain ⟨a, x, ha, -, hmapped⟩ := h.object hcurrent
  have hstack : ReadableStack { s with ram := ram } a bottomFrame := by
    refine ⟨(h.wellFormed.linked.walk.node_ne hcurrent).1, ha, hmapped.space.chunk_ne, h.kernel,
      by decide, fun w _ hw hnone => ?_⟩
    have hlt : w < 4294967296 := hw.trans (by decide)
    exact Option.some_ne_none _ ((translate_mapped hmapped hlt).symm.trans hnone)
  obtain ⟨r, hrun⟩ := hstack.sum
  have hlinks : ∀ t, ((s.toTaskLayer.saved a bottomFrame).tasks t).map Task.links =
      (s.tasks t).map Task.links := fun t => saved_map ha rfl t
  have hnode : ∀ t ∈ tasks, _ = TaskRuns.node s.toTaskLayer t := fun t _ => hlinks t
  have hisolated := (@Isolated.congr _ { s with ram := ram } _ h.isolated (fun _ _ => rfl)
    (fun _ _ => rfl) (fun _ _ => ⟨rfl, rfl⟩) h.isolated.allOwned).1
  exact ⟨_, step_syscall.mpr ⟨r, hrun⟩, ⟨syscall_isolated hisolated (isr80hHandler_ok hrun),
    ⟨⟨h.wellFormed.linked.walk.congr hnode, h.wellFormed.linked.last⟩, Or.inl hcurrent⟩,
    h.distinct, h.slots, h.unused, h.long, h.kernel⟩, rfl, fun t => saved_identity ha t⟩

end Populated

theorem unloaded_populated {s : KernelState} {b : ℕ} (h : Unloaded s) (hb : s.heap.Unused b)
    (hlong : s.heap.short = false) (hkernel : s.kernelChunk ≠ 0) : Populated s [] b :=
  ⟨unloaded_isolated h, ⟨⟨h.list.1, h.list.2⟩, Or.inr ⟨rfl, h.currentTask⟩⟩, List.nodup_nil,
    fun i => iff_of_true (h.processes i) (Nat.zero_le i), hb, hlong, hkernel⟩

theorem populated_two {s₀ : KernelState} {b : ℕ} (h : Populated s₀ [] b)
    (hroom : b + 2068 ≤ 25600) : ∃ (s : KernelState) (t u : ℕ) (a c : Task),
      (∀ ops, exec step s₀ (loadByte :: loadByte :: .switch u :: ops) = exec step s ops) ∧
        Populated s [t, u] (b + 2068) ∧ t ≠ u ∧ s.currentTask = u ∧ s.tasks t = some a ∧
          s.tasks u = some c := by
  obtain ⟨t, s₁, hfirst, h₁⟩ := h.load (by decide) (by omega)
  obtain ⟨u, s₂, hsecond, h₂⟩ := h₁.load (show 1 < 12 by decide) (by omega)
  obtain ⟨s, hswitch, h₃, hcurrent, htasks⟩ := h₂.switch (t := u) (by simp)
  obtain ⟨a, x, ha, -⟩ := h₃.object (t := t) (by simp)
  obtain ⟨c, y, hc, -⟩ := h₃.object (t := u) (by simp)
  have hdistinct := h₃.distinct
  refine ⟨s, t, u, a, c, fun ops => ?_, h₃, fun heq => ?_, hcurrent, ha, hc⟩
  · rw [exec, hfirst, Option.bind_some, exec, hsecond, Option.bind_some, exec, hswitch,
      Option.bind_some]
  · simp [heq] at hdistinct

theorem populated_exists : ∃ s, Unloaded s ∧ Populated s [] 1026 := by
  obtain ⟨m, chunk, hstart, hchunk, hunused, hshort⟩ := startPaging_returns
    (s := TaskRuns.bootTasks) kheapInit_unused (by decide)
  have hunloaded : Unloaded { bootKernel with toPagingLayer := m, kernelChunk := chunk } :=
    ⟨fun _ => rfl, ⟨rfl, rfl⟩, rfl, fun _ => rfl, rfl⟩
  exact ⟨_, hunloaded, unloaded_populated hunloaded hunused hshort hchunk⟩

theorem isolation_sample : ∃ (s₀ s : KernelState) (t u : ℕ) (a c : Task) (ram : ℕ → UInt8),
    exec step s₀ [loadByte, loadByte, .switch u, .syscall 0 bottomFrame ram] = some s ∧ t ≠ u ∧
      s.tasks t = some a ∧ s.tasks u = some c ∧ a.process ≠ c.process ∧
        Disjoint (writeableFrames s a) (writeableFrames s c) := by
  obtain ⟨s₀, hunloaded, hstart⟩ := populated_exists
  obtain ⟨s₁, t, u, a, c, hloads, h₁, hne, hcurrent, ha, hc⟩ := populated_two hstart (by decide)
  obtain ⟨s, hcall, hs, -, hsame⟩ := h₁.syscall (hcurrent ▸ by simp) s₁.ram
  have hexec : exec step s₀ [loadByte, loadByte, .switch u, .syscall 0 bottomFrame s₁.ram] =
      some s := (hloads _).trans (exec_cons_some.mpr ⟨s, hcall, rfl⟩)
  have ht := hsame t
  have hu := hsame u
  rw [ha, Option.map_some] at ht
  rw [hc, Option.map_some] at hu
  obtain ⟨a', ha', -⟩ := Option.map_eq_some_iff.mp ht
  obtain ⟨c', hc', -⟩ := Option.map_eq_some_iff.mp hu
  have hapart := (isolation hunloaded hexec hs.long).2 t u a' c' hne ha' hc'
  exact ⟨s₀, s, t, u, a', c', s₁.ram, hexec, hne, ha', hc', hapart.1, hapart.2⟩

end Dexter.ProcessRuns
