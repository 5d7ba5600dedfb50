import Dexter.Proc.ProcessRuns
import Dexter.Sys.Startup

/-!
# Page tables out of reach

What a task can write to lies in its image. The objects of tasks and processes, the directories and
their tables, and the kernel's own directory lie elsewhere and stay there: a load takes new frames,
and a system call puts every entry back that it has changed.
-/

namespace Dexter.ProcessRuns
open Lib.Programs Lib.Runs Lib.TwoLevel KernelHeap KernelState TaskLayer PagingLayer

/-- The frames of a task that are no part of its image: its object, the two of its process, its
directory and the tables of it. -/
def tablesOf (s : KernelState) (t : ℕ) : Set ℕ :=
  {q | ∃ a, s.tasks t = some a ∧
    (q = t ∨ q ∈ frames a.process 2 ∨ q ∈ s.spaceFrames a.pageDirectory)}

def imageOf (s : KernelState) (t : ℕ) : Set ℕ :=
  {q | ∃ a x, s.tasks t = some a ∧ s.processAt a.process = some x ∧
    q ∈ imageFrames x.ptr x.size x.stack}

/-- No image lies in the tables of its task, and the frames of `K` are taken but held by no task. -/
structure Guarded (K : Set ℕ) (s : KernelState) : Prop where
  inner : ∀ t ∈ live s, Disjoint (tablesOf s t) (imageOf s t)
  owned : s.heap.Owns K
  apart : Disjoint K (allHeld s (live s))

section Frames
variable {s s' : KernelState} {K : Set ℕ} {t : ℕ} {a : Task} {x : Process}

theorem mem_live (ha : s.tasks t = some a) : t ∈ live s := by
  intro hnone
  rw [ha] at hnone
  cases hnone

theorem tablesOf_eq (ha : s.tasks t = some a) :
    tablesOf s t = {q | q = t ∨ q ∈ frames a.process 2 ∨ q ∈ s.spaceFrames a.pageDirectory} := by
  ext q
  constructor
  · intro ⟨b, hb, hq⟩
    obtain rfl := Option.some.inj (ha.symm.trans hb)
    exact hq
  · exact fun hq => ⟨a, ha, hq⟩

theorem imageOf_eq (ha : s.tasks t = some a) (hx : s.processAt a.process = some x) :
    imageOf s t = imageFrames x.ptr x.size x.stack := by
  ext q
  constructor
  · intro ⟨b, y, hb, hy, hq⟩
    obtain rfl := Option.some.inj (ha.symm.trans hb)
    obtain rfl := Option.some.inj (hx.symm.trans hy)
    exact hq
  · exact fun hq => ⟨a, x, ha, hx, hq⟩

theorem tablesOf_subset (h : Isolated s (live s)) (ht : t ∈ live s) :
    tablesOf s t ⊆ heldBy s t := by
  obtain ⟨a, x, ha, hx, -⟩ := h.shown t ht
  rw [tablesOf_eq ha, heldBy_eq ha hx]
  rintro q (hq | hq | hq)
  · exact Or.inl hq
  · exact Or.inr (Or.inl hq)
  · exact Or.inr (Or.inr (Or.inl hq))

theorem imageOf_subset : imageOf s t ⊆ heldBy s t :=
  fun _ ⟨a, x, ha, hx, hq⟩ => ⟨a, x, ha, hx, Or.inr (Or.inr (Or.inr hq))⟩

theorem parts_congr (h : Isolated s (live s)) (ht : t ∈ live s)
    (htasks : (s'.tasks t).map identity = (s.tasks t).map identity)
    (hprocess : ∀ p ∈ allHeld s (live s), s'.processAt p = s.processAt p)
    (hagree : AgreeOn (allHeld s (live s)) s.toPagingLayer s'.toPagingLayer) :
    tablesOf s' t = tablesOf s t ∧ imageOf s' t = imageOf s t := by
  obtain ⟨a, x, ha, hx, -⟩ := h.shown t ht
  rw [ha, Option.map_some] at htasks
  obtain ⟨b, hb, hab⟩ := Option.map_eq_some_iff.mp htasks
  obtain ⟨hdirectory, hp⟩ := Prod.mk.inj hab
  have hsub : heldBy s t ⊆ allHeld s (live s) := heldBy_subset ht
  have hx' : s'.processAt b.process = some x := by
    rw [hp, hprocess _ (hsub ⟨a, x, ha, hx, Or.inr (Or.inl (process_mem_frames _))⟩), hx]
  have hspace : AgreeOn (s.spaceFrames a.pageDirectory) s.toPagingLayer s'.toPagingLayer := fun q hq =>
    hagree q (hsub ⟨a, x, ha, hx, Or.inr (Or.inr (Or.inl hq))⟩)
  constructor
  · rw [tablesOf_eq ha, tablesOf_eq hb, hp, hdirectory, spaceFrames_congr hspace]
  · rw [imageOf_eq ha hx, imageOf_eq hb hx']

theorem Guarded.congr (h : Guarded K s) (hs : Isolated s (live s))
    (htasks : ∀ t, (s'.tasks t).map identity = (s.tasks t).map identity)
    (hprocess : ∀ p ∈ allHeld s (live s), s'.processAt p = s.processAt p)
    (hagree : AgreeOn (allHeld s (live s)) s.toPagingLayer s'.toPagingLayer)
    (howns : s'.heap.Owns (allHeld s (live s) ∪ K)) : Guarded K s' := by
  have hlive : live s' = live s := live_of_identity htasks
  obtain ⟨-, hheld⟩ := hs.congr (fun t _ => htasks t) hprocess hagree
    (howns.mono Set.subset_union_left)
  have hall : allHeld s' (live s) = allHeld s (live s) := by
    ext q
    exact exists_congr fun t => and_congr_right fun ht => by rw [hheld t ht]
  refine ⟨fun t ht => ?_, howns.mono Set.subset_union_right, ?_⟩
  · rw [hlive] at ht
    obtain ⟨htables, himage⟩ := parts_congr hs ht (htasks t) hprocess hagree
    rw [htables, himage]
    exact h.inner t ht
  · rw [hlive, hall]
    exact h.apart

end Frames

structure Spared (K : Set ℕ) (s s' : KernelState) : Prop where
  agree : AgreeOn K s.toPagingLayer s'.toPagingLayer
  kernelChunk : s'.kernelChunk = s.kernelChunk

section Steps
variable {s s' : KernelState} {K : Set ℕ} {op : Op}

theorem loaded_guarded {p slot t chunk : ℕ} {y : Process} {c : Prop} {k : KernelHeap}
    (h : Guarded K s) (hs : Isolated s (live s)) (hnew : Disjoint (allHeld s (live s) ∪ K) (frames p 2))
    (hloaded : Loaded (allHeld s (live s) ∪ K ∪ frames p 2) c
      (KernelState.putProcess p .zero { s with heap := k }) p slot .zero y t chunk s')
    (hshort : s'.heap.short = false) : Guarded K s' := by
  have hplaced := hloaded.placement hshort
  have hcontent : ∀ u, (s'.tasks u).map Task.content =
      if u = t then some (chunk, initialRegisters, p) else (s.tasks u).map Task.content :=
    hloaded.content
  have hne : ∀ q ∈ allHeld s (live s) ∪ K, q ≠ t ∧ q ≠ p := fun q hq =>
    ⟨fun ht => hloaded.fresh (ht ▸ Or.inl hq),
      fun hp => Set.disjoint_left.mp hnew hq (hp ▸ process_mem_frames p)⟩
  have hprocess : ∀ q ∈ allHeld s (live s), s'.processAt q = s.processAt q := by
    intro q hq
    have hqp := (hne q (Or.inl hq)).2
    rw [hloaded.object, Function.update_of_ne hqp]
    exact putProcess_of_ne hqp _ _
  have hagree : AgreeOn (allHeld s (live s)) s.toPagingLayer s'.toPagingLayer := fun q hq =>
    hplaced.agree q (Or.inl (Or.inl hq))
  have htasks : ∀ u ∈ live s, u ≠ t ∧ (s'.tasks u).map identity = (s.tasks u).map identity := by
    intro u hu
    obtain ⟨a, x, ha, hx, -⟩ := hs.shown u hu
    have hut := (hne u (Or.inl ⟨u, hu, a, x, ha, hx, Or.inl rfl⟩)).1
    refine ⟨hut, identity_of_content ((hcontent u).trans ?_)⟩
    rw [if_neg hut]
  obtain ⟨-, hheld⟩ := hs.congr (fun u hu => (htasks u hu).2) hprocess hagree
    (hloaded.kept.owns.mono (Set.subset_union_left.trans Set.subset_union_left))
  -- the new task
  obtain ⟨a, ha, hc⟩ := Option.map_eq_some_iff.mp ((hcontent t).trans (if_pos rfl))
  obtain ⟨rfl, -, rfl⟩ : a.pageDirectory = chunk ∧ a.registers = initialRegisters ∧
      a.process = p := by
    simpa [Task.content] using hc
  have hx : s'.processAt a.process = some y := by rw [hloaded.object, Function.update_self]
  have hparts : tablesOf s' t ⊆ {t} ∪ s'.spaceFrames a.pageDirectory ∪ frames a.process 2 := by
    rw [tablesOf_eq ha]
    rintro q (hq | hq | hq)
    · exact Or.inl (Or.inl hq)
    · exact Or.inr hq
    · exact Or.inl (Or.inr hq)
  constructor
  · rw [live_of_content hcontent]
    rintro u (rfl | hu)
    · rw [imageOf_eq ha hx]
      refine hplaced.freshImage.mono_left (hparts.trans ?_)
      rintro q (hq | hq)
      · exact Or.inr hq
      · exact Or.inl (Or.inr hq)
    · obtain ⟨htables, himage⟩ := parts_congr hs hu (htasks u hu).2 hprocess hagree
      rw [htables, himage]
      exact h.inner u hu
  · exact hloaded.kept.owns.mono (Set.subset_union_right.trans Set.subset_union_left)
  · rw [live_of_content hcontent]
    refine Set.disjoint_left.mpr fun q hq htaken => ?_
    obtain ⟨u, rfl | hu, hqu⟩ := htaken
    · rw [heldBy_eq ha hx] at hqu
      rcases hqu with hqu | hqu | hqu | hqu
      · exact (hne q (Or.inr hq)).1 hqu
      · exact Set.disjoint_left.mp hnew (Or.inr hq) hqu
      · exact Set.disjoint_left.mp hplaced.freshTask (Or.inl (Or.inr hq)) (Or.inr hqu)
      · exact Set.disjoint_left.mp hplaced.freshImage (Or.inl (Or.inl (Or.inr hq))) hqu
    · rw [hheld u hu] at hqu
      exact Set.disjoint_left.mp h.apart hq ⟨u, hu, hqu⟩

theorem Guarded.load {files : FileLayer} {filename : CString} {out : ℤ × ℕ} (h : Guarded K s)
    (hs : Isolated s (live s)) (hrun : processLoad files filename s = .ok (out, s'))
    (hshort : s'.heap.short = false) : Guarded K s' ∧ Spared K s s' := by
  have howns := hs.allOwned.union h.owned
  have hspec := processLoad_spec (c := True) ⟨howns, fun _ => trivial⟩ hrun
  have hmalloc := @malloc_spec s.heap 5256 (by decide)
  cases hspec with
  | noSlot none => exact ⟨h, fun _ _ => ⟨rfl, rfl⟩, rfl⟩
  | noProcess slot full =>
    exact ⟨h.congr hs (fun _ => rfl) (fun _ _ => rfl) (fun _ _ => ⟨rfl, rfl⟩)
      (hmalloc.owns howns), fun _ _ => ⟨rfl, rfl⟩, rfl⟩
  | fails r p k table ram y slot object nonzero negative kept =>
    have hnew : p ∉ allHeld s (live s) ∪ K := object ▸ hmalloc.fresh howns
    exact ⟨h.congr hs (fun _ => rfl)
      (fun q hq => putProcess_of_ne (fun hp : q = p => hnew (hp ▸ Or.inl hq)) _ _)
      (fun _ _ => ⟨rfl, rfl⟩) (kept.owns.mono Set.subset_union_left), fun _ _ => ⟨rfl, rfl⟩, rfl⟩
  | loads p slot t chunk y s' free object nonzero new whole sized loaded =>
    rw [whole hshort] at new loaded
    refine ⟨loaded_guarded h hs new loaded hshort, fun q hq => ?_, loaded.kernelChunk⟩
    exact (loaded.placement hshort).agree q (Or.inl (Or.inr hq))

theorem Guarded.switch {task : ℕ} {u : Unit} (h : Guarded K s) (hs : Isolated s (live s))
    (hrun : onTasks (taskSwitch task) s = .ok (u, s')) : Guarded K s' ∧ Spared K s s' := by
  obtain ⟨-, x, -, rfl⟩ := switch_ok hrun
  exact ⟨h.congr hs (fun _ => rfl) (fun _ _ => rfl) (fun _ _ => ⟨rfl, rfl⟩)
    (hs.allOwned.union h.owned), fun _ _ => ⟨rfl, rfl⟩, rfl⟩

theorem Guarded.syscall {command : ℤ} {frame : InterruptFrame} {r : ℕ} (h : Guarded K s)
    (hs : Isolated s (live s)) (hrun : isr80hHandler command frame s = .ok (r, s')) :
    Guarded K s' ∧ Spared K s s' := by
  obtain ⟨x, s₂, ht, hx, hcommand, rfl⟩ := isr80hHandler_ok hrun
  obtain ⟨a, y, ha, hy, hmapped⟩ := hs.shown _ (mem_live hx)
  obtain rfl := Option.some.inj (hx.symm.trans ha)
  have hself : (s.toTaskLayer.saved x frame).tasks s.currentTask =
      some { x with registers := frame.toRegisters } := putTask_self _ _ _
  have hspace : (s.toTaskLayer.saved x frame).AddressSpace x.pageDirectory :=
    ⟨hmapped.space.owned, hmapped.space.separated⟩
  obtain ⟨hpages, howns⟩ := hcommand.memory hself hspace (hs.allOwned.union h.owned)
  have hmoved := hcommand.unmoved
  have hidentity : ∀ t, (s₂.tasks t).map identity = (s.tasks t).map identity := fun t => by
    rw [hmoved.tasks]
    exact saved_identity hx t
  have hagree : ∀ A, AgreeOn A s.toPagingLayer s₂.toPagingLayer := fun A q _ =>
    ⟨congrFun hpages q, congrFun hmoved.chunks q⟩
  set s' : KernelState :=
    { s with toTaskLayer := s₂.onTask { x with registers := frame.toRegisters } } with hs'
  exact ⟨@Guarded.congr _ s' _ h hs hidentity (fun _ _ => rfl) (hagree _) howns, hagree K,
    hmoved.kernelChunk⟩

theorem step_guarded (h : Guarded K s) (hs : Isolated s (live s)) (hstep : step s op = some s')
    (hshort : s'.heap.short = false) : Guarded K s' ∧ Spared K s s' := by
  cases op with
  | load files filename =>
    obtain ⟨out, hrun⟩ := step_load.mp hstep
    exact h.load hs hrun hshort
  | switch task =>
    obtain ⟨u, hrun⟩ := step_switch.mp hstep
    exact h.switch hs hrun
  | syscall command frame ram =>
    obtain ⟨r, hrun⟩ := step_syscall.mp hstep
    have hs₁ := (@Isolated.congr _ { s with ram := ram } _ hs (fun _ _ => rfl)
      (fun _ _ => rfl) (fun _ _ => ⟨rfl, rfl⟩) hs.allOwned).1
    have h₁ := @Guarded.congr s { s with ram := ram } K h hs (fun _ => rfl) (fun _ _ => rfl)
      (fun _ _ => ⟨rfl, rfl⟩) (hs.allOwned.union h.owned)
    obtain ⟨hguarded, hagree, hkernel⟩ := h₁.syscall hs₁ hrun
    exact ⟨hguarded, hagree, hkernel⟩

end Steps

def kernelFrames (s : KernelState) : Set ℕ := s.spaceFrames s.kernelChunk

def Booted (s : KernelState) : Prop :=
  ∃ l verbose m m', Startup.StaticStorage l m ∧ Startup.kernelInit l verbose m = .ok ((), m') ∧
    s = m'.kernel

/-- What holds while no request has been short. -/
structure Running (s : KernelState) : Prop where
  isolated : Isolated s (live s)
  guarded : Guarded (kernelFrames s) s
  sees : PrintBuf.KernelSeesSelf s.toTaskLayer

section Runs
variable {s₀ s s' : KernelState} {ops : List Op} {op : Op}

theorem Booted.running (h : Booted s) : Running s := by
  obtain ⟨l, verbose, m, m', hstatic, hinit, rfl⟩ := h
  have hstarted := Startup.started_of_kernelInit hstatic hinit
  have hnone : ∀ t, t ∉ live m'.kernel := fun t ht => ht (hstarted.unloaded.tasks t)
  refine ⟨unloaded_isolated hstarted.unloaded, ⟨fun t ht => absurd ht (hnone t), ?_, ?_⟩,
    hstarted.sees⟩
  · exact hstarted.space.owned
  · exact Set.disjoint_right.mpr fun q ⟨t, ht, _⟩ => absurd ht (hnone t)

theorem Spared.frames (h : Spared (kernelFrames s) s s') : kernelFrames s' = kernelFrames s := by
  unfold kernelFrames
  rw [h.kernelChunk]
  exact spaceFrames_congr h.agree

theorem Spared.translate (h : Spared (kernelFrames s) s s') {v : ℕ} (hv : v < 4294967296) :
    s'.toTaskLayer.onKernel.translate v = s.toTaskLayer.onKernel.translate v := by
  have hc := (h.agree _ (s.chunk_mem s.kernelChunk)).2
  have hd := (h.agree _ (s.directory_mem s.kernelChunk)).1
  have hcr3 : s'.toTaskLayer.onKernel.cr3 = s.chunks s.kernelChunk := by
    show s'.chunks s'.kernelChunk = _
    rw [h.kernelChunk, hc]
  have hentry := entryAt_congr h.agree hv
  rw [entryAt, hc] at hentry
  apply PrintBuf.translate_of_entry
  · rw [hcr3]
    exact congrFun hd _
  · rw [hcr3]
    exact hentry

theorem step_running (h : Running s) (hstep : step s op = some s')
    (hshort : s'.heap.short = false) : Running s' := by
  obtain ⟨hguarded, hspared⟩ := step_guarded h.guarded h.isolated hstep hshort
  refine ⟨step_isolated (fun _ => h.isolated) hstep hshort, ?_, fun v hv => ?_⟩
  · rw [hspared.frames]
    exact hguarded
  · exact (hspared.translate hv).trans (h.sees v hv)

theorem run_running (h : s.heap.short = false → Running s) (hrun : exec step s ops = some s')
    (hshort : s'.heap.short = false) : Running s' :=
  exec_invariant (I := fun s => s.heap.short = false → Running s)
    (fun _ _ _ hs hstep hshort => step_running (hs (step_short hstep hshort)) hstep hshort) h hrun
    hshort

/-- In whatever order programs are loaded, tasks are switched to and the kernel is called: no
writeable entry of a task leads to the object, the process, the directory or a table of any task,
its own included, or into the kernel's directory, and the kernel sees every address at itself. -/
theorem tables_out_of_reach (h₀ : Booted s₀) (h : exec step s₀ ops = some s)
    (hshort : s.heap.short = false) : PrintBuf.KernelSeesSelf s.toTaskLayer ∧
      ∀ t a, s.tasks t = some a → Disjoint (writeableFrames s a) (kernelFrames s) ∧
        ∀ u b, s.tasks u = some b → Disjoint (writeableFrames s a)
          ({u} ∪ frames b.process 2 ∪ s.spaceFrames b.pageDirectory) := by
  obtain ⟨hs, hguarded, hsees⟩ := run_running (fun _ => h₀.running) h hshort
  have himage : ∀ t a, s.tasks t = some a → writeableFrames s a ⊆ imageOf s t := by
    intro t a ha
    obtain ⟨b, x, hb, hx, hmapped⟩ := hs.shown t (mem_live ha)
    obtain rfl := Option.some.inj (ha.symm.trans hb)
    have howned := (hs.owned t (mem_live ha)).mono imageOf_subset
    rw [imageOf_eq ha hx] at howned ⊢
    exact writeableFrames_subset hmapped howned
  refine ⟨hsees, fun t a ha => ⟨?_, fun u b hb => ?_⟩⟩
  · refine (hguarded.apart.mono_right ?_).symm
    exact ((himage t a ha).trans imageOf_subset).trans (heldBy_subset (mem_live ha))
  · have htables : {u} ∪ frames b.process 2 ∪ s.spaceFrames b.pageDirectory = tablesOf s u := by
      rw [tablesOf_eq hb]
      ext q
      exact or_assoc
    rw [htables]
    by_cases htu : t = u
    · subst htu
      exact (hguarded.inner t (mem_live ha)).symm.mono_left (himage t a ha)
    · exact (hs.apart t (mem_live ha) u (mem_live hb) htu).mono
        ((himage t a ha).trans imageOf_subset) (tablesOf_subset hs (mem_live hb))

end Runs

theorem booted_exists : ∃ s, Booted s ∧ Unloaded s ∧ s.kernelChunk ≠ 0 ∧ s.heap.Unused 1032 ∧
    s.heap.short = false := by
  obtain ⟨m', hinit, hroom⟩ := Startup.someMachine_starts
  have hstarted := Startup.started_of_kernelInit Startup.someMachine_static hinit
  exact ⟨_, ⟨_, _, _, _, Startup.someMachine_static, hinit, rfl⟩, hstarted.unloaded,
    hstarted.space.chunk_ne, hroom.unused, hroom.long⟩

theorem tables_out_of_reach_sample : ∃ (s₀ s : KernelState) (t u : ℕ) (a c : Task),
    Booted s₀ ∧ exec step s₀ [loadByte, loadByte, .switch u] = some s ∧ t ≠ u ∧
      s.tasks t = some a ∧ s.tasks u = some c ∧
      Disjoint (writeableFrames s a) (kernelFrames s) ∧
      Disjoint (writeableFrames s a) ({u} ∪ frames c.process 2 ∪ s.spaceFrames c.pageDirectory) ∧
      Disjoint (writeableFrames s c) ({t} ∪ frames a.process 2 ∪ s.spaceFrames a.pageDirectory) := by
  obtain ⟨s₀, hbooted, hunloaded, hkernel, hunused, hlong⟩ := booted_exists
  obtain ⟨s, t, u, a, c, hloads, hs, hne, -, ha, hc⟩ :=
    populated_two (unloaded_populated hunloaded hunused hlong hkernel) (by decide)
  have hexec : exec step s₀ [loadByte, loadByte, .switch u] = some s := hloads []
  obtain ⟨-, hout⟩ := tables_out_of_reach hbooted hexec hs.long
  exact ⟨s₀, s, t, u, a, c, hbooted, hexec, hne, ha, hc, (hout t a ha).1, (hout t a ha).2 u c hc,
    (hout u c hc).2 t a ha⟩

end Dexter.ProcessRuns
