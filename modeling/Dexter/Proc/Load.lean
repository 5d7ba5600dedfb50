import Dexter.Proc.Process

/-!
# Loading a process

What `process_load` does, stage by stage: `LoadBinary` for the program, `Loaded` for
the task and the mapping, `Load` for the whole call. `A` are frames that are owned
before; every stage keeps them. Where no request has been short, a new process is a
`Placement`: its task, its address space and its image are built in frames that were
nobody's.
-/

namespace Dexter
open Lib.Programs KernelHeap KernelState

structure Program (A : Set ℕ) (ptr size : ℕ) (k : KernelHeap) : Prop where
  nonzero : ptr ≠ 0
  aligned : ptr % 4096 = 0
  lt : ptr < 4294967296
  owned : k.short = false → k.Owns (frames ptr (needed size))
  fresh : k.short = false → Disjoint A (frames ptr (needed size))

def FileLayer.HasSize (files : FileLayer) (filename : CString) (f : FileState) (size : ℕ) : Prop :=
  ∃ fd f' stat f'', files.fopen filename f = .ok (fd, f') ∧
    files.fstat fd f' = .ok ((0, stat), f'') ∧ size = u32 ((stat.map FileStat.filesize).getD 0)

inductive LoadBinary (files : FileLayer) (filename : CString) (A : Set ℕ) (c : Prop)
    (s : KernelState) (p : ℕ) (x : Process) : ℤ → KernelState → Prop
  | fails (r : ℤ) (k : KernelHeap) (table : ℕ → Option FileDescriptor) (ram : ℕ → UInt8)
      (negative : r < 0) (kept : Kept A c k) : LoadBinary files filename A c s p x r
        { s with heap := k, fileDescriptors := table, ram := ram }
  | loads (k : KernelHeap) (table : ℕ → Option FileDescriptor) (ram : ℕ → UInt8) (ptr size : ℕ)
      (sized : files.HasSize filename s.files size) (kept : Kept A c k)
      (program : Program A ptr size k) : LoadBinary files filename A c s p x 0
        (KernelState.putProcess p { x with ptr := ptr, size := size }
          { s with heap := k, fileDescriptors := table, ram := ram })

section Load
variable {files : FileLayer} {filename : CString} {A : Set ℕ} {c : Prop} {s s' : KernelState}
  {p : ℕ} {x : Process} {r : ℤ}

theorem kzalloc_program {k : KernelHeap} {size : ℕ} (hsize : size < 4294967296) (hk : Kept A c k)
    (h0 : (k.malloc size).1 ≠ 0) :
    Program A (k.malloc size).1 size (k.malloc size).2 ∧ Kept A c (k.malloc size).2 := by
  have hmalloc := k.malloc_spec hsize
  have hhanded := kzalloc_kept hsize hk (step_apply _ k)
  exact ⟨⟨h0, hhanded.aligned, hhanded.lt, fun hs => (hmalloc.owns_frames hs hk.owns).1,
    fun hs => (hmalloc.owns_frames hs hk.owns).2⟩, hhanded.kept⟩

theorem processLoadBinaryBody_spec {fd : ℤ} (hk : Kept A c s.heap) (hx : s.processAt p = some x)
    (h : processLoadBinaryBody files fd p s = .ok (r, s')) :
    (r < 0 ∧ ∃ k ram, s' = { s with heap := k, ram := ram } ∧ Kept A c k) ∨
    (r = 0 ∧ ∃ k ram ptr stat f, files.fstat fd s.files = .ok ((0, stat), f) ∧ Kept A c k ∧
      Program A ptr (u32 ((stat.map FileStat.filesize).getD 0)) k ∧
      s' = KernelState.putProcess p
        { x with ptr := ptr, size := u32 ((stat.map FileStat.filesize).getD 0) }
        { s with heap := k, ram := ram }) := by
  unfold processLoadBinaryBody at h
  by_cases hfd : fd = 0
  · rw [if_pos hfd] at h
    obtain ⟨rfl, rfl⟩ := ok_inj h
    exact Or.inl ⟨by decide, s.heap, s.ram, rfl, hk⟩
  rw [if_neg hfd] at h
  obtain ⟨stat, s₁, hstat, h⟩ := bind_ok.mp h
  obtain ⟨f, hrun, rfl⟩ := onFiles_ok.mp hstat
  obtain ⟨rfl, hle⟩ := files.fstat_same hrun
  split_ifs at h with hok
  · obtain ⟨rfl, rfl⟩ := ok_inj h
    exact Or.inl ⟨lt_of_le_of_ne hle hok, s.heap, s.ram, rfl, hk⟩
  · rw [bind_of_ok (onHeap_kzalloc _ _)] at h
    obtain ⟨stat₀, stat⟩ := stat
    obtain rfl : stat₀ = 0 := not_not.mp hok
    split_ifs at h with h0
    · obtain ⟨rfl, rfl⟩ := ok_inj h
      exact Or.inl ⟨by decide, _, s.ram, rfl, (kzalloc_kept (u32_lt _) hk (step_apply _ _)).kept⟩
    · obtain ⟨hprogram, hkept⟩ := kzalloc_program (u32_lt _) hk h0
      rw [bind_of_ok (clearBytes_apply _ _ _)] at h
      obtain ⟨count, s₂, hread, h⟩ := bind_ok.mp h
      obtain ⟨f₂, hrun₂, rfl⟩ := onFiles_ok.mp hread
      obtain rfl := files.fread_same hrun₂
      obtain ⟨u, s₃, hstore, h⟩ := bind_ok.mp h
      obtain ⟨-, rfl⟩ := ok_inj hstore
      split_ifs at h with hcount
      · obtain ⟨rfl, rfl⟩ := ok_inj h
        exact Or.inl ⟨by decide, _, _, rfl, hkept⟩
      · obtain ⟨v, s₄, hset, h⟩ := bind_ok.mp h
        obtain ⟨hp, y, hy, rfl⟩ := setProcess_ok.mp hset
        obtain ⟨rfl, rfl⟩ := ok_inj h
        obtain rfl : x = y := Option.some.inj (hx.symm.trans hy)
        exact Or.inr ⟨rfl, _, _, _, stat, _, hrun, hkept, hprogram, rfl⟩

theorem Program.release {k k' : KernelHeap} {P : Set ℕ} {ptr size : ℕ}
    (h : Program (A ∪ P \ {0}) ptr size k) (hP : Loose A P)
    (hrun : ∀ B c, Loose B P → Kept B c k → Kept B c k') : Program A ptr size k' := by
  have hshort : k'.short = false → k.short = false :=
    (hrun ∅ (k.short = false) (fun p hp => ⟨Set.notMem_empty p, (hP p hp).2⟩)
      ⟨Owns.empty k, id⟩).short
  refine ⟨h.nonzero, h.aligned, h.lt, fun hs => ?_, fun hs => ?_⟩
  · have howned := h.owned (hshort hs)
    have hloose : Loose (frames ptr (needed size)) P := by
      refine fun q hq => ⟨fun hframe => ?_, (hP q hq).2⟩
      have hpos := howned.pos hframe
      exact Set.disjoint_left.mp (h.fresh (hshort hs)) (Or.inr ⟨hq, fun h0 => by
        rw [Set.mem_singleton_iff] at h0
        omega⟩) hframe
    exact (hrun _ True hloose ⟨howned, fun _ => trivial⟩).owns
  · exact (h.fresh (hshort hs)).mono_left Set.subset_union_left

theorem processLoadBinary_spec (hk : Kept A c s.heap) (hx : s.processAt p = some x)
    (h : processLoadBinary files filename p s = .ok (r, s')) :
    LoadBinary files filename A c s p x r s' := by
  obtain ⟨fd, s₁, hopen, h⟩ := bind_ok.mp h
  obtain ⟨f, hrun, rfl⟩ := onFiles_ok.mp hopen
  have hbuilt := files.fopen_built filename hk hrun
  obtain ⟨r₁, s₂, hbody, h⟩ := bind_ok.mp h
  obtain ⟨u, s₃, hclose, h⟩ := bind_ok.mp h
  obtain ⟨rfl, rfl⟩ := ok_inj h
  obtain ⟨f', hrun', rfl⟩ := onFiles_ok.mp hclose
  -- the frames of the open file are nobody else's, also after the program has been read
  have hend : ∀ k B c', Loose B (files.holds fd f) → Kept B c' k →
      files.fclose fd ⟨k, f.fileDescriptors⟩ = .ok (u, f') → Kept B c' f'.heap := by
    intro k B c' hloose hkept hrun
    have hloose' : Loose B (files.holds fd { f with heap := k }) := by
      rwa [files.holds_heap fd f k]
    exact files.fclose_kept hloose' hkept hrun
  have hspec := processLoadBinaryBody_spec (x := x)
    (s := { s with heap := f.heap, fileDescriptors := f.fileDescriptors }) hbuilt.all hx hbody
  rcases hspec with
    ⟨hneg, k, ram, rfl, hkept⟩ | ⟨rfl, k, ram, ptr, stat, f₂, hstat, hkept, hprogram, rfl⟩
  · exact .fails _ _ _ _ hneg (hend _ _ _ hbuilt.loose (hkept.mono Set.subset_union_left) hrun')
  · exact .loads _ _ _ _ _ ⟨fd, f, stat, f₂, hrun, hstat, rfl⟩
      (hend _ _ _ hbuilt.loose (hkept.mono Set.subset_union_left) hrun')
      (hprogram.release hbuilt.loose fun B c' hB hkB => hend _ _ _ hB hkB hrun')

theorem processMapRegion_ok {virt phys total : ℕ} {u : Unit}
    (h : processMapRegion p virt phys total s = .ok (u, s')) :
    ∃ pages, s' = { s with pages := pages } := by
  obtain ⟨x, s₁, hget, h₁⟩ := bind_ok.mp h
  obtain ⟨-, -, rfl⟩ := getProcess_ok.mp hget
  obtain ⟨t, s₂, htask, h₂⟩ := bind_ok.mp h₁
  obtain ⟨t', ht, rfl⟩ := onTasks_ok.mp htask
  obtain ⟨-, -, rfl⟩ := TaskLayer.taskAt_ok.mp ht
  obtain ⟨r, s₃, hmap, h₃⟩ := bind_ok.mp h₂
  obtain ⟨-, rfl⟩ := ok_inj h₃
  obtain ⟨t₁, ht₁, rfl⟩ := onTasks_ok.mp hmap
  obtain ⟨m, hm, rfl⟩ := TaskLayer.onMemory_ok.mp ht₁
  obtain ⟨pages, rfl⟩ := pagingMapTo_pages _ _ _ _ _ ⟨_, rfl⟩ hm
  exact ⟨pages, rfl⟩

theorem processMapMemory_ok (h : processMapMemory p s = .ok (r, s')) :
    r = 0 ∧ ∃ pages, s' = { s with pages := pages } := by
  obtain ⟨r₁, s₁, hbinary, h₁⟩ := bind_ok.mp h
  obtain ⟨x, s₂, hget, h₂⟩ := bind_ok.mp hbinary
  obtain ⟨-, -, rfl⟩ := getProcess_ok.mp hget
  obtain ⟨u, s₃, hregion, hpure⟩ := bind_ok.mp h₂
  obtain ⟨rfl, rfl⟩ := ok_inj hpure
  obtain ⟨pages, rfl⟩ := processMapRegion_ok hregion
  rw [if_neg (by decide)] at h₁
  obtain ⟨y, s₄, hget', h₃⟩ := bind_ok.mp h₁
  obtain ⟨-, -, rfl⟩ := getProcess_ok.mp hget'
  obtain ⟨v, s₅, hregion', hpure'⟩ := bind_ok.mp h₃
  obtain ⟨rfl, rfl⟩ := ok_inj hpure'
  obtain ⟨pages', rfl⟩ := processMapRegion_ok hregion'
  exact ⟨rfl, pages', rfl⟩

theorem processMapRegion_eq {t : Task} {virt phys total : ℕ} {m : Memory} (hp : p ≠ 0)
    (hx : s.processAt p = some x) (ht0 : x.task ≠ 0) (ht : s.tasks x.task = some t)
    (hmap : pagingMapTo t.pageDirectory virt phys (pagingAlignAddress (u32 (phys + total))) 7
      s.toPagingLayer = .ok (0, m)) :
    processMapRegion p virt phys total s = .ok ((), { s with toPagingLayer := m }) := by
  have hget : getProcess p s = .ok (x, s) := getProcess_ok.mpr ⟨hp, hx, rfl⟩
  have htask : onTasks (TaskLayer.taskAt x.task) s = .ok (t, s) :=
    onTasks_ok.mpr ⟨_, TaskLayer.taskAt_of_some ht0 ht, rfl⟩
  have hmemory : onMemory (pagingMapTo t.pageDirectory virt phys
      (pagingAlignAddress (u32 (phys + total)))
      (pagingIsPresent ||| pagingAccessFromAll ||| pagingIsWriteable)) s =
      .ok (0, { s with toPagingLayer := m }) :=
    onTasks_ok.mpr ⟨_, TaskLayer.onMemory_of_ok hmap, rfl⟩
  rw [processMapRegion, bind_of_ok hget, bind_of_ok htask, bind_of_ok hmemory, pure_apply]

theorem needed_stack : needed 16384 = 4 := by decide

theorem processMapMemory_eq {t : Task} (hp : p ≠ 0) (hx : s.processAt p = some x)
    (ht0 : x.task ≠ 0) (ht : s.tasks x.task = some t) (hs : s.AddressSpace t.pageDirectory)
    (hptr : x.ptr % 4096 = 0) (hstack : x.stack % 4096 = 0)
    (hptrlt : x.ptr + 4096 * needed x.size < 4294967296)
    (hstacklt : x.stack + 4096 * 4 < 4294967296) :
    processMapMemory p s =
      .ok (0, { s with toPagingLayer := s.withImage t.pageDirectory x.ptr x.size x.stack }) := by
  have hget : getProcess p s = .ok (x, s) := getProcess_ok.mpr ⟨hp, hx, rfl⟩
  have hregion := processMapRegion_eq hp hx ht0 ht
    (pagingMapTo_region hs (by decide : 0x400000 % 4096 = 0) (by decide) hptr hptrlt)
  set m₁ := s.withRange t.pageDirectory 0x400000
    (fun i => (x.ptr + 4096 * i) % 4294967296 ||| 7) (needed x.size) 0 with hm₁
  have hbinary : processMapBinary p s = .ok (0, { s with toPagingLayer := m₁ }) := by
    rw [processMapBinary, bind_of_ok hget, bind_of_ok hregion, pure_apply]
  have hget₁ : getProcess p { s with toPagingLayer := m₁ } = .ok (x, { s with toPagingLayer := m₁ }) :=
    getProcess_ok.mpr ⟨hp, hx, rfl⟩
  have hs₁ : m₁.AddressSpace t.pageDirectory := (hs.withRange _ _ _ _).1
  have hlt : x.stack + 4096 * needed 16384 < 4294967296 := by
    rw [needed_stack]
    exact hstacklt
  have hregion₁ : processMapRegion p dexterProgramVirtualStackAddressEnd x.stack
      dexterUserProgramStackSize { s with toPagingLayer := m₁ } = .ok ((), _) :=
    processMapRegion_eq hp hx ht0 ht
      (pagingMapTo_region hs₁ (by decide : 0x3FB000 % 4096 = 0) (by decide) hstack hlt)
  rw [processMapMemory, bind_of_ok hbinary, if_neg (by decide), bind_of_ok hget₁,
    bind_of_ok hregion₁, pure_apply, needed_stack]
  rfl

/-- Beside the frames of `A`, the task `t` with its address space and the image of `x` have
been built, in frames that were nobody's. -/
structure Placement (A : Set ℕ) (m m' : Memory) (x : Process) (t chunk : ℕ) : Prop where
  mapped : Mapped m' chunk x.ptr x.size x.stack
  agree : PagingLayer.AgreeOn A m m'
  owned : m'.heap.Owns (A ∪ ({t} ∪ m'.spaceFrames chunk) ∪ imageFrames x.ptr x.size x.stack)
  freshTask : Disjoint A ({t} ∪ m'.spaceFrames chunk)
  freshImage : Disjoint (A ∪ ({t} ∪ m'.spaceFrames chunk)) (imageFrames x.ptr x.size x.stack)

structure Loaded (A : Set ℕ) (c : Prop) (s : KernelState) (p slot : ℕ) (x x' : Process)
    (t chunk : ℕ) (s' : KernelState) : Prop where
  object : s'.processAt = Function.update s.processAt p (some x')
  task : x'.task = t
  keyboard : x'.keyboard = x.keyboard
  slots : s'.processes = Function.update s.processes slot p
  process : s'.currentProcess = s.currentProcess
  kernelChunk : s'.kernelChunk = s.kernelChunk
  current : s'.currentTask = s.currentTask ∨ s'.currentTask = t
  nonzero : t ≠ 0
  fresh : t ∉ A
  content : ∀ u, (s'.tasks u).map Task.content =
    if u = t then some (chunk, initialRegisters, p) else (s.tasks u).map Task.content
  kept : Kept A c s'.heap
  placement : s'.heap.short = false → Placement A s.toPagingLayer s'.toPagingLayer x' t chunk

structure Named (filename : CString) (slot : ℕ) (x : Process) : Prop where
  filename : x.filename = strncpyBytes filename dexterMaxPath
  id : x.id = slot

/-- What `process_load_for_slot` does for the process `x` at `p`, if it comes back: the process
gets no slot that is not there. -/
inductive LoadBody (files : FileLayer) (filename : CString) (A : Set ℕ) (c : Prop)
    (s : KernelState) (p : ℕ) (slot : ℤ) (x : Process) : ℤ × ℕ → KernelState → Prop
  | fails (r : ℤ) (k : KernelHeap) (table : ℕ → Option FileDescriptor) (ram : ℕ → UInt8)
      (y : Process) (negative : r < 0) (kept : Kept A c k) (task : y.task = x.task) :
      LoadBody files filename A c s p slot x (r, 0)
        (KernelState.putProcess p y { s with heap := k, fileDescriptors := table, ram := ram })
  | loads (n : ℕ) (y : Process) (t chunk : ℕ) (s' : KernelState) (place : slot = n) (inside : n < 12)
      (sized : files.HasSize filename s.files y.size) (named : Named filename n y)
      (loaded : Loaded A c s p n x y t chunk s') :
      LoadBody files filename A c s p slot x (0, p) s'

theorem image_owned {k : KernelHeap} {ptr size : ℕ} (hA : k.Owns A) (hprogram : Program A ptr size k)
    (h0 : (k.malloc 16384).1 ≠ 0) :
    let image := {q | (k.malloc 16384).2.short = false ∧ q ∈ imageFrames ptr size (k.malloc 16384).1}
    (k.malloc 16384).2.Owns (A ∪ image) ∧ Disjoint A image := by
  have hmalloc := @malloc_spec k 16384 (by decide)
  generalize hr : k.malloc 16384 = r at hmalloc h0
  obtain ⟨stack, k'⟩ := r
  intro image
  have hmono : k'.short = false → k.short = false := malloc_short_mono hr
  have howned : ∀ q ∈ image, k'.Owns {q} ∧ q ∉ A := by
    intro q ⟨hshort, hq⟩
    have hAp := hA.union (hprogram.owned (hmono hshort))
    obtain ⟨hstack, hdisjoint⟩ := hmalloc.owns_frames hshort hAp
    rw [needed_stack] at hstack hdisjoint
    rcases hq with hq | hq
    · exact ⟨(hmalloc.owns hAp).mono (Set.singleton_subset_iff.mpr (Or.inr hq)), fun hqA =>
        Set.disjoint_left.mp (hprogram.fresh (hmono hshort)) hqA hq⟩
    · exact ⟨hstack.mono (Set.singleton_subset_iff.mpr hq), fun hqA =>
        Set.disjoint_left.mp hdisjoint (Or.inl hqA) hq⟩
  refine ⟨(hmalloc.owns hA).union fun q hq => (howned q hq).1 q rfl, ?_⟩
  exact Set.disjoint_right.mpr fun q hq => (howned q hq).2

theorem frames_bound {k : KernelHeap} {ptr n : ℕ} (h : k.Owns (frames ptr n))
    (hlt : ptr < 4294967296) : ptr + 4096 * n < 4294967296 ∧ n ≤ 25600 := by
  cases n with
  | zero => exact ⟨by omega, by omega⟩
  | succ n =>
    have hfirst := h.pos ⟨0, by omega, rfl⟩
    have hlast := h.pos ⟨n, by omega, rfl⟩
    omega

theorem image_bound {k : KernelHeap} {ptr size : ℕ} (hA : k.Owns A) (hprogram : Program A ptr size k)
    (h0 : (k.malloc 16384).1 ≠ 0) (hlt : (k.malloc 16384).1 < 4294967296)
    (hs : (k.malloc 16384).2.short = false) : ptr + 4096 * needed size < 4294967296 ∧
      (k.malloc 16384).1 + 4096 * 4 < 4294967296 ∧ needed size ≤ 25600 := by
  have howned := (image_owned hA hprogram h0).1.mono Set.subset_union_right
  have hprogram' := frames_bound (howned.mono fun q hq => ⟨hs, Or.inl hq⟩) hprogram.lt
  have hframes := frames_bound (howned.mono fun q hq => ⟨hs, Or.inr hq⟩) hlt
  exact ⟨hprogram'.1, hframes.1, hprogram'.2⟩

theorem placement_of_map {t chunk : ℕ} {image : Set ℕ} {m : Memory}
    (hnew : NewTask (A ∪ image) p s.toTaskLayer t chunk s'.toTaskLayer)
    (himage : image = imageFrames x.ptr x.size x.stack) (hdisjoint : Disjoint A image)
    (hm : m = s'.toPagingLayer.withImage chunk x.ptr x.size x.stack)
    (hptr : x.ptr + 4096 * needed x.size < 4294967296) (hstack : x.stack + 4096 * 4 < 4294967296)
    (hsize : needed x.size ≤ 25600) :
    Placement A s.toPagingLayer m x t chunk := by
  subst hm himage
  obtain ⟨-, hframes, hdirectory, houtside⟩ :=
    @withImage_frames s'.toPagingLayer chunk x.ptr x.size x.stack hnew.space.space
  have hfresh := hnew.space.fresh
  refine ⟨hnew.space.mapped hptr hstack hsize, fun q hq => ?_, ?_, ?_, ?_⟩
  · have hout : q ∉ s'.spaceFrames chunk := fun hm =>
      Set.disjoint_left.mp hfresh (Or.inl (Or.inl hq)) hm
    have hagree := hnew.agree q (Or.inl hq)
    exact ⟨(houtside q hout).trans hagree.1, hagree.2⟩
  · refine hnew.owned.mono ?_
    rw [hframes]
    intro q hq
    rcases hq with (hq | hq | hq) | hq
    · exact Or.inl (Or.inl (Or.inl hq))
    · exact Or.inl (Or.inr hq)
    · exact Or.inr hq
    · exact Or.inl (Or.inl (Or.inr hq))
  · rw [hframes]
    refine Set.disjoint_left.mpr fun q hq hqt => ?_
    rcases hqt with rfl | hqt
    · exact hnew.fresh (Or.inl hq)
    · exact Set.disjoint_left.mp hfresh (Or.inl (Or.inl hq)) hqt
  · rw [hframes]
    refine Set.disjoint_left.mpr fun q hq hqi => ?_
    rcases hq with hq | rfl | hq
    · exact Set.disjoint_left.mp hdisjoint hq hqi
    · exact hnew.fresh (Or.inr hqi)
    · exact Set.disjoint_left.mp hfresh (Or.inl (Or.inr hqi)) hq

theorem putProcess_same (hx : s.processAt p = some x) : s.putProcess p x = s := by
  have hsame : Function.update s.processAt p (some x) = s.processAt :=
    Function.update_eq_self_iff.mpr hx.symm
  rw [KernelState.putProcess, hsame]

theorem storeSlot_ok {slot : ℤ} {u : Unit} : storeSlot slot p s = .ok (u, s') ↔
    ∃ n : ℕ, slot = n ∧ n < 12 ∧ s' = { s with processes := Function.update s.processes n p } := by
  unfold storeSlot
  split_ifs with hout
  · refine iff_of_false (by simp) ?_
    rintro ⟨n, hn, hlt, -⟩
    simp only [dexterMaxProcesses] at hout
    omega
  · simp only [dexterMaxProcesses] at hout
    rw [modify_apply]
    constructor
    · intro h
      obtain ⟨-, rfl⟩ := ok_inj h
      exact ⟨slot.toNat, by omega, by omega, rfl⟩
    · rintro ⟨n, hn, -, hs'⟩
      rw [hs', hn]
      rfl

theorem processLoadTask_spec {slot : ℤ} {image : Set ℕ} {out : ℤ × ℕ}
    (hk : Kept (A ∪ image) c s.heap) (hdisjoint : Disjoint A image)
    (himage : s.heap.short = false → image = imageFrames x.ptr x.size x.stack)
    (hptr : x.ptr % 4096 = 0) (hstack : x.stack % 4096 = 0)
    (hbound : s.heap.short = false → x.ptr + 4096 * needed x.size < 4294967296 ∧
      x.stack + 4096 * 4 < 4294967296 ∧ needed x.size ≤ 25600)
    (hx : s.processAt p = some x) (h : processLoadTask slot p s = .ok (out, s')) :
    out = (0, p) ∧ ∃ (n : ℕ) (t chunk : ℕ), slot = n ∧ n < 12 ∧
      Loaded A c s p n x { x with task := t } t chunk s' := by
  obtain ⟨t, s₁, htask, h₁⟩ := bind_ok.mp h
  obtain ⟨ts, hnew, rfl⟩ := onTasks_ok.mp htask
  obtain ⟨chunk, hspec⟩ := taskNew_spec (A := A ∪ image) hk.owns hnew
  have hpos := hspec.owned.pos (Or.inl (Or.inr rfl))
  have hi : i32 t = t := i32_of_range (by omega) (by omega)
  rw [if_neg (by rw [hi]; exact_mod_cast hspec.nonzero)] at h₁
  obtain ⟨u, s₂, hset, h₂⟩ := bind_ok.mp h₁
  obtain ⟨hp, y, hy, rfl⟩ := setProcess_ok.mp hset
  obtain rfl : x = y := Option.some.inj (hx.symm.trans hy)
  obtain ⟨r, s₃, hmap, h₃⟩ := bind_ok.mp h₂
  obtain ⟨rfl, pages, rfl⟩ := processMapMemory_ok hmap
  rw [if_neg (by decide)] at h₃
  obtain ⟨v, s₄, hstore, h₄⟩ := bind_ok.mp h₃
  obtain ⟨n, hn, hlt, rfl⟩ := storeSlot_ok.mp hstore
  obtain ⟨rfl, rfl⟩ := ok_inj h₄
  refine ⟨rfl, n, t, chunk, hn, hlt, ?_⟩
  constructor
  · rfl
  · rfl
  · rfl
  · rfl
  · rfl
  · exact hspec.kernelChunk
  · exact hspec.current
  · exact hspec.nonzero
  · exact fun hA => hspec.fresh (Or.inl hA)
  · exact hspec.content
  · exact ⟨hspec.owned.mono fun q hq => Or.inl (Or.inl (Or.inl hq)),
      fun hs => hk.short (hspec.short hs)⟩
  · intro hshort
    have hs := hspec.short hshort
    obtain ⟨hptrlt, hstacklt, hsize⟩ := hbound hs
    have hcontent := hspec.content t
    rw [if_pos rfl] at hcontent
    obtain ⟨task, htask, hc⟩ := Option.map_eq_some_iff.mp hcontent
    obtain rfl : task.pageDirectory = chunk := (Prod.mk.inj hc).1
    have heq : processMapMemory p _ = .ok (0, _) := processMapMemory_eq
      (s := KernelState.putProcess p { x with task := t } { s with toTaskLayer := ts }) hp
      (putProcess_self _ p _) hspec.nonzero htask hspec.space.space hptr hstack hptrlt hstacklt
    rw [heq] at hmap
    have hm := congrArg (fun s => s.toPagingLayer) (ok_inj hmap).2
    exact placement_of_map hspec (himage hs) hdisjoint hm.symm hptrlt hstacklt hsize

theorem processLoadForSlotBody_spec {slot : ℤ} {out : ℤ × ℕ} (hk : Kept A c s.heap)
    (hx : s.processAt p = some x)
    (h : processLoadForSlotBody files filename slot p s = .ok (out, s')) :
    LoadBody files filename A c s p slot x out s' := by
  obtain ⟨r₁, s₁, hload, h₁⟩ := bind_ok.mp h
  cases processLoadBinary_spec hk hx hload with
  | fails r k table ram negative kept =>
    rw [if_pos negative] at h₁
    obtain ⟨rfl, rfl⟩ := ok_inj h₁
    have hsame := putProcess_same (s := { s with heap := k, fileDescriptors := table, ram := ram }) hx
    rw [← hsame]
    exact .fails _ _ _ _ _ negative kept rfl
  | loads k table ram ptr size sized kept program =>
    rw [if_neg (by decide), bind_of_ok (onHeap_kzalloc _ _)] at h₁
    split_ifs at h₁ with h0
    · obtain ⟨rfl, rfl⟩ := ok_inj h₁
      exact .fails _ _ _ _ _ (by decide)
        (kzalloc_kept (by decide) kept (step_apply _ k)).kept rfl
    · rw [bind_of_ok (clearBytes_apply _ _ _)] at h₁
      obtain ⟨u, s₂, hset, h₂⟩ := bind_ok.mp h₁
      obtain ⟨hp, y, hy, rfl⟩ := setProcess_ok.mp hset
      obtain rfl : y = { x with ptr := ptr, size := size } :=
        Option.some.inj (hy.symm.trans (putProcess_self _ p _))
      obtain ⟨howned, hdisjoint⟩ := image_owned kept.owns program h0
      have hstack : Handed A c 16384 (k.malloc 16384).1 (k.malloc 16384).2 :=
        kzalloc_kept (by decide) kept (step_apply _ k)
      have himage : (k.malloc 16384).2.short = false →
          {q | (k.malloc 16384).2.short = false ∧ q ∈ imageFrames ptr size (k.malloc 16384).1} =
            imageFrames ptr size (k.malloc 16384).1 := fun hs =>
        Set.ext fun q => and_iff_right hs
      obtain ⟨rfl, n, t, chunk, hn, hlt, hloaded⟩ := processLoadTask_spec ⟨howned, hstack.kept.short⟩
        hdisjoint himage program.aligned hstack.aligned
        (image_bound kept.owns program h0 hstack.lt) (putProcess_self _ p _) h₂
      -- the process has been written to twice before
      have hobject := hloaded.object
      simp only [KernelState.putProcess, Function.update_idem] at hobject
      have hstart : Loaded A c s p n x _ t chunk s' :=
        ⟨hobject, hloaded.task, hloaded.keyboard, hloaded.slots, hloaded.process,
          hloaded.kernelChunk, hloaded.current, hloaded.nonzero, hloaded.fresh, hloaded.content,
          hloaded.kept, fun hs =>
            let placed := hloaded.placement hs
            ⟨placed.mapped, placed.agree, placed.owned, placed.freshTask, placed.freshImage⟩⟩
      refine LoadBody.loads n _ t chunk _ hn hlt ?_ ⟨rfl, ?_⟩ hstart
      · exact sized
      · -- the number of a slot is no larger than the field
        show u16 slot = n
        rw [hn]
        unfold u16
        omega

/-- The frames of the `struct process` that is asked for: the first one, and both of them unless a
request has been short. -/
def processFrames (k : KernelHeap) : Set ℕ :=
  {q | q = (k.malloc 5256).1 ∨ (k.malloc 5256).2.short = false ∧ q ∈ frames (k.malloc 5256).1 2}

theorem processFrames_kept {k : KernelHeap} (hk : Kept A c k) (h0 : (k.malloc 5256).1 ≠ 0) :
    Kept (A ∪ processFrames k) c (k.malloc 5256).2 ∧ Disjoint A (processFrames k) := by
  have hhanded : Handed A c 5256 (k.malloc 5256).1 (k.malloc 5256).2 :=
    kzalloc_kept (by decide) hk (step_apply _ k)
  have hfirst := hhanded.first h0 (by decide) (by decide)
  have hframes := fun hs => (k.malloc_spec (by decide : 5256 < 4294967296)).owns_frames hs hk.owns
  refine ⟨⟨hhanded.kept.owns.union ?_, hfirst.short⟩, Set.disjoint_right.mpr ?_⟩
  · rintro q (rfl | ⟨hs, hq⟩)
    · exact hfirst.owns _ (Or.inr rfl)
    · exact (hframes hs).1 q hq
  · rintro q (rfl | ⟨hs, hq⟩)
    · exact hhanded.fresh
    · exact Set.disjoint_right.mp (hframes hs).2 hq

theorem mem_processFrames (k : KernelHeap) : (k.malloc 5256).1 ∈ processFrames k := Or.inl rfl

theorem processFrames_of_long {k : KernelHeap} (hs : (k.malloc 5256).2.short = false) :
    processFrames k = frames (k.malloc 5256).1 2 := by
  ext q
  constructor
  · rintro (rfl | ⟨-, hq⟩)
    · exact ⟨0, by decide, rfl⟩
    · exact hq
  · exact fun hq => Or.inr ⟨hs, hq⟩

theorem Loaded.and {d : Prop} {slot t chunk : ℕ} {x' : Process}
    (h : Loaded A (c ∧ d) s p slot x x' t chunk s') :
    Loaded A c s p slot x x' t chunk s' ∧ (s'.heap.short = false → d) :=
  ⟨{ h with kept := ⟨h.kept.owns, fun hs => (h.kept.short hs).1⟩ }, fun hs => (h.kept.short hs).2⟩

inductive LoadForSlot (files : FileLayer) (filename : CString) (A : Set ℕ) (c : Prop)
    (s : KernelState) (slot : ℤ) : ℤ × ℕ → KernelState → Prop
  | noProcess (full : (s.heap.malloc 5256).1 = 0) : LoadForSlot files filename A c s slot
      (-eNoMem, 0) { s with heap := (s.heap.malloc 5256).2 }
  | fails (r : ℤ) (p : ℕ) (k : KernelHeap) (table : ℕ → Option FileDescriptor) (ram : ℕ → UInt8)
      (y : Process) (object : p = (s.heap.malloc 5256).1) (nonzero : p ≠ 0) (negative : r < 0)
      (kept : Kept (A ∪ processFrames s.heap) c k) : LoadForSlot files filename A c s slot (r, 0)
        (KernelState.putProcess p y { s with heap := k, fileDescriptors := table, ram := ram })
  | loads (n p t chunk : ℕ) (y : Process) (s' : KernelState) (place : slot = n) (inside : n < 12)
      (free : s.processes n = 0) (object : p = (s.heap.malloc 5256).1) (nonzero : p ≠ 0)
      (new : Disjoint A (processFrames s.heap))
      (whole : s'.heap.short = false → processFrames s.heap = frames p 2)
      (sized : files.HasSize filename ⟨(s.heap.malloc 5256).2, s.fileDescriptors⟩ y.size)
      (named : Named filename n y)
      (loaded : Loaded (A ∪ processFrames s.heap) c
        (KernelState.putProcess p .zero { s with heap := (s.heap.malloc 5256).2 })
        p n .zero y t chunk s') : LoadForSlot files filename A c s slot (0, p) s'

inductive Load (files : FileLayer) (filename : CString) (A : Set ℕ) (c : Prop) (s : KernelState) :
    ℤ × ℕ → KernelState → Prop
  | noSlot (none : processGetFreeSlot s < 0) : Load files filename A c s (-eIsTkn, 0) s
  | noProcess (slot : 0 ≤ processGetFreeSlot s) (full : (s.heap.malloc 5256).1 = 0) :
      Load files filename A c s (-eNoMem, 0) { s with heap := (s.heap.malloc 5256).2 }
  | fails (r : ℤ) (p : ℕ) (k : KernelHeap) (table : ℕ → Option FileDescriptor) (ram : ℕ → UInt8)
      (y : Process) (slot : 0 ≤ processGetFreeSlot s) (object : p = (s.heap.malloc 5256).1)
      (nonzero : p ≠ 0) (negative : r < 0) (kept : Kept (A ∪ processFrames s.heap) c k) :
      Load files filename A c s (r, 0)
        (KernelState.putProcess p y { s with heap := k, fileDescriptors := table, ram := ram })
  | loads (p slot t chunk : ℕ) (y : Process) (s' : KernelState)
      (free : processGetFreeSlot s = slot) (object : p = (s.heap.malloc 5256).1) (nonzero : p ≠ 0)
      (new : Disjoint A (processFrames s.heap))
      (whole : s'.heap.short = false → processFrames s.heap = frames p 2)
      (sized : files.HasSize filename ⟨(s.heap.malloc 5256).2, s.fileDescriptors⟩ y.size)
      (loaded : Loaded (A ∪ processFrames s.heap) c
        (KernelState.putProcess p .zero { s with heap := (s.heap.malloc 5256).2 })
        p slot .zero y t chunk s') : Load files filename A c s (0, p) s'

theorem processGetFreeSlot_cases (s : KernelState) : processGetFreeSlot s = -eIsTkn ∨
    ∃ slot : ℕ, slot < 12 ∧ processGetFreeSlot s = slot ∧ s.processes slot = 0 := by
  unfold processGetFreeSlot
  cases hfind : (List.range dexterMaxProcesses).find? fun i => s.processes i == 0 with
  | none => exact Or.inl rfl
  | some i =>
    have hmem := List.mem_of_find?_eq_some hfind
    have hzero := List.find?_some hfind
    exact Or.inr ⟨i, List.mem_range.mp hmem, rfl, by simpa using hzero⟩

theorem processLoadForSlot_free {slot : ℤ} (hget : processGet s slot = 0) :
    processLoadForSlot files filename slot s =
      if (s.heap.malloc 5256).1 = 0 then .ok ((-eNoMem, 0), { s with heap := (s.heap.malloc 5256).2 })
      else (do
        let r ← processLoadForSlotBody files filename slot (s.heap.malloc 5256).1
        processLoadOut (s.heap.malloc 5256).1 r.1
        pure r : Prog Crash KernelState (ℤ × ℕ))
          (KernelState.putProcess (s.heap.malloc 5256).1 .zero
            { s with heap := (s.heap.malloc 5256).2 }) := by
  rw [processLoadForSlot, bind_of_ok (get_apply s), if_neg (not_not.mpr hget),
    bind_of_ok (onHeap_kzalloc _ _)]
  split_ifs with h0
  · rfl
  · rw [bind_of_ok (modify_apply _ _)]

theorem processGet_inside {slot : ℕ} (hlt : slot < 12) : processGet s slot = s.processes slot := by
  rw [processGet, if_neg (by simp only [dexterMaxProcesses]; omega)]
  rfl

theorem processLoad_eq {slot : ℕ} (hslot : processGetFreeSlot s = slot) :
    processLoad files filename s = processLoadForSlot files filename slot s := by
  rw [processLoad, bind_of_ok (get_apply s), if_neg (by omega), hslot]

theorem processLoad_free {slot : ℕ} (hlt : slot < 12) (hslot : processGetFreeSlot s = slot)
    (hfree : s.processes slot = 0) : processLoad files filename s =
      if (s.heap.malloc 5256).1 = 0 then .ok ((-eNoMem, 0), { s with heap := (s.heap.malloc 5256).2 })
      else (do
        let r ← processLoadForSlotBody files filename slot (s.heap.malloc 5256).1
        processLoadOut (s.heap.malloc 5256).1 r.1
        pure r : Prog Crash KernelState (ℤ × ℕ))
          (KernelState.putProcess (s.heap.malloc 5256).1 .zero
            { s with heap := (s.heap.malloc 5256).2 }) := by
  rw [processLoad_eq hslot]
  exact processLoadForSlot_free ((processGet_inside hlt).trans hfree)

theorem processLoadForSlot_spec {slot : ℤ} {out : ℤ × ℕ} (hk : Kept A c s.heap)
    (h : processLoadForSlot files filename slot s = .ok (out, s')) :
    LoadForSlot files filename A c s slot out s' := by
  by_cases hget : processGet s slot = 0
  · rw [processLoadForSlot_free hget] at h
    split_ifs at h with h0
    · obtain ⟨rfl, rfl⟩ := ok_inj h
      exact .noProcess h0
    · obtain ⟨r, s₁, hbody, h₁⟩ := bind_ok.mp h
      obtain ⟨hkept, hnew⟩ := processFrames_kept hk h0
      have hspec := processLoadForSlotBody_spec (c := c ∧ (s.heap.malloc 5256).2.short = false)
        (x := .zero)
        (s := KernelState.putProcess _ .zero { s with heap := (s.heap.malloc 5256).2 })
        ⟨hkept.owns, fun hs => ⟨hkept.short hs, hs⟩⟩ (putProcess_self _ _ _) hbody
      obtain ⟨u, s₂, hout, h₂⟩ := bind_ok.mp h₁
      obtain ⟨rfl, rfl⟩ := ok_inj h₂
      cases hspec with
      | fails r k table ram y negative kept task =>
        -- the process has no task yet, so nothing is released
        rw [processLoadOut, onlyIf, if_pos negative] at hout
        obtain ⟨z, s₃, hz, hfree⟩ := bind_ok.mp hout
        obtain ⟨-, hy, rfl⟩ := getProcess_ok.mp hz
        obtain rfl : y = z := Option.some.inj ((putProcess_self _ _ _).symm.trans hy)
        have htask : ¬y.task ≠ 0 := not_not.mpr task
        rw [onlyIf, if_neg htask] at hfree
        obtain ⟨-, rfl⟩ := ok_inj hfree
        have hobject := @LoadForSlot.fails files filename A c s slot r _ k table ram
          y rfl h0 negative ⟨kept.owns, fun hs => (kept.short hs).1⟩
        simpa only [KernelState.putProcess, Function.update_idem] using hobject
      | loads n y t chunk s' place inside sized named loaded =>
        rw [processLoadOut, onlyIf, if_neg (lt_irrefl 0)] at hout
        obtain ⟨-, rfl⟩ := ok_inj hout
        rw [place, processGet_inside inside] at hget
        obtain ⟨hloaded, hlong⟩ := loaded.and
        exact .loads n _ t chunk y _ place inside hget rfl h0 hnew
          (fun hs => processFrames_of_long (hlong hs)) sized named hloaded
  · rw [processLoadForSlot, bind_of_ok (get_apply s), if_pos hget] at h
    cases h

theorem processLoad_spec {out : ℤ × ℕ} (hk : Kept A c s.heap)
    (h : processLoad files filename s = .ok (out, s')) : Load files filename A c s out s' := by
  rcases processGetFreeSlot_cases s with hslot | ⟨slot, hlt, hslot, hfree⟩
  · rw [processLoad, bind_of_ok (get_apply s), if_pos (by rw [hslot]; decide)] at h
    obtain ⟨rfl, rfl⟩ := ok_inj h
    exact .noSlot (by rw [hslot]; decide)
  · rw [processLoad_eq hslot] at h
    have hpos : 0 ≤ processGetFreeSlot s := by omega
    cases processLoadForSlot_spec hk h with
    | noProcess full => exact .noProcess hpos full
    | fails r p k table ram y object nonzero negative kept =>
      exact .fails r p k table ram y hpos object nonzero negative kept
    | loads n p t chunk y s' place inside free object nonzero new whole sized named loaded =>
      exact .loads p n t chunk y s' (hslot.trans place) object nonzero new whole sized loaded

end Load

end Dexter
