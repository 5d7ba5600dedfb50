import Dexter.Proc.Load
import Dexter.Mem.HeapContract

/-!
# What a load leaves

A load that succeeds shows the program and the stack to its task. A load that fails
gives nothing back: what is left is as it was only where it fails before the
`struct process` is allocated.
-/

namespace Dexter.LoadContract
open Lib.Programs Lib.BlockPool KernelHeap KernelState

/-- With the directory of `chunk` loaded, `v` leads to `phys`, and both levels have the flags. -/
structure Shows (s : KernelState) (chunk v phys flags : ℕ) : Prop where
  translates : TaskLayer.translate { s.toTaskLayer with cr3 := s.chunks chunk } v = some phys
  directory : s.pages (s.chunks chunk) (pageCell v).1 &&& flags = flags
  table : s.entryAt chunk v &&& flags = flags

/-- The task sees the program of `x` from `0x400000` on and the stack from `0x3FB000` on, with
all access, and every other page shows itself and cannot be written to. -/
structure SeesImage (s : KernelState) (x : Process) (task : Task) : Prop where
  program : ∀ k < x.size, Shows s task.pageDirectory (dexterProgramVirtualAddress + k) (x.ptr + k)
    (pagingIsPresent ||| pagingAccessFromAll ||| pagingIsWriteable)
  stack : ∀ k < dexterUserProgramStackSize,
    Shows s task.pageDirectory (dexterProgramVirtualStackAddressEnd + k) (x.stack + k)
      (pagingIsPresent ||| pagingAccessFromAll ||| pagingIsWriteable)
  others : ∀ v < 4294967296,
    ¬(dexterProgramVirtualAddress ≤ v ∧
      v < pagingAlignAddress (dexterProgramVirtualAddress + x.size)) →
    ¬(dexterProgramVirtualStackAddressEnd ≤ v ∧
      v < dexterProgramVirtualStackAddressEnd + dexterUserProgramStackSize) →
    Shows s task.pageDirectory v v (pagingIsPresent ||| pagingAccessFromAll) ∧
      s.entryAt task.pageDirectory v &&& pagingIsWriteable = 0

structure StartsAtProgram (task : Task) : Prop where
  ip : task.registers.ip = dexterProgramVirtualAddress
  esp : task.registers.esp = dexterProgramVirtualStackAddressStart
  push : ∀ j < 4, dexterProgramVirtualStackAddressEnd ≤ task.registers.esp - 4 + j ∧
    task.registers.esp - 4 + j < dexterProgramVirtualStackAddressEnd + dexterUserProgramStackSize

section Sees
variable {files : FileLayer} {filename : CString} {s s' : KernelState} {x : Process} {task : Task}
  {ptr size stack v : ℕ}

theorem page_and_flags {p f b : ℕ} (hp : p % 4096 = 0) (hb : b < 4096) :
    (p ||| f) &&& b = f &&& b := by
  have hzero : p &&& b = 0 := by
    apply Nat.eq_of_testBit_eq
    intro i
    rw [Nat.testBit_and, Nat.zero_testBit]
    by_cases hi : i < 12
    · have hbit : p.testBit i = false := by
        have hsplit : p = 2 ^ 12 * (p / 4096) := by omega
        rw [hsplit, Nat.testBit_two_pow_mul]
        simp [hi]
      rw [hbit, Bool.false_and]
    · have hlt : b < 2 ^ i := hb.trans_le (Nat.pow_le_pow_right (n := 2) (by decide) (not_lt.mp hi))
      rw [Nat.testBit_lt_two_pow hlt, Bool.and_false]
  rw [Nat.and_or_distrib_right, hzero, Nat.zero_or]

theorem shows_of_mapped {chunk frame flags : ℕ} (h : Mapped s.toPagingLayer chunk ptr size stack)
    (hv : v < 4294967296) (hentry : imageEntry ptr size stack v = frame ||| flags)
    (hframe : frame % 4096 = 0) (hlt : frame < 4294967296) (hflags : flags = 7 ∨ flags = 5) :
    Shows s chunk v (frame + v % 4096) flags := by
  have hf : flags < 4096 := by omega
  have hentry' := (h.entries v hv).trans hentry
  have hword := h.words _ (pageCell_lt hv)
  have hal := (entryTable_aligned (s.pages (s.chunks chunk) (pageCell v).1)).1
  -- the word of the directory has all three flags
  have hdirectory : s.pages (s.chunks chunk) (pageCell v).1 =
      entryTable (s.pages (s.chunks chunk) (pageCell v).1) ||| 7 := hword
  refine ⟨?_, ?_, ?_⟩
  · have hpages : s.pages (entryTable (s.pages (s.chunks chunk) (pageCell v).1)) (pageCell v).2 =
        frame ||| flags := hentry'
    have hodd : s.pages (s.chunks chunk) (pageCell v).1 % 2 = 1 := by
      rw [or_flags hal (by decide)] at hdirectory
      omega
    have hodd' : (frame ||| flags) % 2 = 1 := by
      rw [or_flags hframe hf]
      omega
    simp only [TaskLayer.translate]
    rw [hpages, if_pos ⟨hodd, hodd'⟩, entryTable_or hframe hlt hf]
  · rw [hdirectory, page_and_flags hal hf]
    rcases hflags with rfl | rfl <;> rfl
  · rw [hentry', page_and_flags hframe hf, Nat.and_self]

theorem placement_owned {A : Set ℕ} {m m' : Memory} {t chunk n q : ℕ}
    (h : Placement A m m' x t chunk) (hn : 1 ≤ n)
    (hq : frames q n ⊆ imageFrames x.ptr x.size x.stack) :
    q % 4096 = 0 ∧ q + 4096 * n < 4294967296 ∧ n ≤ 25600 := by
  have howned := h.owned.mono (Set.subset_union_of_subset_right hq _)
  have hpos := howned.pos ⟨0, hn, rfl⟩
  exact ⟨hpos.2.2, frames_bound howned (by omega)⟩

theorem page_offset {a k : ℕ} (ha : a % 4096 = 0) : (a + k) / 4096 * 4096 - a = k / 4096 * 4096 := by
  omega

theorem seesImage_of_placement {A : Set ℕ} {m : Memory} {t : ℕ}
    (h : Placement A m s.toPagingLayer x t task.pageDirectory) : SeesImage s x task := by
  have hmapped := h.mapped
  have hpages : x.size ≤ 4096 * needed x.size := needed_le_iff.mp le_rfl
  have hsize : needed x.size ≤ 25600 := by
    by_cases h0 : needed x.size = 0
    · omega
    · exact (placement_owned h (by omega) Set.subset_union_left).2.2
  constructor
  · intro k hk
    rw [dexterProgramVirtualAddress]
    obtain ⟨hal, hlt, -⟩ := placement_owned h (q := x.ptr) (by omega) Set.subset_union_left
    have hentry : imageEntry x.ptr x.size x.stack (0x400000 + k) = (x.ptr + k / 4096 * 4096) ||| 7 := by
      rw [imageEntry, if_pos (by omega), page_offset (by decide)]
    have hshows := shows_of_mapped hmapped (by omega) hentry (by omega) (by omega) (Or.inl rfl)
    have hphys : x.ptr + k / 4096 * 4096 + (0x400000 + k) % 4096 = x.ptr + k := by omega
    rw [hphys] at hshows
    exact hshows
  · intro k hk
    rw [dexterUserProgramStackSize] at hk
    have hend : dexterProgramVirtualStackAddressEnd = 0x3FB000 := rfl
    rw [hend]
    obtain ⟨hal, hlt, -⟩ := placement_owned h (q := x.stack) (n := 4) (by decide) Set.subset_union_right
    have hentry : imageEntry x.ptr x.size x.stack (0x3FB000 + k) = (x.stack + k / 4096 * 4096) ||| 7 := by
      rw [imageEntry, if_neg (by omega), if_pos (by omega), page_offset (by decide)]
    have hshows := shows_of_mapped hmapped (by omega) hentry (by omega) (by omega) (Or.inl rfl)
    have hphys : x.stack + k / 4096 * 4096 + (0x3FB000 + k) % 4096 = x.stack + k := by omega
    rw [hphys] at hshows
    exact hshows
  · intro v hv hprogram hstack
    have hround : pagingAlignAddress (dexterProgramVirtualAddress + x.size) =
        0x400000 + 4096 * needed x.size := by
      have hend := @pagingAlignAddress_end 0x400000 x.size (by decide) (by omega)
      rwa [u32_natCast (by omega)] at hend
    have hend : dexterProgramVirtualStackAddressEnd = 0x3FB000 := rfl
    rw [hround, dexterProgramVirtualAddress] at hprogram
    rw [hend, dexterUserProgramStackSize] at hstack
    have hentry : imageEntry x.ptr x.size x.stack v = v / 4096 * 4096 ||| 5 := by
      rw [imageEntry, if_neg hprogram, if_neg (by omega)]
    have hshows := shows_of_mapped hmapped hv hentry (by omega) (by omega) (Or.inr rfl)
    have hphys : v / 4096 * 4096 + v % 4096 = v := by omega
    rw [hphys] at hshows
    refine ⟨hshows, ?_⟩
    rw [(hmapped.entries v hv).trans hentry, page_and_flags (by omega) (by decide)]
    rfl

/-- A load that returns 0 has put a process into the table whose task sees its program and its
stack, if no request has been short. -/
theorem loaded_sees_image {p : ℕ} (h : processLoad files filename s = .ok ((0, p), s'))
    (hshort : s'.heap.short = false) : ∃ x task, s'.processAt p = some x ∧
      s'.tasks x.task = some task ∧ task.process = p ∧
      files.HasSize filename ⟨(s.heap.malloc 5256).2, s.fileDescriptors⟩ x.size ∧
      SeesImage s' x task ∧ StartsAtProgram task := by
  have hspec := processLoad_spec (A := ∅) (c := True) ⟨Owns.empty _, fun _ => trivial⟩ h
  cases hspec with
  | fails r p k table ram y slot object nonzero negative kept => exact absurd negative (lt_irrefl 0)
  | loads p slot t chunk x s' free object nonzero new whole sized loaded =>
    have hcontent := loaded.content t
    rw [if_pos rfl] at hcontent
    obtain ⟨task, htask, hc⟩ := Option.map_eq_some_iff.mp hcontent
    obtain ⟨hchunk, hregisters, hprocess⟩ : task.pageDirectory = chunk ∧
        task.registers = initialRegisters ∧ task.process = p := by
      simpa [Task.content] using hc
    have hplaced := loaded.placement hshort
    rw [← hchunk] at hplaced
    refine ⟨x, task, ?_, ?_, hprocess, sized, seesImage_of_placement hplaced, ?_, ?_, ?_⟩
    · rw [loaded.object, Function.update_self]
    · rw [loaded.task, htask]
    · rw [hregisters]
      rfl
    · rw [hregisters]
      rfl
    · rw [hregisters]
      decide

end Sees

def givenFile (bytes : List UInt8) : FileLayer where
  fopen _ := pure 1
  fstat _ := pure (0, some ⟨0, bytes.length⟩)
  fread size _ _ := pure (1, bytes.take size)
  fclose _ := pure 0
  holds _ _ := ∅
  holds_heap _ _ _ := rfl
  fopen_built _ := Triple.pure fun s hk => ⟨fun p hp => absurd hp (Set.notMem_empty p), by simpa⟩
  fstat_same h := by
    obtain ⟨rfl, rfl⟩ := ok_inj h
    exact ⟨rfl, le_rfl⟩
  fread_same h := (ok_inj h).2.symm
  fclose_kept hloose hk h := (ok_inj h).2 ▸ hk

section Given
variable {bytes : List UInt8} {filename : CString} {s : KernelState} {p b : ℕ} {x : Process}

theorem processLoadBinary_given (hp : p ≠ 0) (hlen : bytes.length < 4294967296)
    (h0 : (s.heap.malloc bytes.length).1 ≠ 0) :
    ∃ ram, processLoadBinary (givenFile bytes) filename p (s.putProcess p x) =
      .ok (0, KernelState.putProcess p
        { x with ptr := (s.heap.malloc bytes.length).1, size := bytes.length }
        { s with heap := (s.heap.malloc bytes.length).2, ram := ram }) := by
  have hsize : u32 (((some (⟨0, bytes.length⟩ : FileStat)).map FileStat.filesize).getD 0 : ℕ) =
      bytes.length := u32_natCast hlen
  have hopen : ∀ s, onFiles ((givenFile bytes).fopen filename) s = .ok (1, s) := fun _ => rfl
  have hstat : ∀ s, onFiles ((givenFile bytes).fstat 1) s =
      .ok ((0, some ⟨0, bytes.length⟩), s) := fun _ => rfl
  have halloc : onHeap (kzalloc bytes.length) (s.putProcess p x) =
      .ok ((s.heap.malloc bytes.length).1,
        KernelState.putProcess p x { s with heap := (s.heap.malloc bytes.length).2 }) := rfl
  have hread : ∀ s, onFiles ((givenFile bytes).fread bytes.length 1 1) s =
      .ok ((1, bytes), s) := by
    intro s
    refine onFiles_ok.mpr ⟨s.files, ?_, rfl⟩
    show Except.ok ((1, bytes.take bytes.length), s.files) = _
    rw [List.take_length]
  have hclose : ∀ s, onFiles ((givenFile bytes).fclose 1) s = .ok (0, s) := fun _ => rfl
  obtain ⟨ram₀, hclear⟩ : ∃ ram, clearBytes (s.heap.malloc bytes.length).1 bytes.length
      (KernelState.putProcess p x { s with heap := (s.heap.malloc bytes.length).2 }) = .ok ((),
        KernelState.putProcess p x
          { s with heap := (s.heap.malloc bytes.length).2, ram := ram }) := ⟨_, rfl⟩
  obtain ⟨ram, hstore⟩ : ∃ ram, storeBytes (s.heap.malloc bytes.length).1 bytes
      (KernelState.putProcess p x
        { s with heap := (s.heap.malloc bytes.length).2, ram := ram₀ }) = .ok ((),
        KernelState.putProcess p x
          { s with heap := (s.heap.malloc bytes.length).2, ram := ram }) := ⟨_, rfl⟩
  have hbody : processLoadBinaryBody (givenFile bytes) 1 p (s.putProcess p x) =
      .ok (0, KernelState.putProcess p
        { x with ptr := (s.heap.malloc bytes.length).1, size := bytes.length }
        { s with heap := (s.heap.malloc bytes.length).2, ram := ram }) := by
    rw [processLoadBinaryBody, if_neg (by decide), bind_of_ok (hstat _), if_neg (not_not.mpr rfl)]
    dsimp only
    rw [hsize, bind_of_ok halloc, if_neg h0, bind_of_ok hclear, bind_of_ok (hread _),
      bind_of_ok hstore,
      if_neg (not_not.mpr rfl), bind_of_ok (setProcess_put hp _ _ _), pure_apply]
  refine ⟨ram, ?_⟩
  rw [processLoadBinary, bind_of_ok (hopen _), bind_of_ok hbody, bind_of_ok (hclose _), pure_apply]

structure Entered (s : KernelState) (tasks : List ℕ) (slot p t b : ℕ) (s' : KernelState) : Prop where
  wellFormed : TaskRuns.WellFormed s'.toTaskLayer (tasks ++ [t])
  distinct : (tasks ++ [t]).Nodup
  kernelChunk : s'.kernelChunk = s.kernelChunk
  processes : s'.processes = Function.update s.processes slot p
  unused : s'.heap.Unused b

theorem Entered.current {s s' : KernelState} {tasks : List ℕ} {slot p t b : ℕ}
    (h : Entered s tasks slot p t b s') : s'.currentTask ≠ 0 := by
  rcases h.wellFormed.current with hc | hc
  · exact (h.wellFormed.linked.walk.node_ne hc).1
  · exact absurd hc.1 (by simp)

theorem processLoadTask_returns {tasks : List ℕ} {slot : ℕ} (hlt : slot < 12)
    (hheld : TaskRuns.Held s.toTaskLayer tasks) (hw : TaskRuns.WellFormed s.toTaskLayer tasks)
    (hp : p ≠ 0) (hx : s.processAt p = some x) (hb : s.heap.Unused b)
    (hroom : b + 1027 ≤ kernelHeapBlocks) (hptr : x.ptr % 4096 = 0) (hstack : x.stack % 4096 = 0)
    (hptrlt : x.ptr + 4096 * needed x.size < 4294967296)
    (hstacklt : x.stack + 4096 * 4 < 4294967296) :
    ∃ t s', processLoadTask slot p s = .ok ((0, p), s') ∧ s'.heap.short = s.heap.short ∧
      Entered s tasks slot p t (b + 1027) s' := by
  obtain ⟨ts, hnew, hunused, hshort⟩ := TaskRuns.taskNew_returns hheld hw hb hroom p
  have hwell := TaskRuns.new_wellFormed hheld hw hnew
  have hdistinct := (hheld.new hnew).nodup
  obtain ⟨chunk, hspec⟩ := taskNew_spec (A := ∅) (Owns.empty _) hnew
  generalize (s.heap.malloc 64).1 = t at hnew hwell hdistinct hspec
  have hpos := hspec.owned.pos (Or.inl (Or.inr rfl))
  have hi : i32 t = t := i32_of_range (by omega) (by omega)
  have hne : ¬i32 t = 0 := by
    rw [hi]
    exact_mod_cast hspec.nonzero
  have hcontent := hspec.content t
  rw [if_pos rfl] at hcontent
  obtain ⟨task, htask, hc⟩ := Option.map_eq_some_iff.mp hcontent
  obtain rfl : task.pageDirectory = chunk := (Prod.mk.inj hc).1
  have htasks : onTasks (taskNew p) s = .ok (t, { s with toTaskLayer := ts }) :=
    onTasks_ok.mpr ⟨ts, hnew, rfl⟩
  have hset : setProcess p (fun x => { x with task := t }) { s with toTaskLayer := ts } =
      .ok ((), _) := setProcess_ok.mpr ⟨hp, x, hx, rfl⟩
  have hmap : processMapMemory p _ = .ok (0, _) := processMapMemory_eq
    (s := KernelState.putProcess p { x with task := t } { s with toTaskLayer := ts }) hp
    (putProcess_self _ p _) hspec.nonzero htask hspec.space.space hptr hstack hptrlt hstacklt
  have hstore : ∀ s, storeSlot slot p s = .ok ((), _) := fun s =>
    storeSlot_ok.mpr ⟨slot, rfl, hlt, rfl⟩
  rw [processLoadTask, bind_of_ok htasks, if_neg hne, bind_of_ok hset, bind_of_ok hmap,
    if_neg (by decide), bind_of_ok (hstore _), pure_apply]
  exact ⟨t, _, rfl, hshort, ⟨hwell.linked, hwell.current⟩, hdistinct, hspec.kernelChunk, rfl,
    hunused⟩

theorem held_nil (s : TaskState) : TaskRuns.Held s [] :=
  ⟨List.Pairwise.nil, fun _ ht => absurd ht List.not_mem_nil⟩

/-- Behind the program the stack is asked for and cleared, and the fields of the process are set. -/
theorem processLoadForSlotBody_of_binary {files : FileLayer} {slot : ℤ} {ptr size : ℕ}
    {k : KernelHeap} {table : ℕ → Option FileDescriptor} {ram : ℕ → UInt8} (hp : p ≠ 0)
    (hload : processLoadBinary files filename p (KernelState.putProcess p .zero s) =
      .ok (0, KernelState.putProcess p { Process.zero with ptr := ptr, size := size }
        { KernelState.putProcess p .zero s with
          heap := k
          fileDescriptors := table
          ram := ram })) (hstack : (k.malloc 16384).1 ≠ 0) :
    processLoadForSlotBody files filename slot p (KernelState.putProcess p .zero s) =
      processLoadTask slot p (KernelState.putProcess p
        { Process.zero with
          ptr := ptr
          size := size
          filename := strncpyBytes filename dexterMaxPath
          stack := (k.malloc 16384).1
          id := u16 slot }
        { s with
          heap := (k.malloc 16384).2
          fileDescriptors := table
          ram := TaskLayer.cleared (k.malloc 16384).1 16384 ram }) := by
  have halloc : ∀ s : KernelState, s.heap = k → onHeap (kzalloc dexterUserProgramStackSize) s =
      .ok ((k.malloc 16384).1, { s with heap := (k.malloc 16384).2 }) := by
    intro s hs
    subst hs
    rfl
  rw [processLoadForSlotBody, processLoadData, bind_of_ok hload, if_neg (by decide),
    bind_of_ok (halloc _ rfl), if_neg hstack, bind_of_ok (clearBytes_apply _ _ _)]
  refine (bind_of_ok (a := ()) (setProcess_ok.mpr ⟨hp, { Process.zero with ptr := ptr, size := size },
    Function.update_self _ _ _, rfl⟩) _).trans ?_
  simp only [KernelState.putProcess, Function.update_idem]

theorem processLoad_of_binary {files : FileLayer} {tasks : List ℕ} {slot : ℕ} {s₂ : KernelState}
    (hlt : slot < 12) (hslot : processGetFreeSlot s = slot) (hfree : s.processes slot = 0)
    (hheld : TaskRuns.Held s.toTaskLayer tasks) (hw : TaskRuns.WellFormed s.toTaskLayer tasks)
    (hp : (s.heap.malloc 5256).1 ≠ 0)
    (hload : processLoadBinary files filename (s.heap.malloc 5256).1
      (KernelState.putProcess (s.heap.malloc 5256).1 .zero
        { s with heap := (s.heap.malloc 5256).2 }) = .ok (0, s₂))
    (hb : s₂.heap.Unused b) (hshort : s₂.heap.short = false) (hroom : b + 1031 ≤ 25600) :
    ∃ t s', processLoad files filename s = .ok ((0, (s.heap.malloc 5256).1), s') ∧
      s'.heap.short = false ∧ Entered s tasks slot (s.heap.malloc 5256).1 t (b + 1031) s' := by
  have hfree' := @processLoad_free files filename _ _ hlt hslot hfree
  rw [if_neg hp] at hfree'
  have howned := (s.heap.malloc_spec (by decide : 5256 < 4294967296)).owns hheld.owns
  generalize s.heap.malloc 5256 = r₁ at hp hload hfree' howned
  obtain ⟨p, k₁⟩ := r₁
  have hspec := processLoadBinary_spec (A := TaskRuns.allFrames s.toTaskLayer tasks) (c := True)
    (x := .zero) (s := KernelState.putProcess p .zero { s with heap := k₁ })
    ⟨howned, fun _ => trivial⟩ (putProcess_self _ _ _) hload
  generalize hr : (0 : ℤ) = r at hspec
  cases hspec with
  | fails r k table ram negative kept => omega
  | loads k table ram ptr size sized kept program =>
    obtain ⟨hstack, hb₃, hs₃⟩ := @malloc_of_unused k _ 16384 hb (by decide) (by
      rw [needed_stack, kernelHeapBlocks]
      omega)
    rw [needed_stack] at hb₃
    have hhanded : Handed (TaskRuns.allFrames s.toTaskLayer tasks) True 16384 (k.malloc 16384).1
        (k.malloc 16384).2 := kzalloc_kept (by decide) kept (step_apply _ _)
    have hend := hs₃.trans hshort
    have hbound := image_bound kept.owns program hstack hhanded.lt hend
    set cleared := TaskLayer.cleared (k.malloc 16384).1 16384 ram with hcleared
    obtain ⟨hheld', -⟩ := @TaskRuns.Held.congr s.toTaskLayer
      { s.toTaskLayer with heap := (k.malloc 16384).2, ram := cleared } tasks hheld
      (fun _ _ => rfl) (fun _ _ => ⟨rfl, rfl⟩) hhanded.kept.owns
    obtain ⟨t, s', htask, hshort', hentered⟩ := @processLoadTask_returns
      (KernelState.putProcess p
        { Process.zero with
          ptr := ptr
          size := size
          filename := strncpyBytes filename dexterMaxPath
          stack := (k.malloc 16384).1
          id := u16 slot } { s with
            heap := (k.malloc 16384).2, fileDescriptors := table, ram := cleared })
      p _ _ tasks slot hlt hheld' ⟨hw.linked, hw.current⟩ hp (putProcess_self _ _ _) hb₃ (by
        rw [kernelHeapBlocks]
        omega) program.aligned hhanded.aligned hbound.1 hbound.2.1
    refine ⟨t, s', ?_, hshort'.trans hend, hentered.wellFormed, hentered.distinct,
      hentered.kernelChunk, hentered.processes, hentered.unused⟩
    have hbody : processLoadForSlotBody files filename slot p
        (KernelState.putProcess p .zero { s with heap := k₁ }) = .ok ((0, p), s') :=
      (processLoadForSlotBody_of_binary hp hload hstack).trans htask
    have hout : processLoadOut p 0 s' = .ok ((), s') := by
      rw [processLoadOut, onlyIf, if_neg (lt_irrefl 0), pure_apply]
    rw [hfree', bind_of_ok hbody, bind_of_ok hout, pure_apply]

theorem givenFile_loads {tasks : List ℕ} {slot : ℕ} (hlt : slot < 12)
    (hslot : processGetFreeSlot s = slot) (hfree : s.processes slot = 0)
    (hheld : TaskRuns.Held s.toTaskLayer tasks) (hw : TaskRuns.WellFormed s.toTaskLayer tasks)
    (hb : s.heap.Unused b) (hshort : s.heap.short = false) (hlen : 1 ≤ bytes.length)
    (hroom : b + needed bytes.length + 1033 ≤ 25600) :
    ∃ p t s', processLoad (givenFile bytes) filename s = .ok ((0, p), s') ∧ p ≠ 0 ∧
      s'.heap.short = false ∧ Entered s tasks slot p t (b + needed bytes.length + 1033) s' := by
  have hbytes := needed_le_iff.mp (le_refl (needed bytes.length))
  have hneed : needed 5256 = 2 := by decide
  obtain ⟨hp, hb₁, hs₁⟩ := @malloc_of_unused _ _ 5256 hb (by decide) (by
    rw [hneed, kernelHeapBlocks]
    omega)
  rw [hneed] at hb₁
  obtain ⟨h0, hb₂, hs₂⟩ := @malloc_of_unused _ _ bytes.length hb₁ hlen (by
    rw [kernelHeapBlocks]
    omega)
  obtain ⟨ram, hload⟩ := @processLoadBinary_given bytes filename
    { s with heap := (s.heap.malloc 5256).2 } (s.heap.malloc 5256).1 .zero hp (by omega) h0
  obtain ⟨t, s', hrun, hs', hentered⟩ := processLoad_of_binary hlt hslot hfree hheld hw hp hload hb₂
    ((hs₂.trans hs₁).trans hshort) (by omega)
  have hend : b + 2 + needed bytes.length + 1031 = b + needed bytes.length + 1033 := by omega
  exact ⟨_, t, s', hrun, hp, hs', hend ▸ hentered⟩

theorem givenFile_booted (hlen : 1 ≤ bytes.length) (hroom : needed bytes.length + 1033 ≤ 25600) :
    ∃ p s', processLoad (givenFile bytes) filename bootKernel = .ok ((0, p), s') ∧
      s'.heap.short = false ∧ s'.currentTask ≠ 0 := by
  have hslot : processGetFreeSlot bootKernel = (0 : ℕ) := by decide
  obtain ⟨p, t, s', hrun, -, hshort, hentered⟩ := @givenFile_loads bytes filename bootKernel _ [] 0
    (by decide) hslot rfl (held_nil _) ⟨⟨rfl, rfl⟩, Or.inr ⟨rfl, rfl⟩⟩ kheapInit_unused rfl hlen
    (by omega)
  exact ⟨p, s', hrun, hshort, hentered.current⟩

end Given

theorem loaded_sees_image_sample : ∃ p s' x task,
    processLoad (givenFile [0xC3]) [0x78] bootKernel = .ok ((0, p), s') ∧
      s'.processAt p = some x ∧ s'.tasks x.task = some task ∧ x.size = 1 ∧
      SeesImage s' x task ∧ StartsAtProgram task := by
  obtain ⟨p, s', h, hshort, -⟩ := @givenFile_booted [0xC3] [0x78]
    (by decide) (by decide)
  obtain ⟨x, task, hx, htask, -, hsize, hsees, hstarts⟩ := loaded_sees_image h hshort
  refine ⟨p, s', x, task, h, hx, htask, ?_, hsees, hstarts⟩
  obtain ⟨fd, f, stat, f', hopen, hstat, hsize⟩ := hsize
  obtain ⟨hpair, -⟩ := ok_inj hstat
  obtain ⟨-, rfl⟩ := Prod.mk.inj hpair
  exact hsize

/-- The process table, the task list, the current task, the descriptor table and the heap table
are the same. -/
structure Traceless (s s' : KernelState) : Prop where
  processes : s'.processes = s.processes
  tasks : s'.tasks = s.tasks ∧ s'.taskHead = s.taskHead ∧ s'.taskTail = s.taskTail
  current : s'.currentTask = s.currentTask
  fileDescriptors : s'.fileDescriptors = s.fileDescriptors
  heap : SameTable s.heap s'.heap

def FailsCleanly (files : FileLayer) (filename : CString) (s : KernelState) : Prop :=
  ∃ r p s', processLoad files filename s = .ok ((r, p), s') ∧ r < 0 ∧ Traceless s s'

/-- There are no two free blocks in a row, and the last block is taken. -/
def NoProcessRun (k : KernelHeap) : Prop :=
  (∀ b, b + 2 ≤ kernelHeapBlocks → ¬IsRun k.IsFree b 2) ∧ ¬k.IsFree 25599

section Fails
variable {files : FileLayer} {filename : CString} {s s' : KernelState}

theorem malloc_process_eq_zero_iff (k : KernelHeap) :
    (k.malloc 5256).1 = 0 ↔ NoProcessRun k := by
  have hneed : needed 5256 = 2 := by decide
  have hanswer := malloc_answer k (by decide : 1 ≤ 5256) (by decide)
  rw [hneed] at hanswer
  generalize (k.malloc 5256).1 = p at hanswer
  generalize (k.malloc 5256).2 = k' at hanswer
  cases hanswer with
  | fits s k' inside run first marked => exact iff_of_false (frame_ne_zero s) fun h => h.1 s inside run
  | ragged s k' starts beyond last noRun => exact iff_of_false (frame_ne_zero s) fun h => h.2 last
  | full k' same last noRun => exact iff_of_true rfl ⟨noRun, last⟩

theorem malloc_null_same {k : KernelHeap} (hp : (k.malloc 5256).1 = 0) :
    (k.malloc 5256).2.entries = k.entries := by
  have hmalloc := @malloc_spec k 5256 (by decide)
  generalize k.malloc 5256 = r at hmalloc hp
  obtain ⟨p, k'⟩ := r
  cases hmalloc with
  | fails k' same short => exact same
  | takes c n k' starts free blocks run marked whole => exact absurd hp (frame_ne_zero c)

theorem failed_load_leaks {r : ℤ} {p : ℕ} (h : processLoad files filename s = .ok ((r, p), s'))
    (hr : r < 0) (hslot : 0 ≤ processGetFreeSlot s) (hp : (s.heap.malloc 5256).1 ≠ 0) :
    ¬SameTable s.heap s'.heap := by
  have hspec := processLoad_spec (A := ∅) (c := True) ⟨Owns.empty _, fun _ => trivial⟩ h
  cases hspec with
  | noSlot none => omega
  | noProcess slot full => exact absurd full hp
  | fails r p k table ram y slot object nonzero negative kept =>
    have howned : k.Owns {(s.heap.malloc 5256).1} := by
      rw [← object]
      refine kept.owns.mono (Set.singleton_subset_iff.mpr (Or.inr ?_))
      exact object ▸ mem_processFrames s.heap
    exact (s.heap.malloc_spec (by decide)).not_sameTable hp howned
  | loads p slot t chunk y s' free object nonzero new whole sized loaded => exact absurd hr (lt_irrefl 0)

theorem noSlot_traceless (hslot : processGetFreeSlot s < 0) : FailsCleanly files filename s := by
  refine ⟨-eIsTkn, 0, s, ?_, by decide, rfl, ⟨rfl, rfl, rfl⟩, rfl, rfl, SameTable.refl _⟩
  rw [processLoad, bind_of_ok (get_apply s), if_pos hslot, pure_apply]

theorem noProcess_traceless (hp : (s.heap.malloc 5256).1 = 0) : FailsCleanly files filename s := by
  rcases processGetFreeSlot_cases s with hslot | ⟨slot, hlt, hslot, hfree⟩
  · exact noSlot_traceless (by rw [hslot]; decide)
  · refine ⟨-eNoMem, 0, { s with heap := (s.heap.malloc 5256).2 }, ?_, by decide, rfl,
      ⟨rfl, rfl, rfl⟩, rfl, rfl, ?_⟩
    · rw [processLoad_free hlt hslot hfree, if_pos hp]
    · exact fun b _ => congrFun (malloc_null_same hp) b

/-- A load fails and leaves no trace exactly if there is no free slot, or no room for the
`struct process`. -/
theorem failed_load_traceless_iff (files : FileLayer) (filename : CString) (s : KernelState) :
    FailsCleanly files filename s ↔ processGetFreeSlot s < 0 ∨ NoProcessRun s.heap := by
  rw [← malloc_process_eq_zero_iff]
  constructor
  · intro ⟨r, p, s', hrun, hr, htrace⟩
    by_contra hroom
    obtain ⟨hslot, hp⟩ := not_or.mp hroom
    exact failed_load_leaks hrun hr (not_lt.mp hslot) hp htrace.heap
  · intro hroom
    rcases hroom with hslot | hp
    · exact noSlot_traceless hslot
    · exact noProcess_traceless hp

end Fails

theorem processLoad_missing {files : FileLayer} {filename : CString} {s : KernelState} {slot : ℕ}
    {r : ℤ} {f f' : FileState} (hlt : slot < 12) (hslot : processGetFreeSlot s = slot)
    (hfree : s.processes slot = 0) (hp : (s.heap.malloc 5256).1 ≠ 0)
    (hopen : files.fopen filename ⟨(s.heap.malloc 5256).2, s.fileDescriptors⟩ = .ok (0, f))
    (hclose : files.fclose 0 f = .ok (r, f')) :
    ∃ s', processLoad files filename s = .ok ((-eIo, 0), s') := by
  set s₁ := KernelState.putProcess (s.heap.malloc 5256).1 .zero
    { s with heap := (s.heap.malloc 5256).2 } with hs₁
  have hopened : onFiles (files.fopen filename) s₁ =
      .ok (0, { s₁ with heap := f.heap, fileDescriptors := f.fileDescriptors }) :=
    onFiles_ok.mpr ⟨f, hopen, rfl⟩
  have hclosed : onFiles (files.fclose 0)
      { s₁ with heap := f.heap, fileDescriptors := f.fileDescriptors } =
      .ok (r, { s₁ with heap := f'.heap, fileDescriptors := f'.fileDescriptors }) :=
    onFiles_ok.mpr ⟨f', hclose, rfl⟩
  have hbinary : processLoadBinary files filename (s.heap.malloc 5256).1 s₁ =
      .ok (-eIo, { s₁ with heap := f'.heap, fileDescriptors := f'.fileDescriptors }) := by
    rw [processLoadBinary, bind_of_ok hopened, processLoadBinaryBody, if_pos rfl,
      bind_of_ok (pure_apply _ _), bind_of_ok hclosed, pure_apply]
  have hbody : processLoadForSlotBody files filename slot (s.heap.malloc 5256).1 s₁ =
      .ok ((-eIo, 0), { s₁ with heap := f'.heap, fileDescriptors := f'.fileDescriptors }) := by
    rw [processLoadForSlotBody, processLoadData, bind_of_ok hbinary, if_pos (by decide), pure_apply]
  have hprocess : getProcess (s.heap.malloc 5256).1
      { s₁ with heap := f'.heap, fileDescriptors := f'.fileDescriptors } =
      .ok (Process.zero, { s₁ with heap := f'.heap, fileDescriptors := f'.fileDescriptors }) :=
    getProcess_ok.mpr ⟨hp, putProcess_self _ _ _, rfl⟩
  have hout : processLoadOut (s.heap.malloc 5256).1 (-eIo)
      { s₁ with heap := f'.heap, fileDescriptors := f'.fileDescriptors } =
      .ok ((), { s₁ with heap := f'.heap, fileDescriptors := f'.fileDescriptors }) := by
    rw [processLoadOut, onlyIf, if_pos (by decide), bind_of_ok hprocess]
    rfl
  rw [processLoad_free hlt hslot hfree, if_neg hp, bind_of_ok hbody, bind_of_ok hout, pure_apply]
  exact ⟨_, rfl⟩

/-- A file name without a drive: the load fails, and has left a trace. -/
theorem missing_file_leaves_trace :
    (∃ s', processLoad (fat16Layer (sampleDisk none)) [0x78] bootKernel = .ok ((-eIo, 0), s')) ∧
      ¬FailsCleanly (fat16Layer (sampleDisk none)) [0x78] bootKernel := by
  have hp : (bootKernel.heap.malloc 5256).1 ≠ 0 := by decide +kernel
  have hslot : processGetFreeSlot bootKernel = (0 : ℕ) := by decide
  have hopen : (fat16Layer (sampleDisk none)).fopen [0x78]
      ⟨(bootKernel.heap.malloc 5256).2, bootKernel.fileDescriptors⟩ = .ok (0, _) :=
    fopen_rejected (by decide)
  refine ⟨processLoad_missing (by decide) hslot rfl hp hopen rfl, fun ⟨r, p, s', hrun, hr, htrace⟩ => ?_⟩
  exact failed_load_leaks hrun hr (by rw [hslot]; decide) hp htrace.heap

end Dexter.LoadContract
