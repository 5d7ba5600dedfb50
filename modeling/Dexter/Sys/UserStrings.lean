import Dexter.Sys.Idt
import Dexter.Mem.BorrowedBlocks

/-!
# What a copied user string leaves behind (`proc/task.c`)

`copy_string_from_task` maps a page of the kernel heap into the task's directory for the time of
the copy. The buffer is one block, so it starts a page and ends in it: the entry that is noted,
changed and taken back is one entry, and what is written under the task's directory lies in the
block.
-/

namespace Dexter
open Lib.Programs Lib.TwoLevel PagingLayer KernelHeap TaskLayer

section Buffer
variable {s s' : TaskState} {m : Memory} {chunk v p : ℕ}

theorem PagingLayer.AddressSpace.entryAt_withEntry (hs : m.AddressSpace chunk) {u : ℕ}
    (hu : u < 4294967296) (hv : v < 4294967296) (w : ℕ) :
    (m.withEntry chunk u w).entryAt chunk v =
      if pageCell v = pageCell u then w else m.entryAt chunk v :=
  hs.separated.lookup_store (pageCell_lt hu) (pageCell_lt hv) w

theorem NewSpace.translate_self {A : Set ℕ} {flags : ℕ} {m' : Memory}
    (h : NewSpace A flags m chunk m') (hodd : flags % 2 = 1) (hflags : flags < 4096)
    (hpages : s.pages = m'.pages) (hcr3 : s.cr3 = m'.chunks chunk) (hv : v < 4294967296) :
    s.translate v = some v := by
  have hentry : lookup entryTable m'.pages (m'.chunks chunk) (pageCell v) = v / 4096 * 4096 ||| flags :=
    h.entries v hv
  rw [translate_some, hpages, hcr3, hentry, h.words _ (pageCell_lt hv),
    entryTable_or (Nat.mul_mod_left _ _) (by omega) hflags]
  refine ⟨⟨?_, ?_⟩, (Nat.div_add_mod' v 4096).symm⟩
  · exact Nat.or_mod_two_eq_one.mpr (Or.inl (Nat.or_mod_two_eq_one.mpr (Or.inr hodd)))
  · exact Nat.or_mod_two_eq_one.mpr (Or.inr hodd)

theorem strncpy_ram {dest src k i : ℕ} {ended : Bool} {u : Unit}
    (h : strncpy dest src k i ended s = .ok (u, s')) : ∀ p, s'.ram p ≠ s.ram p →
      ∃ j < i + k, i ≤ j ∧ s.translate (u32 (dest + j)) = some p := by
  induction k generalizing i ended s with
  | zero =>
    obtain ⟨-, rfl⟩ := ok_inj h
    exact fun p hp => absurd rfl hp
  | succ k ih =>
    rw [strncpy_succ] at h
    obtain ⟨c, s₁, hread, h₁⟩ := bind_ok.mp h
    obtain ⟨w, s₂, hwrite, hrest⟩ := bind_ok.mp h₁
    obtain rfl := nextByte_same hread
    obtain ⟨q, hat, rfl⟩ := writeByte_ok.mp hwrite
    intro p hp
    by_cases hpq : p = q
    · exact ⟨i, by omega, le_rfl, hat.trans (congrArg some hpq.symm)⟩
    · obtain ⟨j, hj, hij, htranslate⟩ := ih hrest p (by
        dsimp only
        rwa [Function.update_of_ne hpq])
      exact ⟨j, by omega, by omega, htranslate⟩

theorem buffer_translate (hs : m.AddressSpace chunk) {tmp j : ℕ} (hal : tmp % 4096 = 0)
    (hlt : tmp < 4294967296) (hj : j < 4096) {t : TaskState}
    (hpages : t.pages = (m.withEntry chunk tmp (tmp ||| 7)).pages) (hcr3 : t.cr3 = m.chunks chunk)
    (h : t.translate (u32 (tmp + j)) = some p) : p = tmp + j := by
  have hv : u32 (tmp + j) = tmp + j := by
    unfold u32
    omega
  rw [hv, translate_some, hpages, hcr3] at h
  have hentry := hs.entryAt_withEntry hlt (by omega : tmp + j < 4294967296) (tmp ||| 7)
  rw [if_pos (pageCell_congr (by omega))] at hentry
  have hword : lookup entryTable (m.withEntry chunk tmp (tmp ||| 7)).pages (m.chunks chunk)
      (pageCell (tmp + j)) = tmp ||| 7 := hentry
  rw [hword, entryTable_or hal hlt (by decide)] at h
  omega

theorem buffer_writes (hs : m.AddressSpace chunk) {tmp virt max : ℕ} (hal : tmp % 4096 = 0)
    (hlt : tmp < 4294967296) (hmax : max < 4096) {ram : ℕ → UInt8} {t t' : TaskState}
    (hpages : t.pages = (m.withEntry chunk tmp (tmp ||| 7)).pages) (hcr3 : t.cr3 = m.chunks chunk)
    (hram : t.ram = ram) (h : strncpy tmp virt max 0 false t = .ok ((), t')) :
    ∀ p, t'.ram p ≠ ram p → tmp ≤ p ∧ p < tmp + max := by
  intro p hp
  obtain ⟨j, hj, -, hat⟩ := strncpy_ram h p (hram ▸ hp)
  have hat' := buffer_translate hs hal hlt (by omega : j < 4096) hpages hcr3 hat
  omega

theorem malloc_buffer {k : KernelHeap} {max : ℕ} (h0 : 1 ≤ max) (hmax : max < 4096)
    (hne : (k.malloc max).1 ≠ 0) :
    ∃ b < kernelHeapBlocks, (k.malloc max).1 = frame b ∧ k.IsFree b := by
  have hpage := malloc_page (k := k) h0 hmax.le
  rw [hpage] at hne ⊢
  obtain ⟨b, hb, hp, hfree, -⟩ := malloc_some hne
  exact ⟨b, hb, hp, hfree⟩

end Buffer

section Copy
variable {s s' : TaskState} {x : Task} {d t virt max : ℕ} {r : ℤ × Option (List UInt8)}

/-- Whatever `copy_string_from_task` returns, it leaves every page of tables, the directories, the
heap's table, the tasks and the current task as they were, and the kernel's directory loaded; of
the memory behind the task's directory it has written to one free block. -/
theorem copyStringFromTask_leaves (hheap : s.heap.Reached) (hx : s.tasks t = some x)
    (hdirectory : MappedDirectory x.pageDirectory s.toPagingLayer) (hd : KernelActive d s)
    (h0 : 1 ≤ max) (hmax : max < 4096) (h : copyStringFromTask t virt max s = .ok (r, s')) :
    s'.pages = s.pages ∧ s'.chunks = s.chunks ∧ SameTable s.heap s'.heap ∧
      s'.tasks = s.tasks ∧ s'.currentTask = s.currentTask ∧ KernelActive d s' ∧
      ∀ p, s'.ram p ≠ s.ram p →
        ∃ b < kernelHeapBlocks, s.heap.IsFree b ∧ frame b ≤ p ∧ p < frame b + max := by
  have hmalloc : s.heap.malloc max = s.heap.malloc 4096 := malloc_page h0 hmax.le
  rcases copyStringFromTask_steps h with ⟨rfl, hle⟩ | ⟨hnone, rfl, -⟩ | hsteps
  · exact absurd hmax hle.not_gt
  · rw [hmalloc] at hnone ⊢
    exact ⟨rfl, rfl, malloc_none hnone, rfl, rfl, ⟨hd.kernel, hd.cr3, hd.directory⟩,
      fun p hp => absurd rfl hp⟩
  · obtain ⟨y, old, r₁, r₂, m₁, m₂, ram, hy, hne, hget, hmap, hcopy, hset, -⟩ := hsteps
    obtain rfl : y = x := Option.some.inj (hy.symm.trans hx)
    have hkzalloc : s.afterKzalloc max = s.afterKzalloc 4096 := by
      rw [TaskLayer.afterKzalloc, KernelHeap.ask_eq, hmalloc, TaskLayer.afterKzalloc,
        KernelHeap.ask_eq]
    rw [hmalloc] at hne hget hmap hcopy hset ⊢
    rw [hkzalloc] at hget hmap
    obtain ⟨b, hb, hp, hfree, -⟩ := malloc_some hne
    have hsame := malloc_back hheap.clean hne
    have hspace : (s.afterKzalloc 4096).AddressSpace y.pageDirectory :=
      hdirectory.space.congr (fun _ _ => ⟨rfl, rfl⟩)
        ((s.heap.malloc_spec (by decide)).owns hdirectory.space.owned)
    have hal : (s.heap.malloc 4096).1 % 4096 = 0 := hp ▸ frame_aligned b
    have hlt : (s.heap.malloc 4096).1 < 4294967296 := hp ▸ frame_lt hb
    obtain ⟨-, hpages⟩ := pagingMap_restored hget hmap hset hspace hal hlt
    have hmapped : (.ok (0, _) : Except Crash (ℤ × Memory)) = .ok (r₁, m₁) :=
      (pagingMap_eq hspace hal hlt hal).symm.trans hmap
    obtain ⟨-, rfl⟩ := ok_inj hmapped
    obtain ⟨pages, rfl⟩ := pagingSet_pages _ _ _ (SameButPages.refl _) hset
    refine ⟨hpages, rfl, hsame, rfl, rfl, ⟨hd.kernel, hd.kernel, hd.kernel⟩, fun p hpram => ?_⟩
    refine ⟨b, hb, hfree, hp ▸ ?_⟩
    by_contra hout
    rw [← cleared_of_not_mem hout s.ram] at hpram
    exact hout (buffer_writes hspace hal hlt hmax rfl rfl rfl hcopy p hpram)

def SeesAll (s : TaskState) : Prop := ∀ v < 4294967296, s.translate v ≠ none

theorem nextByte_returns (h : SeesAll s) (src i : ℕ) (ended : Bool) :
    ∃ c, nextByte src i ended s = .ok (c, s) := by
  cases ended with
  | true => exact ⟨0, rfl⟩
  | false => exact readByte_returns (h _ (u32_lt _))

theorem strncpy_returns (h : SeesAll s) (dest src k i : ℕ) (ended : Bool) :
    ∃ ram, strncpy dest src k i ended s = .ok ((), { s with ram := ram }) := by
  induction k generalizing i ended s with
  | zero => exact ⟨s.ram, rfl⟩
  | succ k ih =>
    obtain ⟨c, hread⟩ := nextByte_returns h src i ended
    obtain ⟨q, hq⟩ := Option.ne_none_iff_exists'.mp (h (u32 (dest + i)) (u32_lt _))
    have hwrite : writeByte (u32 (dest + i)) c s =
        .ok ((), { s with ram := Function.update s.ram q c }) := writeByte_ok.mpr ⟨q, hq, rfl⟩
    obtain ⟨ram, hrest⟩ := @ih { s with ram := Function.update s.ram q c } h (i + 1) (ended || c == 0)
    exact ⟨ram, by rw [strncpy_succ, bind_of_ok hread, bind_of_ok hwrite, hrest]⟩

theorem strncpySource_returns (h : SeesAll s) (src k i : ℕ) (ended : Bool) :
    ∃ bytes, strncpySource src k i ended s = .ok (bytes, s) := by
  induction k generalizing i ended with
  | zero => exact ⟨[], rfl⟩
  | succ k ih =>
    obtain ⟨c, hread⟩ := nextByte_returns h src i ended
    obtain ⟨rest, hrest⟩ := ih (i + 1) (ended || c == 0)
    exact ⟨c :: rest, by rw [strncpySource_succ, bind_of_ok hread, bind_of_ok hrest, pure_apply]⟩

theorem SeesAll.congr (h : SeesAll s) (hpages : s'.pages = s.pages) (hcr3 : s'.cr3 = s.cr3) :
    SeesAll s' := by
  intro v hv
  unfold TaskLayer.translate
  rw [hpages, hcr3]
  exact h v hv

theorem SeesAll.withEntry {m : Memory} {chunk tmp : ℕ} (hs : m.AddressSpace chunk)
    (hlt : tmp < 4294967296) {s₀ : TaskState} (h : SeesAll s₀) (hpages : s₀.pages = m.pages)
    (hcr3 : s₀.cr3 = m.chunks chunk)
    (hpages' : s.pages = (m.withEntry chunk tmp (tmp ||| 7)).pages)
    (hcr3' : s.cr3 = m.chunks chunk) : SeesAll s := by
  intro v hv
  obtain ⟨p, hp⟩ := Option.ne_none_iff_exists'.mp (h v hv)
  rw [translate_some, hpages, hcr3] at hp
  have hroot : (m.withEntry chunk tmp (tmp ||| 7)).pages (m.chunks chunk) =
      m.pages (m.chunks chunk) := hs.separated.store_root (pageCell_lt hlt) _
  have hentry := hs.entryAt_withEntry hlt hv (tmp ||| 7)
  refine Option.ne_none_iff_exists'.mpr ⟨_, translate_some.mpr ⟨⟨?_, ?_⟩, rfl⟩⟩
  · rw [hpages', hcr3', hroot]
    exact hp.1.1
  · rw [hpages', hcr3']
    show (m.withEntry chunk tmp (tmp ||| 7)).entryAt chunk v % 2 = 1
    rw [hentry]
    split_ifs
    · exact Nat.or_mod_two_eq_one.mpr (Or.inr rfl)
    · exact hp.1.2

/-- Where the directories of the task and of the kernel map every page and a block is free, the
string is copied. -/
theorem copyStringFromTask_returns (ht : t ≠ 0) (hx : s.tasks t = some x)
    (hs : s.AddressSpace x.pageDirectory) (hkernel : s.kernelChunk ≠ 0) (h0 : 1 ≤ max)
    (hmax : max < 4096) (hne : (s.heap.malloc max).1 ≠ 0) (htask : SeesAll (s.onTask x))
    (hsees : SeesAll s.onKernel) :
    ∃ bytes s', copyStringFromTask t virt max s = .ok ((0, some bytes), s') := by
  have hmalloc := s.heap.malloc_spec (by omega : max < 4294967296)
  obtain ⟨b, hb, hp, -⟩ := malloc_buffer h0 hmax hne
  have hal : (s.heap.malloc max).1 % 4096 = 0 := hp ▸ frame_aligned b
  have hlt : (s.heap.malloc max).1 < 4294967296 := hp ▸ frame_lt hb
  set tmp := (s.heap.malloc max).1
  set m := s.afterKzalloc max
  set m₁ := m.withEntry x.pageDirectory tmp (tmp ||| 7)
  have hspace : m.AddressSpace x.pageDirectory :=
    hs.congr (fun _ _ => ⟨rfl, rfl⟩) (hmalloc.owns hs.owned)
  have hspace₁ := (hspace.withEntry hlt (tmp ||| 7)).1
  set ram₀ := cleared tmp max s.ram
  set s₁ : TaskState := TaskLayer.onTask { s with toPagingLayer := m₁, ram := ram₀ } x
  have hold : pagingGet (m.chunks x.pageDirectory) tmp m = .ok (m.entryAt x.pageDirectory tmp, m) :=
    pagingGet_eq hspace hal hlt
  have hmap : pagingMap x.pageDirectory tmp tmp
      (pagingIsWriteable ||| pagingIsPresent ||| pagingAccessFromAll) m = .ok (0, m₁) :=
    pagingMap_eq hspace hal hlt hal
  have hsees₁ : SeesAll s₁ := htask.withEntry hspace hlt rfl rfl rfl rfl
  obtain ⟨ram, hcopy⟩ := strncpy_returns hsees₁ tmp virt max 0 false
  set s₂ : TaskState := TaskLayer.onKernel { s₁ with ram := ram } with hs₂
  have hspace₂ : s₂.AddressSpace x.pageDirectory := ⟨hspace₁.owned, hspace₁.separated⟩
  have hset := pagingSet_eq hspace₂ hal hlt (m.entryAt x.pageDirectory tmp)
  obtain ⟨-, hpages⟩ := pagingMap_restored hold hmap hset hspace hal hlt
  set m₃ := s₂.withEntry x.pageDirectory tmp (m.entryAt x.pageDirectory tmp)
  have hsees₃ : SeesAll { s₂ with toPagingLayer := m₃ } := hsees.congr hpages rfl
  obtain ⟨bytes, hread⟩ := strncpySource_returns hsees₃ tmp max 0 false
  refine ⟨bytes, { s₂ with toPagingLayer := { m₃ with heap := m₃.heap.free tmp } }, ?_⟩
  have halloc : onHeap (kzalloc max) s = .ok (tmp, { s with toPagingLayer := m }) := rfl
  have hclear : clearBlock tmp max { s with toPagingLayer := m } =
      .ok ((), { s with toPagingLayer := m, ram := ram₀ }) := modify_apply _ _
  set s₀ : TaskState := { s with toPagingLayer := m, ram := ram₀ }
  have hobject : taskAt t s₀ = .ok (x, s₀) := taskAt_of_some ht hx
  have hentry : onMemory (directoryEntry x.pageDirectory) s₀ =
      .ok (m.chunks x.pageDirectory, s₀) := onMemory_of_ok (directoryEntry_of_ne hs.chunk_ne m)
  have hget : onMemory (pagingGet (m.chunks x.pageDirectory) tmp) s₀ =
      .ok (m.entryAt x.pageDirectory tmp, s₀) := onMemory_of_ok hold
  have hmapped : onMemory (pagingMap x.pageDirectory tmp tmp
      (pagingIsWriteable ||| pagingIsPresent ||| pagingAccessFromAll)) s₀ =
      .ok (0, { s₀ with toPagingLayer := m₁ }) := onMemory_of_ok hmap
  have hswitch : onMemory (pagingSwitch x.pageDirectory) { s₀ with toPagingLayer := m₁ } =
      .ok ((), s₁) := onMemory_of_ok (pagingSwitch_ok.mpr ⟨hs.chunk_ne, rfl⟩)
  have hkernelPage : kernelPage { s₁ with ram := ram } = .ok ((), s₂) :=
    kernelPage_ok.mpr ⟨hkernel, rfl⟩
  have hback : onMemory (pagingSet (m.chunks x.pageDirectory) tmp (m.entryAt x.pageDirectory tmp))
      s₂ = .ok (0, { s₂ with toPagingLayer := m₃ }) := onMemory_of_ok hset
  have hfree : onHeap (kfree tmp) { s₂ with toPagingLayer := m₃ } =
      .ok ((), { s₂ with toPagingLayer := { m₃ with heap := m₃.heap.free tmp } }) := rfl
  rw [copyStringFromTask, if_neg hmax.not_ge, bind_of_ok halloc, if_neg hne,
    bind_of_ok hclear, bind_of_ok hobject, bind_of_ok hentry, bind_of_ok hget, bind_of_ok hmapped,
    bind_of_ok hswitch, bind_of_ok hcopy, bind_of_ok hkernelPage,
    bind_of_ok hback, if_neg (by decide), bind_of_ok hread, bind_of_ok hfree, pure_apply]

def sharedDirectory (m : Memory) (chunk : ℕ) : TaskState where
  heap := m.heap
  pages := m.pages
  chunks := m.chunks
  cr3 := m.chunks chunk
  currentDirectory := m.chunks chunk
  tasks := Function.update (fun _ => none) 64 (some { Task.zero with pageDirectory := chunk })
  taskHead := 64
  taskTail := 64
  currentTask := 64
  kernelChunk := chunk
  ram := fun _ => 0

theorem sharedDirectory_exists : ∃ m chunk, pagingNew4gb 7 freshMemory = .ok (chunk, m) ∧
    m.heap.Reached ∧ m.heap.page 0 ≠ 0 := by
  obtain ⟨m, hnew, hheap, -⟩ := @pagingNew4gb_pages 7 freshMemory (by decide) fun i hi =>
    freshMemory_pages (by omega)
  have hnext : ∀ n, (freshMemory.heap.after n).page 0 = freshMemory.heap.page n := fun _ => rfl
  refine ⟨m, _, hnew, hheap ▸ Reached.new.after 1026, ?_⟩
  rw [hheap, hnext]
  exact freshMemory_pages (by decide)

theorem copyStringFromTask_leaves_sample : ∃ (s s' : TaskState) (bytes : List UInt8),
    copyStringFromTask 64 0x400000 10 s = .ok ((0, some bytes), s') ∧
      s'.pages = s.pages ∧ SameTable s.heap s'.heap := by
  obtain ⟨m, chunk, hnew, hreached, hpage⟩ := sharedDirectory_exists
  have hspace := pagingNew4gb_spec (by decide) (Owns.empty _) hnew
  set s := sharedDirectory m chunk
  have hmapped : MappedDirectory chunk s.toPagingLayer :=
    .elsewhere m s.toPagingLayer (.built 7 freshMemory m hnew) (fun _ _ => ⟨rfl, rfl⟩) hspace.space.owned
  have hsees : SeesAll s := by
    intro v hv
    rw [hspace.translate_self (s := s) (by decide) (by decide) rfl rfl hv]
    exact Option.some_ne_none v
  have hmalloc : s.heap.malloc 10 = s.heap.malloc 4096 := malloc_page (by decide) (by decide)
  have hne : (s.heap.malloc 10).1 ≠ 0 := by
    rw [hmalloc]
    exact hpage
  have hx : s.tasks 64 = some { Task.zero with pageDirectory := chunk } := rfl
  obtain ⟨bytes, s', hrun⟩ := @copyStringFromTask_returns s _ 64 0x400000 10 (by decide) hx
    hmapped.space hspace.space.chunk_ne (by decide) (by decide) hne hsees hsees
  have hleaves := copyStringFromTask_leaves hreached hx hmapped ⟨rfl, rfl, rfl⟩ (by decide)
    (by decide) hrun
  exact ⟨s, s', bytes, hrun, hleaves.1, hleaves.2.2.1⟩

end Copy

end Dexter
