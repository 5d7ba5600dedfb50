import Dexter.Mem.HeapRuns
import Dexter.Mem.PageRequests

/-!
# What a page directory promises (`mem/paging.c`)

A directory that `paging_new_4gb` has built is the identity map, mapping a range changes the
entries of this range, and releasing it gives back the blocks it took.
-/

namespace Dexter
open Lib.Programs Lib.Runs Lib.TwoLevel Lib.BlockPool PagingLayer KernelHeap

inductive PagingOp
  | set (virt val : UInt32)
  | map (virt phys flags : UInt32)
  | mapTo (virt phys physEnd flags : UInt32)
  deriving DecidableEq, Repr

def PagingOp.run (chunk : ℕ) : PagingOp → Prog Crash Memory ℤ
  | .set virt val => do
    let directory ← directoryEntry chunk
    pagingSet directory virt.toNat val.toNat
  | .map virt phys flags => pagingMap chunk virt.toNat phys.toNat flags.toNat
  | .mapTo virt phys physEnd flags =>
    pagingMapTo chunk virt.toNat phys.toNat physEnd.toNat flags.toNat

def PagingOp.runAll (chunk : ℕ) : List PagingOp → Prog Crash Memory Unit
  | [] => pure ()
  | op :: ops => do
    let _ ← op.run chunk
    runAll chunk ops

/-- The directory at `chunk` was built by `paging_new_4gb`; since then it has been mapped, and
whatever else went on has left its pages alone. -/
inductive MappedDirectory (chunk : ℕ) : Memory → Prop
  | built (flags : UInt8) (m₀ m : Memory) (run : pagingNew4gb flags.toNat m₀ = .ok (chunk, m)) :
      MappedDirectory chunk m
  | mapped (op : PagingOp) (r : ℤ) (m m' : Memory) (before : MappedDirectory chunk m)
      (run : op.run chunk m = .ok (r, m')) : MappedDirectory chunk m'
  | elsewhere (m m' : Memory) (before : MappedDirectory chunk m)
      (agree : AgreeOn (m.spaceFrames chunk) m m') (owned : m'.heap.Owns (m.spaceFrames chunk)) :
      MappedDirectory chunk m'

section Mapping
variable {chunk : ℕ} {m m' : Memory}

theorem withEntry_eq (m : Memory) (chunk : ℕ) {v : ℕ} (hv : v < 4294967296) (w : ℕ) :
    m.withEntry chunk v w = m.withRange chunk v (fun _ => w) 1 0 := by
  have hcell : (v + 4096 * 0) % 4294967296 = v := by omega
  simp only [withEntry, withRange, storeRange, hcell]

theorem PagingOp.run_eq (hs : m.AddressSpace chunk) (op : PagingOp) :
    ∃ r virt w k, op.run chunk m = .ok (r, m.withRange chunk virt w k 0) := by
  have hnone : m = m.withRange chunk 0 (fun _ => 0) 0 0 := rfl
  cases op with
  | set virt val =>
    have hv := virt.toNat_lt
    rw [run, bind_of_ok (directoryEntry_of_ne hs.chunk_ne m)]
    by_cases hal : virt.toNat % 4096 = 0
    · exact ⟨0, _, _, 1, by rw [pagingSet_eq hs hal hv, withEntry_eq m chunk hv]⟩
    · refine ⟨-eInvArg, 0, fun _ => 0, 0, ?_⟩
      rw [pagingSet, pagingIsAligned, if_pos (by simp [hal]), ← hnone, pure_apply]
  | map virt phys flags =>
    have hv := virt.toNat_lt
    by_cases hal : virt.toNat % 4096 = 0 ∧ phys.toNat % 4096 = 0
    · exact ⟨0, _, _, 1, by rw [run, pagingMap_eq hs hal.1 hv hal.2, withEntry_eq m chunk hv]⟩
    · refine ⟨-eInvArg, 0, fun _ => 0, 0, ?_⟩
      rw [run, pagingMap, if_pos (by simp only [pagingPageSize]; tauto), ← hnone, pure_apply]
  | mapTo virt phys physEnd flags =>
    by_cases hal : virt.toNat % 4096 = 0 ∧ phys.toNat % 4096 = 0 ∧ physEnd.toNat % 4096 = 0 ∧
        phys.toNat ≤ physEnd.toNat
    · obtain ⟨hv, hp, he, hle⟩ := hal
      exact ⟨0, _, _, _, by rw [run, pagingMapTo_eq hs hv virt.toNat_lt hp he hle physEnd.toNat_lt]⟩
    · refine ⟨-eInvArg, 0, fun _ => 0, 0, ?_⟩
      rw [run, pagingMapTo, ← hnone]
      split_ifs
      all_goals first | rfl | (simp only [pagingPageSize] at *; omega)

theorem PagingOp.run_space (hs : m.AddressSpace chunk) {op : PagingOp} {r : ℤ}
    (h : op.run chunk m = .ok (r, m')) :
    m'.AddressSpace chunk ∧ m'.spaceFrames chunk = m.spaceFrames chunk ∧ m'.heap = m.heap ∧
      m'.chunks = m.chunks ∧ m'.pages (m.chunks chunk) = m.pages (m.chunks chunk) := by
  obtain ⟨r', virt, w, k, hrun⟩ := op.run_eq hs
  rw [hrun] at h
  obtain ⟨-, rfl⟩ := ok_inj h
  exact ⟨(hs.withRange virt w k 0).1, (hs.withRange virt w k 0).2, rfl, rfl,
    hs.withRange_directory virt w k 0⟩

theorem MappedDirectory.space (h : MappedDirectory chunk m) : m.AddressSpace chunk := by
  induction h with
  | built flags m₀ m run =>
    have hflags := flags.toNat_lt
    exact (pagingNew4gb_spec (by omega) (Owns.empty m₀.heap) run).space
  | mapped op r m m' before run ih => exact (PagingOp.run_space ih run).1
  | elsewhere m m' before agree owned ih => exact ih.congr agree owned

def pageBehind (virt i : ℕ) : ℕ := (virt + i * 4096) % 4294967296

/-- `paging_map_to` maps the pages behind `virt` to those from `phys` to `phys_end`, and nothing
else; where an address is not the start of a page, or the end lies before the start, it fails and
nothing changes. -/
theorem pagingMapTo_exact (h : MappedDirectory chunk m) (virt phys physEnd flags : UInt32) :
    (virt.toNat % 4096 = 0 ∧ phys.toNat % 4096 = 0 ∧ physEnd.toNat % 4096 = 0 ∧ phys ≤ physEnd →
      ∃ m', pagingMapTo chunk virt.toNat phys.toNat physEnd.toNat flags.toNat m = .ok (0, m') ∧
        (∀ i < (physEnd.toNat - phys.toNat) / 4096,
          pagingGet (m'.chunks chunk) (pageBehind virt.toNat i) m' =
            .ok ((phys.toNat + i * 4096) ||| flags.toNat, m')) ∧
        ∀ v < 4294967296, v % 4096 = 0 →
          (∀ i < (physEnd.toNat - phys.toNat) / 4096, v ≠ pageBehind virt.toNat i) →
          ∃ w, pagingGet (m.chunks chunk) v m = .ok (w, m) ∧
            pagingGet (m'.chunks chunk) v m' = .ok (w, m')) ∧
    (¬(virt.toNat % 4096 = 0 ∧ phys.toNat % 4096 = 0 ∧ physEnd.toNat % 4096 = 0 ∧
        phys ≤ physEnd) →
      ∃ r < 0, pagingMapTo chunk virt.toNat phys.toNat physEnd.toNat flags.toNat m =
        .ok (r, m)) := by
  have hs := h.space
  have hvlt := virt.toNat_lt
  have helt := physEnd.toNat_lt
  have hle : phys ≤ physEnd ↔ phys.toNat ≤ physEnd.toNat := UInt32.le_iff_toNat_le
  rw [hle]
  constructor
  · rintro ⟨hv, hp, he, hle⟩
    have hs' := (hs.withRange virt.toNat (fun i => (phys.toNat + 4096 * i) % 4294967296 |||
      flags.toNat) ((physEnd.toNat - phys.toNat) / 4096) 0).1
    refine ⟨_, pagingMapTo_eq hs hv hvlt hp he hle helt, fun i hi => ?_, fun v hvlt' hal hout => ?_⟩
    · have hpage : pageBehind virt.toNat i < 4294967296 := Nat.mod_lt _ (by decide)
      have hal : pageBehind virt.toNat i % 4096 = 0 := by
        unfold pageBehind
        omega
      have hoff : (pageBehind virt.toNat i / 4096 + 1048576 - virt.toNat / 4096) % 1048576 = i := by
        unfold pageBehind
        omega
      have hword : (phys.toNat + 4096 * i) % 4294967296 = phys.toNat + i * 4096 := by omega
      rw [pagingGet_eq hs' hal hpage, hs.entryAt_withRange _ hv hvlt (by omega) hpage, hoff,
        if_pos hi, hword]
    · have hoff : ¬(v / 4096 + 1048576 - virt.toNat / 4096) % 1048576 <
          (physEnd.toNat - phys.toNat) / 4096 := by
        intro hin
        refine hout _ hin ?_
        unfold pageBehind
        omega
      refine ⟨_, pagingGet_eq hs hal hvlt', ?_⟩
      rw [pagingGet_eq hs' hal hvlt', hs.entryAt_withRange _ hv hvlt (by omega) hvlt', if_neg hoff]
  · intro hnot
    refine ⟨-eInvArg, by decide, ?_⟩
    rw [pagingMapTo]
    split_ifs
    all_goals first | rfl | (simp only [pagingPageSize] at *; omega)

def freshMemory : Memory := ⟨kheapInit, fun _ _ => 0, fun _ => 0, 0, 0⟩

theorem freshMemory_pages {i : ℕ} (hi : i < 25600) : freshMemory.heap.page i ≠ 0 :=
  (kheapInit_freeBlocks le_rfl).page_ne hi

theorem pagingMapTo_exact_boundary : ∃ chunk m m', pagingNew4gb 5 freshMemory = .ok (chunk, m) ∧
    pagingMapTo chunk 0x3ff000 0x100000 0x102000 7 m = .ok (0, m') ∧
    pagingGet (m'.chunks chunk) 0x3ff000 m' = .ok (0x100007, m') ∧
    pagingGet (m'.chunks chunk) 0x400000 m' = .ok (0x101007, m') := by
  obtain ⟨m, hnew, -⟩ := @pagingNew4gb_pages 5 freshMemory (by decide) fun i hi =>
    freshMemory_pages (by omega)
  have hmap := pagingMapTo_exact (.built 5 freshMemory m hnew) 0x3ff000 0x100000 0x102000 7
  obtain ⟨m', hrun, hin, -⟩ := hmap.1 (by decide)
  exact ⟨_, m, m', hnew, hrun, hin 0 (by decide), hin 1 (by decide)⟩

end Mapping

section New
variable {m : Memory}

theorem word_bits {p : ℕ} (hp : p % 4096 = 0) (f : ℕ) :
    (p ||| f ||| 2) &&& 1 = f &&& 1 ∧ (p ||| f ||| 2) &&& 2 ≠ 0 := by
  have hlow : p &&& 1 = 0 := by
    rw [Nat.and_one_is_mod]
    omega
  constructor
  · rw [Nat.and_or_distrib_right, Nat.and_or_distrib_right, hlow, Nat.zero_or]
    exact Nat.or_zero _
  · rw [Nat.and_or_distrib_right]
    intro hzero
    exact absurd (Nat.or_eq_zero_iff.mp hzero).2 (by decide)

/-- Where its 1026 allocations succeed, `paging_new_4gb` builds the identity map: every page is
mapped to itself, the words of the directory carry the flags and name the tables, and the tables
are different pages. -/
theorem pagingNew4gb_identity (flags : UInt8) (m : Memory)
    (hsucceed : ∀ i < 1026, m.heap.page i ≠ 0) :
    ∃ chunk m', pagingNew4gb flags.toNat m = .ok (chunk, m') ∧
      (∀ a < 4294967296, a % 4096 = 0 →
        pagingGet (m'.chunks chunk) a m' = .ok (a ||| flags.toNat, m')) ∧
      (∀ i < 1024,
        (m'.pages (m'.chunks chunk) i &&& pagingIsPresent ≠ 0 ↔
          flags.toNat &&& pagingIsPresent ≠ 0) ∧
        m'.pages (m'.chunks chunk) i &&& pagingIsWriteable ≠ 0 ∧
        m'.pages (m'.chunks chunk) i &&& 0xfffff000 = m.heap.page (i + 1)) ∧
      ∀ i < 1024, ∀ j < 1024, m.heap.page (i + 1) = m.heap.page (j + 1) → i = j := by
  have hflags := flags.toNat_lt
  obtain ⟨m', hrun, -, hdirectory, htables⟩ := @pagingNew4gb_pages flags.toNat m (by omega) hsucceed
  have hnew := pagingNew4gb_spec (by omega) (Owns.empty m.heap) hrun
  refine ⟨_, m', hrun, fun a ha hal => ?_, fun i hi => ?_, fun i hi j hj heq => ?_⟩
  · have hpage : a / 4096 * 4096 = a := by omega
    rw [pagingGet_eq hnew.space hal ha, hnew.entries a ha, hpage]
  · have hword := hnew.words i hi
    have hpos := hnew.space.owned.pos (m'.table_mem _ hi)
    obtain ⟨hpresent, hwritable⟩ := word_bits hpos.2.2 flags.toNat
    rw [hword]
    refine ⟨by rw [hpresent], hwritable, ?_⟩
    have htable : entryTable (m'.pages (m'.chunks (m.heap.page 1025)) i) = m.heap.page (i + 1) :=
      htables i hi
    rwa [hword] at htable
  · have hij := page_injective (hsucceed (i + 1) (by omega)) heq
    omega

theorem pagingNew4gb_identity_fresh : ∃ chunk m', pagingNew4gb 7 freshMemory = .ok (chunk, m') ∧
    pagingGet (m'.chunks chunk) 0xfffff000 m' = .ok (0xfffff007, m') := by
  obtain ⟨chunk, m', hrun, hmap, -⟩ := pagingNew4gb_identity 7 freshMemory fun i hi =>
    freshMemory_pages (by omega)
  exact ⟨chunk, m', hrun, hmap 0xfffff000 (by decide) (by decide)⟩

end New

section Release
variable {k : KernelHeap} {m : Memory} {chunk : ℕ}

theorem free_frame_entries (k : KernelHeap) {b : ℕ} (hb : b < kernelHeapBlocks) (c : ℕ) :
    (k.free (frame b)).entries c = if c = b then heapBlockTableEntryFree else k.entries c := by
  have hin : (b : ℤ) < k.total := by
    rw [k.total_eq]
    exact_mod_cast hb
  show (heapFree k.toHeap (frame b)).entries c = _
  rw [heapFree, heapAddressToBlock_frame k hb, heapMarkBlocksFree_eq, if_pos hin,
    Heap.setEntry_entries]
  simp only [Nat.cast_inj]

def Cleared (A : Set ℕ) (k k' : KernelHeap) : Prop :=
  ∀ b < kernelHeapBlocks, (frame b ∈ A → k'.entries b = heapBlockTableEntryFree) ∧
    (frame b ∉ A → k'.entries b = k.entries b)

theorem Cleared.free {A : Set ℕ} {k₀ : KernelHeap} (h : Cleared A k₀ k) {b : ℕ}
    (hb : b < kernelHeapBlocks) : Cleared (A ∪ {frame b}) k₀ (k.free (frame b)) := by
  intro c hc
  rw [free_frame_entries k hb]
  constructor
  · intro hin
    split_ifs with hcb
    · rfl
    · exact (h c hc).1 (hin.resolve_right fun heq => hcb (frame_injective heq))
  · intro hout
    rw [if_neg fun hcb => hout (Or.inr (congrArg frame hcb))]
    exact (h c hc).2 fun hin => hout (Or.inl hin)

theorem pagingFree4gb_clears (hs : m.AddressSpace chunk) :
    ∃ k, pagingFree4gb chunk m = .ok ((), { m with heap := k }) ∧
      Cleared (m.spaceFrames chunk) m.heap k := by
  have hloop := @Returns.countUp _ _ _ (fun i _ => do
      let directory ← directoryEntry chunk
      let entry ← readWord directory i
      onHeap (kfree (entryTable entry)))
    (fun i (_ : Unit) s => ∃ k : KernelHeap, s = { m with heap := k } ∧
      Cleared {p | ∃ j < i, p = m.tableAt chunk j} m.heap k) 1024 ?_ ()
  · obtain ⟨u, s, hrun, k, rfl, hk⟩ := hloop ⟨m.heap, rfl, fun b _ =>
      ⟨fun ⟨j, hj, _⟩ => absurd hj (Nat.not_lt_zero j), fun _ => rfl⟩⟩
    obtain ⟨d, hd, hdp, -⟩ := hs.owned _ (m.directory_mem chunk)
    obtain ⟨c, hc, hcp, -⟩ := hs.owned _ (m.chunk_mem chunk)
    have hclear := (hk.free hd).free hc
    rw [← hdp, ← hcp] at hclear
    refine ⟨(k.free (m.chunks chunk)).free chunk, ?_, fun b hb => ?_⟩
    · rw [pagingFree4gb, bind_of_ok hrun, bind_of_ok (directoryEntry_of_ne hs.chunk_ne _),
        bind_of_ok (onHeap_kfree _ _), onHeap_kfree]
    · have hmem : frame b ∈ m.spaceFrames chunk ↔
          frame b ∈ {p | ∃ j < 1024, p = m.tableAt chunk j} ∪ {m.chunks chunk} ∪ {chunk} := by
        rw [spaceFrames, Set.union_comm, Set.pair_comm, Set.insert_eq, Set.union_assoc]
      rw [hmem]
      exact hclear b hb
  · rintro i hi u s ⟨k, rfl, hk⟩
    obtain ⟨b, hb, hbp, -⟩ := hs.owned _ (m.table_mem chunk hi)
    refine ⟨(), { m with heap := k.free (m.tableAt chunk i) }, ?_, _, rfl, fun c hc => ?_⟩
    · rw [bind_of_ok (directoryEntry_of_ne hs.chunk_ne _),
        bind_of_ok (readWord_of_ne hs.directory_ne _ _), onHeap_kfree]
      rfl
    · have hmem : frame c ∈ {p | ∃ j < i + 1, p = m.tableAt chunk j} ↔
          frame c ∈ {p | ∃ j < i, p = m.tableAt chunk j} ∪ {m.tableAt chunk i} := by
        constructor
        · rintro ⟨j, hj, hjp⟩
          rcases Nat.lt_succ_iff_lt_or_eq.mp hj with hlt | rfl
          · exact Or.inl ⟨j, hlt, hjp⟩
          · exact Or.inr hjp
        · rintro (⟨j, hj, hjp⟩ | hip)
          · exact ⟨j, Nat.lt_succ_of_lt hj, hjp⟩
          · exact ⟨i, Nat.lt_succ_self i, hip⟩
      rw [hmem, hbp]
      exact hk.free hb c hc

theorem PagingOp.runAll_space (hs : m.AddressSpace chunk) (ops : List PagingOp) :
    ∃ m', PagingOp.runAll chunk ops m = .ok ((), m') ∧ m'.AddressSpace chunk ∧
      m'.spaceFrames chunk = m.spaceFrames chunk ∧ m'.heap = m.heap := by
  induction ops generalizing m with
  | nil => exact ⟨m, rfl, hs, rfl, rfl⟩
  | cons op ops ih =>
    obtain ⟨r, virt, w, k, hrun⟩ := op.run_eq hs
    obtain ⟨hs', hframes, hheap, -, -⟩ := PagingOp.run_space hs hrun
    obtain ⟨m', hrest, hspace, hframes', hheap'⟩ := ih hs'
    refine ⟨m', ?_, hspace, hframes'.trans hframes, hheap'.trans hheap⟩
    rw [runAll, bind_of_ok hrun]
    exact hrest

/-- The life of a directory: it takes the first 1026 free blocks, and these are cleared at its
end. -/
theorem directory_life (hfree : m.heap.FreeBlocks 1026) (flags : UInt8) (ops : List PagingOp) :
    ∃ chunk m₁ m₂ m₃, pagingNew4gb flags.toNat m = .ok (chunk, m₁) ∧
      PagingOp.runAll chunk ops m₁ = .ok ((), m₂) ∧ pagingFree4gb chunk m₂ = .ok ((), m₃) ∧
      m₂.heap = m.heap.after 1026 ∧ ∀ b < kernelHeapBlocks, m₃.heap.entries b =
        if m.heap.Among 1026 b then heapBlockTableEntryFree else m.heap.entries b := by
  have hall : ∀ i < 1026, m.heap.page i ≠ 0 := fun i hi => hfree.page_ne hi
  have hflags := flags.toNat_lt
  obtain ⟨m₁, hnew, hheap, hdirectory, htables⟩ := @pagingNew4gb_pages flags.toNat m (by omega) hall
  have hspace := (pagingNew4gb_spec (by omega) (Owns.empty m.heap) hnew).space
  obtain ⟨m₂, hops, hspace₂, hframes, hheap₂⟩ := PagingOp.runAll_space hspace ops
  obtain ⟨k, hfreed, hclear⟩ := pagingFree4gb_clears hspace₂
  refine ⟨_, m₁, m₂, _, hnew, hops, hfreed, hheap₂.trans hheap, fun b hb => ?_⟩
  have hpages : frame b ∈ m₂.spaceFrames (m.heap.page 1025) ↔ m.heap.Among 1026 b := by
    have hblock : ∀ i < 1026, frame b = m.heap.page i ↔
        m.heap.IsFree b ∧ m.heap.freeBelow b = i := fun i hi => by
      rw [eq_comm, page_eq_frame hb (hall i hi)]
    rw [hframes, spaceFrames, hdirectory]
    constructor
    · rintro ((hchunk | hdir) | ⟨i, hi, htable⟩)
      · obtain ⟨hbfree, hcount⟩ := (hblock 1025 (by decide)).mp hchunk
        exact ⟨hbfree, by omega⟩
      · obtain ⟨hbfree, hcount⟩ := (hblock 0 (by decide)).mp hdir
        exact ⟨hbfree, by omega⟩
      · rw [htables i hi] at htable
        obtain ⟨hbfree, hcount⟩ := (hblock (i + 1) (by omega)).mp htable
        exact ⟨hbfree, by omega⟩
    · rintro ⟨hbfree, hcount⟩
      have hpage := (hblock _ hcount).mpr ⟨hbfree, rfl⟩
      rcases Nat.eq_zero_or_pos (m.heap.freeBelow b) with h0 | hpos
      · rw [h0] at hpage
        exact Or.inl (Or.inr hpage)
      · rcases Nat.lt_succ_iff_lt_or_eq.mp hcount with hlt | hlast
        · refine Or.inr ⟨m.heap.freeBelow b - 1, by omega, ?_⟩
          rw [htables _ (by omega), Nat.sub_add_cancel hpos]
          exact hpage
        · rw [hlast] at hpage
          exact Or.inl (Or.inl hpage)
  split_ifs with hamong
  · exact (hclear b hb).1 (hpages.mpr hamong)
  · show k.entries b = _
    rw [(hclear b hb).2 fun hin => hamong (hpages.mp hin), hheap₂, hheap, after_entries _ _ hb,
      if_neg hamong]

end Release

structure LiveHeap where
  heap : KernelHeap
  live : List HeapRuns.Allocation

namespace LiveHeap
open HeapRuns (Allocation Op)

def toState (s : LiveHeap) : HeapRuns.State := ⟨s.heap.toHeap, s.live⟩

/-- `kmalloc` of a 32-bit size, and `kfree` of an allocation that is live. -/
def step (s : LiveHeap) : Op → Option LiveHeap
  | .malloc size =>
    if size < 4294967296 then
      some ⟨(s.heap.malloc size).2,
        (s.toState.malloc (heapAlignValueToUpper size / dexterHeapBlockSize)).live⟩
    else none
  | .free a => if a ∈ s.live then some ⟨s.heap.free a.ptr, s.live.erase a⟩ else none

def Clean (k : KernelHeap) : Prop :=
  ∀ b < kernelHeapBlocks, k.IsFree b → k.entries b = heapBlockTableEntryFree

def ReleasesBlocks (_ : LiveHeap) : Op → Prop
  | .malloc _ => True
  | .free a => 1 ≤ a.region.len

/-- A directory is built, mapped and released: the table is what it was before, and no block of a
live allocation is freed on the way. -/
def FreedCompletely (s : LiveHeap) (m : Memory) (flags : UInt8) (ops : List PagingOp) : Prop :=
  ∃ chunk m₁ m₂ m₃, pagingNew4gb flags.toNat m = .ok (chunk, m₁) ∧
    PagingOp.runAll chunk ops m₁ = .ok ((), m₂) ∧ pagingFree4gb chunk m₂ = .ok ((), m₃) ∧
    SameTable s.heap m₃.heap ∧
    ∀ a ∈ s.live, ∀ b ∈ a.region.blocks, b < kernelHeapBlocks →
      ¬m₂.heap.IsFree b → ¬m₃.heap.IsFree b

/-- No block of a live allocation is among the free blocks a directory takes. -/
def NoneAmong (s : LiveHeap) : Prop :=
  ∀ a ∈ s.live, ∀ b ∈ a.region.blocks, b < kernelHeapBlocks → ¬s.heap.Among 1026 b

section Clean
variable {k : KernelHeap} {s s' : LiveHeap} {op : Op} {cs : List Op}

theorem isFree_taken {e : HeapBlockTableEntry} (h : e = 0x81 ∨ e = 0x01) :
    heapGetEntryType e ≠ heapBlockTableEntryFree := by
  rcases h with rfl | rfl <;> decide

theorem Clean.malloc (h : Clean k) {size : ℕ} (hsize : size < 4294967296) :
    Clean (k.malloc size).2 := by
  intro b hb hfree
  have hn := heapAlignValueToUpper_lt hsize
  have hi32 : i32 (heapAlignValueToUpper size / dexterHeapBlockSize : ℕ) =
      (heapAlignValueToUpper size / dexterHeapBlockSize : ℕ) := i32_natCast (by omega)
  have hresult : (k.malloc size).2.toHeap =
      (heapMallocBlocks k.toHeap (heapAlignValueToUpper size / dexterHeapBlockSize)).2 := rfl
  have hfree' : heapGetEntryType ((k.malloc size).2.toHeap.entries b) =
      heapBlockTableEntryFree := hfree
  show (k.malloc size).2.toHeap.entries b = _
  rw [hresult] at hfree' ⊢
  unfold heapMallocBlocks at hfree' ⊢
  dsimp only at hfree' ⊢
  rw [hi32] at hfree' ⊢
  split_ifs at hfree' ⊢ with hneg
  · exact h b hb hfree'
  · rw [heapMarkBlocksTaken_entries] at hfree' ⊢
    split_ifs at hfree' ⊢ with hin hfirst
    · exact absurd hfree' (isFree_taken (Or.inl rfl))
    · exact absurd hfree' (isFree_taken (Or.inr rfl))
    · exact h b hb hfree'

theorem Clean.free (h : Clean k) (ptr : ℕ) : Clean (k.free ptr) := by
  intro b hb hfree
  have hfree' : heapGetEntryType ((heapFree k.toHeap ptr).entries b) =
      heapBlockTableEntryFree := hfree
  show (heapFree k.toHeap ptr).entries b = _
  rw [heapFree, heapMarkBlocksFree_eq] at hfree' ⊢
  split_ifs at hfree' ⊢
  · rw [Heap.setEntry_entries] at hfree' ⊢
    split_ifs at hfree' ⊢
    · rfl
    · exact h b hb hfree'
  · exact h b hb hfree'

theorem step_clean (h : Clean s.heap) (hstep : step s op = some s') : Clean s'.heap := by
  cases op with
  | malloc size =>
    simp only [step, Option.ite_none_right_eq_some, Option.some.injEq] at hstep
    obtain ⟨hsize, rfl⟩ := hstep
    exact h.malloc hsize
  | free a =>
    simp only [step, Option.ite_none_right_eq_some, Option.some.injEq] at hstep
    obtain ⟨-, rfl⟩ := hstep
    exact h.free a.ptr

theorem clean_of_run (h : exec step ⟨kheapInit, []⟩ cs = some s) : Clean s.heap :=
  exec_invariant (I := fun s : LiveHeap => Clean s.heap) (fun _ _ _ => step_clean)
    (fun _ _ _ => rfl) h

theorem step_covered (hs : HeapRuns.Sound s.toState) (hc : HeapRuns.Covered s.toState)
    (hstep : step s op = some s') (hop : ReleasesBlocks s op) :
    HeapRuns.Covered s'.toState ∧ HeapRuns.Sound s'.toState := by
  cases op with
  | malloc size =>
    simp only [step, Option.ite_none_right_eq_some, Option.some.injEq] at hstep
    obtain ⟨hsize, rfl⟩ := hstep
    have hn := heapAlignValueToUpper_lt hsize
    have hspec := HeapRuns.malloc_spec s.toState
      (n := heapAlignValueToUpper size / dexterHeapBlockSize) (by omega)
    obtain ⟨hs', hc'⟩ := hspec.sound hs hc
    exact ⟨hc', hs'⟩
  | free a =>
    simp only [step, Option.ite_none_right_eq_some, Option.some.injEq] at hstep
    obtain ⟨ha, rfl⟩ := hstep
    have hlen : 1 ≤ a.region.len := hop
    have ha' : a ∈ s.toState.live := ha
    obtain ⟨hsep, hdis⟩ := HeapRuns.separate_free hs.separate ha'
    refine ⟨fun r hr => ?_, ⟨HeapRuns.addressed_free hs.addressed a, hsep⟩⟩
    obtain ⟨a', ha'', rfl⟩ := List.mem_map.mp hr
    obtain ⟨hlt, htaken⟩ := hc a'.region (List.mem_map_of_mem (List.mem_of_mem_erase ha''))
    have htotal : (s.toState.free a).heap.total = s.toState.heap.total := heapFree_total _ _
    refine ⟨hlt.trans_eq htotal.symm, fun b hb hin => ?_⟩
    show ¬(s.toState.free a).heap.IsFree b
    rw [HeapRuns.isFree_free hs ha', not_or]
    refine ⟨htaken b hb (hin.trans_eq htotal), fun hstart => ?_⟩
    refine Set.disjoint_left.mp (hdis a' ha'') (Region.mem_blocks.mpr ?_) hb
    omega

theorem noneAmong_of_run (h : exec step ⟨kheapInit, []⟩ cs = some s)
    (hops : Along step ReleasesBlocks ⟨kheapInit, []⟩ cs) : NoneAmong s := by
  have hrun := @throughout_of_along _ _ step (fun s => HeapRuns.Covered s.toState)
    (fun s => HeapRuns.Sound s.toState) ReleasesBlocks
    (fun s op s' hs hc hstep hop => step_covered hs hc hstep hop) ⟨kheapInit, []⟩ cs
    (HeapRuns.sound_init kheapInit.toHeap) (HeapRuns.covered_init kheapInit.toHeap) hops
  have hcovered := hrun.last h
  intro a ha b hb hin hamong
  refine (hcovered a.region (List.mem_map_of_mem ha)).2 b hb ?_ hamong.1
  show b < s.heap.total
  rw [s.heap.total_eq]
  exact hin

end Clean

section FreedCompletely
variable {s : LiveHeap} {cs : List Op} {m : Memory}

theorem freedCompletely_iff (hclean : Clean s.heap) (hfree : s.heap.FreeBlocks 1026)
    (hm : m.heap = s.heap) (flags : UInt8) (ops : List PagingOp) :
    FreedCompletely s m flags ops ↔ NoneAmong s := by
  obtain ⟨chunk, m₁, m₂, m₃, hnew, hops, hfreed, hheap, hentries⟩ :=
    directory_life (hm ▸ hfree) flags ops
  rw [hm] at hheap hentries
  have hsame : SameTable s.heap m₃.heap := by
    intro b hb
    rw [hentries b hb]
    split_ifs with hamong
    · exact (hclean b hb hamong.1).symm
    · rfl
  constructor
  · rintro ⟨chunk', m₁', m₂', m₃', hnew', hops', hfreed', -, hkept⟩ a ha b hb hin hamong
    rw [hnew] at hnew'
    obtain ⟨rfl, rfl⟩ := ok_inj hnew'
    rw [hops] at hops'
    obtain ⟨-, rfl⟩ := ok_inj hops'
    rw [hfreed] at hfreed'
    obtain ⟨-, rfl⟩ := ok_inj hfreed'
    refine hkept a ha b hb hin ?_ ?_
    · rw [hheap, after_isFree _ _ hin]
      exact fun h => h.2 hamong
    · rw [Heap.IsFree, hsame b hin]
      exact hamong.1
  · intro hnone
    refine ⟨chunk, m₁, m₂, m₃, hnew, hops, hfreed, hsame, fun a ha b hb hin htaken => ?_⟩
    rw [hheap, after_isFree _ _ hin, and_iff_left (hnone a ha b hb hin)] at htaken
    rw [Heap.IsFree, hsame b hin]
    exact htaken

/-- In every heap that allocations and releases lead to, with 1026 free blocks, a directory is
freed completely exactly if no live allocation has a block among the free ones it takes; and so
it is if only allocations with blocks have been released. -/
theorem directory_freed_iff (hrun : exec step ⟨kheapInit, []⟩ cs = some s)
    (hfree : s.heap.FreeBlocks 1026) (hm : m.heap = s.heap) (flags : UInt8)
    (ops : List PagingOp) :
    (FreedCompletely s m flags ops ↔ NoneAmong s) ∧
      (Along step ReleasesBlocks ⟨kheapInit, []⟩ cs → FreedCompletely s m flags ops) := by
  have hiff := freedCompletely_iff (clean_of_run hrun) hfree hm flags ops
  exact ⟨hiff, fun halong => hiff.mpr (noneAmong_of_run hrun halong)⟩

theorem directory_freed_iff_page : ∃ s, exec step ⟨kheapInit, []⟩ [.malloc 50] = some s ∧
    FreedCompletely s { freshMemory with heap := s.heap } 7 [.mapTo 0x400000 0x1000 0x3000 7] := by
  have hrun : exec step ⟨kheapInit, []⟩ [.malloc 50] = some
      ⟨(kheapInit.malloc 50).2, ((⟨kheapInit, []⟩ : LiveHeap).toState.malloc
        (heapAlignValueToUpper 50 / dexterHeapBlockSize)).live⟩ := rfl
  obtain ⟨p, k, hmalloc, -, hfree⟩ := @kzalloc_freeBlocks 1026 50 (by decide) (by decide)
    kheapInit (kheapInit_freeBlocks (by decide))
  have hk : (kheapInit.malloc 50).2 = k := by rw [kzalloc_malloc hmalloc]
  exact ⟨_, hrun, (directory_freed_iff hrun (hk ▸ hfree) rfl _ _).2
    fun _ _ => ⟨trivial, trivial⟩⟩

theorem step_malloc_at {size n b : ℕ} (hsize : size < 4294967296) (hb : b < kernelHeapBlocks)
    (hn : heapAlignValueToUpper size / dexterHeapBlockSize = n)
    (hstart : heapGetStartBlock s.heap.toHeap n = b) :
    step s (.malloc size) = some ⟨(s.heap.malloc size).2, ⟨frame b, ⟨b, n⟩⟩ :: s.live⟩ := by
  have hptr := congrArg Prod.fst (heapMallocBlocks_of_start hstart (by
    have hlt := heapAlignValueToUpper_lt hsize
    omega))
  rw [frame_eq s.heap hb] at hptr
  have hlive : (s.toState.malloc n).live = ⟨frame b, ⟨b, n⟩⟩ :: s.live := by
    show (if heapGetStartBlock s.heap.toHeap n < 0 then s.live else
      ⟨(heapMallocBlocks s.heap.toHeap n).1, ⟨(heapGetStartBlock s.heap.toHeap n).toNat, n⟩⟩ ::
        s.live) = _
    rw [hptr, hstart, if_neg (by omega), Int.toNat_natCast]
  rw [step, if_pos hsize, hn, hlive]

/-- A search for no blocks starts at the first free one and goes on to the end of the table. -/
theorem heapScan_empty {h : Heap} (hfree : ∀ b, h.IsFree b) (k i bc : ℕ) {bs : ℤ} (hbs : 0 ≤ bs) :
    heapScan h 0 k i bc bs = bs := by
  induction k generalizing i bc with
  | zero => rfl
  | succ k ih =>
    have hi : ¬heapGetEntryType (h.entries i) ≠ heapBlockTableEntryFree := not_not.mpr (hfree i)
    have hbs' : ¬bs = -1 := by omega
    rw [heapScan, if_neg hi, if_neg hbs']
    exact ih (i + 1) (bc + 1)

theorem kheapInit_isFree (b : ℕ) : kheapInit.IsFree b := by
  show heapGetEntryType heapBlockTableEntryFree = heapBlockTableEntryFree
  decide

theorem heapGetStartBlock_empty : heapGetStartBlock kheapInit.toHeap 0 = (0 : ℕ) := by
  have hscan : heapScan kheapInit.toHeap 0 kheapInit.total 0 0 (-1) = 0 := by
    have hfirst : ¬heapGetEntryType (kheapInit.entries (0 : ℕ)) ≠ heapBlockTableEntryFree :=
      not_not.mpr (kheapInit_isFree 0)
    show heapScan kheapInit.toHeap 0 (25599 + 1) 0 0 (-1) = 0
    rw [heapScan, if_neg hfirst]
    dsimp only
    rw [if_pos rfl, if_neg (Nat.succ_ne_zero 0)]
    exact heapScan_empty kheapInit_isFree 25599 1 1 le_rfl
  rw [heapGetStartBlock, hscan]
  rfl

theorem free_first {k : KernelHeap} (h : ∀ b, k.entries b = heapBlockTableEntryFree) {b : ℕ}
    (hb : b < kernelHeapBlocks) :
    ((k.after 1).free (frame 0)).entries b = heapBlockTableEntryFree := by
  have hzero : 0 < kernelHeapBlocks := by decide
  rw [free_frame_entries _ hzero]
  split_ifs with h0
  · rfl
  · have hfirst : k.IsFree 0 := by
      rw [Heap.IsFree, h]
      rfl
    have hout : ¬k.Among 1 b := by
      intro hamong
      have hlt := freeBelow_strictMono hfirst (Nat.pos_of_ne_zero h0)
      have hcount := hamong.2
      omega
    rw [after_entries k 1 hb, if_neg hout, h]

theorem first_among {k : KernelHeap} (h : ∀ b, k.entries b = heapBlockTableEntryFree) :
    ((k.after 1).free (frame 0)).FreeBlocks 1026 ∧ ((k.after 1).free (frame 0)).Among 1026 0 := by
  have hfree : ∀ b < kernelHeapBlocks, ((k.after 1).free (frame 0)).IsFree b := by
    intro b hb
    rw [Heap.IsFree, free_first h hb]
    rfl
  constructor
  · exact ⟨Finset.range kernelHeapBlocks, by rw [Finset.card_range]; decide, fun b hb =>
      ⟨Finset.mem_range.mp hb, hfree b (Finset.mem_range.mp hb)⟩⟩
  · refine ⟨hfree 0 (by decide), ?_⟩
    rw [freeBelow, Nat.count_zero]
    decide

theorem kheapInit_malloc_zero : (kheapInit.malloc 0).2.toHeap = kheapInit.toHeap := by
  have hneed : needed 0 = 0 := rfl
  obtain ⟨-, hheap⟩ := @heapMalloc_found kheapInit 0 0 (by decide) (by decide)
    (by rw [hneed]; exact heapGetStartBlock_empty)
  rw [hheap, hneed]
  rfl

theorem step_empty : ∃ k : KernelHeap, k.toHeap = kheapInit.toHeap ∧
    step ⟨kheapInit, []⟩ (.malloc 0) = some ⟨k, [⟨frame 0, ⟨0, 0⟩⟩]⟩ :=
  ⟨_, kheapInit_malloc_zero,
    @step_malloc_at ⟨kheapInit, []⟩ 0 0 0 (by decide) (by decide) rfl heapGetStartBlock_empty⟩

theorem step_page {k : KernelHeap} {live : List Allocation} (h : k.toHeap = kheapInit.toHeap) :
    step ⟨k, live⟩ (.malloc 4096) = some ⟨k.after 1, ⟨frame 0, ⟨0, 1⟩⟩ :: live⟩ := by
  have hstart : heapGetStartBlock k.toHeap 1 = (0 : ℕ) := by
    rw [h]
    exact heapGetStartBlock_page (by decide) (kheapInit_isFree 0) fun c hc =>
      absurd hc (Nat.not_lt_zero c)
  exact @step_malloc_at ⟨k, live⟩ 4096 1 0 (by decide) (by decide) rfl hstart

/-- A request of no bytes is answered with the address of a free block, and so is the next one.
The release of the first takes the block from the second, and a directory takes and frees it. -/
theorem empty_allocation_block_freed : ∃ s : LiveHeap,
    exec step ⟨kheapInit, []⟩ [.malloc 0, .malloc 4096, .free ⟨0x1000000, ⟨0, 0⟩⟩] = some s ∧
    s.live = [⟨0x1000000, ⟨0, 1⟩⟩] ∧ s.heap.FreeBlocks 1026 ∧
    ¬FreedCompletely s { freshMemory with heap := s.heap } 7 [] := by
  have hframe : 0x1000000 = frame 0 := rfl
  rw [hframe]
  obtain ⟨k, hk, hempty⟩ := step_empty
  obtain ⟨hfree, hamong⟩ := @first_among k fun b => by
    rw [hk]
    rfl
  have hpage := @step_page k [⟨frame 0, ⟨0, 0⟩⟩] hk
  generalize k.after 1 = k₁ at hfree hamong hpage
  have hlast : step ⟨k₁, [⟨frame 0, ⟨0, 1⟩⟩, ⟨frame 0, ⟨0, 0⟩⟩]⟩ (.free ⟨frame 0, ⟨0, 0⟩⟩) =
      some ⟨k₁.free (frame 0), [⟨frame 0, ⟨0, 1⟩⟩]⟩ := rfl
  have hrun : exec step ⟨kheapInit, []⟩ [.malloc 0, .malloc 4096, .free ⟨frame 0, ⟨0, 0⟩⟩] =
      some ⟨k₁.free (frame 0), [⟨frame 0, ⟨0, 1⟩⟩]⟩ :=
    exec_cons_some.mpr ⟨_, hempty, exec_cons_some.mpr
      ⟨_, hpage, exec_cons_some.mpr ⟨_, hlast, rfl⟩⟩⟩
  refine ⟨_, hrun, rfl, hfree, fun hfreed => ?_⟩
  have hnone := (freedCompletely_iff (clean_of_run hrun) hfree rfl 7 []).mp hfreed
  exact hnone _ (List.mem_singleton_self _) 0 (Region.mem_blocks_mk.mpr (by decide)) (by decide)
    hamong

end FreedCompletely
end LiveHeap

end Dexter
