import Dexter.Lib.Faults
import Dexter.Mem.Heap

/-!
# The kernel heap (`mem/kheap.c`)

The heap `kheap_init` sets up: 25600 blocks from `0x01000000` on, so addresses of
blocks are positive `int`s and no distance wraps. `short` is ghost state: it is
set by the first request that did not get a free run of the length it needs
(`heap_malloc` then returns null, or a run the table ends in).

`Owns A` says that the frames in `A` (block addresses) are recorded as taken.
Requests keep it and never return a frame of `A`; a release keeps it unless it is
passed a frame of `A`.
-/

namespace Dexter
open Lib.BlockPool Lib.Programs Lib.Faults

@[simp] abbrev kernelHeapBlocks : ℕ := 25600

structure KernelHeap extends Heap where
  saddr_eq : saddr = 16777216
  total_eq : total = kernelHeapBlocks
  short : Bool

namespace KernelHeap

def needed (size : ℕ) : ℕ := (size + 4095) / 4096

def fits (k : KernelHeap) (size : ℕ) : Bool :=
  let start := heapGetStartBlock k.toHeap (needed size)
  decide (needed size = 0 ∨ 0 ≤ start ∧ start + needed size ≤ k.total)

def malloc (k : KernelHeap) (size : ℕ) : ℕ × KernelHeap :=
  let r := heapMalloc k.toHeap size
  (r.1,
    { r.2 with
      saddr_eq := (heapMallocBlocks_table _ _).1.trans k.saddr_eq
      total_eq := (heapMallocBlocks_table _ _).2.trans k.total_eq
      short := k.short || !k.fits size })

def free (k : KernelHeap) (ptr : ℕ) : KernelHeap :=
  { heapFree k.toHeap ptr with
    saddr_eq := (heapFree_saddr _ _).trans k.saddr_eq
    total_eq := (heapFree_total _ _).trans k.total_eq
    short := k.short }

end KernelHeap

def kheapInit : KernelHeap where
  entries := fun _ => heapBlockTableEntryFree
  total := kernelHeapBlocks
  saddr := dexterHeapAddress
  saddr_lt := by decide
  saddr_aligned := by decide
  total_lt := by decide
  saddr_eq := rfl
  total_eq := rfl
  short := false

instance : Requests KernelHeap where
  ask size k := k.malloc size
  release ptr k := k.free ptr

theorem KernelHeap.ask_eq (k : KernelHeap) (size : ℕ) : Requests.ask size k = k.malloc size := rfl

/-- `kmalloc` and `kzalloc`; the zeroed memory belongs to the object that is built in it. -/
def kzalloc {σ : Type} [Requests σ] (size : ℕ) : Prog Crash σ ℕ := step (Requests.ask size)

def kfree {σ : Type} [Requests σ] (ptr : ℕ) : Prog Crash σ Unit := modify (Requests.release ptr)

namespace KernelHeap

def frames (p n : ℕ) : Set ℕ := {q | ∃ i < n, q = p + 4096 * i}

def frame (b : ℕ) : ℕ := 16777216 + 4096 * b

def Owns (k : KernelHeap) (A : Set ℕ) : Prop :=
  ∀ p ∈ A, ∃ b < kernelHeapBlocks, p = frame b ∧ ¬k.IsFree b

theorem Owns.mono {k : KernelHeap} {A B : Set ℕ} (h : k.Owns A) (hB : B ⊆ A) : k.Owns B :=
  fun p hp => h p (hB hp)

theorem Owns.union {k : KernelHeap} {A B : Set ℕ} (hA : k.Owns A) (hB : k.Owns B) :
    k.Owns (A ∪ B) := fun p hp => hp.elim (hA p) (hB p)

theorem Owns.empty (k : KernelHeap) : k.Owns ∅ := fun p hp => absurd hp (Set.notMem_empty p)

theorem Owns.pos {k : KernelHeap} {A : Set ℕ} (h : k.Owns A) {p : ℕ} (hp : p ∈ A) :
    16777216 ≤ p ∧ p < 121634816 ∧ p % 4096 = 0 := by
  obtain ⟨b, hb, rfl, -⟩ := h p hp
  simp only [frame, kernelHeapBlocks] at hb ⊢
  omega

theorem frame_eq (k : KernelHeap) {b : ℕ} (hb : b < kernelHeapBlocks) :
    heapBlockToAddress k.toHeap b = frame b := by
  simp only [heapBlockToAddress, k.saddr_eq, u32, i32, frame, dexterHeapBlockSize,
    kernelHeapBlocks] at hb ⊢
  omega

theorem kzalloc_malloc {k k' : KernelHeap} {p size : ℕ} (h : kzalloc size k = .ok (p, k')) :
    k.malloc size = (p, k') := Except.ok.inj h

inductive Malloc (k : KernelHeap) (size : ℕ) : ℕ → KernelHeap → Prop
  | fails (k' : KernelHeap) (same : k'.entries = k.entries)
      (short : needed size ≠ 0 → k'.short = true) : Malloc k size 0 k'
  | takes (b n : ℕ) (k' : KernelHeap) (starts : b < kernelHeapBlocks) (free : k.IsFree b)
      (blocks : n = heapAlignValueToUpper size / dexterHeapBlockSize)
      (run : ∀ i ∈ Region.blocks ⟨b, n⟩, i < kernelHeapBlocks → k.IsFree i)
      (marked : ∀ i, k'.IsFree i ↔ k.IsFree i ∧ i ∉ Region.blocks ⟨b, n⟩)
      (whole : k'.short = false → needed size ≠ 0 →
        n = needed size ∧ b + n ≤ kernelHeapBlocks) : Malloc k size (frame b) k'

theorem malloc_short (k : KernelHeap) (size : ℕ) :
    (k.malloc size).2.short = (k.short || !k.fits size) := rfl

theorem fits_blocks {k : KernelHeap} {size : ℕ} (h : k.fits size = true)
    (h0 : needed size ≠ 0) :
    heapAlignValueToUpper size / dexterHeapBlockSize = needed size ∧
    0 ≤ heapGetStartBlock k.toHeap (needed size) ∧
    heapGetStartBlock k.toHeap (needed size) + needed size ≤ kernelHeapBlocks := by
  have hfit := of_decide_eq_true h
  rw [k.total_eq] at hfit
  obtain ⟨hpos, hin⟩ := hfit.resolve_left h0
  have hlen : needed size ≤ 25600 := by
    simp only [kernelHeapBlocks] at hin
    omega
  refine ⟨heapAlignValueToUpper_blocks ?_, hpos, hin⟩
  unfold needed at hlen
  omega

theorem malloc_spec (k : KernelHeap) {size : ℕ} (hsize : size < 4294967296) :
    Malloc k size (k.malloc size).1 (k.malloc size).2 := by
  have hn := heapAlignValueToUpper_lt hsize
  have hfits : (k.malloc size).2.short = false → k.fits size = true := by
    rw [malloc_short]
    cases k.fits size <;> simp
  have hresult : heapMallocBlocks k.toHeap (heapAlignValueToUpper size / dexterHeapBlockSize) =
      ((k.malloc size).1, (k.malloc size).2.toHeap) := rfl
  generalize hblocks : heapAlignValueToUpper size / dexterHeapBlockSize = n at hn hresult
  have hspec := heapMallocBlocks_spec k.toHeap (n := n) (by omega)
  generalize heapMallocBlocks k.toHeap n = r at hspec hresult
  generalize (k.malloc size).1 = p at hresult
  generalize (k.malloc size).2 = k' at hresult hfits
  cases hspec with
  | fails none =>
    obtain ⟨rfl, hheap⟩ := Prod.mk.inj hresult
    refine .fails k' (by rw [← hheap]) fun h0 => ?_
    by_contra hshort
    have hfit := fits_blocks (hfits (Bool.eq_false_of_not_eq_true hshort)) h0
    rw [← hfit.1, hblocks, none] at hfit
    exact absurd hfit.2.1 (by decide)
  | takes b found starts free run =>
    obtain ⟨rfl, hheap⟩ := Prod.mk.inj hresult
    have hb : b < kernelHeapBlocks := starts.trans_eq k.total_eq
    rw [frame_eq k hb]
    refine .takes b n k' hb free hblocks.symm ?_ ?_ ?_
    · intro i hi hin
      exact run i hi (hin.trans_eq k.total_eq.symm)
    · intro i
      rw [← hheap]
      exact isFree_markTaken k.toHeap b n i
    · intro hshort h0
      obtain ⟨hneed, -, hin⟩ := fits_blocks (hfits hshort) h0
      rw [← hneed, hblocks, found] at hin
      exact ⟨hblocks.symm.trans hneed, by exact_mod_cast hin⟩

inductive Answer (k : KernelHeap) (n : ℕ) : ℕ → KernelHeap → Prop
  | fits (s : ℕ) (k' : KernelHeap) (inside : s + n ≤ kernelHeapBlocks) (run : IsRun k.IsFree s n)
      (first : ∀ s' < s, ¬IsRun k.IsFree s' n)
      (marked : ∀ b, k'.IsFree b ↔ k.IsFree b ∧ b ∉ Region.blocks ⟨s, n⟩) : Answer k n (frame s) k'
  | ragged (s : ℕ) (k' : KernelHeap) (starts : s < kernelHeapBlocks)
      (beyond : kernelHeapBlocks < s + n) (last : k.IsFree 25599)
      (noRun : ∀ s', s' + n ≤ kernelHeapBlocks → ¬IsRun k.IsFree s' n) : Answer k n (frame s) k'
  | full (k' : KernelHeap) (same : k'.entries = k.entries) (last : ¬k.IsFree 25599)
      (noRun : ∀ s', s' + n ≤ kernelHeapBlocks → ¬IsRun k.IsFree s' n) : Answer k n 0 k'

theorem needed_pos {size : ℕ} (h0 : 1 ≤ size) : 1 ≤ needed size := by
  unfold needed
  omega

theorem heapMalloc_found {k : KernelHeap} {size s : ℕ} (hsize : size ≤ 4294963200)
    (hs : s < kernelHeapBlocks) (hstart : heapGetStartBlock k.toHeap (needed size) = s) :
    (k.malloc size).1 = frame s ∧
      (k.malloc size).2.toHeap = heapMarkBlocksTaken k.toHeap s (needed size) := by
  have hmalloc : heapMalloc k.toHeap size =
      (frame s, heapMarkBlocksTaken k.toHeap s (needed size)) := by
    rw [heapMalloc, heapAlignValueToUpper_blocks hsize, ← frame_eq k hs]
    exact heapMallocBlocks_of_start hstart (by omega)
  exact ⟨congrArg Prod.fst hmalloc, congrArg Prod.snd hmalloc⟩

theorem malloc_answer (k : KernelHeap) {size : ℕ} (h0 : 1 ≤ size) (hsize : size ≤ 4294963200) :
    Answer k (needed size) (k.malloc size).1 (k.malloc size).2 := by
  have hneed := needed_pos h0
  have htotal := k.total_eq
  have hspec := heapGetStartBlock_spec k.toHeap (needed size)
  generalize hstart : heapGetStartBlock k.toHeap (needed size) = start at hspec
  cases hspec with
  | fits s pos inside run first =>
    have hs : s < kernelHeapBlocks := by omega
    obtain ⟨hp, hheap⟩ := heapMalloc_found hsize hs hstart
    rw [hp]
    refine .fits s _ (inside.trans_eq htotal) run first fun b => ?_
    rw [hheap]
    exact isFree_markTaken k.toHeap s (needed size) b
  | ragged s starts run short noRun =>
    obtain ⟨hp, -⟩ := heapMalloc_found hsize (starts.trans_eq htotal) hstart
    rw [htotal] at starts short
    have hend : 25599 < s + (k.total - s) := by
      rw [htotal, kernelHeapBlocks] at *
      omega
    have hbeyond := short.resolve_left (by omega)
    rw [hp]
    refine .ragged s _ starts hbeyond (run 25599 (Nat.le_of_lt_succ starts) hend) fun s' hs' => ?_
    exact noRun hneed s' (hs'.trans_eq htotal.symm)
  | full noRun last =>
    have hmalloc : heapMalloc k.toHeap size = (0, k.toHeap) := by
      rw [heapMalloc, heapAlignValueToUpper_blocks hsize]
      exact heapMallocBlocks_of_none hstart
    have hp : (k.malloc size).1 = 0 := congrArg Prod.fst hmalloc
    have hsame : (k.malloc size).2.entries = k.entries :=
      congrArg (fun r => r.2.entries) hmalloc
    rw [hp]
    exact .full _ hsame (last 25599 htotal.symm) fun s' hs' => noRun hneed s' (hs'.trans_eq htotal.symm)

theorem frame_ne_zero (b : ℕ) : frame b ≠ 0 := by
  unfold frame
  omega

theorem frame_aligned (b : ℕ) : frame b % 4096 = 0 := by
  unfold frame
  omega

theorem frame_lt {b : ℕ} (hb : b < kernelHeapBlocks) : frame b < 4294967296 := by
  rw [kernelHeapBlocks] at hb
  unfold frame
  omega

theorem frame_injective {b c : ℕ} (h : frame b = frame c) : b = c := by
  unfold frame at h
  omega

section Ownership
variable {k k' : KernelHeap} {size p : ℕ} {A : Set ℕ}

theorem Malloc.owns (h : Malloc k size p k') (hA : k.Owns A) : k'.Owns A := by
  intro q hq
  obtain ⟨c, hc, hqc, htaken⟩ := hA q hq
  refine ⟨c, hc, hqc, ?_⟩
  cases h with
  | fails k' same short => simpa only [Heap.IsFree, same] using htaken
  | takes b n k' starts free blocks run marked whole =>
    rw [marked]
    exact fun hf => htaken hf.1

theorem Malloc.fresh (h : Malloc k size p k') (hA : k.Owns A) : p ∉ A := by
  intro hp
  obtain ⟨c, hc, hpc, htaken⟩ := hA p hp
  cases h with
  | fails k' same short =>
    unfold frame at hpc
    omega
  | takes b n k' starts free blocks run marked whole =>
    obtain rfl := frame_injective hpc
    exact htaken free

theorem Malloc.owns_first (h : Malloc k size p k') (hp : p ≠ 0) (h0 : 1 ≤ size)
    (hsize : size ≤ 4294963200) : k'.Owns {p} := by
  intro q hq
  rw [Set.mem_singleton_iff] at hq
  subst q
  cases h with
  | fails k' same short => exact absurd rfl hp
  | takes b n k' starts free blocks run marked whole =>
    refine ⟨b, starts, rfl, ?_⟩
    rw [heapAlignValueToUpper_blocks hsize] at blocks
    rw [marked, Region.mem_blocks_mk]
    exact fun hf => hf.2 ⟨le_rfl, by omega⟩

/-- A request that was not short owns all the frames it needs, and they were nobody's. -/
theorem Malloc.owns_frames (h : Malloc k size p k') (hshort : k'.short = false)
    (hA : k.Owns A) :
    k'.Owns (frames p (needed size)) ∧ Disjoint A (frames p (needed size)) := by
  by_cases h0 : needed size = 0
  · have hempty : frames p (needed size) = ∅ := by
      rw [h0]
      exact Set.eq_empty_of_forall_notMem fun q ⟨i, hi, _⟩ => absurd hi (Nat.not_lt_zero i)
    rw [hempty]
    exact ⟨Owns.empty k', Set.disjoint_empty A⟩
  · cases h with
    | fails k' same short => exact absurd (short h0) (by simp [hshort])
    | takes b n k' starts free blocks run marked whole =>
      obtain ⟨hn, hin⟩ := whole hshort h0
      have hmem : ∀ i < needed size, b + i ∈ Region.blocks ⟨b, n⟩ := fun i hi =>
        Region.mem_blocks_mk.mpr ⟨by omega, by omega⟩
      have hframe : ∀ i, frame b + 4096 * i = frame (b + i) := fun i => by
        unfold frame
        omega
      constructor
      · intro q hq
        obtain ⟨i, hi, rfl⟩ := hq
        refine ⟨b + i, by omega, hframe i, ?_⟩
        rw [marked]
        exact fun hf => hf.2 (hmem i hi)
      · rw [Set.disjoint_left]
        intro q hqA hq
        obtain ⟨i, hi, rfl⟩ := hq
        obtain ⟨c, hc, hqc, htaken⟩ := hA _ hqA
        rw [hframe] at hqc
        obtain rfl := frame_injective hqc
        exact htaken (run _ (hmem i hi) hc)

theorem malloc_short_mono (h : k.malloc size = (p, k')) (hshort : k'.short = false) :
    k.short = false := by
  have hk := congrArg (fun r => r.2.short) h
  simp only [malloc_short, hshort, Bool.or_eq_false_iff] at hk
  exact hk.1

theorem heapAddressToBlock_frame (k : KernelHeap) {b : ℕ} (hb : b < kernelHeapBlocks) :
    heapAddressToBlock k.toHeap (frame b) = b := by
  rw [kernelHeapBlocks] at hb
  rw [← frame_eq k hb, heapAddressToBlock_heapBlockToAddress k.toHeap (by omega),
    if_pos (by omega)]

theorem free_owns (hA : k.Owns A) (hal : p % 4096 = 0) (hlt : p < 4294967296) (hp : p ∉ A) :
    (k.free p).Owns A := by
  intro q hq
  obtain ⟨c, hc, hqc, htaken⟩ := hA q hq
  refine ⟨c, hc, hqc, ?_⟩
  have hne : heapAddressToBlock k.toHeap p ≠ c := by
    intro heq
    -- `p` and `q` are page addresses at the same distance from the start
    obtain ⟨y, hy⟩ : ∃ y, i32 ((p : ℤ) - k.saddr) = y * 4096 := by
      refine ⟨i32 ((p : ℤ) - k.saddr) / 4096, ?_⟩
      rw [k.saddr_eq]
      unfold i32
      omega
    rw [heapAddressToBlock, hy, dexterHeapBlockSize, Nat.cast_ofNat,
      Int.mul_tdiv_cancel _ (by decide)] at heq
    have hpq : p = q := by
      rw [k.saddr_eq] at hy
      rw [kernelHeapBlocks] at hc
      unfold i32 at hy
      unfold frame at hqc
      omega
    exact hp (hpq ▸ hq)
  show ¬(heapFree k.toHeap p).IsFree c
  rw [heapFree, heapMarkBlocksFree_eq, Heap.IsFree]
  split_ifs
  · rw [Heap.setEntry_entries, if_neg hne.symm]
    exact htaken
  · exact htaken

theorem free_not_owns (k : KernelHeap) (p : ℕ) : ¬(k.free p).Owns {p} := by
  intro h
  obtain ⟨b, hb, hpb, htaken⟩ := h p rfl
  refine htaken ?_
  have hin : (b : ℤ) < k.total := by
    rw [k.total_eq]
    exact_mod_cast hb
  show (heapFree k.toHeap p).IsFree b
  rw [hpb, heapFree, heapAddressToBlock_frame k hb, heapMarkBlocksFree_eq, if_pos hin, Heap.IsFree,
    Heap.setEntry_entries, if_pos rfl]
  rfl

theorem Owns.frames_le {n : ℕ} (h : k.Owns (frames p n)) : n ≤ kernelHeapBlocks := by
  cases n with
  | zero => exact Nat.zero_le _
  | succ n =>
    have hfirst := h.pos ⟨0, Nat.succ_pos n, rfl⟩
    have hlast := h.pos ⟨n, Nat.lt_succ_self n, rfl⟩
    rw [kernelHeapBlocks]
    omega

theorem malloc_zero_not_owns (h : k.malloc 0 = (p, k')) : ¬k'.Owns {p} := by
  intro howns
  have hmalloc := malloc_spec k (by decide : 0 < 4294967296)
  rw [h] at hmalloc
  dsimp only at hmalloc
  obtain ⟨c, hc, hpc, htaken⟩ := howns p rfl
  cases hmalloc with
  | fails k' same short =>
    unfold frame at hpc
    omega
  | takes b n k' starts free blocks run marked whole =>
    obtain rfl := frame_injective hpc
    have hn : n = 0 := blocks.trans (by decide)
    refine htaken ((marked b).mpr ⟨free, ?_⟩)
    rw [hn, Region.mem_blocks_mk]
    omega

theorem Answer.page (h : Answer k 1 p k') :
    (p = 0 ∧ k'.entries = k.entries ∧ ∀ b < kernelHeapBlocks, ¬k.IsFree b) ∨
      ∃ b < kernelHeapBlocks, p = frame b ∧ k.IsFree b ∧ (∀ c < b, ¬k.IsFree c) ∧
        ∀ c, k'.IsFree c ↔ k.IsFree c ∧ c ≠ b := by
  have hone : ∀ b, k.IsFree b → IsRun k.IsFree b 1 := fun b hb c hc hc' => by
    obtain rfl : c = b := by omega
    exact hb
  cases h with
  | fits s k' inside run first marked =>
    refine Or.inr ⟨s, inside, rfl, run s le_rfl (Nat.lt_succ_self s), ?_, fun c => ?_⟩
    · exact fun c hc hfree => first c hc (hone c hfree)
    · rw [marked, Region.mem_blocks_mk]
      exact and_congr_right fun _ => by omega
  | ragged s k' starts beyond last noRun => omega
  | full k' same last noRun =>
    exact Or.inl ⟨rfl, same, fun b hb hfree => noRun b hb (hone b hfree)⟩

theorem Answer.fits_of_owns {n : ℕ} (h : Answer k n p k') (hn : 1 ≤ n)
    (howns : k'.Owns (frames p n)) : ∃ s, s + n ≤ kernelHeapBlocks ∧ IsRun k.IsFree s n := by
  cases h with
  | fits s k' inside run first marked => exact ⟨s, inside, run⟩
  | ragged s k' starts beyond last noRun =>
    have hpos := howns.pos ⟨n - 1, Nat.sub_lt hn Nat.one_pos, rfl⟩
    simp only [frame, kernelHeapBlocks] at hpos beyond
    omega
  | full k' same last noRun =>
    have hpos := howns.pos ⟨0, hn, rfl⟩
    omega

theorem Answer.owns_of_fits {n s : ℕ} (h : Answer k n p k')
    (hin : s + n ≤ kernelHeapBlocks) (hrun : IsRun k.IsFree s n) :
    p ≠ 0 ∧ k'.Owns (frames p n) := by
  cases h with
  | fits s k' inside run first marked =>
    refine ⟨frame_ne_zero _, fun q hq => ?_⟩
    obtain ⟨i, hi, rfl⟩ := hq
    refine ⟨s + i, by omega, by unfold frame; omega, ?_⟩
    rw [marked, Region.mem_blocks_mk]
    omega
  | ragged s' k' starts beyond last noRun => exact absurd hrun (noRun s hin)
  | full k' same last noRun => exact absurd hrun (noRun s hin)

/-- The frames of `A` are owned; `c` holds where no request has been short. -/
structure Kept (A : Set ℕ) (c : Prop) (k : KernelHeap) : Prop where
  owns : k.Owns A
  short : k.short = false → c

theorem Kept.mono {B : Set ℕ} {c : Prop} (h : Kept A c k) (hB : B ⊆ A) : Kept B c k :=
  ⟨h.owns.mono hB, h.short⟩

structure Handed (A : Set ℕ) (c : Prop) (size p : ℕ) (k : KernelHeap) : Prop where
  kept : Kept A c k
  fresh : p ∉ A
  aligned : p % 4096 = 0
  lt : p < 4294967296
  first : p ≠ 0 → 1 ≤ size → size ≤ 4294963200 → Kept (A ∪ {p}) c k

theorem kzalloc_kept {c : Prop} (hsize : size < 4294967296) :
    Triple (Kept A c) (kzalloc size) (Handed A c size) := by
  apply Triple.step
  intro k hk
  have h := k.malloc_spec hsize
  have hshort : (k.malloc size).2.short = false → c := fun hs => hk.short (malloc_short_mono rfl hs)
  show Handed A c size (k.malloc size).1 (k.malloc size).2
  generalize k.malloc size = r at h hshort
  obtain ⟨p, k'⟩ := r
  dsimp only at h hshort ⊢
  have hrange : p % 4096 = 0 ∧ p < 4294967296 := by
    cases h with
    | fails k' same short => exact ⟨rfl, by decide⟩
    | takes b n k' starts free blocks run marked whole =>
      rw [kernelHeapBlocks] at starts
      unfold frame
      omega
  exact ⟨⟨h.owns hk.owns, hshort⟩, h.fresh hk.owns, hrange.1, hrange.2, fun hp h0 hle =>
    ⟨(h.owns hk.owns).union (h.owns_first hp h0 hle), hshort⟩⟩

theorem kfree_kept {c : Prop} (hal : p % 4096 = 0) (hlt : p < 4294967296) (hp : p ∉ A) :
    Triple (Kept A c) (kfree p) fun _ => Kept A c :=
  Triple.modify fun _ hk => ⟨free_owns hk.owns hal hlt hp, hk.short⟩

/-- Page addresses and null pointers that are nobody's in `A`. -/
def Loose (A P : Set ℕ) : Prop := ∀ p ∈ P, p ∉ A ∧ p % 4096 = 0 ∧ p < 4294967296

/-- Beside the frames of `A`, an object has been built that the pointers `P` lead to. -/
structure Built (A : Set ℕ) (c : Prop) (P : Set ℕ) (k : KernelHeap) : Prop where
  loose : Loose A P
  all : Kept (A ∪ P \ {0}) c k

theorem Built.kept {P : Set ℕ} {c : Prop} (h : Built A c P k) : Kept A c k :=
  h.all.mono Set.subset_union_left

theorem Built.join {P P' : Set ℕ} {c : Prop} (hP : Loose A P)
    (h : Built (A ∪ P \ {0}) c P' k) : Built A c (P ∪ P') k := by
  constructor
  · intro p hp
    rcases hp with hp | hp
    · exact hP p hp
    · exact ⟨fun hA => (h.loose p hp).1 (Or.inl hA), (h.loose p hp).2⟩
  · rw [Set.union_sdiff_distrib, ← Set.union_assoc]
    exact h.all

theorem Built.loose_of {P P' : Set ℕ} {c : Prop} (hP : Loose A P)
    (h : Built (A ∪ P \ {0}) c P' k) : Loose (A ∪ P' \ {0}) P := by
  intro p hp
  refine ⟨fun hm => ?_, (hP p hp).2⟩
  rcases hm with hA | ⟨hp', h0⟩
  · exact (hP p hp).1 hA
  · exact (h.loose p hp').1 (Or.inr ⟨hp, h0⟩)

theorem kzalloc_built {c : Prop} (h0 : 1 ≤ size) (hsize : size ≤ 4294963200) :
    Triple (Kept A c) (kzalloc size) fun p => Built A c {p} := by
  refine (kzalloc_kept (by omega)).conseq (fun _ h => h) fun p k h => ⟨?_, ?_⟩
  · intro q hq
    obtain rfl := Set.mem_singleton_iff.mp hq
    exact ⟨h.fresh, h.aligned, h.lt⟩
  · by_cases hp : p = 0
    · have hempty : A ∪ {p} \ {0} ⊆ A := by
        intro q hq
        exact hq.resolve_right fun hq' => hq'.2 (hq'.1.trans hp)
      exact h.kept.mono hempty
    · exact (h.first hp h0 hsize).mono (Set.union_subset_union_right A Set.sdiff_subset)

theorem kzalloc_loose {α : Type} {c : Prop} {f : ℕ → Prog Crash KernelHeap α}
    {Q : α → KernelHeap → Prop} (hsize : size < 4294967296)
    (h : ∀ p, Loose A {p} → Triple (Kept A c) (f p) Q) :
    Triple (Kept A c) (kzalloc size >>= f) Q := by
  refine Triple.bind (kzalloc_kept hsize) fun p => ?_
  intro k a k' hk hrun
  have hp : Loose A {p} := by
    intro q hq
    obtain rfl := Set.mem_singleton_iff.mp hq
    exact ⟨hk.fresh, hk.aligned, hk.lt⟩
  exact h p hp hk.kept hrun

theorem kzalloc_object {α : Type} {c : Prop} {f : ℕ → Prog Crash KernelHeap α}
    {Q : α → KernelHeap → Prop} (h0 : 1 ≤ size) (hsize : size ≤ 4294963200)
    (h : ∀ p, Loose A {p} → Triple (Kept (A ∪ {p} \ {0}) c) (f p) Q) :
    Triple (Kept A c) (kzalloc size >>= f) Q := by
  refine Triple.bind (kzalloc_built h0 hsize) fun p => ?_
  intro k a k' hk hrun
  exact h p hk.loose hk.all hrun

theorem Loose.kfree {c : Prop} {P : Set ℕ} (hP : Loose A P) (hp : p ∈ P) :
    Triple (Kept A c) (kfree p) fun _ => Kept A c :=
  kfree_kept (hP p hp).2.1 (hP p hp).2.2 (hP p hp).1

def SameTable (k k' : KernelHeap) : Prop :=
  ∀ b : ℕ, b < kernelHeapBlocks → k'.entries b = k.entries b

theorem SameTable.refl (k : KernelHeap) : SameTable k k := fun _ _ => rfl

theorem Malloc.isFree (h : Malloc k size p k') {b : ℕ} (hb : k'.IsFree b) : k.IsFree b := by
  cases h with
  | fails k' same short => simpa only [Heap.IsFree, same] using hb
  | takes c n k' starts free blocks run marked whole => exact ((marked b).mp hb).1

/-- A frame that was handed out and is still taken shows in the table, also beside one that had
no fewer free blocks. -/
theorem Malloc.not_sameTable_since {k₀ k'' : KernelHeap} (h : Malloc k size p k')
    (hsince : ∀ b, k.IsFree b → k₀.IsFree b) (hp : p ≠ 0) (hown : k''.Owns {p}) :
    ¬SameTable k₀ k'' := by
  intro hsame
  obtain ⟨c, hc, hpc, htaken⟩ := hown p rfl
  cases h with
  | fails k' same short => exact hp rfl
  | takes b n k' starts free blocks run marked whole =>
    obtain rfl := frame_injective hpc
    have hfree : k''.IsFree b := by
      rw [Heap.IsFree, hsame b starts]
      exact hsince b free
    exact htaken hfree

theorem Malloc.not_sameTable {k'' : KernelHeap} (h : Malloc k size p k') (hp : p ≠ 0)
    (hown : k''.Owns {p}) : ¬SameTable k k'' :=
  h.not_sameTable_since (fun _ hb => hb) hp hown

end Ownership

def FreeBlocks (n : ℕ) (k : KernelHeap) : Prop :=
  ∃ blocks : Finset ℕ, n ≤ blocks.card ∧ ∀ b ∈ blocks, b < kernelHeapBlocks ∧ k.IsFree b

theorem free_isFree {k : KernelHeap} {b : ℕ} (ptr : ℕ) (hb : k.IsFree b) : (k.free ptr).IsFree b := by
  show (heapFree k.toHeap ptr).IsFree b
  rw [heapFree, heapMarkBlocksFree_eq, Heap.IsFree]
  split_ifs
  · rw [Heap.setEntry_entries]
    split_ifs
    · rfl
    · exact hb
  · exact hb

theorem kzalloc_freeBlocks {n size : ℕ} (h0 : 1 ≤ size) (hsize : size ≤ 4096) :
    Returns (FreeBlocks (n + 1)) (kzalloc size) fun p k => p ≠ 0 ∧ FreeBlocks n k := by
  intro k ⟨blocks, hcard, hfree⟩
  obtain ⟨c, hc⟩ := Finset.card_pos.mp (by omega : 0 < blocks.card)
  have hneed : needed size = 1 := by
    unfold needed
    omega
  have hanswer := malloc_answer k h0 (by omega : size ≤ 4294963200)
  rw [hneed] at hanswer
  obtain ⟨b, -, hp, -, -, hrest⟩ := hanswer.page.resolve_left fun hfull =>
    hfull.2.2 c (hfree c hc).1 (hfree c hc).2
  have hne0 : (k.malloc size).1 ≠ 0 := by
    rw [hp, frame]
    omega
  refine ⟨_, _, step_apply _ k, hne0, blocks.erase b, ?_, fun d hd => ?_⟩
  · have := Finset.pred_card_le_card_erase (s := blocks) (a := b)
    omega
  · obtain ⟨hne, hd⟩ := Finset.mem_erase.mp hd
    exact ⟨(hfree d hd).1, (hrest d).mpr ⟨(hfree d hd).2, hne⟩⟩

theorem kfree_freeBlocks {n : ℕ} (ptr : ℕ) :
    Returns (FreeBlocks n) (kfree ptr) fun _ => FreeBlocks n := by
  intro k hk
  obtain ⟨blocks, hcard, hfree⟩ := hk
  exact ⟨(), k.free ptr, modify_apply _ k, blocks, hcard, fun b hb =>
    ⟨(hfree b hb).1, free_isFree ptr (hfree b hb).2⟩⟩

def Unused (k : KernelHeap) (m : ℕ) : Prop := ∀ b, m ≤ b → b < kernelHeapBlocks → k.IsFree b

theorem kheapInit_unused : kheapInit.Unused 0 := by
  intro b _ _
  show heapGetEntryType heapBlockTableEntryFree = heapBlockTableEntryFree
  decide

theorem kheapInit_freeBlocks {n : ℕ} (hn : n ≤ 25600) : kheapInit.FreeBlocks n := by
  refine ⟨Finset.range kernelHeapBlocks, by rwa [Finset.card_range], fun b hb => ?_⟩
  have hlt := Finset.mem_range.mp hb
  exact ⟨hlt, kheapInit_unused b (Nat.zero_le b) hlt⟩

theorem fits_of_run {k : KernelHeap} {m size : ℕ} (h0 : 1 ≤ size)
    (hin : m + needed size ≤ kernelHeapBlocks) (hrun : IsRun k.IsFree m (needed size)) :
    k.fits size = true := by
  have hneed := needed_pos h0
  have hmt : m + needed size ≤ k.total := hin.trans_eq k.total_eq.symm
  refine decide_eq_true (Or.inr ?_)
  have hspec := heapGetStartBlock_spec k.toHeap (needed size)
  generalize heapGetStartBlock k.toHeap (needed size) = r at hspec
  cases hspec with
  | fits s pos inside run first => omega
  | ragged s starts run short noRun => exact absurd hrun (noRun hneed m hmt)
  | full noRun last => exact absurd hrun (noRun hneed m hmt)

theorem malloc_of_unused {k : KernelHeap} {m size : ℕ} (hm : k.Unused m) (h0 : 1 ≤ size)
    (hroom : m + needed size ≤ kernelHeapBlocks) :
    (k.malloc size).1 ≠ 0 ∧ (k.malloc size).2.Unused (m + needed size) ∧
      (k.malloc size).2.short = k.short := by
  have hsize : size ≤ 4294963200 := by
    unfold needed kernelHeapBlocks at hroom
    omega
  have hrun : IsRun k.IsFree m (needed size) := fun b hb hb' => hm b hb (by omega)
  have hshort : (k.malloc size).2.short = k.short := by
    rw [malloc_short, fits_of_run h0 hroom hrun, Bool.not_true, Bool.or_false]
  have hanswer := malloc_answer k h0 hsize
  generalize (k.malloc size).1 = p at hanswer
  generalize (k.malloc size).2 = k' at hanswer hshort
  cases hanswer with
  | fits s k' inside run first marked =>
    -- the run that is found starts no later than `m`
    have hle : s ≤ m := by
      by_contra hlt
      exact first m (by omega) hrun
    refine ⟨frame_ne_zero _, fun b hb hb' => ?_, hshort⟩
    rw [marked, Region.mem_blocks_mk]
    exact ⟨hm b (by omega) hb', by omega⟩
  | ragged s k' starts beyond last noRun => exact absurd hrun (noRun m hroom)
  | full k' same last noRun => exact absurd hrun (noRun m hroom)

theorem malloc_of_last {k : KernelHeap} (hlast : k.IsFree 25599) (size : ℕ) :
    (k.malloc size).1 ≠ 0 := by
  have htotal := k.total_eq
  show (heapMallocBlocks k.toHeap (heapAlignValueToUpper size / dexterHeapBlockSize)).1 ≠ 0
  generalize heapAlignValueToUpper size / dexterHeapBlockSize = n
  have hstart : ∀ s : ℕ, s < k.total → heapGetStartBlock k.toHeap n = s →
      (heapMallocBlocks k.toHeap n).1 ≠ 0 := by
    intro s hs hfound
    have hneg : ¬(s : ℤ) < 0 := by omega
    rw [heapMallocBlocks, hfound, if_neg hneg]
    dsimp only
    rw [frame_eq k (hs.trans_eq htotal)]
    exact frame_ne_zero s
  have hspec := heapGetStartBlock_spec k.toHeap n
  generalize hr : heapGetStartBlock k.toHeap n = r at hspec hstart
  cases hspec with
  | fits s pos inside run first => exact hstart s (by omega) rfl
  | ragged s starts run short noRun => exact hstart s starts rfl
  | full noRun last => exact absurd hlast (last 25599 htotal.symm)

structure Room (m : ℕ) (k : KernelHeap) : Prop where
  unused : k.Unused m
  long : k.short = false

theorem kzalloc_room {m size : ℕ} (h0 : 1 ≤ size) (hroom : m + needed size ≤ 25600) :
    Returns (Room m) (kzalloc size) fun p k => p ≠ 0 ∧ Room (m + needed size) k := by
  intro k hk
  obtain ⟨hp, hrest, hshort⟩ := malloc_of_unused hk.unused h0 hroom
  exact ⟨_, _, step_apply _ k, hp, hrest, hshort.trans hk.long⟩

theorem kzalloc_page {m size : ℕ} (h0 : 1 ≤ size) (hsize : size ≤ 4096) (hm : m + 1 ≤ 25600) :
    Returns (Room m) (kzalloc size) fun p k => p ≠ 0 ∧ Room (m + 1) k := by
  have hneed : needed size = 1 := by
    unfold needed
    omega
  have h := kzalloc_room (m := m) h0 (by omega)
  rwa [hneed] at h

theorem Room.malloc {m size : ℕ} {k : KernelHeap} (h : Room m k) (h0 : 1 ≤ size)
    (hsize : size ≤ 4096) (hm : m + 1 ≤ 25600) :
    (k.malloc size).1 ≠ 0 ∧ Room (m + 1) (k.malloc size).2 := by
  obtain ⟨p, k', hrun, hp⟩ := kzalloc_page h0 hsize hm h
  obtain ⟨rfl, rfl⟩ := Prod.mk.inj (kzalloc_malloc hrun).symm
  exact hp

theorem Room.free {m : ℕ} {k : KernelHeap} (h : Room m k) (p : ℕ) : Room m (k.free p) :=
  ⟨fun b hb hb' => free_isFree p (h.unused b hb hb'), h.long⟩

theorem kfree_room {m : ℕ} (p : ℕ) : Returns (Room m) (kfree p) fun _ => Room m :=
  fun k hk => ⟨(), k.free p, modify_apply _ k, hk.free p⟩

end KernelHeap
end Dexter
