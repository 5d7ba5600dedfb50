import Dexter.Mem.DirectoryContract

/-!
# Blocks that are taken and given back

A piece of the kernel that gives back all it takes leaves the heap table as it was. `Borrowed k₀ ps k`
says that the heap `k` is the heap `k₀` with the blocks of the addresses `ps` taken, one block each:
a request of at most one block puts an address on the list, and its release takes it off again.
-/

namespace Dexter
open Lib.Programs KernelHeap

namespace KernelHeap
variable {k k₀ : KernelHeap} {ps qs : List ℕ} {p size : ℕ}

inductive Reached : KernelHeap → Prop
  | new : Reached kheapInit
  | malloc (k : KernelHeap) (size : ℕ) (before : Reached k) (hsize : size < 4294967296) :
      Reached (k.malloc size).2
  | free (k : KernelHeap) (ptr : ℕ) (before : Reached k) : Reached (k.free ptr)

theorem Reached.clean (h : Reached k) : LiveHeap.Clean k := by
  induction h with
  | new => exact fun _ _ _ => rfl
  | malloc k size before hsize ih => exact ih.malloc hsize
  | free k ptr before ih => exact ih.free ptr

theorem Reached.after (h : k.Reached) (n : ℕ) : (k.after n).Reached := by
  induction n with
  | zero => exact h
  | succ n ih => exact .malloc _ 4096 ih (by decide)

theorem malloc_none (h : (k.malloc 4096).1 = 0) : SameTable k (k.malloc 4096).2 := by
  rcases malloc_first k with ⟨-, hsame, -⟩ | ⟨b, -, hp, -⟩
  · exact fun c _ => congrFun hsame c
  · exact absurd (hp.symm.trans h) (frame_ne_zero b)

theorem malloc_some (h : (k.malloc 4096).1 ≠ 0) :
    ∃ b < kernelHeapBlocks, (k.malloc 4096).1 = frame b ∧ k.IsFree b ∧
      ∀ c : ℕ, (k.malloc 4096).2.entries c = if c = b then 0x81 else k.entries c := by
  rcases malloc_first k with ⟨hnone, -⟩ | ⟨b, hb, hp, hfree, -, hentries⟩
  · exact absurd hnone h
  · exact ⟨b, hb, hp, hfree, hentries⟩

structure Borrowed (k₀ : KernelHeap) (ps : List ℕ) (k : KernelHeap) : Prop where
  distinct : ps.Nodup
  free : ∀ p ∈ ps, ∃ b < kernelHeapBlocks, p = frame b ∧ k₀.IsFree b
  entries : ∀ b < kernelHeapBlocks, k.entries b = if frame b ∈ ps then 0x81 else k₀.entries b

theorem Borrowed.nil (k₀ : KernelHeap) : Borrowed k₀ [] k₀ :=
  ⟨List.nodup_nil, fun p hp => absurd hp List.not_mem_nil, fun b _ => by simp⟩

theorem Borrowed.sameTable (h : Borrowed k₀ [] k) : SameTable k₀ k := fun b hb => by
  simpa using h.entries b hb

theorem Borrowed.perm (h : Borrowed k₀ ps k) (hperm : ps.Perm qs) : Borrowed k₀ qs k := by
  refine ⟨hperm.nodup_iff.mp h.distinct, fun p hp => h.free p (hperm.mem_iff.mpr hp), ?_⟩
  intro b hb
  simp only [h.entries b hb, hperm.mem_iff]

theorem Borrowed.malloc (h : Borrowed k₀ ps k) (hp : (k.malloc 4096).1 ≠ 0) :
    Borrowed k₀ ((k.malloc 4096).1 :: ps) (k.malloc 4096).2 := by
  obtain ⟨b, hb, hpb, hfree, hentries⟩ := malloc_some hp
  have htaken : heapGetEntryType 0x81 ≠ heapBlockTableEntryFree := by decide
  have hout : frame b ∉ ps := by
    intro hin
    rw [Heap.IsFree, h.entries b hb, if_pos hin] at hfree
    exact htaken hfree
  have hfree₀ : k₀.IsFree b := by
    rw [Heap.IsFree, h.entries b hb, if_neg hout] at hfree
    exact hfree
  rw [hpb]
  refine ⟨List.nodup_cons.mpr ⟨hout, h.distinct⟩, fun q hq => ?_, fun c hc => ?_⟩
  · rcases List.mem_cons.mp hq with rfl | hq
    · exact ⟨b, hb, rfl, hfree₀⟩
    · exact h.free q hq
  · have heq : frame c = frame b ↔ c = b := ⟨frame_injective, congrArg frame⟩
    rw [hentries, h.entries c hc]
    by_cases hcb : c = b
    · simp [hcb]
    · simp [hcb, heq]

theorem Borrowed.release (hk : LiveHeap.Clean k₀) (h : Borrowed k₀ (p :: ps) k) :
    Borrowed k₀ ps (k.free p) := by
  obtain ⟨hout, hdistinct⟩ := List.nodup_cons.mp h.distinct
  obtain ⟨b, hb, rfl, hfree⟩ := h.free p List.mem_cons_self
  refine ⟨hdistinct, fun q hq => h.free q (List.mem_cons_of_mem _ hq), fun c hc => ?_⟩
  have heq : frame c = frame b ↔ c = b := ⟨frame_injective, congrArg frame⟩
  rw [free_frame_entries _ hb]
  by_cases hcb : c = b
  · rw [if_pos hcb, hcb, if_neg hout, hk b hb hfree]
  · simp [hcb, h.entries c hc, heq]

theorem malloc_back (hk : LiveHeap.Clean k) (h : (k.malloc 4096).1 ≠ 0) :
    SameTable k ((k.malloc 4096).2.free (k.malloc 4096).1) :=
  ((Borrowed.nil k).malloc h).release hk |>.sameTable

theorem Borrowed.release_zero (h : Borrowed k₀ ps k) : Borrowed k₀ ps (k.free 0) := by
  have hblock : heapAddressToBlock k.toHeap 0 = -4096 := by
    rw [heapAddressToBlock, k.saddr_eq]
    rfl
  refine ⟨h.distinct, h.free, fun b hb => ?_⟩
  rw [← h.entries b hb]
  show (heapFree k.toHeap 0).entries b = _
  rw [heapFree, hblock, heapMarkBlocksFree_eq]
  split_ifs
  · rw [Heap.setEntry_entries, if_neg (by omega)]
  · rfl

def lend (p : ℕ) (ps : List ℕ) : List ℕ := if p = 0 then ps else p :: ps

theorem lend_of_ne (hp : p ≠ 0) : lend p ps = p :: ps := if_neg hp

theorem kzalloc_borrowed (h0 : 1 ≤ size) (hsize : size ≤ 4096) :
    Triple (Borrowed k₀ ps) (kzalloc size) fun p => Borrowed k₀ (lend p ps) := by
  intro k p k' h hrun
  have hmalloc := kzalloc_malloc hrun
  rw [malloc_page h0 hsize] at hmalloc
  have hfirst : (k.malloc 4096).1 = p := congrArg Prod.fst hmalloc
  have hsecond : (k.malloc 4096).2 = k' := congrArg Prod.snd hmalloc
  rw [← hfirst, ← hsecond]
  by_cases hp : (k.malloc 4096).1 = 0
  · rw [hp, lend, if_pos rfl]
    exact ⟨h.distinct, h.free, fun b hb => (malloc_none hp b hb).trans (h.entries b hb)⟩
  · rw [lend_of_ne hp]
    exact h.malloc hp

theorem kfree_borrowed (hk : LiveHeap.Clean k₀) (p : ℕ) :
    Triple (Borrowed k₀ (lend p ps)) (kfree p) fun _ => Borrowed k₀ ps := by
  apply Triple.modify
  intro k h
  by_cases hp : p = 0
  · rw [lend, if_pos hp] at h
    rw [hp]
    exact h.release_zero
  · rw [lend_of_ne hp] at h
    exact h.release hk

end KernelHeap

end Dexter
