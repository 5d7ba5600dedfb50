import Dexter.Lib.Faults
import Dexter.Mem.Paging

/-!
# One block after the other

A request of at most 4096 bytes takes the first free block. So a sequence of such requests is
answered with the free blocks of the heap in their order, and then with nothing: request `n` is
answered exactly if more than `n` blocks are free, and the blocks that `n` requests have taken
are those with fewer than `n` free blocks below them.

`Failing.kzalloc` is the allocator of a kernel in which single requests fail for other reasons.
-/

namespace Dexter
open Lib.Programs Lib.BlockPool

namespace KernelHeap

def freeBelow (k : KernelHeap) (b : ℕ) : ℕ := Nat.count (fun c => k.IsFree c) b

def after (k : KernelHeap) : ℕ → KernelHeap
  | 0 => k
  | n + 1 => ((after k n).malloc 4096).2

def page (k : KernelHeap) (n : ℕ) : ℕ := ((k.after n).malloc 4096).1

def Among (k : KernelHeap) (n b : ℕ) : Prop := k.IsFree b ∧ k.freeBelow b < n

instance (k : KernelHeap) (n b : ℕ) : Decidable (k.Among n b) :=
  inferInstanceAs (Decidable (_ ∧ _))

variable {k : KernelHeap} {n b c : ℕ}

theorem freeBelow_injective (hb : k.IsFree b) (hc : k.IsFree c)
    (h : k.freeBelow b = k.freeBelow c) : b = c := Nat.count_injective hb hc h

theorem freeBelow_strictMono (hb : k.IsFree b) (h : b < c) : k.freeBelow b < k.freeBelow c :=
  Nat.count_strict_mono hb h

theorem exists_freeBelow (h : n < k.freeBelow c) : ∃ b < c, k.IsFree b ∧ k.freeBelow b = n := by
  induction c with
  | zero =>
    have h0 : k.freeBelow 0 = 0 := Nat.count_zero _
    omega
  | succ c ih =>
    have hsucc : k.freeBelow (c + 1) = k.freeBelow c + if k.IsFree c then 1 else 0 :=
      Nat.count_succ _ c
    by_cases hlt : n < k.freeBelow c
    · obtain ⟨b, hb, hfree⟩ := ih hlt
      exact ⟨b, by omega, hfree⟩
    · by_cases hc : k.IsFree c
      · rw [if_pos hc] at hsucc
        exact ⟨c, Nat.lt_succ_self c, hc, by omega⟩
      · rw [if_neg hc] at hsucc
        omega

theorem malloc_page {size : ℕ} (h0 : 1 ≤ size) (hsize : size ≤ 4096) :
    k.malloc size = k.malloc 4096 := by
  have hneed : needed size = needed 4096 := by
    unfold needed
    omega
  have hup : heapAlignValueToUpper size = heapAlignValueToUpper 4096 := by
    unfold heapAlignValueToUpper u32
    simp only [dexterHeapBlockSize]
    split_ifs <;> omega
  simp only [malloc, heapMalloc, fits, hneed, hup]

theorem malloc_after (k : KernelHeap) (n : ℕ) :
    (k.after n).malloc 4096 = (k.page n, k.after (n + 1)) := rfl

theorem heapGetStartBlock_page (hb : b < kernelHeapBlocks) (hfree : k.IsFree b)
    (hfirst : ∀ c < b, ¬k.IsFree c) : heapGetStartBlock k.toHeap 1 = b := by
  have hspec := heapGetStartBlock_spec k.toHeap 1
  generalize heapGetStartBlock k.toHeap 1 = start at hspec
  have hrun : IsRun k.IsFree b 1 := fun c hc hc' => by
    obtain rfl : c = b := by omega
    exact hfree
  have hin : b + 1 ≤ k.total := hb.trans_eq k.total_eq.symm
  cases hspec with
  | fits s pos inside run first =>
    have hs : k.IsFree s := run s le_rfl (Nat.lt_succ_self s)
    rcases lt_trichotomy s b with hlt | rfl | hgt
    · exact absurd hs (hfirst s hlt)
    · rfl
    · exact absurd hrun (first b hgt)
  | ragged s starts run short noRun => exact absurd hrun (noRun le_rfl b hin)
  | full noRun last => exact absurd hrun (noRun le_rfl b hin)

theorem malloc_first (k : KernelHeap) :
    ((k.malloc 4096).1 = 0 ∧ (k.malloc 4096).2.entries = k.entries ∧
      ∀ b < kernelHeapBlocks, ¬k.IsFree b) ∨
    ∃ b < kernelHeapBlocks, (k.malloc 4096).1 = frame b ∧ k.IsFree b ∧ k.freeBelow b = 0 ∧
      ∀ c : ℕ, (k.malloc 4096).2.entries c = if c = b then 0x81 else k.entries c := by
  have hone : needed 4096 = 1 := rfl
  have hpage := @malloc_answer k 4096 (by decide) (by decide)
  rw [hone] at hpage
  rcases hpage.page with hfull | ⟨b, hb, hp, hfree, hfirst, -⟩
  · exact Or.inl hfull
  · refine Or.inr ⟨b, hb, hp, hfree, ?_, fun c => ?_⟩
    · by_contra hpos
      obtain ⟨c, hc, hcfree, -⟩ := @exists_freeBelow k 0 b (Nat.pos_of_ne_zero hpos)
      exact hfirst c hc hcfree
    · have hstart : heapGetStartBlock k.toHeap (needed 4096) = b :=
        heapGetStartBlock_page hb hfree hfirst
      obtain ⟨-, hheap⟩ := heapMalloc_found (by decide : 4096 ≤ 4294963200) hb hstart
      rw [hheap, hone]
      have hentries := heapMarkBlocksTaken_entries k.toHeap b 1 c
      have hin : (b : ℤ) ≤ c ∧ (c : ℤ) < b + (1 : ℕ) ↔ c = b := by omega
      have heq : (c : ℤ) = b ↔ c = b := by omega
      simp only [hin, heq] at hentries
      rw [hentries]
      split_ifs <;> rfl

theorem after_entries (k : KernelHeap) (n : ℕ) (hb : b < kernelHeapBlocks) :
    (k.after n).entries b = if k.Among n b then 0x81 else k.entries b := by
  have htaken : ∀ e : HeapBlockTableEntry, e = 0x81 →
      heapGetEntryType e ≠ heapBlockTableEntryFree := by
    rintro e rfl
    decide
  induction n generalizing b with
  | zero =>
    rw [if_neg fun h => Nat.not_lt_zero _ h.2]
    rfl
  | succ n ih =>
    have hfree : ∀ c < kernelHeapBlocks, (k.after n).IsFree c ↔ k.IsFree c ∧ ¬k.Among n c := by
      intro c hc
      by_cases hin : k.Among n c
      · refine iff_of_false ?_ fun h => h.2 hin
        rw [Heap.IsFree, ih hc, if_pos hin]
        exact htaken _ rfl
      · rw [Heap.IsFree, ih hc, if_neg hin, and_iff_left hin]
        rfl
    have hsplit : k.Among (n + 1) b ↔ k.Among n b ∨ k.IsFree b ∧ k.freeBelow b = n := by
      unfold Among
      have hlt : k.freeBelow b < n + 1 ↔ k.freeBelow b < n ∨ k.freeBelow b = n :=
        Nat.lt_succ_iff_lt_or_eq
      rw [hlt, and_or_left]
    rcases malloc_first (k.after n) with ⟨-, hsame, hnone⟩ | ⟨c, hc, -, hcfree, hcount, hmark⟩
    · have hno : ¬(k.IsFree b ∧ k.freeBelow b = n) := fun h =>
        hnone b hb ((hfree b hb).mpr ⟨h.1, fun hin => absurd hin.2 h.2.not_lt⟩)
      rw [after, hsame, ih hb]
      simp only [hsplit, hno, or_false]
    · have hcn : k.IsFree c ∧ k.freeBelow c = n := by
        obtain ⟨hck, hcin⟩ := (hfree c hc).mp hcfree
        refine ⟨hck, ?_⟩
        have hge : n ≤ k.freeBelow c := not_lt.mp fun h => hcin ⟨hck, h⟩
        by_contra hne
        -- another free block of the heap would lie before the first one
        obtain ⟨d, hd, hdfree, hdn⟩ := @exists_freeBelow k n c (by omega)
        have hd' : (k.after n).IsFree d :=
          (hfree d (by omega)).mpr ⟨hdfree, fun hin => absurd hin.2 hdn.not_lt⟩
        have hlt := freeBelow_strictMono hd' hd
        omega
      have hcb : b = c ↔ k.IsFree b ∧ k.freeBelow b = n := by
        constructor
        · rintro rfl
          exact hcn
        · rintro ⟨hbf, hbn⟩
          exact freeBelow_injective hbf hcn.1 (hbn.trans hcn.2.symm)
      rw [after, hmark b, ih hb]
      simp only [hsplit, ← hcb]
      split_ifs <;> simp_all

theorem after_isFree (k : KernelHeap) (n : ℕ) (hb : b < kernelHeapBlocks) :
    (k.after n).IsFree b ↔ k.IsFree b ∧ ¬k.Among n b := by
  rw [Heap.IsFree, after_entries k n hb]
  split_ifs with hin
  · exact iff_of_false (by decide) fun h => h.2 hin
  · rw [and_iff_left hin]
    rfl

/-- Request `n` is answered with the free block that has `n` free blocks below it. -/
theorem page_spec (k : KernelHeap) (n : ℕ) :
    (k.page n = 0 ∧ ∀ b < kernelHeapBlocks, k.IsFree b → k.freeBelow b < n) ∨
    ∃ b < kernelHeapBlocks, k.page n = frame b ∧ k.IsFree b ∧ k.freeBelow b = n := by
  rcases malloc_first (k.after n) with ⟨hp, -, hnone⟩ | ⟨b, hb, hp, hbfree, hcount, -⟩
  · refine Or.inl ⟨hp, fun b hb hfree => ?_⟩
    by_contra hge
    exact hnone b hb ((after_isFree k n hb).mpr ⟨hfree, fun hin => hge hin.2⟩)
  · obtain ⟨hfree, hin⟩ := (after_isFree k n hb).mp hbfree
    refine Or.inr ⟨b, hb, hp, hfree, ?_⟩
    have hge : n ≤ k.freeBelow b := not_lt.mp fun h => hin ⟨hfree, h⟩
    by_contra hne
    obtain ⟨c, hc, hcfree, hcn⟩ := @exists_freeBelow k n b (by omega)
    have hc' : (k.after n).IsFree c :=
      (after_isFree k n (by omega)).mpr ⟨hcfree, fun h => absurd h.2 hcn.not_lt⟩
    have hlt := freeBelow_strictMono hc' hc
    omega

theorem page_ne_zero : k.page n ≠ 0 ↔ n < k.freeBelow kernelHeapBlocks := by
  rcases page_spec k n with ⟨hp, hall⟩ | ⟨b, hb, hp, hfree, hn⟩
  · refine iff_of_false (not_not.mpr hp) fun hlt => ?_
    obtain ⟨b, hb, hfree, hn⟩ := exists_freeBelow hlt
    exact absurd (hall b hb hfree) hn.not_lt
  · refine iff_of_true (hp ▸ frame_ne_zero b) ?_
    rw [← hn]
    exact freeBelow_strictMono hfree hb

theorem freeBlocks_iff : k.FreeBlocks n ↔ n ≤ k.freeBelow kernelHeapBlocks := by
  have hcount : k.freeBelow kernelHeapBlocks =
      ((Finset.range kernelHeapBlocks).filter fun b => k.IsFree b).card :=
    Nat.count_eq_card_filter_range _ _
  rw [hcount]
  constructor
  · rintro ⟨blocks, hcard, hblocks⟩
    refine hcard.trans (Finset.card_le_card fun b hb => ?_)
    obtain ⟨hlt, hfree⟩ := hblocks b hb
    exact Finset.mem_filter.mpr ⟨Finset.mem_range.mpr hlt, hfree⟩
  · refine fun hcard => ⟨_, hcard, fun b hb => ?_⟩
    obtain ⟨hlt, hfree⟩ := Finset.mem_filter.mp hb
    exact ⟨Finset.mem_range.mp hlt, hfree⟩

theorem FreeBlocks.page_ne (h : k.FreeBlocks n) {i : ℕ} (hi : i < n) : k.page i ≠ 0 :=
  page_ne_zero.mpr (hi.trans_le (freeBlocks_iff.mp h))

theorem page_block (h : k.page n ≠ 0) :
    ∃ b < kernelHeapBlocks, k.page n = frame b ∧ k.IsFree b ∧ k.freeBelow b = n :=
  (page_spec k n).resolve_left fun hnone => h hnone.1

theorem page_injective {i j : ℕ} (hi : k.page i ≠ 0) (h : k.page i = k.page j) : i = j := by
  obtain ⟨b, -, hb, -, hbi⟩ := page_block hi
  obtain ⟨c, -, hc, -, hcj⟩ := page_block (h ▸ hi)
  obtain rfl : b = c := frame_injective (hb.symm.trans (h.trans hc))
  exact hbi.symm.trans hcj

theorem page_eq_frame (hb : b < kernelHeapBlocks) (h : k.page n ≠ 0) :
    k.page n = frame b ↔ k.IsFree b ∧ k.freeBelow b = n := by
  obtain ⟨c, -, hc, hfree, hn⟩ := page_block h
  constructor
  · intro hp
    obtain rfl : c = b := frame_injective (hc.symm.trans hp)
    exact ⟨hfree, hn⟩
  · rintro ⟨hbfree, hbn⟩
    rw [hc, freeBelow_injective hbfree hfree (hbn.trans hn.symm)]

end KernelHeap

namespace Failing
open Lib.Faults KernelHeap

def answers (k : KernelHeap) (n : ℕ) : List ℕ := (List.range n).map k.page

def Answered (fails : ℕ → Bool) (k : KernelHeap) (n : ℕ) : Prop := fails n = false ∧ k.page n ≠ 0

def behind (fails : ℕ → Bool) (k : KernelHeap) (n : ℕ) : Faulty fails KernelHeap :=
  ⟨k.after n, answers k n⟩

variable {fails : ℕ → Bool} {k : KernelHeap} {n size : ℕ}

theorem answers_length (k : KernelHeap) (n : ℕ) : (answers k n).length = n := by
  rw [answers, List.length_map, List.length_range]

theorem answers_succ (k : KernelHeap) (n : ℕ) : answers k (n + 1) = answers k n ++ [k.page n] := by
  rw [answers, List.range_succ, List.map_append]
  rfl

theorem zero_notMem_given (h : ∀ i < n, Answered fails k i) :
    0 ∉ (behind fails k n).given := by
  intro hmem
  obtain ⟨i, hi, hzero⟩ := List.mem_map.mp hmem
  exact (h i (List.mem_range.mp hi)).2 hzero

theorem ask_behind (h0 : 1 ≤ size) (hsize : size ≤ 4096) (h : fails n = false) :
    Requests.ask size (behind fails k n) = (k.page n, behind fails k (n + 1)) := by
  have hpasses : fails (behind fails k n).given.length = false := by
    rw [behind, answers_length]
    exact h
  have hmalloc : Requests.ask size (k.after n) = (k.page n, k.after (n + 1)) :=
    (malloc_page h0 hsize).trans (malloc_after k n)
  rw [Faulty.ask_passes hpasses, behind, hmalloc, ← answers_succ]
  rfl

theorem kzalloc_answered (h0 : 1 ≤ size) (hsize : size ≤ 4096) (h : Answered fails k n) :
    kzalloc size (behind fails k n) = .ok (k.page n, behind fails k (n + 1)) :=
  congrArg _ (ask_behind h0 hsize h.1)

theorem kzalloc_null (size : ℕ) (h0 : 1 ≤ size) (hsize : size ≤ 4096) (h : ¬Answered fails k n) :
    ∃ c, kzalloc size (behind fails k n) = .ok (0, c) := by
  by_cases hfails : fails n = true
  · have hlength : fails (behind fails k n).given.length = true := by
      rw [behind, answers_length]
      exact hfails
    exact ⟨_, congrArg _ (Faulty.ask_fails hlength)⟩
  · have hpasses := Bool.eq_false_of_not_eq_true hfails
    have hnone : k.page n = 0 := by
      by_contra hne
      exact h ⟨hpasses, hne⟩
    exact ⟨_, (congrArg _ (ask_behind h0 hsize hpasses)).trans (by rw [hnone])⟩

def fullHeap : KernelHeap := { kheapInit with entries := fun _ => 0x01 }

theorem fullHeap_not_answered (fails : ℕ → Bool) (n : ℕ) : ¬Answered fails fullHeap n := by
  intro h
  obtain ⟨b, -, -, hfree, -⟩ := page_block h.2
  exact (by decide : heapGetEntryType 0x01 ≠ heapBlockTableEntryFree) hfree

end Failing

section NewDirectory
open PagingLayer KernelHeap Lib.TwoLevel
variable {flags : ℕ} {m : Memory}

theorem pagingNewTables_pages {directory : ℕ} {k : KernelHeap} (hflags : flags < 4096)
    (hd : directory = k.page 0) (hheap : m.heap = k.after 1) (hall : ∀ i < 1025, k.page i ≠ 0) :
    ∃ o m', countUp (pagingNewTable flags directory) 1024 0 m = .ok (o, m') ∧
      m'.heap = k.after 1025 ∧
      ∀ j < 1024, row entryTable m'.pages directory j = k.page (j + 1) := by
  have hloop := @Returns.countUp _ _ _ (pagingNewTable flags directory)
    (fun i _ s => s.heap = k.after (i + 1) ∧
      ∀ j < i, row entryTable s.pages directory j = k.page (j + 1)) 1024 ?_ 0
  · exact hloop ⟨hheap, fun j hj => absurd hj (Nat.not_lt_zero j)⟩
  · rintro i hi o s ⟨hs, hrows⟩
    have hpage : (s.heap.malloc 4096).1 = k.page (i + 1) := by
      rw [hs]
      rfl
    have hne : k.page (i + 1) ≠ 0 := hall (i + 1) (by omega)
    have hde : directory ≠ k.page (i + 1) := by
      rw [hd]
      exact fun heq => absurd (page_injective (hall 0 (by decide)) heq) (by omega)
    refine ⟨_, _, pagingNewTable_ok.mpr ⟨hpage ▸ hne, hd ▸ hall 0 (by decide), rfl, rfl⟩, ?_, ?_⟩
    · show (s.heap.malloc 4096).2 = k.after (i + 1 + 1)
      rw [hs]
      rfl
    · intro j hj
      show row entryTable (nextPages s.pages flags directory (s.heap.malloc 4096).1 i o)
        directory j = _
      rw [hpage]
      rcases Nat.lt_succ_iff_lt_or_eq.mp hj with hlt | rfl
      · rw [row_nextPages hde hlt.ne, hrows j hlt]
      · obtain ⟨b, hb, hbp, -, -⟩ := page_block hne
        rw [hbp] at hde ⊢
        exact row_nextPages_last hflags (frame_aligned b) (frame_lt hb)

theorem pagingNew4gb_of_parts {directory chunk : ℕ} {o : ℤ} {m₁ m₂ m₃ : Memory}
    (hdirectory : onHeap (kzalloc (4 * pagingTotalEntriesPerTable)) m = .ok (directory, m₁))
    (htables : countUp (pagingNewTable flags directory) 1024 0 m₁ = .ok (o, m₂))
    (hchunk : onHeap (kzalloc 4) m₂ = .ok (chunk, m₃)) (hc : chunk ≠ 0) :
    pagingNew4gb flags m =
      .ok (chunk, { m₃ with chunks := Function.update m₃.chunks chunk directory }) := by
  rw [pagingNew4gb, bind_of_ok hdirectory, bind_of_ok htables, bind_of_ok hchunk,
    bind_of_ok (setDirectoryEntry_ok (u := ()).mpr ⟨hc, rfl⟩), pure_apply]

/-- Where all requests are answered, `paging_new_4gb` comes back with the last of 1026 pages; the
first one is the directory, the others the tables. -/
theorem pagingNew4gb_pages (hflags : flags < 4096) (hall : ∀ i < 1026, m.heap.page i ≠ 0) :
    ∃ m', pagingNew4gb flags m = .ok (m.heap.page 1025, m') ∧ m'.heap = m.heap.after 1026 ∧
      m'.chunks (m.heap.page 1025) = m.heap.page 0 ∧
      ∀ i < 1024, m'.tableAt (m.heap.page 1025) i = m.heap.page (i + 1) := by
  obtain ⟨o, m₁, htables, hheap, hrows⟩ := @pagingNewTables_pages flags
    { m with heap := (m.heap.malloc 4096).2 } (m.heap.page 0) m.heap hflags rfl rfl
    fun i hi => hall i (by omega)
  have hchunk : onHeap (kzalloc 4) m₁ =
      .ok (m.heap.page 1025, { m₁ with heap := m.heap.after 1026 }) := by
    rw [onHeap_kzalloc, malloc_page (by decide) (by decide), hheap, malloc_after]
  have hrun := pagingNew4gb_of_parts (onHeap_kzalloc m _) htables hchunk (hall 1025 (by decide))
  generalize m.heap.page 1025 = chunk at hrun ⊢
  refine ⟨_, hrun, rfl, Function.update_self .., fun i hi => ?_⟩
  dsimp only [tableAt]
  rw [Function.update_self]
  exact hrows i hi

end NewDirectory

end Dexter
