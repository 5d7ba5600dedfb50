import Dexter.Mem.KernelHeap

/-!
# What the heap promises, and where it does not keep it (`mem/heap.c`, `libc/stdlib.c`)

Three promises are compared with the code, each for every table and every request:
the search returns the first run that is long enough, an allocation covers the bytes
that were asked for, and a pointer that was never handed out can be released without
harm. Each one fails in a corner, and the theorem says which.

The memory around the table is no part of a heap, so what is said of it holds
whatever it contains (`KeepsAround`).
-/

namespace Dexter.HeapContract
open Lib.BlockPool KernelHeap

def malloc (h : Heap) (size : ℕ) : ℕ × Heap :=
  if size = 0 then (0, h)
  else
    let alignedSize := heapAlignValueToUpper size
    let totalBlocks := alignedSize / dexterHeapBlockSize
    heapMallocBlocks h totalBlocks

def calloc (h : Heap) (num size : ℕ) : ℕ × Heap :=
  let totalSize := u32 (num * size)
  if size ≠ 0 ∧ totalSize / size ≠ num then (0, h) else heapMalloc h totalSize

structure SameEntries (h h' : Heap) : Prop where
  saddr : h'.saddr = h.saddr
  total : h'.total = h.total
  entries : ∀ i : ℤ, 0 ≤ i → i < h.total → h'.entries i = h.entries i

def KeepsAround (f : Heap → Heap) (h : Heap) : Prop :=
  ∀ h', SameEntries h h' → ∀ i : ℤ, i < 0 ∨ h.total ≤ i → (f h').entries i = h'.entries i

theorem SameEntries.isFree {h h' : Heap} (hs : SameEntries h h') {b : ℕ} (hb : b < h.total) :
    h'.IsFree b ↔ h.IsFree b := by
  rw [Heap.IsFree, Heap.IsFree, hs.entries b (by omega) (by omega)]

section FirstFit
variable {h : Heap} {n s : ℕ}

def Fits (h : Heap) (n s : ℕ) : Prop := s + n ≤ h.total ∧ IsRun h.IsFree s n

def FirstFit (h : Heap) (n : ℕ) (r : ℤ) : Prop :=
  (∃ s : ℕ, r = s ∧ Fits h n s ∧ ∀ t < s, ¬Fits h n t) ∨ (r = -eNoMem ∧ ∀ s, ¬Fits h n s)

def LastTaken (h : Heap) : Prop := ∀ b, b + 1 = h.total → ¬h.IsFree b

theorem Fits.congr {h' : Heap} (hs : SameEntries h h') (hfit : Fits h n s) : Fits h' n s := by
  refine ⟨hfit.1.trans_eq hs.total.symm, fun b hb hb' => ?_⟩
  have := hfit.1
  exact (hs.isFree (by omega)).mpr (hfit.2 b hb hb')

theorem LastTaken.congr {h' : Heap} (hs : SameEntries h h') (hl : LastTaken h) :
    LastTaken h' := by
  intro b hb hfree
  rw [hs.total] at hb
  exact hl b hb ((hs.isFree (by omega)).mp hfree)

/-- The search keeps its promise unless the table ends in a free run that is too short. -/
theorem firstFit_iff (h : Heap) (h1 : 1 ≤ n) :
    FirstFit h n (heapGetStartBlock h n) ↔ (∃ s, Fits h n s) ∨ LastTaken h := by
  have hspec := heapGetStartBlock_spec h n
  generalize heapGetStartBlock h n = r at hspec
  cases hspec with
  | fits s pos inside run first =>
    refine iff_of_true (Or.inl ⟨s, rfl, ⟨inside, run⟩, fun t ht hfit => ?_⟩)
      (Or.inl ⟨s, inside, run⟩)
    exact first t ht hfit.2
  | ragged s starts run short noRun =>
    have hno : ∀ t, ¬Fits h n t := fun t hfit => noRun h1 t hfit.1 hfit.2
    have hfree : h.IsFree (h.total - 1) := run _ (by omega) (by omega)
    apply iff_of_false
    · intro hfirst
      rcases hfirst with ⟨t, -, hfit, -⟩ | ⟨heq, -⟩
      · exact hno t hfit
      · have hneg : (s : ℤ) = -3 := heq
        omega
    · intro hor
      rcases hor with ⟨t, hfit⟩ | hlast
      · exact hno t hfit
      · exact hlast (h.total - 1) (by omega) hfree
  | full noRun last =>
    refine iff_of_true (Or.inr ⟨rfl, fun s hfit => ?_⟩) (Or.inr last)
    exact noRun h1 s hfit.1 hfit.2

theorem keepsAround_of_firstFit (h1 : 1 ≤ n) (hn : n < 1048576)
    (hcond : (∃ s, Fits h n s) ∨ LastTaken h) :
    KeepsAround (fun h => (heapMallocBlocks h n).2) h := by
  intro h' hs i hi
  have hcond' : (∃ s, Fits h' n s) ∨ LastTaken h' :=
    hcond.imp (fun ⟨s, hfit⟩ => ⟨s, hfit.congr hs⟩) fun hl => hl.congr hs
  have hfirst := (firstFit_iff h' h1).mpr hcond'
  have hspec := heapMallocBlocks_spec h' (n := n) (by omega)
  dsimp only
  generalize heapMallocBlocks h' n = r at hspec
  cases hspec with
  | fails none => rfl
  | takes s found starts free run =>
    rw [found] at hfirst
    rcases hfirst with ⟨t, heq, hfit, -⟩ | ⟨heq, -⟩
    · obtain rfl : s = t := by omega
      have hin := hfit.1
      have ht := hs.total
      rw [heapMarkBlocksTaken_entries, if_neg (by omega)]
    · have hneg : (s : ℤ) = -3 := heq
      omega

def RegionInside (h : Heap) (n : ℕ) : Prop :=
  ∀ s : ℕ, heapGetStartBlock h n = s →
    h.saddr + (s + n) * dexterHeapBlockSize ≤ h.saddr + h.total * dexterHeapBlockSize

theorem first_fit_exact_iff (h : Heap) {n : ℕ} (h1 : 1 ≤ n) (hn : n < 1048576) :
    (FirstFit h n (heapGetStartBlock h n) ∧ RegionInside h n ∧
      KeepsAround (fun h => (heapMallocBlocks h n).2) h) ↔
    (∃ s, Fits h n s) ∨ LastTaken h := by
  refine ⟨fun hall => (firstFit_iff h h1).mp hall.1, fun hcond => ?_⟩
  have hfirst := (firstFit_iff h h1).mpr hcond
  refine ⟨hfirst, fun s hs => ?_, keepsAround_of_firstFit h1 hn hcond⟩
  rw [hs] at hfirst
  rcases hfirst with ⟨t, heq, hfit, -⟩ | ⟨heq, -⟩
  · obtain rfl : s = t := by omega
    have hin := hfit.1
    rw [dexterHeapBlockSize]
    omega
  · have hneg : (s : ℤ) = -3 := heq
    omega

theorem secondPage_lt : 0x1000 < 4294967296 := by decide

theorem secondPage_aligned : 0x1000 % dexterHeapBlockSize = 0 := by decide

def raggedHeap : Heap where
  entries := fun i => if i = 0 then 0x81 else heapBlockTableEntryFree
  total := 2
  saddr := 0x1000
  saddr_lt := secondPage_lt
  saddr_aligned := secondPage_aligned
  total_lt := by decide

theorem first_fit_exact_one :
    (FirstFit raggedHeap 1 (heapGetStartBlock raggedHeap 1) ∧ RegionInside raggedHeap 1 ∧
      KeepsAround (fun h => (heapMallocBlocks h 1).2) raggedHeap) ↔
    (∃ s, Fits raggedHeap 1 s) ∨ LastTaken raggedHeap :=
  first_fit_exact_iff raggedHeap (by decide) (by decide)

/-- A request of two blocks gets the last block and one behind the table. -/
theorem ragged_request_not_exact :
    ¬(FirstFit raggedHeap 2 (heapGetStartBlock raggedHeap 2) ∧ RegionInside raggedHeap 2 ∧
      KeepsAround (fun h => (heapMallocBlocks h 2).2) raggedHeap) := by
  intro hall
  rcases (firstFit_iff raggedHeap (by decide)).mp hall.1 with ⟨s, hin, hrun⟩ | hlast
  · obtain rfl : s = 0 := by
      have hin' : s + 2 ≤ 2 := hin
      omega
    exact absurd (hrun 0 le_rfl (by decide)) (by decide)
  · exact hlast 1 rfl (by decide)

end FirstFit

section Covers
variable {h : Heap} {size n s : ℕ}

def newlyTaken (h h' : Heap) : Finset ℕ :=
  (Finset.range h.total).filter fun b => h.IsFree b ∧ ¬h'.IsFree b

/-- A pointer that is returned comes with at least one block, and with enough of them. -/
def Covers (h : Heap) (r : ℕ × Heap) (bytes : ℕ) : Prop :=
  r.1 ≠ 0 → 1 ≤ (newlyTaken h r.2).card ∧ bytes ≤ (newlyTaken h r.2).card * dexterHeapBlockSize

def LastRun (h : Heap) (s : ℕ) : Prop :=
  s < h.total ∧ IsRun h.IsFree s (h.total - s) ∧ ∀ b, b + 1 = s → ¬h.IsFree b

/-- The table ends in a taken block; or the request is neither empty nor in the last page of the
address space, and there is a run for it; or what would be handed out is the null pointer. -/
def Coverable (h : Heap) (size : ℕ) : Prop :=
  LastTaken h ∨ (1 ≤ size ∧ size ≤ 4294963200 ∧ ∃ s, Fits h (needed size) s) ∨
    ∃ s, LastRun h s ∧ heapBlockToAddress h s = 0

theorem covers_null (h h' : Heap) (bytes : ℕ) : Covers h (0, h') bytes :=
  fun hne => absurd rfl hne

theorem newlyTaken_markTaken (hrun : ∀ b ∈ Region.blocks ⟨s, n⟩, b < h.total → h.IsFree b) :
    newlyTaken h (heapMarkBlocksTaken h s n) = Finset.Ico s (min (s + n) h.total) := by
  ext b
  rw [newlyTaken, Finset.mem_filter, Finset.mem_range, isFree_markTaken, Finset.mem_Ico, lt_min_iff]
  constructor
  · intro ⟨hb, hfree, htaken⟩
    have hin : b ∈ Region.blocks ⟨s, n⟩ := by
      by_contra hout
      exact htaken ⟨hfree, hout⟩
    rw [Region.mem_blocks_mk] at hin
    exact ⟨hin.1, hin.2, hb⟩
  · intro ⟨hs, hn, hb⟩
    have hin : b ∈ Region.blocks ⟨s, n⟩ := Region.mem_blocks_mk.mpr ⟨hs, hn⟩
    exact ⟨hb, hrun b hin hb, fun hc => hc.2 hin⟩

theorem heapScan_before (h : Heap) (n k i bc : ℕ) (bs : ℤ) (inv : ScanState h n i bc bs)
    (hs : heapScan h n k i bc bs = s) : ∀ b, b + 1 = s → ¬h.IsFree b := by
  induction k generalizing i bc bs with
  | zero =>
    rw [heapScan] at hs
    obtain ⟨-, ⟨rfl, -, -⟩ | ⟨t, rfl, -, -, -, -, hprev⟩⟩ := inv
    · omega
    · obtain rfl : t = s := by omega
      exact hprev
  | succ k ih =>
    by_cases hf : h.IsFree i
    · have hfree : ¬heapGetEntryType (h.entries i) ≠ heapBlockTableEntryFree := not_not.mpr hf
      obtain ⟨t, hbs, ht, hrun, hlt, hprev⟩ := inv.grow hf
      simp only [heapScan, if_neg hfree, hbs] at hs
      split_ifs at hs with hn
      · obtain rfl : t = s := by omega
        exact hprev
      · refine ih (i + 1) (bc + 1) t ⟨?_, Or.inr ⟨t, rfl, by omega, by omega, hrun, by omega,
          hprev⟩⟩ hs
        rcases Nat.eq_zero_or_pos n with rfl | hpos
        · intro h0
          omega
        · exact inv.noRun_succ ht hprev (by omega)
    · have htaken : heapGetEntryType (h.entries i) ≠ heapBlockTableEntryFree := hf
      simp only [heapScan, if_pos htaken] at hs
      exact ih (i + 1) 0 (-1) (inv.taken hf) hs

theorem heapGetStartBlock_before (hs : heapGetStartBlock h n = s) :
    ∀ b, b + 1 = s → ¬h.IsFree b := by
  unfold heapGetStartBlock at hs
  dsimp only at hs
  split_ifs at hs with hneg
  · have hlt : (s : ℤ) = -3 := hs.symm
    omega
  · exact heapScan_before h n h.total 0 0 (-1) (ScanState.init h n) hs

theorem LastRun.unique {t : ℕ} (hs : LastRun h s) (ht : LastRun h t) : s = t := by
  have hle : ∀ {a b : ℕ}, LastRun h a → LastRun h b → b ≤ a := by
    intro a b ha hb
    by_contra hlt
    exact hb.2.2 (b - 1) (by omega) (ha.2.1 (b - 1) (by omega) (by have := hb.1; omega))
  have h1 := hle hs ht
  have h2 := hle ht hs
  omega

theorem heapAlignValueToUpper_zero (h : size = 0 ∨ 4294963200 < size) (hlt : size < 4294967296) :
    heapAlignValueToUpper size / dexterHeapBlockSize = 0 := by
  simp only [heapAlignValueToUpper, u32, dexterHeapBlockSize]
  split_ifs <;> omega

theorem covers_iff (h : Heap) (hsize : size < 4294967296) :
    Covers h (heapMalloc h size) size ↔ Coverable h size := by
  have hn := heapAlignValueToUpper_lt hsize
  -- the number of blocks is 0 exactly for the requests at the two ends
  have hblocks : 1 ≤ size ∧ size ≤ 4294963200 ∧
      heapAlignValueToUpper size / dexterHeapBlockSize = needed size ∨
      ¬(1 ≤ size ∧ size ≤ 4294963200) ∧ heapAlignValueToUpper size / dexterHeapBlockSize = 0 := by
    by_cases hin : 1 ≤ size ∧ size ≤ 4294963200
    · exact Or.inl ⟨hin.1, hin.2, heapAlignValueToUpper_blocks hin.2⟩
    · exact Or.inr ⟨hin, heapAlignValueToUpper_zero (by omega) hsize⟩
  rw [heapMalloc]
  generalize heapAlignValueToUpper size / dexterHeapBlockSize = n at hn hblocks
  have hspec := heapGetStartBlock_spec h n
  generalize hr : heapGetStartBlock h n = r at hspec
  cases hspec with
  | fits s pos inside run first =>
    obtain ⟨h1, h2, rfl⟩ := hblocks.resolve_right fun hz => by omega
    refine iff_of_true (fun _ => ?_) (Or.inr (Or.inl ⟨h1, h2, s, inside, run⟩))
    rw [heapMallocBlocks_of_start hr (by omega), newlyTaken_markTaken (fun b hb _ => by
      rw [Region.mem_blocks_mk] at hb
      exact run b hb.1 hb.2), Nat.card_Ico, min_eq_left inside, dexterHeapBlockSize]
    unfold needed at pos ⊢
    omega
  | ragged s starts run short noRun =>
    have hlast : LastRun h s := ⟨starts, run, heapGetStartBlock_before hr⟩
    have hcard : (newlyTaken h (heapMarkBlocksTaken h s n)).card = min (s + n) h.total - s := by
      rw [newlyTaken_markTaken (fun b hb hb' => by
        rw [Region.mem_blocks_mk] at hb
        exact run b hb.1 (by omega)), Nat.card_Ico]
    rw [heapMallocBlocks_of_start hr (by omega), Covers, Coverable]
    dsimp only
    constructor
    · intro hcov
      by_cases h0 : heapBlockToAddress h s = 0
      · exact Or.inr (Or.inr ⟨s, hlast, h0⟩)
      · -- fewer blocks were marked than the request needs
        have hboth := hcov h0
        rw [hcard, dexterHeapBlockSize] at hboth
        unfold needed at hblocks
        omega
    · intro hcoverable
      rcases hcoverable with htaken | ⟨h1, h2, t, hfit⟩ | ⟨t, hrun, h0⟩
      · exact absurd (run (h.total - 1) (by omega) (by omega)) (htaken _ (by omega))
      · obtain ⟨-, -, rfl⟩ := hblocks.resolve_right fun hz => hz.1 ⟨h1, h2⟩
        exact absurd hfit.2 (noRun (by unfold needed; omega) t hfit.1)
      · obtain rfl := hrun.unique hlast
        exact fun hne => absurd h0 hne
  | full noRun last =>
    rw [heapMallocBlocks_of_none hr]
    exact iff_of_true (covers_null h h size) (Or.inl last)

theorem product_check (num size : ℕ) :
    (size ≠ 0 ∧ u32 (num * size) / size ≠ num) ↔ 4294967296 ≤ num * size := by
  have hmod : u32 (num * size) = num * size % 4294967296 := by
    rw [← Nat.cast_mul]
    unfold u32
    omega
  rw [hmod]
  constructor
  · intro ⟨h0, hne⟩
    by_contra hlt
    rw [Nat.mod_eq_of_lt (by omega), Nat.mul_div_cancel _ (Nat.pos_of_ne_zero h0)] at hne
    exact hne rfl
  · intro hge
    have hpos : 0 < size := by
      rcases Nat.eq_zero_or_pos size with rfl | hpos
      · omega
      · exact hpos
    have hless : num * size % 4294967296 < num * size := by omega
    exact ⟨by omega, (Nat.div_lt_of_lt_mul (by rwa [Nat.mul_comm size])).ne⟩

theorem covers_kernel_iff (k : KernelHeap) (hsize : size < 4294967296) :
    Covers k.toHeap ((k.malloc size).1, (k.malloc size).2.toHeap) size ↔ Coverable k.toHeap size :=
  covers_iff k.toHeap hsize

/-- `kmalloc` and `kzalloc` are requests to the kernel heap, `calloc` refuses a product that does
not fit into 32 bits, `malloc` refuses an empty request. -/
theorem allocation_covers_iff (h : Heap) (k : KernelHeap) (num size : UInt32) :
    (Covers h (heapMalloc h size.toNat) size.toNat ↔ Coverable h size.toNat) ∧
    (Covers k.toHeap ((k.malloc size.toNat).1, (k.malloc size.toNat).2.toHeap) size.toNat ↔
      Coverable k.toHeap size.toNat) ∧
    (Covers h (malloc h size.toNat) size.toNat ↔ size = 0 ∨ Coverable h size.toNat) ∧
    (Covers h (calloc h num.toNat size.toNat) (num.toNat * size.toNat) ↔
      4294967296 ≤ num.toNat * size.toNat ∨ Coverable h (num.toNat * size.toNat)) := by
  refine ⟨covers_iff h size.toNat_lt, covers_kernel_iff k size.toNat_lt, ?_, ?_⟩
  · have hzero : size = 0 ↔ size.toNat = 0 := UInt32.toNat_inj.symm
    rw [malloc, hzero]
    split_ifs with h0
    · exact iff_of_true (covers_null h h _) (Or.inl h0)
    · rw [or_iff_right h0]
      exact covers_iff h size.toNat_lt
  · rw [calloc]
    have hcheck := product_check num.toNat size.toNat
    split_ifs with hover
    · exact iff_of_true (covers_null h h _) (Or.inl (hcheck.mp hover))
    · have hlt : ¬4294967296 ≤ num.toNat * size.toNat := fun hge => hover (hcheck.mpr hge)
      rw [or_iff_right hlt, ← Nat.cast_mul, u32_natCast (by omega)]
      exact covers_iff h (by omega)

/-- An empty request on the fresh kernel heap gets a pointer and no block. -/
theorem empty_request_not_covered :
    ¬Covers kheapInit.toHeap ((kheapInit.malloc 0).1, (kheapInit.malloc 0).2.toHeap) 0 := by
  intro hcov
  have hfree : ∀ b, b < kernelHeapBlocks → kheapInit.IsFree b := fun b hb =>
    kheapInit_unused b (Nat.zero_le b) hb
  rcases (covers_kernel_iff kheapInit (by decide)).mp hcov with htaken | ⟨h1, -⟩ | ⟨s, hlast, h0⟩
  · exact htaken 25599 rfl (hfree 25599 (by decide))
  · exact absurd h1 (by decide)
  · have hlt : s < kernelHeapBlocks := hlast.1
    rw [frame_eq kheapInit hlt, frame] at h0
    omega

end Covers

section Release
variable {h : Heap} {ptr : ℕ}

/-- The release writes nothing outside the table and leaves the table as it is. -/
def Harmless (h : Heap) (ptr : ℕ) : Prop :=
  KeepsAround (fun h => heapFree h ptr) h ∧
    ∀ i : ℤ, 0 ≤ i → i < h.total → (heapFree h ptr).entries i = h.entries i

/-- The block index of the pointer lies behind the table, or in the table at an entry that is 0. -/
def PastOrFree (h : Heap) (ptr : ℕ) : Prop :=
  h.total ≤ heapAddressToBlock h ptr ∨
    (0 ≤ heapAddressToBlock h ptr ∧
      h.entries (heapAddressToBlock h ptr) = heapBlockTableEntryFree)

theorem heapFree_eq (h : Heap) (ptr : ℕ) : heapFree h ptr =
    if heapAddressToBlock h ptr < h.total then
      h.setEntry (heapAddressToBlock h ptr) heapBlockTableEntryFree else h :=
  heapMarkBlocksFree_eq h _

theorem heapFree_entries (h : Heap) (ptr : ℕ) (i : ℤ) : (heapFree h ptr).entries i =
    if i = heapAddressToBlock h ptr ∧ heapAddressToBlock h ptr < h.total then
      heapBlockTableEntryFree else h.entries i := by
  rw [heapFree_eq]
  split_ifs with hlt hi hi
  · rw [Heap.setEntry_entries, if_pos hi.1]
  · rw [Heap.setEntry_entries, if_neg fun heq => hi ⟨heq, hlt⟩]
  · exact absurd hi.2 hlt
  · rfl

theorem SameEntries.addressToBlock {h' : Heap} (hs : SameEntries h h') (ptr : ℕ) :
    heapAddressToBlock h' ptr = heapAddressToBlock h ptr := by
  rw [heapAddressToBlock, hs.saddr, heapAddressToBlock]

theorem harmless_iff (h : Heap) (ptr : ℕ) : Harmless h ptr ↔ PastOrFree h ptr := by
  constructor
  · intro hharm
    by_cases hpast : h.total ≤ heapAddressToBlock h ptr
    · exact Or.inl hpast
    have hlt : heapAddressToBlock h ptr < h.total := by omega
    have hnonneg : 0 ≤ heapAddressToBlock h ptr := by
      by_contra hneg
      -- a surrounding byte that is not 0 would be overwritten
      have hsame : SameEntries h (h.setEntry (heapAddressToBlock h ptr) 1) := by
        refine ⟨rfl, rfl, fun i hi _ => ?_⟩
        rw [Heap.setEntry_entries, if_neg (by omega)]
      have hkeep := hharm.1 _ hsame (heapAddressToBlock h ptr) (Or.inl (by omega))
      rw [heapFree_entries, hsame.addressToBlock, if_pos ⟨rfl, hlt⟩, Heap.setEntry_entries,
        if_pos rfl] at hkeep
      exact absurd hkeep (by decide)
    have htable := hharm.2 _ hnonneg hlt
    rw [heapFree_entries, if_pos ⟨rfl, hlt⟩] at htable
    exact Or.inr ⟨hnonneg, htable.symm⟩
  · intro hcond
    constructor
    · intro h' hs i hi
      dsimp only
      rw [heapFree_entries, hs.addressToBlock, hs.total]
      split_ifs with hc
      · rcases hcond with hpast | ⟨hnonneg, -⟩ <;> omega
      · rfl
    · intro i hi hlt
      rw [heapFree_entries]
      split_ifs with hc
      · rcases hcond with hpast | ⟨-, hzero⟩
        · omega
        · rw [hc.1, hzero]
      · rfl

theorem release_harmless_iff (h : Heap) (k : KernelHeap) (ptr : UInt32) :
    (Harmless h ptr.toNat ↔ PastOrFree h ptr.toNat) ∧
      (k.free ptr.toNat).toHeap = heapFree k.toHeap ptr.toNat ∧
      (Harmless k.toHeap ptr.toNat ↔ PastOrFree k.toHeap ptr.toNat) :=
  ⟨harmless_iff h ptr.toNat, rfl, harmless_iff k.toHeap ptr.toNat⟩

/-- `kfree(0)` on the fresh kernel heap writes 4096 bytes below the table. -/
theorem free_null_not_harmless : ¬Harmless kheapInit.toHeap 0 := by
  have hblock : heapAddressToBlock kheapInit.toHeap 0 = -4096 := by decide
  rw [harmless_iff, PastOrFree, hblock]
  have htotal : kheapInit.total = 25600 := rfl
  omega

end Release

end Dexter.HeapContract
