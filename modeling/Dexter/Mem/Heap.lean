import Dexter.Machine
import Dexter.Lib.BlockPool

/-!
# The block heap (`mem/heap.c`)

A heap is a table of one byte per 4096-byte block. `entries i` is the byte at
`table->entries + i`: the table proper is `0 .. total-1`, and a write outside it
lands in the memory around the table. What `heap_create` has checked is carried
by the structure.

The first part follows `heap.c`, the second says once what the search, the
marking and the freeing do. `HEAP_BLOCK_HAS_NEXT` is bit 8 and the entry type has
eight bits, so the flag is never stored and never found (`setHasNext_eq`,
`hasNext_eq_false`).
-/

namespace Dexter
open Lib.BlockPool

abbrev HeapBlockTableEntry := UInt8

abbrev heapBlockTableEntryTaken : ℕ := 0x01
abbrev heapBlockTableEntryFree : HeapBlockTableEntry := 0x00
abbrev heapBlockHasNext : ℕ := 0b100000000
abbrev heapBlockIsFirst : ℕ := 0b010000000

structure HeapTable where
  entries : ℤ → HeapBlockTableEntry
  total : ℕ

structure Heap extends HeapTable where
  saddr : ℕ
  saddr_lt : saddr < 4294967296
  saddr_aligned : saddr % dexterHeapBlockSize = 0
  total_lt : total < 1048576

def heapValidateTable (ptr limit : UInt32) (table : HeapTable) : ℤ :=
  let tableSize := (limit - ptr).toNat
  let totalBlocks := tableSize / dexterHeapBlockSize
  if table.total ≠ totalBlocks then -eInvArg else 0

def heapValidateAlignment (ptr : UInt32) : Bool :=
  ptr.toNat % dexterHeapBlockSize == 0

theorem heapValidateTable_total {ptr limit : UInt32} {table : HeapTable}
    (h : ¬heapValidateTable ptr limit table < 0) : table.total < 1048576 := by
  have hlt := (limit - ptr).toNat_lt
  unfold heapValidateTable at h
  dsimp only at h
  split_ifs at h with heq
  · exact absurd (by decide) h
  · simp only [dexterHeapBlockSize, not_not] at heq
    omega

def HeapTable.fill (table : HeapTable) (value : HeapBlockTableEntry) (size : ℕ) : HeapTable :=
  { table with entries := fun i => if 0 ≤ i ∧ i < size then value else table.entries i }

def heapCreate (ptr limit : UInt32) (table : HeapTable) : Except ℤ Heap :=
  if hal : ¬heapValidateAlignment ptr ∨ ¬heapValidateAlignment limit then .error (-eInvArg)
  else
    let r := heapValidateTable ptr limit table
    if hr : r < 0 then .error r
    else .ok
      { table.fill heapBlockTableEntryFree table.total with
        saddr := ptr.toNat
        saddr_lt := ptr.toNat_lt
        saddr_aligned := by
          rw [not_or, not_not] at hal
          simpa [heapValidateAlignment] using hal.1
        total_lt := heapValidateTable_total hr }

def heapAlignValueToUpper (val : ℕ) : ℕ :=
  if val % dexterHeapBlockSize = 0 then val
  else u32 ((val - val % dexterHeapBlockSize : ℕ) + dexterHeapBlockSize)

def heapGetEntryType (entry : HeapBlockTableEntry) : HeapBlockTableEntry := entry &&& 0x0f

/-- The loop of `heap_get_start_block` with `k` blocks left to look at, `i` the next one. -/
def heapScan (h : Heap) (totalBlocks : ℕ) : (k i bc : ℕ) → (bs : ℤ) → ℤ
  | 0, _, _, bs => bs
  | k + 1, i, bc, bs =>
    if heapGetEntryType (h.entries i) ≠ heapBlockTableEntryFree then
      heapScan h totalBlocks k (i + 1) 0 (-1)
    else
      let bs := if bs = -1 then (i : ℤ) else bs
      let bc := bc + 1
      if bc = totalBlocks then bs else heapScan h totalBlocks k (i + 1) bc bs

def heapGetStartBlock (h : Heap) (totalBlocks : ℕ) : ℤ :=
  let bs := heapScan h totalBlocks h.total 0 0 (-1)
  if bs = -1 then -eNoMem else bs

def heapBlockToAddress (h : Heap) (block : ℤ) : ℕ :=
  u32 (h.saddr + i32 (block * dexterHeapBlockSize))

def heapAddressToBlock (h : Heap) (address : ℕ) : ℤ :=
  (i32 (address - h.saddr)).tdiv dexterHeapBlockSize

def Heap.setEntry (h : Heap) (i : ℤ) (entry : HeapBlockTableEntry) : Heap :=
  { h with entries := Function.update h.entries i entry }

/-- `entry |= HEAP_BLOCK_HAS_NEXT`, kept in the eight bits of an entry. -/
def setHasNext (entry : HeapBlockTableEntry) : HeapBlockTableEntry :=
  UInt8.ofNat (entry.toNat ||| heapBlockHasNext)

def hasNext (entry : HeapBlockTableEntry) : Bool :=
  entry.toNat &&& heapBlockHasNext != 0

def heapMarkTakenLoop (endBlock : ℤ) : ℕ → ℤ → HeapBlockTableEntry → Heap → Heap
  | 0, _, _, h => h
  | k + 1, i, entry, h =>
    let h := h.setEntry i entry
    let entry := UInt8.ofNat heapBlockTableEntryTaken
    let entry := if i ≠ endBlock - 1 then setHasNext entry else entry
    heapMarkTakenLoop endBlock k (i + 1) entry h

def heapMarkBlocksTaken (h : Heap) (startBlock totalBlocks : ℤ) : Heap :=
  let endBlock := startBlock + totalBlocks - 1
  let entry := UInt8.ofNat (heapBlockTableEntryTaken ||| heapBlockIsFirst)
  let entry := if totalBlocks > 1 then setHasNext entry else entry
  heapMarkTakenLoop endBlock (endBlock + 1 - startBlock).toNat startBlock entry h

def heapMarkFreeLoop : ℕ → ℤ → Heap → Heap
  | 0, _, h => h
  | k + 1, i, h =>
    let entry := h.entries i
    let h := h.setEntry i heapBlockTableEntryFree
    if ¬hasNext entry then h else heapMarkFreeLoop k (i + 1) h

def heapMarkBlocksFree (h : Heap) (startBlock : ℤ) : Heap :=
  heapMarkFreeLoop (h.total - startBlock).toNat startBlock h

/-- The address of the allocation, `0` where there is none, and the heap after it. -/
def heapMallocBlocks (h : Heap) (totalBlocks : ℕ) : ℕ × Heap :=
  let startBlock := heapGetStartBlock h totalBlocks
  if startBlock < 0 then (0, h)
  else (heapBlockToAddress h startBlock, heapMarkBlocksTaken h startBlock (i32 totalBlocks))

def heapMalloc (h : Heap) (size : ℕ) : ℕ × Heap :=
  heapMallocBlocks h (heapAlignValueToUpper size / dexterHeapBlockSize)

def heapFree (h : Heap) (ptr : ℕ) : Heap :=
  heapMarkBlocksFree h (heapAddressToBlock h ptr)

def Heap.IsFree (h : Heap) (b : ℕ) : Prop :=
  heapGetEntryType (h.entries b) = heapBlockTableEntryFree

instance (h : Heap) (b : ℕ) : Decidable (h.IsFree b) :=
  inferInstanceAs (Decidable (heapGetEntryType (h.entries b) = heapBlockTableEntryFree))

theorem heapCreate_isFree {ptr limit : UInt32} {table : HeapTable} {h : Heap}
    (created : heapCreate ptr limit table = .ok h) {b : ℕ} (hb : b < h.total) : h.IsFree b := by
  unfold heapCreate at created
  dsimp only at created
  split_ifs at created
  obtain rfl := Except.ok.inj created
  have hb' : (0 : ℤ) ≤ b ∧ (b : ℤ) < table.total := by
    have hlt : b < table.total := hb
    omega
  simp only [Heap.IsFree, HeapTable.fill, if_pos hb']
  rfl

/-- The flag is truncated away on every store. -/
theorem setHasNext_eq (entry : HeapBlockTableEntry) : setHasNext entry = entry := by
  apply UInt8.toNat_inj.mp
  have h := entry.toNat_lt
  rw [setHasNext, UInt8.toNat_ofNat', Nat.or_mod_two_pow, Nat.mod_eq_of_lt h]
  exact Nat.or_zero _

theorem hasNext_eq_false (entry : HeapBlockTableEntry) : hasNext entry = false := by
  have h : entry.toNat < 2 ^ 8 := entry.toNat_lt
  have h0 : entry.toNat &&& 2 ^ 8 = 0 := by
    rw [Nat.and_two_pow, Nat.testBit_lt_two_pow h]
    rfl
  show (entry.toNat &&& 2 ^ 8 != 0) = false
  rw [h0]
  rfl

@[simp] theorem Heap.setEntry_saddr (h : Heap) (i : ℤ) (e : HeapBlockTableEntry) :
    (h.setEntry i e).saddr = h.saddr := rfl
@[simp] theorem Heap.setEntry_total (h : Heap) (i : ℤ) (e : HeapBlockTableEntry) :
    (h.setEntry i e).total = h.total := rfl
@[simp] theorem Heap.setEntry_entries (h : Heap) (i j : ℤ) (e : HeapBlockTableEntry) :
    (h.setEntry i e).entries j = if j = i then e else h.entries j :=
  Function.update_apply h.entries i e j

theorem heapMarkTakenLoop_entries (endBlock : ℤ) (k : ℕ) (i : ℤ) (entry : HeapBlockTableEntry)
    (h : Heap) (j : ℤ) : (heapMarkTakenLoop endBlock k i entry h).entries j =
      if i ≤ j ∧ j < i + k then (if j = i then entry else 0x01) else h.entries j := by
  induction k generalizing i entry h with
  | zero =>
    have hno : ¬(i ≤ j ∧ j < i + (0 : ℕ)) := by omega
    rw [if_neg hno]
    rfl
  | succ k ih =>
    have hentry : (if i ≠ endBlock - 1 then setHasNext (UInt8.ofNat heapBlockTableEntryTaken)
        else UInt8.ofNat heapBlockTableEntryTaken) = 0x01 := by
      rw [setHasNext_eq, ite_self]
      rfl
    simp only [heapMarkTakenLoop, hentry, ih, Heap.setEntry_entries, Nat.cast_add, Nat.cast_one]
    split_ifs <;> first | rfl | omega

@[simp] theorem heapMarkTakenLoop_total (endBlock : ℤ) (k : ℕ) (i : ℤ)
    (entry : HeapBlockTableEntry) (h : Heap) :
    (heapMarkTakenLoop endBlock k i entry h).total = h.total := by
  induction k generalizing i entry h with
  | zero => rfl
  | succ k ih => exact ih _ _ _

@[simp] theorem heapMarkTakenLoop_saddr (endBlock : ℤ) (k : ℕ) (i : ℤ)
    (entry : HeapBlockTableEntry) (h : Heap) :
    (heapMarkTakenLoop endBlock k i entry h).saddr = h.saddr := by
  induction k generalizing i entry h with
  | zero => rfl
  | succ k ih => exact ih _ _ _

@[simp] theorem heapMarkBlocksTaken_total (h : Heap) (s n : ℤ) :
    (heapMarkBlocksTaken h s n).total = h.total := heapMarkTakenLoop_total _ _ _ _ _
@[simp] theorem heapMarkBlocksTaken_saddr (h : Heap) (s n : ℤ) :
    (heapMarkBlocksTaken h s n).saddr = h.saddr := heapMarkTakenLoop_saddr _ _ _ _ _

theorem heapMarkBlocksTaken_entries (h : Heap) (s : ℤ) (n : ℕ) (j : ℤ) :
    (heapMarkBlocksTaken h s n).entries j =
      if s ≤ j ∧ j < s + n then (if j = s then 0x81 else 0x01) else h.entries j := by
  have hk : (s + n - 1 + 1 - s).toNat = n := by omega
  have hentry : (if (n : ℤ) > 1 then
      setHasNext (UInt8.ofNat (heapBlockTableEntryTaken ||| heapBlockIsFirst))
      else UInt8.ofNat (heapBlockTableEntryTaken ||| heapBlockIsFirst)) = 0x81 := by
    rw [setHasNext_eq, ite_self]
    rfl
  simp only [heapMarkBlocksTaken, hk, hentry, heapMarkTakenLoop_entries]

/-- Freeing clears the one entry it starts at, for every length of the allocation. -/
theorem heapMarkBlocksFree_eq (h : Heap) (s : ℤ) : heapMarkBlocksFree h s =
    if s < h.total then h.setEntry s heapBlockTableEntryFree else h := by
  unfold heapMarkBlocksFree
  split_ifs with hs
  · obtain ⟨k, hk⟩ : ∃ k, (h.total - s).toNat = k + 1 := ⟨(h.total - s).toNat - 1, by omega⟩
    rw [hk, heapMarkFreeLoop]
    simp only [hasNext_eq_false, Bool.false_eq_true, not_false_eq_true, if_true]
  · have hk : (h.total - s).toNat = 0 := by omega
    rw [hk]
    rfl

/-- What `heap_get_start_block` can return: the first run that is long enough; where
there is none, the start of the shorter run the table ends in; or the error, where the
table ends in a block that is taken. -/
inductive StartBlock (h : Heap) (n : ℕ) : ℤ → Prop
  | fits (s : ℕ) (pos : 1 ≤ n) (inside : s + n ≤ h.total) (run : IsRun h.IsFree s n)
      (first : ∀ s' < s, ¬IsRun h.IsFree s' n) : StartBlock h n s
  | ragged (s : ℕ) (starts : s < h.total) (run : IsRun h.IsFree s (h.total - s))
      (short : n = 0 ∨ h.total < s + n)
      (noRun : 1 ≤ n → ∀ s', s' + n ≤ h.total → ¬IsRun h.IsFree s' n) : StartBlock h n s
  | full (noRun : 1 ≤ n → ∀ s', s' + n ≤ h.total → ¬IsRun h.IsFree s' n)
      (last : ∀ b, b + 1 = h.total → ¬h.IsFree b) : StartBlock h n (-eNoMem)

/-- The loop state before block `i`: either block `i-1` was not free and no run is open,
or the open run starts at `bs` and has `bc` blocks. -/
def ScanState (h : Heap) (n i bc : ℕ) (bs : ℤ) : Prop :=
  (1 ≤ n → ∀ s', s' + n ≤ i → ¬IsRun h.IsFree s' n) ∧
  ((bs = -1 ∧ bc = 0 ∧ ∀ b, b + 1 = i → ¬h.IsFree b) ∨
    ∃ s : ℕ, bs = s ∧ s + bc = i ∧ 1 ≤ bc ∧ IsRun h.IsFree s bc ∧ (n = 0 ∨ bc < n) ∧
      ∀ b, b + 1 = s → ¬h.IsFree b)

theorem ScanState.init (h : Heap) (n : ℕ) : ScanState h n 0 0 (-1) :=
  ⟨fun hn s' hs' => by omega, Or.inl ⟨rfl, rfl, fun b hb => by omega⟩⟩

theorem ScanState.taken {h : Heap} {n i bc : ℕ} {bs : ℤ} (inv : ScanState h n i bc bs)
    (ht : ¬h.IsFree i) : ScanState h n (i + 1) 0 (-1) := by
  refine ⟨fun hn s' hs' hrun => ?_, Or.inl ⟨rfl, rfl, fun b hb => ?_⟩⟩
  · have hle := hrun.not_across ht (by omega)
    exact inv.1 hn s' hle hrun
  · obtain rfl : b = i := by omega
    exact ht

theorem ScanState.grow {h : Heap} {n i bc : ℕ} {bs : ℤ} (inv : ScanState h n i bc bs)
    (hf : h.IsFree i) : ∃ s : ℕ, (if bs = -1 then (i : ℤ) else bs) = s ∧ s + bc = i ∧
      IsRun h.IsFree s (bc + 1) ∧ (n = 0 ∨ bc < n ∨ bc = 0) ∧
      ∀ b, b + 1 = s → ¬h.IsFree b := by
  obtain ⟨-, ⟨rfl, rfl, hprev⟩ | ⟨s, rfl, hs, hbc, hrun, hlt, hprev⟩⟩ := inv
  · refine ⟨i, rfl, rfl, ?_, by omega, hprev⟩
    exact (IsRun.zero _ _).snoc hf
  · have hne : (s : ℤ) ≠ -1 := by omega
    refine ⟨s, if_neg hne, hs, hrun.snoc (hs ▸ hf), by omega, hprev⟩

theorem ScanState.noRun_succ {h : Heap} {n i s bc : ℕ} {bs : ℤ} (inv : ScanState h n i bc bs)
    (hs : s + bc = i) (hprev : ∀ b, b + 1 = s → ¬h.IsFree b) (hne : bc + 1 < n) :
    1 ≤ n → ∀ s', s' + n ≤ i + 1 → ¬IsRun h.IsFree s' n := by
  intro hn s' hs' hrun
  rcases Nat.lt_or_ge (s' + n) (i + 1) with hlt | hge
  · exact inv.1 hn s' (by omega) hrun
  · -- a run ending at block `i` would start before the open one
    obtain ⟨b, hb⟩ : ∃ b, b + 1 = s := ⟨s - 1, by omega⟩
    have hle := hrun.not_across (hprev b hb) (by omega)
    omega

theorem heapScan_spec (h : Heap) (n k i bc : ℕ) (bs : ℤ) (hk : i + k = h.total)
    (inv : ScanState h n i bc bs) :
    StartBlock h n (if heapScan h n k i bc bs = -1 then -eNoMem else heapScan h n k i bc bs) := by
  induction k generalizing i bc bs with
  | zero =>
    obtain rfl : i = h.total := by omega
    obtain ⟨hno, ⟨rfl, -, hlast⟩ | ⟨s, rfl, hs, hbc, hrun, hlt, -⟩⟩ := inv
    · exact StartBlock.full hno hlast
    · have hne : heapScan h n 0 h.total bc s ≠ -1 := by
        rw [heapScan]
        omega
      have hlen : h.total - s = bc := by omega
      rw [if_neg hne]
      exact StartBlock.ragged s (by omega) (hlen ▸ hrun) (by omega) hno
  | succ k ih =>
    by_cases hf : h.IsFree i
    · have hfree : ¬heapGetEntryType (h.entries i) ≠ heapBlockTableEntryFree := not_not.mpr hf
      obtain ⟨s, hbs, hs, hrun, hlt, hprev⟩ := inv.grow hf
      simp only [heapScan, if_neg hfree, hbs]
      by_cases hn : bc + 1 = n
      · have hne : (s : ℤ) ≠ -1 := by omega
        rw [if_pos hn, if_neg hne]
        refine StartBlock.fits s (by omega) (by omega) (hn ▸ hrun) fun s' hs' hrun' => ?_
        exact inv.1 (by omega) s' (by omega) hrun'
      · rw [if_neg hn]
        refine ih (i + 1) (bc + 1) s (by omega) ⟨?_, Or.inr ⟨s, rfl, by omega, by omega, hrun,
          by omega, hprev⟩⟩
        rcases Nat.eq_zero_or_pos n with rfl | hpos
        · intro h0
          omega
        · exact inv.noRun_succ hs hprev (by omega)
    · have htaken : heapGetEntryType (h.entries i) ≠ heapBlockTableEntryFree := hf
      simp only [heapScan, if_pos htaken]
      exact ih (i + 1) 0 (-1) (by omega) (inv.taken hf)

theorem heapGetStartBlock_spec (h : Heap) (n : ℕ) : StartBlock h n (heapGetStartBlock h n) :=
  heapScan_spec h n h.total 0 0 (-1) (by omega) (ScanState.init h n)

theorem heapGetStartBlock_free (h : Heap) (n : ℕ) :
    heapGetStartBlock h n = -eNoMem ∨
    ∃ s : ℕ, heapGetStartBlock h n = s ∧ s < h.total ∧ h.IsFree s ∧
      ∀ b, s ≤ b → b < s + n → b < h.total → h.IsFree b := by
  have hspec := heapGetStartBlock_spec h n
  generalize heapGetStartBlock h n = r at hspec
  cases hspec with
  | fits s pos inside run first =>
    exact Or.inr ⟨s, rfl, by omega, run s le_rfl (by omega), fun b hb hb' _ => run b hb hb'⟩
  | ragged s starts run short noRun =>
    exact Or.inr ⟨s, rfl, starts, run s le_rfl (by omega), fun b hb _ hb' => run b hb (by omega)⟩
  | full noRun last => exact Or.inl rfl

/-- Blocks from `2^19` on lie 2 GB or more above the start, where the signed distance of
an address has wrapped. -/
theorem heapAddressToBlock_heapBlockToAddress (h : Heap) {s : ℕ} (hs : s < 1048576) :
    heapAddressToBlock h (heapBlockToAddress h s) =
      if s < 524288 then (s : ℤ) else (s : ℤ) - 1048576 := by
  have hlt := h.saddr_lt
  have hblock : i32 ((heapBlockToAddress h s : ℤ) - h.saddr) =
      (if s < 524288 then (s : ℤ) else (s : ℤ) - 1048576) * 4096 := by
    simp only [heapBlockToAddress, u32, i32, dexterHeapBlockSize]
    split_ifs <;> omega
  simp only [heapAddressToBlock, hblock, dexterHeapBlockSize]
  exact Int.mul_tdiv_cancel _ (by decide)

theorem heapBlockToAddress_congr {h h' : Heap} (hs : h'.saddr = h.saddr) (b : ℤ) :
    heapBlockToAddress h' b = heapBlockToAddress h b := by
  simp only [heapBlockToAddress, hs]

theorem isFree_markTaken (h : Heap) (s n b : ℕ) :
    (heapMarkBlocksTaken h s n).IsFree b ↔ h.IsFree b ∧ b ∉ Region.blocks ⟨s, n⟩ := by
  rw [Region.mem_blocks, Heap.IsFree, heapMarkBlocksTaken_entries]
  by_cases hb : s ≤ b ∧ b < s + n
  · have hb' : (s : ℤ) ≤ b ∧ (b : ℤ) < s + n := by omega
    rw [if_pos hb']
    have htaken : ¬heapGetEntryType (if (b : ℤ) = s then 0x81 else 0x01) =
        heapBlockTableEntryFree := by split_ifs <;> decide
    exact iff_of_false htaken fun hc => hc.2 hb
  · have hb' : ¬((s : ℤ) ≤ b ∧ (b : ℤ) < s + n) := by omega
    rw [if_neg hb']
    exact ⟨fun hf => ⟨hf, hb⟩, fun hc => hc.1⟩

theorem isFree_heapFree (h : Heap) {s : ℕ} (hs : s < h.total) (b : ℕ) :
    (heapFree h (heapBlockToAddress h s)).IsFree b ↔ h.IsFree b ∨ (b = s ∧ s < 524288) := by
  have hlt := h.total_lt
  rw [heapFree, heapAddressToBlock_heapBlockToAddress h (by omega), heapMarkBlocksFree_eq]
  split_ifs with hlow hin hin
  · rw [Heap.IsFree, Heap.setEntry_entries]
    by_cases hb : b = s
    · subst hb
      rw [if_pos rfl]
      exact iff_of_true rfl (Or.inr ⟨rfl, hlow⟩)
    · rw [if_neg (by omega)]
      exact ⟨Or.inl, fun h => h.resolve_right fun hc => hb hc.1⟩
  · omega
  · rw [Heap.IsFree, Heap.setEntry_entries, if_neg (by omega)]
    exact ⟨Or.inl, fun h => h.resolve_right fun hc => hlow hc.2⟩
  · exact ⟨Or.inl, fun h => h.resolve_right fun hc => hlow hc.2⟩

theorem heapFree_entries_of_ne (h : Heap) {s : ℕ} (hs : s < h.total) {b : ℕ} (hb : b ≠ s) :
    (heapFree h (heapBlockToAddress h s)).entries b = h.entries b := by
  have hlt := h.total_lt
  rw [heapFree, heapAddressToBlock_heapBlockToAddress h (by omega), heapMarkBlocksFree_eq]
  split_ifs with hlow hin hin <;> first
    | rfl
    | rw [Heap.setEntry_entries, if_neg (by omega)]

@[simp] theorem heapFree_total (h : Heap) (p : ℕ) : (heapFree h p).total = h.total := by
  rw [heapFree, heapMarkBlocksFree_eq]
  split_ifs <;> rfl

@[simp] theorem heapFree_saddr (h : Heap) (p : ℕ) : (heapFree h p).saddr = h.saddr := by
  rw [heapFree, heapMarkBlocksFree_eq]
  split_ifs <;> rfl

inductive MallocBlocks (h : Heap) (n : ℕ) : ℕ × Heap → Prop
  | fails (none : heapGetStartBlock h n = -eNoMem) : MallocBlocks h n (0, h)
  | takes (s : ℕ) (found : heapGetStartBlock h n = s) (starts : s < h.total)
      (free : h.IsFree s) (run : ∀ b ∈ Region.blocks ⟨s, n⟩, b < h.total → h.IsFree b) :
      MallocBlocks h n (heapBlockToAddress h s, heapMarkBlocksTaken h s n)

theorem heapMallocBlocks_of_none {h : Heap} {n : ℕ} (hnone : heapGetStartBlock h n = -eNoMem) :
    heapMallocBlocks h n = (0, h) := by
  rw [heapMallocBlocks, hnone, if_pos (by decide)]

theorem heapMallocBlocks_of_start {h : Heap} {n s : ℕ} (hs : heapGetStartBlock h n = s)
    (hn : n < 2147483648) :
    heapMallocBlocks h n = (heapBlockToAddress h s, heapMarkBlocksTaken h s n) := by
  have hneg : ¬(s : ℤ) < 0 := by omega
  rw [heapMallocBlocks, hs, if_neg hneg, i32_natCast hn]

theorem heapMallocBlocks_spec (h : Heap) {n : ℕ} (hn : n < 2147483648) :
    MallocBlocks h n (heapMallocBlocks h n) := by
  rcases heapGetStartBlock_free h n with hnone | ⟨s, hs, hstart, hfree, hrun⟩
  · rw [heapMallocBlocks_of_none hnone]
    exact .fails hnone
  · rw [heapMallocBlocks_of_start hs hn]
    refine .takes s hs hstart hfree fun b hb => ?_
    rw [Region.mem_blocks] at hb
    exact hrun b hb.1 hb.2

theorem heapAlignValueToUpper_blocks {size : ℕ} (h : size ≤ 4294963200) :
    heapAlignValueToUpper size / dexterHeapBlockSize = (size + 4095) / 4096 := by
  simp only [heapAlignValueToUpper, u32, dexterHeapBlockSize]
  split_ifs <;> omega

theorem heapAlignValueToUpper_lt {size : ℕ} (h : size < 4294967296) :
    heapAlignValueToUpper size / dexterHeapBlockSize < 1048576 := by
  simp only [heapAlignValueToUpper, u32, dexterHeapBlockSize]
  split_ifs <;> omega

theorem heapMallocBlocks_table (h : Heap) (n : ℕ) :
    (heapMallocBlocks h n).2.saddr = h.saddr ∧ (heapMallocBlocks h n).2.total = h.total := by
  rw [heapMallocBlocks]
  split_ifs
  · exact ⟨rfl, rfl⟩
  · exact ⟨heapMarkBlocksTaken_saddr .., heapMarkBlocksTaken_total ..⟩

end Dexter
