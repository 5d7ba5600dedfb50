import Dexter.Mem.KernelHeap
import Dexter.Lib.TwoLevel

/-!
# Page directories (`mem/paging.c`)

A chunk names a page directory, the directory names 1024 page tables. Directories
and tables are rows of 1024 words at page addresses; `spaceFrames` are the frames
a chunk and everything below it are built in. A chunk whose frames are recorded as
taken and whose tables are separate is an `AddressSpace`: `paging_new_4gb` builds
one out of nobody's frames, `paging_map_to` rewrites a range of its entries and
`paging_free_4gb` leaves the frames of everybody else alone.
-/

namespace Dexter
open Lib.Programs Lib.Faults Lib.TwoLevel

@[simp] abbrev pagingAccessFromAll : ℕ := 0b00000100
@[simp] abbrev pagingIsWriteable : ℕ := 0b00000010
@[simp] abbrev pagingIsPresent : ℕ := 0b00000001
@[simp] abbrev pagingTotalEntriesPerTable : ℕ := 1024
@[simp] abbrev pagingPageSize : ℕ := 4096

/-- The kernel heap with the paging objects in it: `pages p i` is word `i` of the page at `p`,
`chunks c` the `directory_entry` of the chunk at `c`. -/
structure PagingLayer (σ : Type) where
  heap : σ
  pages : ℕ → ℕ → ℕ
  chunks : ℕ → ℕ
  cr3 : ℕ
  currentDirectory : ℕ

abbrev Memory := PagingLayer KernelHeap

namespace PagingLayer
variable {σ : Type}

def onHeap {α : Type} (prog : Prog Crash σ α) : Prog Crash (PagingLayer σ) α :=
  zoom heap (fun k m => { m with heap := k }) prog

def readWord (p i : ℕ) : Prog Crash (PagingLayer σ) ℕ := do
  let m ← get
  if p = 0 then abort .nullPointer else pure (m.pages p i)

def writeWord (p i w : ℕ) : Prog Crash (PagingLayer σ) Unit :=
  if p = 0 then abort .nullPointer else modify fun m => { m with pages := setWord m.pages p i w }

def directoryEntry (chunk : ℕ) : Prog Crash (PagingLayer σ) ℕ := do
  let m ← get
  if chunk = 0 then abort .nullPointer else pure (m.chunks chunk)

def setDirectoryEntry (chunk directory : ℕ) : Prog Crash (PagingLayer σ) Unit :=
  if chunk = 0 then abort .nullPointer
  else modify fun m => { m with chunks := Function.update m.chunks chunk directory }

end PagingLayer
open PagingLayer

section Building
variable {σ : Type} [Requests σ]

def pagingFillTable (flags entry : ℕ) (offset : ℤ) : Prog Crash (PagingLayer σ) Unit :=
  countUp (fun b _ => writeWord entry b (u32 (offset + b * pagingPageSize) ||| flags))
    pagingTotalEntriesPerTable ()

/-- The outer loop of `paging_new_4gb`, which carries `offset`. -/
def pagingNewTable (flags directory i : ℕ) (offset : ℤ) : Prog Crash (PagingLayer σ) ℤ := do
  let entry ← onHeap (kzalloc (4 * pagingTotalEntriesPerTable))
  pagingFillTable flags entry offset
  writeWord directory i (entry ||| flags ||| pagingIsWriteable)
  pure (i32 (offset + pagingTotalEntriesPerTable * pagingPageSize))

def pagingNew4gb (flags : ℕ) : Prog Crash (PagingLayer σ) ℕ := do
  let directory ← onHeap (kzalloc (4 * pagingTotalEntriesPerTable))
  let _ ← countUp (pagingNewTable flags directory) pagingTotalEntriesPerTable 0
  let chunk4gb ← onHeap (kzalloc 4)
  setDirectoryEntry chunk4gb directory
  pure chunk4gb

def entryTable (entry : ℕ) : ℕ := entry &&& 0xfffff000

def pagingFree4gb (chunk : ℕ) : Prog Crash (PagingLayer σ) Unit := do
  countUp (fun i _ => do
    let directory ← directoryEntry chunk
    let entry ← readWord directory i
    onHeap (kfree (entryTable entry))) 1024 ()
  let directory ← directoryEntry chunk
  onHeap (kfree directory)
  onHeap (kfree chunk)

end Building

def pagingSwitch (chunk : ℕ) : Prog Crash Memory Unit := do
  let directory ← directoryEntry chunk
  modify fun m => { m with cr3 := directory, currentDirectory := directory }

def pagingIsAligned (addr : ℕ) : Bool := addr % pagingPageSize == 0

/-- The result and the two indexes, which keep their values where the address is not aligned. -/
def pagingGetIndexes (virtualAddress : ℕ) (out : ℕ × ℕ) : ℤ × ℕ × ℕ :=
  if ¬pagingIsAligned virtualAddress then (-eInvArg, out)
  else (0, virtualAddress / (pagingTotalEntriesPerTable * pagingPageSize),
    virtualAddress % (pagingTotalEntriesPerTable * pagingPageSize) / pagingPageSize)

def pagingAlignAddress (ptr : ℕ) : ℕ :=
  if ptr % pagingPageSize ≠ 0 then u32 (ptr + pagingPageSize - (ptr % pagingPageSize : ℕ)) else ptr

def pagingGet (directory virt : ℕ) : Prog Crash Memory ℕ := do
  let r := pagingGetIndexes virt (0, 0)
  let entry ← readWord directory r.2.1
  readWord (entryTable entry) r.2.2

def pagingSet (directory virt val : ℕ) : Prog Crash Memory ℤ :=
  if ¬pagingIsAligned virt then pure (-eInvArg)
  else
    let r := pagingGetIndexes virt (0, 0)
    if r.1 < 0 then pure r.1
    else do
      let entry ← readWord directory r.2.1
      writeWord (entryTable entry) r.2.2 val
      pure 0

def pagingMap (directory virt phys flags : ℕ) : Prog Crash Memory ℤ :=
  if virt % pagingPageSize ≠ 0 ∨ phys % pagingPageSize ≠ 0 then pure (-eInvArg)
  else do
    let d ← directoryEntry directory
    pagingSet d virt (phys ||| flags)

def pagingMapRangeLoop (directory flags : ℕ) : (k virt phys : ℕ) → ℤ → Prog Crash Memory ℤ
  | 0, _, _, r => pure r
  | k + 1, virt, phys, _ => do
    let r ← pagingMap directory virt phys flags
    if r < 0 then pure r
    else
      pagingMapRangeLoop directory flags k (u32 (virt + pagingPageSize))
        (u32 (phys + pagingPageSize)) r

def pagingMapRange (directory virt phys : ℕ) (count : ℤ) (flags : ℕ) : Prog Crash Memory ℤ :=
  pagingMapRangeLoop directory flags count.toNat virt phys 0

def pagingMapTo (directory virt phys physEnd flags : ℕ) : Prog Crash Memory ℤ :=
  if virt % pagingPageSize ≠ 0 then pure (-eInvArg)
  else if phys % pagingPageSize ≠ 0 then pure (-eInvArg)
  else if physEnd % pagingPageSize ≠ 0 then pure (-eInvArg)
  else if physEnd < phys then pure (-eInvArg)
  else
    let totalBytes := physEnd - phys
    let totalPages := totalBytes / pagingPageSize
    pagingMapRange directory virt phys totalPages flags

theorem entryTable_eq (w : ℕ) : entryTable w = 4096 * (w / 4096 % 1048576) := by
  have hmask : (0xfffff000 : ℕ) = 2 ^ 12 * (2 ^ 20 - 1) := by norm_num
  show w &&& 0xfffff000 = 2 ^ 12 * (w / 2 ^ 12 % 2 ^ 20)
  rw [hmask]
  apply Nat.eq_of_testBit_eq
  intro i
  rw [Nat.testBit_and, Nat.testBit_two_pow_mul, Nat.testBit_two_pow_mul,
    Nat.testBit_two_pow_sub_one, Nat.testBit_mod_two_pow, Nat.testBit_div_two_pow]
  by_cases hi : 12 ≤ i
  · rw [Nat.sub_add_cancel hi]
    simp [hi, Bool.and_comm]
  · simp [hi]

theorem entryTable_aligned (w : ℕ) : entryTable w % 4096 = 0 ∧ entryTable w < 4294967296 := by
  rw [entryTable_eq]
  omega

theorem or_flags {p f : ℕ} (hp : p % 4096 = 0) (hf : f < 4096) : p ||| f = p + f := by
  have hsplit : p = 2 ^ 12 * (p / 4096) := by omega
  rw [hsplit]
  exact (Nat.two_pow_add_eq_or_of_lt hf (p / 4096)).symm

theorem entryTable_or {p f : ℕ} (hp : p % 4096 = 0) (hlt : p < 4294967296) (hf : f < 4096) :
    entryTable (p ||| f) = p := by
  rw [or_flags hp hf, entryTable_eq]
  omega

def pageCell (v : ℕ) : ℕ × ℕ := (v / 4194304, v % 4194304 / 4096)

namespace PagingLayer

def tableAt (m : Memory) (chunk i : ℕ) : ℕ := row entryTable m.pages (m.chunks chunk) i

def entryAt (m : Memory) (chunk v : ℕ) : ℕ :=
  lookup entryTable m.pages (m.chunks chunk) (pageCell v)

def spaceFrames (m : Memory) (chunk : ℕ) : Set ℕ :=
  {chunk, m.chunks chunk} ∪ {p | ∃ i < 1024, p = m.tableAt chunk i}

structure AddressSpace (m : Memory) (chunk : ℕ) : Prop where
  owned : m.heap.Owns (m.spaceFrames chunk)
  separated : Separated entryTable 1024 m.pages (m.chunks chunk)

def AgreeOn (A : Set ℕ) (m m' : Memory) : Prop :=
  ∀ p ∈ A, m'.pages p = m.pages p ∧ m'.chunks p = m.chunks p

variable {m m' : Memory} {chunk : ℕ} {A : Set ℕ}

theorem chunk_mem (m : Memory) (chunk : ℕ) : chunk ∈ m.spaceFrames chunk :=
  Or.inl (Set.mem_insert _ _)

theorem directory_mem (m : Memory) (chunk : ℕ) : m.chunks chunk ∈ m.spaceFrames chunk :=
  Or.inl (Set.mem_insert_of_mem _ rfl)

theorem table_mem (m : Memory) (chunk : ℕ) {i : ℕ} (hi : i < 1024) :
    m.tableAt chunk i ∈ m.spaceFrames chunk := Or.inr ⟨i, hi, rfl⟩

theorem spaceFrames_congr (h : AgreeOn (m.spaceFrames chunk) m m') :
    m'.spaceFrames chunk = m.spaceFrames chunk := by
  have hc := (h _ (m.chunk_mem chunk)).2
  have hd := (h _ (m.directory_mem chunk)).1
  unfold spaceFrames tableAt
  simp only [hc, row_congr hd]

theorem entryAt_congr (h : AgreeOn (m.spaceFrames chunk) m m') {v : ℕ} (hv : v < 4294967296) :
    m'.entryAt chunk v = m.entryAt chunk v := by
  have hc := (h _ (m.chunk_mem chunk)).2
  have hd := (h _ (m.directory_mem chunk)).1
  have ht := (h _ (m.table_mem chunk (i := v / 4194304) (by omega))).1
  unfold entryAt lookup
  rw [hc, row_congr hd]
  exact congrFun ht _

theorem AddressSpace.congr (hs : m.AddressSpace chunk) (h : AgreeOn (m.spaceFrames chunk) m m')
    (howns : m'.heap.Owns (m.spaceFrames chunk)) : m'.AddressSpace chunk where
  owned := by
    rw [spaceFrames_congr h]
    exact howns
  separated := by
    rw [(h _ (m.chunk_mem chunk)).2]
    exact hs.separated.congr (h _ (m.directory_mem chunk)).1

theorem AddressSpace.chunk_ne (hs : m.AddressSpace chunk) : chunk ≠ 0 := by
  have h := hs.owned.pos (m.chunk_mem chunk)
  omega

theorem AddressSpace.directory_ne (hs : m.AddressSpace chunk) : m.chunks chunk ≠ 0 := by
  have h := hs.owned.pos (m.directory_mem chunk)
  omega

theorem AddressSpace.table_ne (hs : m.AddressSpace chunk) {i : ℕ} (hi : i < 1024) :
    m.tableAt chunk i ≠ 0 := by
  have h := hs.owned.pos (m.table_mem chunk hi)
  omega

theorem onHeap_kzalloc (m : Memory) (size : ℕ) : onHeap (kzalloc size) m =
    .ok ((m.heap.malloc size).1, { m with heap := (m.heap.malloc size).2 }) := rfl

theorem onHeap_kfree (m : Memory) (ptr : ℕ) :
    onHeap (kfree ptr) m = .ok ((), { m with heap := m.heap.free ptr }) := rfl

section Stores
variable {σ : Type}

theorem writeWord_of_ne {p : ℕ} (hp : p ≠ 0) (i w : ℕ) (m : PagingLayer σ) :
    writeWord p i w m = .ok ((), { m with pages := setWord m.pages p i w }) := by
  rw [writeWord, if_neg hp, modify_apply]

theorem setDirectoryEntry_ok {chunk directory : ℕ} {u : Unit} {m m' : PagingLayer σ} :
    setDirectoryEntry chunk directory m = .ok (u, m') ↔
      chunk ≠ 0 ∧ m' = { m with chunks := Function.update m.chunks chunk directory } := by
  unfold setDirectoryEntry
  split_ifs with hc
  · simp [hc]
  · simp only [modify_apply, Except.ok.injEq, Prod.mk.injEq, hc, ne_eq, not_false_eq_true,
      true_and]
    exact eq_comm

end Stores

theorem readWord_of_ne {p : ℕ} (hp : p ≠ 0) (i : ℕ) (m : Memory) :
    readWord p i m = .ok (m.pages p i, m) := by
  rw [readWord, bind_of_ok (get_apply m), if_neg hp, pure_apply]

theorem directoryEntry_of_ne (hc : chunk ≠ 0) (m : Memory) :
    directoryEntry chunk m = .ok (m.chunks chunk, m) := by
  rw [directoryEntry, bind_of_ok (get_apply m), if_neg hc, pure_apply]

end PagingLayer
open PagingLayer

def filledTable (pages : ℕ → ℕ → ℕ) (flags entry : ℕ) (offset : ℤ) (n p b : ℕ) : ℕ :=
  if p = entry ∧ b < n then u32 (offset + b * 4096) ||| flags else pages p b

theorem pagingFillTable_eq {σ : Type} {entry : ℕ} (he : entry ≠ 0) (flags : ℕ) (offset : ℤ)
    (m : PagingLayer σ) :
    pagingFillTable flags entry offset m =
      .ok ((), { m with pages := filledTable m.pages flags entry offset 1024 }) := by
  have hn : ∀ n, countUp (fun b _ => writeWord entry b (u32 (offset + b * pagingPageSize) ||| flags))
      n () m = .ok ((), { m with pages := filledTable m.pages flags entry offset n }) := by
    intro n
    induction n with
    | zero =>
      have h0 : filledTable m.pages flags entry offset 0 = m.pages := by
        funext p b
        simp [filledTable]
      rw [h0]
      rfl
    | succ n ih =>
      rw [countUp, bind_of_ok ih, writeWord_of_ne he]
      congr 3
      funext p b
      rw [setWord_apply]
      simp only [filledTable]
      by_cases hb : p = entry ∧ b = n
      · obtain ⟨rfl, rfl⟩ := hb
        simp
      · rw [if_neg hb]
        have hlt : p = entry ∧ b < n + 1 ↔ p = entry ∧ b < n := by omega
        simp only [hlt]
  exact hn 1024

theorem pagingFillTable_null {σ : Type} (flags : ℕ) (offset : ℤ) (m : PagingLayer σ) :
    pagingFillTable flags 0 offset m = .error .nullPointer :=
  countUp_of_error (by rw [writeWord, if_pos rfl, abort_apply]) 1023

def nextPages (pages : ℕ → ℕ → ℕ) (flags directory e i : ℕ) (offset : ℤ) : ℕ → ℕ → ℕ :=
  setWord (filledTable pages flags e offset 1024) directory i (e ||| flags ||| 2)

def withTable (m : Memory) (flags directory i : ℕ) (offset : ℤ) : Memory :=
  { m with
    heap := (m.heap.malloc 4096).2
    pages := nextPages m.pages flags directory (m.heap.malloc 4096).1 i offset }

theorem pagingNewTable_ok {flags directory i : ℕ} {offset o : ℤ} {m m' : Memory} :
    pagingNewTable flags directory i offset m = .ok (o, m') ↔
      (m.heap.malloc 4096).1 ≠ 0 ∧ directory ≠ 0 ∧ o = i32 (offset + 4194304) ∧
        m' = withTable m flags directory i offset := by
  rw [pagingNewTable, bind_of_ok (onHeap_kzalloc m _)]
  generalize hr : m.heap.malloc (4 * pagingTotalEntriesPerTable) = r
  have hr' : m.heap.malloc 4096 = r := hr
  rw [withTable, hr', nextPages]
  by_cases he : r.1 = 0
  · rw [he, bind_of_error (pagingFillTable_null _ _ _)]
    simp
  · rw [bind_of_ok (pagingFillTable_eq he _ _ _)]
    by_cases hd : directory = 0
    · rw [writeWord, if_pos hd, bind_of_error (abort_apply _ _)]
      simp [hd]
    · rw [bind_of_ok (writeWord_of_ne hd _ _ _), pure_apply]
      simp only [Except.ok.injEq, Prod.mk.injEq, ne_eq, he, hd, not_false_eq_true, true_and]
      exact ⟨fun h => ⟨h.1.symm, h.2.symm⟩, fun h => ⟨h.1.symm, h.2.symm⟩⟩

section NextPages
variable {pages : ℕ → ℕ → ℕ} {flags directory e i j p b : ℕ} {offset : ℤ}

theorem nextPages_of_ne (hpe : p ≠ e) (hpd : p ≠ directory) :
    nextPages pages flags directory e i offset p = pages p := by
  funext b
  simp only [nextPages, setWord_apply, filledTable, hpe, hpd, false_and, if_false]

theorem nextPages_directory (hde : directory ≠ e) (hj : j ≠ i) :
    nextPages pages flags directory e i offset directory j = pages directory j := by
  simp only [nextPages, setWord_apply, filledTable, hde, hj, false_and, and_false, if_false]

theorem nextPages_last : nextPages pages flags directory e i offset directory i =
    e ||| flags ||| 2 := by
  simp only [nextPages, setWord_apply, and_self, if_true]

theorem nextPages_table (hde : directory ≠ e) (hb : b < 1024) :
    nextPages pages flags directory e i offset e b = u32 (offset + b * 4096) ||| flags := by
  simp only [nextPages, setWord_apply, filledTable, hde.symm, hb, false_and, and_self, if_false,
    if_true]

theorem row_nextPages (hde : directory ≠ e) (hj : j ≠ i) :
    row entryTable (nextPages pages flags directory e i offset) directory j =
      row entryTable pages directory j := by
  rw [row, nextPages_directory hde hj, row]

theorem row_nextPages_last (hflags : flags < 4096) (he : e % 4096 = 0) (hlt : e < 4294967296) :
    row entryTable (nextPages pages flags directory e i offset) directory i = e := by
  have hw : flags ||| 2 < 4096 := Nat.or_lt_two_pow (n := 12) hflags (by decide)
  rw [row, nextPages_last, Nat.or_assoc]
  exact entryTable_or he hlt hw

end NextPages

structure Tables (flags directory i : ℕ) (pages : ℕ → ℕ → ℕ) : Prop where
  below : ∀ j < i, row entryTable pages directory j ≠ directory
  apart : ∀ j < i, ∀ l < i,
    row entryTable pages directory j = row entryTable pages directory l → j = l
  entries : ∀ j < i, ∀ b < 1024, pages (row entryTable pages directory j) b =
    (j * 4194304 + b * 4096) ||| flags
  words : ∀ j < i, pages directory j = row entryTable pages directory j ||| flags ||| 2

theorem u32_table {i b : ℕ} {offset : ℤ} (hi : i < 1024) (hb : b < 1024)
    (ho : offset = i32 (i * 4194304)) :
    u32 (offset + b * 4096) = i * 4194304 + b * 4096 := by
  rw [ho]
  unfold u32 i32
  omega

theorem Tables.next {pages : ℕ → ℕ → ℕ} {flags directory e i : ℕ} {offset : ℤ}
    (h : Tables flags directory i pages) (hi : i < 1024) (hflags : flags < 4096)
    (he : e % 4096 = 0) (hlt : e < 4294967296) (hde : directory ≠ e)
    (hnew : ∀ j < i, row entryTable pages directory j ≠ e) (ho : offset = i32 (i * 4194304)) :
    Tables flags directory (i + 1) (nextPages pages flags directory e i offset) := by
  have hrow : ∀ j < i, row entryTable (nextPages pages flags directory e i offset) directory j =
      row entryTable pages directory j := fun j hj => row_nextPages hde (by omega)
  have hrowi : row entryTable (nextPages pages flags directory e i offset) directory i = e :=
    row_nextPages_last hflags he hlt
  have hcases : ∀ j < i + 1, j < i ∨ j = i := fun j hj => by omega
  constructor
  · intro j hj
    rcases hcases j hj with hj | rfl
    · rw [hrow j hj]
      exact h.below j hj
    · rw [hrowi]
      exact hde.symm
  · intro j hj l hl heq
    rcases hcases j hj with hj | rfl <;> rcases hcases l hl with hl | rfl
    · rw [hrow j hj, hrow l hl] at heq
      exact h.apart j hj l hl heq
    · rw [hrow j hj, hrowi] at heq
      exact absurd heq (hnew j hj)
    · rw [hrowi, hrow l hl] at heq
      exact absurd heq.symm (hnew l hl)
    · rfl
  · intro j hj b hb
    rcases hcases j hj with hj | rfl
    · rw [hrow j hj, nextPages_of_ne (hnew j hj) (h.below j hj)]
      exact h.entries j hj b hb
    · rw [hrowi, nextPages_table hde hb, u32_table hi hb ho]
  · intro j hj
    rcases hcases j hj with hj | rfl
    · rw [hrow j hj, nextPages_directory hde (by omega)]
      exact h.words j hj
    · rw [hrowi, nextPages_last]

structure Building (A : Set ℕ) (flags directory : ℕ) (m₀ : Memory) (i : ℕ) (m : Memory) :
    Prop where
  owned : m.heap.Owns (A ∪ {directory} ∪ {p | ∃ j < i, p = row entryTable m.pages directory j})
  fresh : ∀ j < i, row entryTable m.pages directory j ∉ A
  tables : Tables flags directory i m.pages
  frame : ∀ p ∈ A, m.pages p = m₀.pages p
  same : m.chunks = m₀.chunks ∧ m.cr3 = m₀.cr3 ∧ m.currentDirectory = m₀.currentDirectory
  short : m.heap.short = false → m₀.heap.short = false

section NewTable
variable {A : Set ℕ} {flags directory i : ℕ} {m₀ m : Memory} {offset : ℤ}

theorem Building.next (h : Building A flags directory m₀ i m) (hi : i < 1024)
    (hflags : flags < 4096) (hd : directory ∉ A) (ho : offset = i32 (i * 4194304))
    (hp : (m.heap.malloc 4096).1 ≠ 0) :
    Building A flags directory m₀ (i + 1) (withTable m flags directory i offset) := by
  have hmalloc := @KernelHeap.malloc_spec m.heap 4096 (by decide)
  have hshort : (m.heap.malloc 4096).2.short = false → m.heap.short = false :=
    KernelHeap.malloc_short_mono rfl
  unfold withTable
  generalize m.heap.malloc 4096 = r at hmalloc hp hshort
  obtain ⟨e, k'⟩ := r
  dsimp only at hmalloc hp hshort ⊢
  have hnew : k'.Owns {e} := hmalloc.owns_first hp (by decide) (by decide)
  have hfresh := hmalloc.fresh h.owned
  obtain ⟨-, hlt, hal⟩ := hnew.pos rfl
  have hde : directory ≠ e := fun heq => hfresh (Or.inl (Or.inr heq.symm))
  have hrow : ∀ j < i, row entryTable (nextPages m.pages flags directory e i offset) directory j =
      row entryTable m.pages directory j := fun j hj => row_nextPages hde (by omega)
  have hrowi : row entryTable (nextPages m.pages flags directory e i offset) directory i = e :=
    row_nextPages_last hflags hal (by omega)
  have hcases : ∀ j < i + 1, j < i ∨ j = i := fun j hj => by omega
  have hrowe : ∀ j < i, row entryTable m.pages directory j ≠ e := fun j hj heq =>
    hfresh (Or.inr ⟨j, hj, heq.symm⟩)
  constructor
  · have hsub : A ∪ {directory} ∪
        {p | ∃ j < i + 1, p = row entryTable (nextPages m.pages flags directory e i offset)
          directory j} ⊆
        (A ∪ {directory} ∪ {p | ∃ j < i, p = row entryTable m.pages directory j}) ∪ {e} := by
      intro p hpm
      rcases hpm with hpm | ⟨j, hj, hpj⟩
      · exact Or.inl (Or.inl hpm)
      · rcases hcases j hj with hlt | rfl
        · exact Or.inl (Or.inr ⟨j, hlt, hpj.trans (hrow j hlt)⟩)
        · exact Or.inr (hpj.trans hrowi)
    exact ((hmalloc.owns h.owned).union hnew).mono hsub
  · intro j hj
    rcases hcases j hj with hj | rfl
    · rw [hrow j hj]
      exact h.fresh j hj
    · rw [hrowi]
      exact fun hm => hfresh (Or.inl (Or.inl hm))
  · exact h.tables.next hi hflags hal (by omega) hde hrowe ho
  · intro p hpA
    have hpe : p ≠ e := fun heq => hfresh (Or.inl (Or.inl (heq ▸ hpA)))
    have hpd : p ≠ directory := fun heq => hd (heq ▸ hpA)
    exact (nextPages_of_ne hpe hpd).trans (h.frame p hpA)
  · exact h.same
  · exact fun hs => h.short (hshort hs)

theorem pagingNewTables_building (hflags : flags < 4096) (hd : directory ∉ A) {o : ℤ}
    {m' : Memory} (h : Building A flags directory m₀ 0 m)
    (hrun : countUp (pagingNewTable flags directory) 1024 0 m = .ok (o, m')) :
    Building A flags directory m₀ 1024 m' := by
  have hloop := @Triple.countUp Crash Memory _ (pagingNewTable flags directory)
    (fun i o s => o = i32 (i * 4194304) ∧ Building A flags directory m₀ i s) 1024 ?_ 0
  · exact (hloop ⟨by decide, h⟩ hrun).2
  · intro i hi o s o' s' hs hbody
    obtain ⟨hp, -, ho', rfl⟩ := pagingNewTable_ok.mp hbody
    refine ⟨?_, hs.2.next hi hflags hd hs.1 hp⟩
    rw [ho', hs.1]
    unfold i32
    push_cast
    omega

theorem pagingNewTables_directory {o : ℤ} {m' : Memory}
    (hrun : countUp (pagingNewTable flags directory) 1024 0 m = .ok (o, m')) :
    directory ≠ 0 := by
  have hloop := @Triple.countUp Crash Memory _ (pagingNewTable flags directory)
    (fun i _ _ => i ≠ 0 → directory ≠ 0) 1024 ?_ 0
  · exact hloop (s := m) (fun h => absurd rfl h) hrun (by decide)
  · intro i hi o s o' s' hs hbody
    exact fun _ => (pagingNewTable_ok.mp hbody).2.1

end NewTable

/-- What `paging_new_4gb` leaves: an identity map in frames that were nobody's. -/
structure NewSpace (A : Set ℕ) (flags : ℕ) (m : Memory) (chunk : ℕ) (m' : Memory) : Prop where
  space : m'.AddressSpace chunk
  owned : m'.heap.Owns A
  fresh : Disjoint A (m'.spaceFrames chunk)
  agree : AgreeOn A m m'
  entries : ∀ v < 4294967296, m'.entryAt chunk v = (v / 4096 * 4096) ||| flags
  words : ∀ i < 1024, m'.pages (m'.chunks chunk) i = m'.tableAt chunk i ||| flags ||| 2
  same : m'.cr3 = m.cr3 ∧ m'.currentDirectory = m.currentDirectory
  short : m'.heap.short = false → m.heap.short = false

theorem Building.finish {A : Set ℕ} {flags directory chunk : ℕ} {m m₂ m' : Memory}
    (hb : Building A flags directory m 1024 m₂) (hd : directory ∉ A)
    (hchunk : m₂.heap.Malloc 4 chunk m'.heap) (hc : chunk ≠ 0)
    (hshort : m'.heap.short = false → m₂.heap.short = false) (hpages : m'.pages = m₂.pages)
    (hchunks : m'.chunks = Function.update m₂.chunks chunk directory)
    (hsame : m'.cr3 = m₂.cr3 ∧ m'.currentDirectory = m₂.currentDirectory) :
    NewSpace A flags m chunk m' := by
  have hown : m'.heap.Owns {chunk} := hchunk.owns_first hc (by decide) (by decide)
  have hall := (hchunk.owns hb.owned).union hown
  have hcA : chunk ∉ A := fun hm => hchunk.fresh hb.owned (Or.inl (Or.inl hm))
  have hcd : m'.chunks chunk = directory := by
    rw [hchunks]
    exact Function.update_self _ _ _
  have hrow : ∀ i, m'.tableAt chunk i = row entryTable m₂.pages directory i := by
    intro i
    rw [tableAt, hcd, hpages]
  have hframes : ∀ p ∈ m'.spaceFrames chunk,
      p = chunk ∨ p = directory ∨ ∃ i < 1024, p = row entryTable m₂.pages directory i := by
    intro p hp
    rcases hp with (hp | hp) | ⟨i, hi, hp⟩
    · exact Or.inl hp
    · exact Or.inr (Or.inl (hp.trans hcd))
    · exact Or.inr (Or.inr ⟨i, hi, hp.trans (hrow i)⟩)
  constructor
  · constructor
    · intro p hp
      rcases hframes p hp with rfl | rfl | hp
      · exact hall _ (Or.inr rfl)
      · exact hall _ (Or.inl (Or.inl (Or.inr rfl)))
      · exact hall _ (Or.inl (Or.inr hp))
    · rw [hcd, hpages]
      exact ⟨hb.tables.below, hb.tables.apart⟩
  · exact (hchunk.owns hb.owned).mono fun p hp => Or.inl (Or.inl hp)
  · rw [Set.disjoint_left]
    intro p hpA hp
    rcases hframes p hp with rfl | rfl | ⟨i, hi, rfl⟩
    · exact hcA hpA
    · exact hd hpA
    · exact hb.fresh i hi hpA
  · intro p hpA
    have hpc : p ≠ chunk := fun heq => hcA (heq ▸ hpA)
    rw [hpages, hchunks, Function.update_of_ne hpc, hb.same.1]
    exact ⟨hb.frame p hpA, rfl⟩
  · intro v hv
    have hentry := hb.tables.entries (v / 4194304) (by omega) (v % 4194304 / 4096) (by omega)
    have hsplit : v / 4194304 * 4194304 + v % 4194304 / 4096 * 4096 = v / 4096 * 4096 := by omega
    rw [entryAt, lookup, hcd, hpages, pageCell, hentry, hsplit]
  · intro i hi
    rw [hrow, hcd, hpages]
    exact hb.tables.words i hi
  · exact ⟨hsame.1.trans hb.same.2.1, hsame.2.trans hb.same.2.2⟩
  · exact fun hs => hb.short (hshort hs)

theorem pagingNew4gb_ne {σ : Type} [Requests σ] {flags chunk : ℕ} {m m' : PagingLayer σ}
    (h : pagingNew4gb flags m = .ok (chunk, m')) : chunk ≠ 0 := by
  rw [pagingNew4gb, bind_ok] at h
  obtain ⟨directory, m₁, -, h⟩ := h
  obtain ⟨o, m₂, -, h⟩ := bind_ok.mp h
  obtain ⟨c, m₃, -, h⟩ := bind_ok.mp h
  obtain ⟨u, m₄, hset, h⟩ := bind_ok.mp h
  rw [pure_apply] at h
  obtain ⟨rfl, -⟩ := ok_inj h
  exact (setDirectoryEntry_ok.mp hset).1

theorem pagingNew4gb_spec {A : Set ℕ} {flags chunk : ℕ} {m m' : Memory} (hflags : flags < 4096)
    (hA : m.heap.Owns A) (h : pagingNew4gb flags m = .ok (chunk, m')) :
    NewSpace A flags m chunk m' := by
  rw [pagingNew4gb, bind_of_ok (onHeap_kzalloc m _)] at h
  have hdir := @KernelHeap.malloc_spec m.heap (4 * pagingTotalEntriesPerTable) (by decide)
  have hshort : (m.heap.malloc (4 * pagingTotalEntriesPerTable)).2.short = false →
      m.heap.short = false := KernelHeap.malloc_short_mono rfl
  generalize m.heap.malloc (4 * pagingTotalEntriesPerTable) = r at h hdir hshort
  obtain ⟨directory, k₁⟩ := r
  dsimp only at h hdir hshort
  obtain ⟨o, m₂, htables, h⟩ := bind_ok.mp h
  have hdne := pagingNewTables_directory htables
  have hdown : k₁.Owns {directory} := hdir.owns_first hdne (by decide) (by decide)
  have hdA : directory ∉ A := hdir.fresh hA
  have hb : Building A flags directory m 1024 m₂ := by
    apply pagingNewTables_building hflags hdA _ htables
    constructor
    · have hsub : A ∪ {directory} ∪ {p | ∃ j < 0, p = row entryTable m.pages directory j} ⊆
          A ∪ {directory} := by
        intro p hp
        exact hp.resolve_right fun ⟨j, hj, _⟩ => absurd hj (Nat.not_lt_zero j)
      exact ((hdir.owns hA).union hdown).mono hsub
    · exact fun j hj => absurd hj (Nat.not_lt_zero j)
    · constructor <;> exact fun j hj => absurd hj (Nat.not_lt_zero j)
    · exact fun p _ => rfl
    · exact ⟨rfl, rfl, rfl⟩
    · exact hshort
  rw [bind_of_ok (onHeap_kzalloc m₂ _)] at h
  obtain ⟨u, m₄, hset, h⟩ := bind_ok.mp h
  rw [pure_apply] at h
  obtain ⟨hcm, rfl⟩ := ok_inj h
  obtain ⟨hc, hm'⟩ := setDirectoryEntry_ok.mp hset
  have hchunk := @KernelHeap.malloc_spec m₂.heap 4 (by decide)
  subst hm' hcm
  exact hb.finish hdA hchunk hc (KernelHeap.malloc_short_mono rfl) rfl rfl ⟨rfl, rfl⟩

theorem pageCell_lt {v : ℕ} (hv : v < 4294967296) : (pageCell v).1 < 1024 := by
  show v / 4194304 < 1024
  omega

namespace PagingLayer
variable {m : Memory} {chunk : ℕ}

def withEntry (m : Memory) (chunk v w : ℕ) : Memory :=
  { m with pages := store entryTable m.pages (m.chunks chunk) (pageCell v) w }

def withRange (m : Memory) (chunk virt : ℕ) (w : ℕ → ℕ) (k i : ℕ) : Memory :=
  { m with
    pages := storeRange entryTable (m.chunks chunk)
      (fun i => pageCell ((virt + 4096 * i) % 4294967296)) w k i m.pages }

theorem AddressSpace.of_root (hs : m.AddressSpace chunk) {pages : ℕ → ℕ → ℕ}
    (h : pages (m.chunks chunk) = m.pages (m.chunks chunk)) :
    AddressSpace { m with pages := pages } chunk ∧
      spaceFrames { m with pages := pages } chunk = m.spaceFrames chunk := by
  have hframes : spaceFrames { m with pages := pages } chunk = m.spaceFrames chunk := by
    unfold spaceFrames tableAt
    simp only [row_congr h]
  refine ⟨⟨?_, hs.separated.congr h⟩, hframes⟩
  rw [hframes]
  exact hs.owned

theorem AddressSpace.withEntry (hs : m.AddressSpace chunk) {v : ℕ} (hv : v < 4294967296)
    (w : ℕ) : (m.withEntry chunk v w).AddressSpace chunk ∧
      (m.withEntry chunk v w).spaceFrames chunk = m.spaceFrames chunk :=
  hs.of_root (hs.separated.store_root (pageCell_lt hv) w)

theorem AddressSpace.withRange (hs : m.AddressSpace chunk) (virt : ℕ) (w : ℕ → ℕ) (k i : ℕ) :
    (m.withRange chunk virt w k i).AddressSpace chunk ∧
      (m.withRange chunk virt w k i).spaceFrames chunk = m.spaceFrames chunk :=
  hs.of_root (hs.separated.storeRange_root (fun _ => pageCell_lt (Nat.mod_lt _ (by decide))) w k i)

theorem AddressSpace.withRange_frame (hs : m.AddressSpace chunk) (virt : ℕ) (w : ℕ → ℕ)
    (k i : ℕ) {p : ℕ} (hp : p ∉ m.spaceFrames chunk) :
    (m.withRange chunk virt w k i).pages p = m.pages p := by
  apply hs.separated.storeRange_frame fun _ => pageCell_lt (Nat.mod_lt _ (by decide))
  exact fun j hj heq => hp (heq ▸ m.table_mem chunk hj)

theorem AddressSpace.withRange_directory (hs : m.AddressSpace chunk) (virt : ℕ) (w : ℕ → ℕ)
    (k i : ℕ) : (m.withRange chunk virt w k i).pages (m.chunks chunk) =
      m.pages (m.chunks chunk) :=
  hs.separated.storeRange_root (fun _ => pageCell_lt (Nat.mod_lt _ (by decide))) w k i

theorem pageCell_inj {v v' : ℕ} (h : pageCell v = pageCell v') :
    v / 4096 = v' / 4096 := by
  obtain ⟨h₁, h₂⟩ := Prod.mk.inj h
  omega

theorem pageCell_congr {v v' : ℕ} (h : v / 4096 = v' / 4096) : pageCell v = pageCell v' := by
  unfold pageCell
  congr 1 <;> omega

/-- The entries after a range of pages has been rewritten: `off` counts the pages from `virt`
on, around the end of the address space. -/
theorem AddressSpace.entryAt_withRange (hs : m.AddressSpace chunk) {virt count v : ℕ}
    (w : ℕ → ℕ) (hvirt : virt % 4096 = 0) (hlt : virt < 4294967296) (hcount : count ≤ 1048576)
    (hv : v < 4294967296) :
    (m.withRange chunk virt w count 0).entryAt chunk v =
      if (v / 4096 + 1048576 - virt / 4096) % 1048576 < count then
        w ((v / 4096 + 1048576 - virt / 4096) % 1048576)
      else m.entryAt chunk v := by
  set off := (v / 4096 + 1048576 - virt / 4096) % 1048576 with hoff
  have hcell : ∀ i, (pageCell ((virt + 4096 * i) % 4294967296)).1 < 1024 := fun i =>
    pageCell_lt (Nat.mod_lt _ (by decide))
  have hv' : pageCell v = pageCell ((virt + 4096 * off) % 4294967296) := by
    apply pageCell_congr
    omega
  split_ifs with hin
  · have hinj : ∀ j < count, ∀ l < count, pageCell ((virt + 4096 * (0 + j)) % 4294967296) =
        pageCell ((virt + 4096 * (0 + l)) % 4294967296) → j = l := by
      intro j hj l hl heq
      have := pageCell_inj heq
      omega
    have h := hs.separated.lookup_storeRange hcell w hin hinj
    rw [Nat.zero_add] at h
    rw [entryAt, hv']
    exact h
  · apply hs.separated.lookup_storeRange_of_ne hcell w count 0 (pageCell_lt hv)
    intro j hj heq
    have := pageCell_inj heq
    omega

end PagingLayer
open PagingLayer

section Entries
variable {m : Memory} {chunk : ℕ}

theorem pagingGetIndexes_eq {v : ℕ} (hal : v % 4096 = 0) (out : ℕ × ℕ) :
    pagingGetIndexes v out = (0, pageCell v) := by
  rw [pagingGetIndexes, pagingIsAligned, if_neg (by simp [hal])]
  rfl

theorem pagingGet_eq (hs : m.AddressSpace chunk) {v : ℕ} (hal : v % 4096 = 0)
    (hv : v < 4294967296) : pagingGet (m.chunks chunk) v m = .ok (m.entryAt chunk v, m) := by
  rw [pagingGet, pagingGetIndexes_eq hal]
  dsimp only
  rw [bind_of_ok (readWord_of_ne hs.directory_ne _ m)]
  exact readWord_of_ne (hs.table_ne (pageCell_lt hv)) _ m

theorem pagingSet_eq (hs : m.AddressSpace chunk) {v : ℕ} (hal : v % 4096 = 0)
    (hv : v < 4294967296) (w : ℕ) :
    pagingSet (m.chunks chunk) v w m = .ok (0, m.withEntry chunk v w) := by
  rw [pagingSet, pagingIsAligned, if_neg (by simp [hal]), pagingGetIndexes_eq hal]
  dsimp only
  have hne : entryTable (m.pages (m.chunks chunk) (pageCell v).1) ≠ 0 :=
    hs.table_ne (pageCell_lt hv)
  rw [if_neg (by decide), bind_of_ok (readWord_of_ne hs.directory_ne _ m),
    bind_of_ok (writeWord_of_ne hne _ _ m), pure_apply]
  rfl

theorem pagingMap_eq (hs : m.AddressSpace chunk) {v phys flags : ℕ} (hal : v % 4096 = 0)
    (hv : v < 4294967296) (hp : phys % 4096 = 0) :
    pagingMap chunk v phys flags m = .ok (0, m.withEntry chunk v (phys ||| flags)) := by
  rw [pagingMap, if_neg (by simp [hal, hp]), bind_of_ok (directoryEntry_of_ne hs.chunk_ne m)]
  exact pagingSet_eq hs hal hv _

theorem pagingMapRangeLoop_eq {virt phys flags : ℕ} (hv : virt % 4096 = 0)
    (hp : phys % 4096 = 0) (k : ℕ) {i : ℕ} (hs : m.AddressSpace chunk) :
    pagingMapRangeLoop chunk flags k ((virt + 4096 * i) % 4294967296)
      ((phys + 4096 * i) % 4294967296) 0 m =
      .ok (0, m.withRange chunk virt (fun i => (phys + 4096 * i) % 4294967296 ||| flags) k i) := by
  induction k generalizing i m with
  | zero => rfl
  | succ k ih =>
    have hlt : (virt + 4096 * i) % 4294967296 < 4294967296 := Nat.mod_lt _ (by decide)
    have hv' : u32 (((virt + 4096 * i) % 4294967296 : ℕ) + pagingPageSize) =
        (virt + 4096 * (i + 1)) % 4294967296 := by
      simp only [u32, pagingPageSize]
      omega
    have hp' : u32 (((phys + 4096 * i) % 4294967296 : ℕ) + pagingPageSize) =
        (phys + 4096 * (i + 1)) % 4294967296 := by
      simp only [u32, pagingPageSize]
      omega
    rw [pagingMapRangeLoop, bind_of_ok (pagingMap_eq hs (by omega) hlt (by omega)), if_neg
      (by decide), hv', hp', ih (hs.withEntry hlt _).1]
    rfl

theorem pagingMapTo_eq (hs : m.AddressSpace chunk) {virt phys physEnd flags : ℕ}
    (hv : virt % 4096 = 0) (hvlt : virt < 4294967296) (hp : phys % 4096 = 0)
    (he : physEnd % 4096 = 0) (hle : phys ≤ physEnd) (hlt : physEnd < 4294967296) :
    pagingMapTo chunk virt phys physEnd flags m = .ok (0, m.withRange chunk virt
      (fun i => (phys + 4096 * i) % 4294967296 ||| flags) ((physEnd - phys) / 4096) 0) := by
  rw [pagingMapTo, if_neg (by simp [hv]), if_neg (by simp [hp]), if_neg (by simp [he]),
    if_neg (by omega)]
  have h := @pagingMapRangeLoop_eq _ _ virt phys flags hv hp ((physEnd - phys) / 4096) 0 hs
  have hv0 : (virt + 4096 * 0) % 4294967296 = virt := by omega
  have hp0 : (phys + 4096 * 0) % 4294967296 = phys := by omega
  rw [hv0, hp0] at h
  exact h

end Entries

theorem pagingSwitch_ok {m m' : Memory} {chunk : ℕ} {u : Unit} :
    pagingSwitch chunk m = .ok (u, m') ↔ chunk ≠ 0 ∧
    m' = { m with cr3 := m.chunks chunk, currentDirectory := m.chunks chunk } := by
  rw [pagingSwitch, bind_ok]
  constructor
  · rintro ⟨d, m₁, hd, hmodify⟩
    rw [PagingLayer.directoryEntry, bind_of_ok (get_apply m)] at hd
    split_ifs at hd with hc
    · cases hd
    · obtain ⟨rfl, rfl⟩ := ok_inj hd
      exact ⟨hc, (ok_inj hmodify).2.symm⟩
  · rintro ⟨hc, hm'⟩
    exact ⟨m.chunks chunk, m, PagingLayer.directoryEntry_of_ne hc m, hm' ▸ rfl⟩

section Free
variable {m m' : Memory} {chunk : ℕ} {A : Set ℕ}

theorem pagingFree4gb_spec (hs : m.AddressSpace chunk) (hA : m.heap.Owns A)
    (hdis : Disjoint A (m.spaceFrames chunk)) :
    ∃ k : KernelHeap, pagingFree4gb chunk m = .ok ((), { m with heap := k }) ∧ k.Owns A ∧
      k.short = m.heap.short := by
  have hout : ∀ p ∈ m.spaceFrames chunk, p ∉ A := fun p hp hpA =>
    Set.disjoint_left.mp hdis hpA hp
  have hloop := @Returns.countUp _ _ _ (fun i _ => do
      let directory ← directoryEntry chunk
      let entry ← readWord directory i
      onHeap (kfree (entryTable entry)))
    (fun _ (_ : Unit) s => ∃ k : KernelHeap, s = { m with heap := k } ∧ k.Owns A ∧
      k.short = m.heap.short) 1024 ?_ ()
  · obtain ⟨u, s, hrun, k, rfl, hk, hsh⟩ := hloop ⟨m.heap, rfl, hA, rfl⟩
    have hd : m.chunks chunk ∉ A := hout _ (m.directory_mem chunk)
    have hc : chunk ∉ A := hout _ (m.chunk_mem chunk)
    have hdp := hs.owned.pos (m.directory_mem chunk)
    have hcp := hs.owned.pos (m.chunk_mem chunk)
    rw [pagingFree4gb, bind_of_ok hrun, bind_of_ok (directoryEntry_of_ne hs.chunk_ne _),
      bind_of_ok (onHeap_kfree _ _), onHeap_kfree]
    refine ⟨_, rfl, ?_, hsh⟩
    have hdlt : m.chunks chunk < 4294967296 := by omega
    exact KernelHeap.free_owns (KernelHeap.free_owns hk hdp.2.2 hdlt hd) hcp.2.2 (by omega) hc
  · intro i hi _ s hI
    obtain ⟨k, rfl, hk, hsh⟩ := hI
    have ht : entryTable (m.pages (m.chunks chunk) i) ∉ A := hout _ (m.table_mem chunk hi)
    have hal := entryTable_aligned (m.pages (m.chunks chunk) i)
    refine ⟨(), { m with heap := k.free (entryTable (m.pages (m.chunks chunk) i)) }, ?_, _, rfl,
      KernelHeap.free_owns hk hal.1 hal.2 ht, hsh⟩
    rw [bind_of_ok (directoryEntry_of_ne hs.chunk_ne _),
      bind_of_ok (readWord_of_ne hs.directory_ne _ _), onHeap_kfree]

end Free

theorem pagingNew4gb_avoids (flags : ℕ) :
    Avoids .freedTask (pagingNew4gb flags : Prog Crash Memory ℕ) := by
  have hmalloc : ∀ size, Avoids Crash.freedTask (onHeap (kzalloc size) : Prog Crash Memory ℕ) :=
    fun size => Avoids.of_ok fun m => ⟨_, onHeap_kzalloc m size⟩
  have hmodify : ∀ f : Memory → Memory, Avoids Crash.freedTask (modify f : Prog _ _ Unit) :=
    fun f => Avoids.of_ok fun m => ⟨_, modify_apply f m⟩
  have hwrite : ∀ p i w, Avoids Crash.freedTask (writeWord p i w : Prog Crash Memory Unit) := by
    intro p i w
    unfold writeWord
    exact Avoids.ite (Avoids.abort (by decide)) (hmodify _)
  have htable : ∀ d i o,
      Avoids Crash.freedTask (pagingNewTable flags d i o : Prog Crash Memory ℤ) := by
    intro d i o
    unfold pagingNewTable pagingFillTable
    apply (hmalloc _).bind
    intro e
    apply (Avoids.countUp (fun b _ => hwrite _ _ _) _ _).bind
    exact fun _ => (hwrite _ _ _).bind fun _ => Avoids.pure _
  unfold pagingNew4gb setDirectoryEntry
  apply (hmalloc _).bind
  intro d
  apply (Avoids.countUp (htable d) _ _).bind
  intro _
  apply (hmalloc _).bind
  intro c
  exact (Avoids.ite (Avoids.abort (by decide)) (hmodify _)).bind fun _ => Avoids.pure c

section Returns
variable {m : Memory} {b : ℕ}

theorem pagingNewTables_returns {flags directory : ℕ} (hd : directory ≠ 0)
    (hb : m.heap.Unused b) (hroom : b + 1024 ≤ kernelHeapBlocks) :
    ∃ o m', countUp (pagingNewTable flags directory) 1024 0 m = .ok (o, m') ∧
      m'.heap.Unused (b + 1024) ∧ m'.heap.short = m.heap.short := by
  have hloop := @Returns.countUp Crash Memory _ (pagingNewTable flags directory)
    (fun i _ s => s.heap.Unused (b + i) ∧ s.heap.short = m.heap.short) 1024 ?_ 0
  · exact hloop ⟨hb, rfl⟩
  · intro i hi o s hI
    obtain ⟨hp, hrest, hsh⟩ := @KernelHeap.malloc_of_unused _ _ 4096 hI.1 (by decide) (by
      show b + i + 1 ≤ kernelHeapBlocks
      omega)
    exact ⟨_, _, pagingNewTable_ok.mpr ⟨hp, hd, rfl, rfl⟩, hrest, hsh.trans hI.2⟩

theorem pagingNew4gb_returns (flags : ℕ) (hb : m.heap.Unused b)
    (hroom : b + 1026 ≤ kernelHeapBlocks) :
    ∃ chunk m', pagingNew4gb flags m = .ok (chunk, m') ∧ m'.heap.Unused (b + 1026) ∧
      m'.heap.short = m.heap.short := by
  obtain ⟨hd, hrest, hsh⟩ := @KernelHeap.malloc_of_unused _ _
    (4 * pagingTotalEntriesPerTable) hb (by decide) (by
      show b + 1 ≤ kernelHeapBlocks
      omega)
  obtain ⟨o, m₂, htables, hrest₂, hsh₂⟩ := @pagingNewTables_returns
    { m with heap := (m.heap.malloc (4 * pagingTotalEntriesPerTable)).2 } _ flags _ hd hrest (by
      show b + 1 + 1024 ≤ kernelHeapBlocks
      omega)
  obtain ⟨hc, hrest₃, hsh₃⟩ := @KernelHeap.malloc_of_unused _ _ 4 hrest₂ (by decide) (by
    show b + 1 + 1024 + 1 ≤ kernelHeapBlocks
    omega)
  refine ⟨(m₂.heap.malloc 4).1,
    { m₂ with
      heap := (m₂.heap.malloc 4).2
      chunks := Function.update m₂.chunks (m₂.heap.malloc 4).1
        (m.heap.malloc (4 * pagingTotalEntriesPerTable)).1 },
    ?_, hrest₃, hsh₃.trans (hsh₂.trans hsh)⟩
  rw [pagingNew4gb, bind_of_ok (onHeap_kzalloc m _), bind_of_ok htables,
    bind_of_ok (onHeap_kzalloc m₂ _),
    bind_of_ok (setDirectoryEntry_ok (u := ()).mpr ⟨hc, rfl⟩), pure_apply]

end Returns

end Dexter
