import Dexter.Mem.Paging

/-!
# The image of a process in its address space

`paging_map_to` is called twice on a new address space: for the program from
`0x400000` on and for the 16 KB of stack below `0x3FF000`. Afterwards the pages of
these two ranges lead to the frames of the program and of the stack with all three
flags, and every other page leads to itself without the writeable flag.
-/

namespace Dexter
open Lib.Programs KernelHeap PagingLayer

/-- The entry of the page of `v`, for a program of `size` bytes at `ptr` and a stack at
`stack`. -/
def imageEntry (ptr size stack v : ℕ) : ℕ :=
  if 0x400000 ≤ v ∧ v < 0x400000 + 4096 * needed size then
    (ptr + (v / 4096 * 4096 - 0x400000)) ||| 7
  else if 0x3FB000 ≤ v ∧ v < 0x3FF000 then (stack + (v / 4096 * 4096 - 0x3FB000)) ||| 7
  else v / 4096 * 4096 ||| 5

def imageFrames (ptr size stack : ℕ) : Set ℕ := frames ptr (needed size) ∪ frames stack 4

def PagingLayer.withImage (m : Memory) (chunk ptr size stack : ℕ) : Memory :=
  (m.withRange chunk 0x400000 (fun i => (ptr + 4096 * i) % 4294967296 ||| 7) (needed size) 0).withRange
    chunk 0x3FB000 (fun i => (stack + 4096 * i) % 4294967296 ||| 7) 4 0

section Pages
variable {m : Memory}

def SameButPages (m m' : Memory) : Prop := ∃ pages, m' = { m with pages := pages }

theorem SameButPages.refl (m : Memory) : SameButPages m m := ⟨m.pages, rfl⟩

theorem pagingSet_pages (directory virt val : ℕ) :
    Triple (SameButPages m) (pagingSet directory virt val) fun _ => SameButPages m := by
  unfold pagingSet readWord writeWord
  apply Triple.ite
  · exact fun _ => Triple.pure fun _ h => h
  intro _
  apply Triple.ite
  · exact fun _ => Triple.pure fun _ h => h
  intro _ s r s' hs h
  obtain ⟨pages, rfl⟩ := hs
  obtain ⟨entry, s₁, hread, h⟩ := bind_ok.mp h
  obtain ⟨u, s₂, hwrite, hpure⟩ := bind_ok.mp h
  obtain ⟨-, rfl⟩ := ok_inj hpure
  rw [bind_of_ok (get_apply _)] at hread
  split_ifs at hread
  · cases hread
  · obtain ⟨-, rfl⟩ := ok_inj hread
    split_ifs at hwrite
    · cases hwrite
    · obtain ⟨-, rfl⟩ := ok_inj hwrite
      exact ⟨_, rfl⟩

theorem pagingMap_pages (directory virt phys flags : ℕ) :
    Triple (SameButPages m) (pagingMap directory virt phys flags) fun _ => SameButPages m := by
  unfold pagingMap directoryEntry
  apply Triple.ite
  · exact fun _ => Triple.pure fun _ h => h
  intro _
  refine Triple.bind (R := fun _ => SameButPages m) ?_ fun d => pagingSet_pages d virt _
  intro s d s' hs h
  rw [bind_of_ok (get_apply _)] at h
  split_ifs at h
  · cases h
  · obtain ⟨-, rfl⟩ := ok_inj h
    exact hs

theorem pagingMapRangeLoop_pages (directory flags k virt phys : ℕ) (r : ℤ) :
    Triple (SameButPages m) (pagingMapRangeLoop directory flags k virt phys r)
      fun _ => SameButPages m := by
  induction k generalizing virt phys r with
  | zero => exact Triple.pure fun _ h => h
  | succ k ih =>
    refine Triple.bind (pagingMap_pages directory virt phys flags) fun r => ?_
    apply Triple.ite
    · exact fun _ => Triple.pure fun _ h => h
    · exact fun _ => ih _ _ r

theorem pagingMapTo_pages (directory virt phys physEnd flags : ℕ) :
    Triple (SameButPages m) (pagingMapTo directory virt phys physEnd flags)
      fun _ => SameButPages m := by
  unfold pagingMapTo
  apply Triple.ite
  · exact fun _ => Triple.pure fun _ h => h
  intro _
  apply Triple.ite
  · exact fun _ => Triple.pure fun _ h => h
  intro _
  apply Triple.ite
  · exact fun _ => Triple.pure fun _ h => h
  intro _
  apply Triple.ite
  · exact fun _ => Triple.pure fun _ h => h
  · exact fun _ => pagingMapRangeLoop_pages _ _ _ _ _ _

end Pages

section Image
variable {m : Memory} {chunk ptr size stack v : ℕ}

theorem needed_le_iff {size n : ℕ} : needed size ≤ n ↔ size ≤ 4096 * n := by
  unfold needed
  omega

theorem pagingAlignAddress_end (hal : ptr % 4096 = 0) (hlt : ptr + 4096 * needed size < 4294967296) :
    pagingAlignAddress (u32 (ptr + size : ℕ)) = ptr + 4096 * needed size := by
  have hsize : size ≤ 4096 * needed size := needed_le_iff.mp le_rfl
  rw [u32_natCast (by omega), pagingAlignAddress]
  unfold needed at hlt hsize ⊢
  split_ifs with h
  · have hcast : ((ptr + size : ℕ) : ℤ) + (pagingPageSize : ℕ) - ((ptr + size) % pagingPageSize : ℕ) =
        ((ptr + 4096 * ((size + 4095) / 4096) : ℕ) : ℤ) := by
      simp only [pagingPageSize] at h ⊢
      omega
    rw [hcast, u32_natCast (by omega)]
  · simp only [pagingPageSize] at h
    omega

theorem pagingMapTo_region (hs : m.AddressSpace chunk) {virt : ℕ} (hvirt : virt % 4096 = 0)
    (hvlt : virt < 4294967296) (hal : ptr % 4096 = 0)
    (hlt : ptr + 4096 * needed size < 4294967296) :
    pagingMapTo chunk virt ptr (pagingAlignAddress (u32 (ptr + size : ℕ))) 7 m =
      .ok (0, m.withRange chunk virt (fun i => (ptr + 4096 * i) % 4294967296 ||| 7) (needed size) 0) := by
  have hcount : (ptr + 4096 * needed size - ptr) / 4096 = needed size := by omega
  rw [pagingAlignAddress_end hal hlt, pagingMapTo_eq hs hvirt hvlt hal (by omega) (by omega) hlt,
    hcount]

theorem page_lt_iff {a n : ℕ} (ha : a % 4096 = 0) (hn : a + 4096 * n < 4294967296)
    (hv : v < 4294967296) :
    (v / 4096 + 1048576 - a / 4096) % 1048576 < n ↔ a ≤ v ∧ v < a + 4096 * n := by
  omega

theorem page_entry {a n p : ℕ} (ha : a % 4096 = 0) (hn : p + 4096 * n < 4294967296) (hle : a ≤ v)
    (hlt : v < a + 4096 * n) :
    (p + 4096 * ((v / 4096 + 1048576 - a / 4096) % 1048576)) % 4294967296 =
      p + (v / 4096 * 4096 - a) := by
  omega

theorem entryAt_withImage (hs : m.AddressSpace chunk)
    (hself : ∀ v < 4294967296, m.entryAt chunk v = v / 4096 * 4096 ||| 5)
    (hptr : ptr + 4096 * needed size < 4294967296) (hstack : stack + 4096 * 4 < 4294967296)
    (hsize : needed size ≤ 25600) (hv : v < 4294967296) :
    (m.withImage chunk ptr size stack).entryAt chunk v = imageEntry ptr size stack v := by
  have hs' := (hs.withRange 0x400000 (fun i => (ptr + 4096 * i) % 4294967296 ||| 7) (needed size) 0).1
  rw [withImage, hs'.entryAt_withRange _ (by decide) (by decide) (by decide) hv,
    hs.entryAt_withRange _ (by decide) (by decide) (by omega) hv, hself v hv]
  simp only [page_lt_iff (a := 0x3FB000) (n := 4) (by decide) (by decide) hv,
    page_lt_iff (a := 0x400000) (n := needed size) (by decide) (by omega) hv]
  unfold imageEntry
  by_cases hprogram : 0x400000 ≤ v ∧ v < 0x400000 + 4096 * needed size
  · have hout : ¬(0x3FB000 ≤ v ∧ v < 0x3FB000 + 4096 * 4) := fun h => by
      have := hprogram.1
      have := h.2
      omega
    rw [if_neg hout, if_pos hprogram, if_pos hprogram,
      page_entry (by decide) hptr hprogram.1 hprogram.2]
  · by_cases hin : 0x3FB000 ≤ v ∧ v < 0x3FB000 + 4096 * 4
    · rw [if_pos hin, if_neg hprogram, if_pos hin,
        page_entry (by decide) hstack hin.1 hin.2]
    · rw [if_neg hin, if_neg hprogram, if_neg hprogram, if_neg hin]

structure Mapped (m : Memory) (chunk ptr size stack : ℕ) : Prop where
  space : m.AddressSpace chunk
  entries : ∀ v < 4294967296, m.entryAt chunk v = imageEntry ptr size stack v
  words : ∀ i < 1024, m.pages (m.chunks chunk) i = m.tableAt chunk i ||| 7

theorem Mapped.congr {m' : Memory} (h : Mapped m chunk ptr size stack)
    (hagree : AgreeOn (m.spaceFrames chunk) m m') (howns : m'.heap.Owns (m.spaceFrames chunk)) :
    Mapped m' chunk ptr size stack := by
  have hc := (hagree _ (m.chunk_mem chunk)).2
  have hd := (hagree _ (m.directory_mem chunk)).1
  refine ⟨h.space.congr hagree howns, fun v hv => ?_, fun i hi => ?_⟩
  · rw [entryAt_congr hagree hv, h.entries v hv]
  · rw [hc, hd, h.words i hi, tableAt, tableAt, hc, Lib.TwoLevel.row_congr hd]

theorem withImage_frames (hs : m.AddressSpace chunk) :
    (m.withImage chunk ptr size stack).AddressSpace chunk ∧
      (m.withImage chunk ptr size stack).spaceFrames chunk = m.spaceFrames chunk ∧
      (m.withImage chunk ptr size stack).pages (m.chunks chunk) = m.pages (m.chunks chunk) ∧
      ∀ p ∉ m.spaceFrames chunk, (m.withImage chunk ptr size stack).pages p = m.pages p := by
  have h₁ := hs.withRange 0x400000 (fun i => (ptr + 4096 * i) % 4294967296 ||| 7) (needed size) 0
  have h₂ := h₁.1.withRange 0x3FB000 (fun i => (stack + 4096 * i) % 4294967296 ||| 7) 4 0
  refine ⟨h₂.1, h₂.2.trans h₁.2, ?_, fun p hp => ?_⟩
  · exact (h₁.1.withRange_directory _ _ _ _).trans (hs.withRange_directory _ _ _ _)
  · have hp₁ : p ∉ (m.withRange chunk 0x400000 (fun i => (ptr + 4096 * i) % 4294967296 ||| 7)
        (needed size) 0).spaceFrames chunk := by rwa [h₁.2]
    exact (h₁.1.withRange_frame _ _ _ _ hp₁).trans (hs.withRange_frame _ _ _ _ hp)

theorem NewSpace.mapped {A : Set ℕ} {m₀ : Memory} (h : NewSpace A 5 m₀ chunk m)
    (hptr : ptr + 4096 * needed size < 4294967296) (hstack : stack + 4096 * 4 < 4294967296)
    (hsize : needed size ≤ 25600) : Mapped (m.withImage chunk ptr size stack) chunk ptr size stack := by
  obtain ⟨hspace, -, hdirectory, -⟩ := @withImage_frames m chunk ptr size stack h.space
  refine ⟨hspace, fun v hv => entryAt_withImage h.space h.entries hptr hstack hsize hv, ?_⟩
  intro i hi
  have hword := h.words i hi
  rw [Nat.or_assoc] at hword
  show (m.withImage chunk ptr size stack).pages (m.chunks chunk) i =
    Lib.TwoLevel.row entryTable (m.withImage chunk ptr size stack).pages (m.chunks chunk) i ||| 7
  rw [Lib.TwoLevel.row_congr hdirectory, hdirectory]
  exact hword

end Image

end Dexter
