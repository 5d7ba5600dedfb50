import Dexter.Mem.Heap
import Dexter.Lib.Runs

/-!
# Runs of allocations and releases

A heap together with the list of its live allocations. `blockStep` performs
`heap_malloc_blocks` and `heap_free`, `sizeStep` performs `heap_malloc` and
`heap_free`; a release names an allocation that is live. The first system keeps
allocations apart whatever is released; in the second a release gives its blocks
back only where it has a single one.
-/

namespace Dexter.HeapRuns
open Lib.BlockPool Lib.Runs

structure Allocation where
  ptr : ℕ
  region : Region
  deriving DecidableEq

structure State where
  heap : Heap
  live : List Allocation

def State.regions (s : State) : List Region := s.live.map Allocation.region

inductive Op
  | malloc (request : ℕ)
  | free (a : Allocation)

def State.malloc (s : State) (n : ℕ) : State :=
  let (p, h) := heapMallocBlocks s.heap n
  let start := heapGetStartBlock s.heap n
  ⟨h, if start < 0 then s.live else ⟨p, ⟨start.toNat, n⟩⟩ :: s.live⟩

def State.free (s : State) (a : Allocation) : State :=
  ⟨heapFree s.heap a.ptr, s.live.erase a⟩

def blockStep (s : State) : Op → Option State
  | .malloc n => if 1 ≤ n ∧ n < 1048576 then some (s.malloc n) else none
  | .free a => if a ∈ s.live then some (s.free a) else none

/-- `heap_malloc` of a 32-bit size, where the blocks it returns lie inside the table. -/
def sizeStep (s : State) : Op → Option State
  | .malloc size =>
    let n := heapAlignValueToUpper size / dexterHeapBlockSize
    if 1 ≤ size ∧ size < 4294967296 ∧ heapGetStartBlock s.heap n + n ≤ s.heap.total then
      some ⟨(heapMalloc s.heap size).2, (s.malloc n).live⟩
    else none
  | .free a => if a ∈ s.live then some (s.free a) else none

def Addressed (s : State) : Prop :=
  ∀ a ∈ s.live, a.region.start < s.heap.total ∧ a.ptr = heapBlockToAddress s.heap a.region.start

structure Sound (s : State) : Prop where
  addressed : Addressed s
  separate : Separate s.regions

def Covered (s : State) : Prop :=
  Recorded (fun b => ¬s.heap.IsFree b) s.heap.total s.regions

theorem sound_init (h : Heap) : Sound ⟨h, []⟩ :=
  ⟨fun _ ha => absurd ha List.not_mem_nil, List.Pairwise.nil⟩

theorem covered_init (h : Heap) : Covered ⟨h, []⟩ :=
  fun _ hr => absurd hr List.not_mem_nil

inductive Malloc (s : State) (n : ℕ) : State → Prop
  | fails : Malloc s n s
  | takes (b : ℕ) (h : Heap) (starts : b < s.heap.total)
      (run : ∀ i ∈ Region.blocks ⟨b, n⟩, i < s.heap.total → s.heap.IsFree i)
      (total : h.total = s.heap.total) (saddr : h.saddr = s.heap.saddr)
      (marked : ∀ i, h.IsFree i ↔ s.heap.IsFree i ∧ i ∉ Region.blocks ⟨b, n⟩) :
      Malloc s n ⟨h, ⟨heapBlockToAddress s.heap b, ⟨b, n⟩⟩ :: s.live⟩

theorem malloc_spec (s : State) {n : ℕ} (hn : n < 2147483648) : Malloc s n (s.malloc n) := by
  have hspec := heapMallocBlocks_spec s.heap hn
  unfold State.malloc
  generalize heapMallocBlocks s.heap n = r at hspec
  cases hspec with
  | fails none =>
    have hneg : heapGetStartBlock s.heap n < 0 := by
      rw [none]
      decide
    simp only [if_pos hneg]
    exact .fails
  | takes b found starts free run =>
    have hpos : ¬heapGetStartBlock s.heap n < 0 := by omega
    simp only [if_neg hpos]
    rw [found, Int.toNat_natCast]
    exact .takes b _ starts run (heapMarkBlocksTaken_total ..) (heapMarkBlocksTaken_saddr ..)
      (isFree_markTaken s.heap b n)

theorem Malloc.sound {s s' : State} {n : ℕ} (h : Malloc s n s') (hs : Sound s)
    (hc : Covered s) : Sound s' ∧ Covered s' := by
  cases h with
  | fails => exact ⟨hs, hc⟩
  | takes b h starts run total saddr marked =>
    have hnew : ∀ i ∈ Region.blocks ⟨b, n⟩, i < s.heap.total → ¬¬s.heap.IsFree i :=
      fun i hi hin => not_not.mpr (run i hi hin)
    have haddr : ∀ t : ℤ, heapBlockToAddress h t = heapBlockToAddress s.heap t :=
      heapBlockToAddress_congr saddr
    refine ⟨⟨?_, Separate.cons hs.separate hc starts hnew⟩, ?_⟩
    · intro a ha
      rcases List.mem_cons.mp ha with rfl | ha
      · refine ⟨starts.trans_eq total.symm, ?_⟩
        dsimp only
        rw [haddr]
      · obtain ⟨hlt, hptr⟩ := hs.addressed a ha
        refine ⟨hlt.trans_eq total.symm, ?_⟩
        dsimp only
        rw [haddr, hptr]
    · show Recorded (fun i => ¬h.IsFree i) h.total (⟨b, n⟩ :: s.regions)
      rw [total]
      refine Recorded.cons hc (fun i hi => ?_) starts fun i hi _ => ?_
      · rw [marked]
        exact fun hf => hi hf.1
      · rw [marked]
        exact fun hf => hf.2 hi

theorem addressed_free {s : State} (hs : Addressed s) (a : Allocation) :
    Addressed (s.free a) := by
  intro a' ha'
  obtain ⟨hlt, hptr⟩ := hs a' (List.mem_of_mem_erase ha')
  refine ⟨by simpa [State.free] using hlt, hptr.trans (heapBlockToAddress_congr ?_ _).symm⟩
  exact heapFree_saddr _ _

theorem regions_free (s : State) {a : Allocation} (ha : a ∈ s.live) :
    (a.region :: (s.free a).regions).Perm s.regions :=
  ((List.perm_cons_erase ha).map Allocation.region).symm

theorem separate_free {s : State} (hs : Separate s.regions) {a : Allocation} (ha : a ∈ s.live) :
    Separate (s.free a).regions ∧
      ∀ a' ∈ (s.free a).live, Disjoint a.region.blocks a'.region.blocks := by
  have hperm := (regions_free s ha).symm
  have hp := (List.Perm.pairwise_iff (fun hd => Disjoint.symm hd) hperm).mp hs
  obtain ⟨hhead, htail⟩ := List.pairwise_cons.mp hp
  exact ⟨htail, fun a' ha' => hhead _ (List.mem_map_of_mem ha')⟩

theorem isFree_free {s : State} (hs : Sound s) {a : Allocation} (ha : a ∈ s.live) (b : ℕ) :
    (s.free a).heap.IsFree b ↔
      s.heap.IsFree b ∨ (b = a.region.start ∧ a.region.start < 524288) := by
  obtain ⟨hlt, hptr⟩ := hs.addressed a ha
  rw [State.free, hptr]
  exact isFree_heapFree s.heap hlt b

def Nonempty (s : State) : Prop := ∀ a ∈ s.live, 1 ≤ a.region.len

theorem blockStep_keeps (s : State) (op : Op) (s' : State)
    (inv : Sound s ∧ Covered s ∧ Nonempty s) (hstep : blockStep s op = some s') :
    Sound s' ∧ Covered s' ∧ Nonempty s' := by
  obtain ⟨hs, hc, hne⟩ := inv
  cases op with
  | malloc n =>
    simp only [blockStep, Option.ite_none_right_eq_some, Option.some.injEq] at hstep
    obtain ⟨hn, rfl⟩ := hstep
    have hspec := malloc_spec s (n := n) (by omega)
    obtain ⟨hs', hc'⟩ := hspec.sound hs hc
    refine ⟨hs', hc', ?_⟩
    generalize s.malloc n = s' at hspec
    cases hspec with
    | fails => exact hne
    | takes b h starts run total saddr marked =>
      intro a ha
      rcases List.mem_cons.mp ha with rfl | ha
      · exact hn.1
      · exact hne a ha
  | free a =>
    simp only [blockStep, Option.ite_none_right_eq_some, Option.some.injEq] at hstep
    obtain ⟨ha, rfl⟩ := hstep
    obtain ⟨hsep, hdis⟩ := separate_free hs.separate ha
    refine ⟨⟨addressed_free hs.addressed a, hsep⟩, ?_,
      fun a' ha' => hne a' (List.mem_of_mem_erase ha')⟩
    -- only the first block of `a` is touched, and no other live allocation owns it
    intro r hr
    obtain ⟨a', ha', rfl⟩ := List.mem_map.mp hr
    have hmem := List.mem_of_mem_erase ha'
    obtain ⟨hlt, htaken⟩ := hc a'.region (List.mem_map_of_mem hmem)
    refine ⟨by simpa [State.free] using hlt, fun b hb hin => ?_⟩
    show ¬(s.free a).heap.IsFree b
    rw [isFree_free hs ha, not_or]
    refine ⟨htaken b hb (by simpa [State.free] using hin), fun hstart => ?_⟩
    have hlen := hne a ha
    refine Set.disjoint_left.mp (hdis a' ha') (Region.mem_blocks.mpr ?_) hb
    omega

/-- No block is owned by two live allocations, and releasing one of them leaves the
entries of the others alone. `h` is any heap `heap_create` can set up. -/
theorem live_allocations_apart {h : Heap} {ops : List Op} {s : State}
    (hrun : exec blockStep ⟨h, []⟩ ops = some s) :
    s.live.Pairwise (fun a a' => Disjoint a.region.blocks a'.region.blocks) ∧
    ∀ a ∈ s.live, ∀ a' ∈ s.live.erase a, ∀ b ∈ a'.region.blocks,
      (heapFree s.heap a.ptr).entries b = s.heap.entries b := by
  have hinit : Sound ⟨h, []⟩ ∧ Covered ⟨h, []⟩ ∧ Nonempty ⟨h, []⟩ :=
    ⟨sound_init h, covered_init h, fun _ ha => absurd ha List.not_mem_nil⟩
  obtain ⟨hs, -, hne⟩ := exec_invariant blockStep_keeps hinit hrun
  have hpair := List.pairwise_map.mp hs.separate
  refine ⟨hpair, fun a ha a' ha' b hb => ?_⟩
  obtain ⟨hlt, hptr⟩ := hs.addressed a ha
  rw [hptr]
  refine heapFree_entries_of_ne s.heap hlt fun hbe => ?_
  have hdis := (separate_free hs.separate ha).2 a' ha'
  have hlen := hne a ha
  refine Set.disjoint_left.mp hdis (Region.mem_blocks.mpr ?_) hb
  omega

def smallHeap : Heap where
  entries := fun _ => heapBlockTableEntryFree
  total := 4
  saddr := 0x1000
  saddr_lt := by decide
  saddr_aligned := by decide
  total_lt := by decide

theorem live_allocations_apart_ragged :
    ∃ s, exec blockStep ⟨smallHeap, []⟩ [.malloc 2, .malloc 1, .free ⟨0x1000, ⟨0, 2⟩⟩,
        .malloc 3] = some s ∧ s.live.length = 2 ∧
      s.live.Pairwise (fun a a' => Disjoint a.region.blocks a'.region.blocks) ∧
      ∀ a ∈ s.live, ∀ a' ∈ s.live.erase a, ∀ b ∈ a'.region.blocks,
        (heapFree s.heap a.ptr).entries b = s.heap.entries b :=
  ⟨_, rfl, rfl, @live_allocations_apart smallHeap
    [.malloc 2, .malloc 1, .free ⟨0x1000, ⟨0, 2⟩⟩, .malloc 3] _ rfl⟩

/-- The entries that are not FREE are exactly the blocks of the live allocations. -/
def NoLeak (s : State) : Prop :=
  ∀ b < s.heap.total, ¬s.heap.IsFree b ↔ ∃ a ∈ s.live, b ∈ a.region.blocks

/-- Releasing `a` gives back what it owns: its one block, less than 2 GB above the start
of the heap. An allocation without blocks (a size in the last page below `2^32`) owns
nothing, and its release must not reach a block that is taken. -/
def GivesBack (s : State) : Op → Prop
  | .malloc _ => True
  | .free a =>
    a.region.len = 1 ∧ a.region.start < 524288 ∨
    a.region.len = 0 ∧ (s.heap.IsFree a.region.start ∨ 524288 ≤ a.region.start)

theorem NoLeak.covered {s : State} (h : NoLeak s) (hs : Sound s) : Covered s := by
  intro r hr
  obtain ⟨a, ha, rfl⟩ := List.mem_map.mp hr
  exact ⟨(hs.addressed a ha).1, fun b hb hin => (h b hin).mpr ⟨a, ha, hb⟩⟩

theorem sizeStep_malloc {s s' : State} {size : ℕ}
    (h : sizeStep s (.malloc size) = some s') :
    ∃ n < 1048576, s' = s.malloc n ∧ heapGetStartBlock s.heap n + n ≤ s.heap.total := by
  simp only [sizeStep, Option.ite_none_right_eq_some, Option.some.injEq] at h
  obtain ⟨⟨-, hlt, hin⟩, rfl⟩ := h
  exact ⟨_, heapAlignValueToUpper_lt hlt, rfl, hin⟩

theorem malloc_noLeak {s : State} {n : ℕ} (hn : n < 1048576) (hleak : NoLeak s) :
    NoLeak (s.malloc n) := by
  have hspec := malloc_spec s (n := n) (by omega)
  generalize s.malloc n = s' at hspec
  cases hspec with
  | fails => exact hleak
  | takes b h starts run total saddr marked =>
    intro i hi
    have hi' : i < s.heap.total := hi.trans_eq total
    have hold := hleak i hi'
    show ¬h.IsFree i ↔ _
    rw [marked, not_and_or, not_not, hold]
    constructor
    · rintro (⟨a, ha, hia⟩ | hin)
      · exact ⟨a, List.mem_cons_of_mem _ ha, hia⟩
      · exact ⟨_, List.mem_cons_self, hin⟩
    · rintro ⟨a, ha, hia⟩
      rcases List.mem_cons.mp ha with rfl | ha
      · exact Or.inr hia
      · exact Or.inl ⟨a, ha, hia⟩

theorem owned_free {s : State} (hs : Sound s) {a : Allocation} (ha : a ∈ s.live) (b : ℕ) :
    (∃ a' ∈ (s.free a).live, b ∈ a'.region.blocks) ↔
      (∃ a' ∈ s.live, b ∈ a'.region.blocks) ∧ b ∉ a.region.blocks := by
  have hdis := (separate_free hs.separate ha).2
  constructor
  · rintro ⟨a', ha', hb⟩
    exact ⟨⟨a', List.mem_of_mem_erase ha', hb⟩,
      fun hba => Set.disjoint_left.mp (hdis a' ha') hba hb⟩
  · rintro ⟨⟨a', ha', hb⟩, hnot⟩
    have hne : a' ≠ a := fun he => hnot (he ▸ hb)
    exact ⟨a', (List.mem_erase_of_ne hne).mpr ha', hb⟩

def Inside (s : State) : Prop :=
  ∀ a ∈ s.live, a.region.start + a.region.len ≤ s.heap.total

theorem malloc_inside {s : State} {n : ℕ} (hn : n < 1048576) (hs : Inside s)
    (hin : heapGetStartBlock s.heap n + n ≤ s.heap.total) : Inside (s.malloc n) := by
  have hspec := malloc_spec s (n := n) (by omega)
  have hlive : (s.malloc n).live = if heapGetStartBlock s.heap n < 0 then s.live else
      ⟨(heapMallocBlocks s.heap n).1, ⟨(heapGetStartBlock s.heap n).toNat, n⟩⟩ :: s.live := rfl
  have htotal : (s.malloc n).heap.total = s.heap.total := by
    generalize s.malloc n = s' at hspec
    cases hspec with
    | fails => rfl
    | takes b h starts run total saddr marked => exact total
  intro a ha
  rw [htotal]
  rw [hlive] at ha
  split_ifs at ha with hneg
  · exact hs a ha
  · rcases List.mem_cons.mp ha with rfl | ha
    · dsimp only
      omega
    · exact hs a ha

theorem free_noLeak_iff {s : State} (hs : Sound s) (hins : Inside s) (hleak : NoLeak s)
    {a : Allocation} (ha : a ∈ s.live) : NoLeak (s.free a) ↔ GivesBack s (.free a) := by
  have hstart := (hs.addressed a ha).1
  have htotal : (s.free a).heap.total = s.heap.total := heapFree_total _ _
  have hblock : ∀ b < s.heap.total,
      ((¬(s.free a).heap.IsFree b ↔ ∃ a' ∈ (s.free a).live, b ∈ a'.region.blocks) ↔
        (¬s.heap.IsFree b ∧ ¬(b = a.region.start ∧ a.region.start < 524288) ↔
          ¬s.heap.IsFree b ∧ b ∉ a.region.blocks)) := by
    intro b hb
    rw [owned_free hs ha, isFree_free hs ha, not_or, ← hleak b hb]
  have hend := hins a ha
  have howned : ∀ b, a.region.start ≤ b → b < a.region.start + a.region.len →
      ¬s.heap.IsFree b :=
    fun b hb hb' => (hleak b (by omega)).mpr ⟨a, ha, Region.mem_blocks.mpr ⟨hb, hb'⟩⟩
  simp only [Region.mem_blocks] at hblock
  constructor
  · intro hafter
    have hfirst := (hblock _ hstart).mp (hafter _ (htotal ▸ hstart))
    rcases Nat.lt_trichotomy a.region.len 1 with h0 | h1 | h2
    · refine Or.inr ⟨by omega, ?_⟩
      by_contra hcon
      rw [not_or, not_le] at hcon
      have hr := hfirst.mpr ⟨hcon.1, by omega⟩
      exact hr.2 ⟨rfl, hcon.2⟩
    · refine Or.inl ⟨h1, ?_⟩
      by_contra hhigh
      have htaken := howned _ le_rfl (by omega)
      have hr := hfirst.mp ⟨htaken, fun hc => hhigh hc.2⟩
      exact hr.2 ⟨le_rfl, by omega⟩
    · -- the second block of `a` stays taken and belongs to nobody
      exfalso
      have hin : a.region.start + 1 < s.heap.total := by omega
      have htaken := howned (a.region.start + 1) (by omega) (by omega)
      have hsecond := (hblock _ hin).mp (hafter _ (htotal ▸ hin))
      have hr := hsecond.mp ⟨htaken, fun hc => by omega⟩
      exact hr.2 ⟨by omega, by omega⟩
  · intro hcond b hb
    have hb' : b < s.heap.total := htotal ▸ hb
    refine (hblock b hb').mpr ?_
    by_cases htaken : s.heap.IsFree b
    · simp only [htaken, not_true_eq_false, false_and]
    · rcases hcond with ⟨hlen, hlow⟩ | ⟨hlen, hfree | hhigh⟩
      · have hone : (b = a.region.start ∧ a.region.start < 524288) ↔
            (a.region.start ≤ b ∧ b < a.region.start + a.region.len) := by omega
        rw [hone]
      · have hne : b ≠ a.region.start := fun he => htaken (he ▸ hfree)
        have hnone : ¬(a.region.start ≤ b ∧ b < a.region.start + a.region.len) := by omega
        simp only [htaken, hne, hnone, false_and, not_false_eq_true]
      · have hnone : ¬(a.region.start ≤ b ∧ b < a.region.start + a.region.len) := by omega
        have hno : ¬(b = a.region.start ∧ a.region.start < 524288) := by omega
        simp only [htaken, hno, hnone, not_false_eq_true]

theorem sizeStep_sound (s : State) (op : Op) (s' : State) (inv : Sound s ∧ Inside s)
    (hleak : NoLeak s) (hstep : sizeStep s op = some s') : Sound s' ∧ Inside s' := by
  obtain ⟨hs, hins⟩ := inv
  cases op with
  | malloc size =>
    obtain ⟨n, hn, rfl, hin⟩ := sizeStep_malloc hstep
    have hspec := malloc_spec s (n := n) (by omega)
    exact ⟨(hspec.sound hs (hleak.covered hs)).1, malloc_inside hn hins hin⟩
  | free a =>
    simp only [sizeStep, Option.ite_none_right_eq_some, Option.some.injEq] at hstep
    obtain ⟨ha, rfl⟩ := hstep
    refine ⟨⟨addressed_free hs.addressed a, (separate_free hs.separate ha).1⟩, fun a' ha' => ?_⟩
    have hle := hins a' (List.mem_of_mem_erase ha')
    simpa [State.free] using hle

theorem sizeStep_noLeak_iff (s : State) (op : Op) (s' : State) (inv : Sound s ∧ Inside s)
    (hleak : NoLeak s) (hstep : sizeStep s op = some s') : NoLeak s' ↔ GivesBack s op := by
  cases op with
  | malloc size =>
    obtain ⟨n, hn, rfl, -⟩ := sizeStep_malloc hstep
    exact iff_of_true (malloc_noLeak hn hleak) trivial
  | free a =>
    simp only [sizeStep, Option.ite_none_right_eq_some, Option.some.injEq] at hstep
    obtain ⟨ha, rfl⟩ := hstep
    exact free_noLeak_iff inv.1 inv.2 hleak ha

theorem heapCreate_noLeak {ptr limit : UInt32} {table : HeapTable} {h : Heap}
    (created : heapCreate ptr limit table = .ok h) : NoLeak ⟨h, []⟩ := by
  intro b hb
  have hfree : h.IsFree b := heapCreate_isFree created hb
  exact iff_of_false (not_not.mpr hfree) fun ⟨a, ha, _⟩ => absurd ha List.not_mem_nil

/-- A run of `heap_malloc` and `heap_free` leaks nothing in any of its states exactly when
each release in it gives its allocation back. -/
theorem no_leak_iff_gives_back {ptr limit : UInt32} {table : HeapTable} {h : Heap}
    (created : heapCreate ptr limit table = .ok h) (ops : List Op) :
    Throughout sizeStep NoLeak ⟨h, []⟩ ops ↔ Along sizeStep GivesBack ⟨h, []⟩ ops :=
  throughout_iff_along (I := fun s => Sound s ∧ Inside s) sizeStep_noLeak_iff
    (fun s op s' inv hleak hstep _ => sizeStep_sound s op s' inv hleak hstep)
    ⟨sound_init h, fun _ ha => absurd ha List.not_mem_nil⟩ (heapCreate_noLeak created)

theorem no_leak_iff_gives_back_single :
    ∃ h, heapCreate 0x1000 0x4000 ⟨fun _ => 0, 3⟩ = .ok h ∧
      Throughout sizeStep NoLeak ⟨h, []⟩ [.malloc 5000, .malloc 10, .free ⟨0x3000, ⟨2, 1⟩⟩] := by
  refine ⟨_, rfl, (@no_leak_iff_gives_back 0x1000 0x4000 ⟨fun _ => 0, 3⟩ _ rfl _).mpr ?_⟩
  intro s₁ hs₁
  refine ⟨trivial, fun s₂ hs₂ => ⟨trivial, fun s₃ _ => ⟨Or.inl ⟨rfl, by decide⟩, trivial⟩⟩⟩

/-- The calls of the kernel's own allocation test, with both pointers freed: the second
block of the larger allocation stays taken. -/
theorem memory_allocation_test_leaks :
    ∃ h, heapCreate 0x1000 0x5000 ⟨fun _ => 0, 4⟩ = .ok h ∧
      ¬Throughout sizeStep NoLeak ⟨h, []⟩
        [.malloc 50, .malloc 5000, .free ⟨0x1000, ⟨0, 1⟩⟩, .free ⟨0x2000, ⟨1, 2⟩⟩] := by
  refine ⟨_, rfl, fun hall => ?_⟩
  have hlast := hall.last rfl
  have htaken : ∃ a ∈ ([] : List Allocation), 2 ∈ a.region.blocks :=
    (hlast 2 (by decide)).mp (by decide)
  obtain ⟨a, ha, -⟩ := htaken
  exact absurd ha List.not_mem_nil

end Dexter.HeapRuns
