import Dexter.Fs.Geometry

/-!
# Taking a volume

`fat16_get_total_items_for_directory` counts up to the first item whose name starts with
0, wherever that is; the array that the count bounds later is as long as the header says.
`fat16_resolve` sets `disk->filesystem` and requests three streams before its first check,
and takes back neither of them when it rejects the volume.
-/

namespace Dexter
open Lib.Programs KernelHeap

namespace DiskImage

def readByte (d : DiskImage) (pos : ℤ) : UInt8 :=
  d.buf (pos.tdiv dexterSectorSize) (pos.tmod dexterSectorSize)

def itemByte (d : DiskImage) (start : ℤ) (n : ℕ) : UInt8 := d.readByte (i32 (start + 32 * n))

def rootSector (d : DiskImage) : ℕ :=
  d.header.fatCopies * d.header.sectorsPerFat + d.header.reservedSectors

def rootStart (d : DiskImage) : ℤ := i32 (d.rootSector * dexterSectorSize)

end DiskImage

section Count
variable {d : DiskImage} {start : ℤ} {n fuel : ℕ}

theorem itemByte_succ : d.itemByte (i32 (start + 32)) n = d.itemByte start (n + 1) := by
  rw [DiskImage.itemByte, DiskImage.itemByte, i32_i32_add]
  push_cast
  ring_nf

theorem itemByte_periodic : d.itemByte start (n + 134217728) = d.itemByte start n := by
  rw [DiskImage.itemByte, DiskImage.itemByte, i32_congr (y := start + 32 * n)]
  push_cast
  omega

/-- The first item that starts with 0 is the `n`-th, and `r` items before it are in use. -/
def EndsAt (d : DiskImage) (start : ℤ) (n r : ℕ) : Prop :=
  d.itemByte start n = 0 ∧ (∀ m < n, d.itemByte start m ≠ 0) ∧
    r = Nat.count (fun m => d.itemByte start m ≠ 0xE5) n

theorem endsAt_zero {r : ℕ} (h : d.itemByte start 0 = 0) : EndsAt d start n r ↔ n = 0 ∧ r = 0 := by
  constructor
  · intro ⟨_, hbefore, hr⟩
    have h0 : n = 0 := Nat.eq_zero_of_not_pos fun hpos => hbefore 0 hpos h
    subst h0
    exact ⟨rfl, by simpa using hr⟩
  · intro ⟨hn, hr⟩
    subst hn hr
    exact ⟨h, fun m hm => absurd hm (Nat.not_lt_zero m), by simp⟩

theorem endsAt_succ {r : ℕ} (h : d.itemByte start 0 ≠ 0) :
    EndsAt d start (n + 1) r ↔
      ∃ r', EndsAt d (i32 (start + 32)) n r' ∧
        r = r' + if d.itemByte start 0 = 0xE5 then 0 else 1 := by
  simp only [EndsAt, itemByte_succ, Nat.forall_lt_succ_left, Nat.count_succ', ite_not]
  constructor
  · intro ⟨hzero, ⟨_, hbefore⟩, hr⟩
    exact ⟨_, ⟨hzero, hbefore, rfl⟩, hr⟩
  · intro ⟨r', ⟨hzero, hbefore, hr'⟩, hr⟩
    exact ⟨hzero, ⟨h, hbefore⟩, by rw [hr, hr']⟩

theorem fat16CountItems_ok_iff {i r : ℤ} (hstart : i32 start = start) :
    fat16CountItems d fuel start i = .ok r ↔
      ∃ n < fuel, ∃ used : ℕ, EndsAt d start n used ∧ r = i + used := by
  induction fuel generalizing start i with
  | zero => simp [fat16CountItems]
  | succ fuel ih =>
    have hread : (diskstreamerRead d start 32).1.getD 0 0 =
        d.buf (start.tdiv dexterSectorSize) (start.tmod dexterSectorSize + (0 : ℕ)) := rfl
    have hfirst : (diskstreamerRead d start 32).1.getD 0 0 = d.itemByte start 0 := by
      rw [hread, DiskImage.itemByte, Nat.cast_zero, add_zero, mul_zero, add_zero, hstart]
      rfl
    have hnext : (diskstreamerRead d start 32).2 = i32 (start + 32) := rfl
    rw [fat16CountItems, hfirst, hnext]
    by_cases h0 : d.itemByte start 0 = 0
    · rw [if_pos h0]
      simp [endsAt_zero h0, eq_comm]
    · have hcount : (if d.itemByte start 0 = 0xE5 then fat16CountItems d fuel (i32 (start + 32)) i
          else fat16CountItems d fuel (i32 (start + 32)) (i + 1)) =
          fat16CountItems d fuel (i32 (start + 32))
            (i + (if d.itemByte start 0 = 0xE5 then 0 else 1 : ℕ)) := by
        split_ifs <;> simp
      rw [if_neg h0, hcount, ih (i32_i32 _)]
      constructor
      · rintro ⟨n, hn, used, hends, hr⟩
        refine ⟨n + 1, Nat.succ_lt_succ hn, _, (endsAt_succ h0).mpr ⟨used, hends, rfl⟩, ?_⟩
        rw [hr]
        push_cast
        ring
      · rintro ⟨n, hn, used, hends, hr⟩
        cases n with
        | zero => exact absurd hends.1 h0
        | succ n =>
          obtain ⟨used', hends', hused⟩ := (endsAt_succ h0).mp hends
          refine ⟨n, Nat.lt_of_succ_lt_succ hn, used', hends', ?_⟩
          rw [hr, hused]
          push_cast
          ring

/-- An end is found within `2^27` items, where the positions come back, or never. -/
theorem EndsAt.lt {r : ℕ} (h : EndsAt d start n r) : n < 134217728 := by
  by_contra hge
  have hback : n - 134217728 + 134217728 = n := Nat.sub_add_cancel (Nat.le_of_not_lt hge)
  have hzero := h.1
  rw [← hback, itemByte_periodic] at hzero
  exact h.2.1 (n - 134217728) (by omega) hzero

theorem EndsAt.used_le {used : ℕ} (h : EndsAt d start n used) : used ≤ n := by
  rw [h.2.2, Nat.count_eq_card_filter_range]
  exact (Finset.card_filter_le _ _).trans_eq (Finset.card_range n)

theorem fat16GetTotalItems_ok_iff {disk : Disk} {sector : ℕ} {r : ℤ} :
    fat16GetTotalItemsForDirectory disk sector = .ok r ↔
      ∃ n used : ℕ, EndsAt disk.image (i32 (sector * dexterSectorSize)) n used ∧ r = used := by
  rw [fat16GetTotalItemsForDirectory, fat16CountItems_ok_iff (i32_i32 _)]
  simp only [zero_add]
  constructor
  · rintro ⟨n, _, used, hends, hr⟩
    exact ⟨n, used, hends, hr⟩
  · rintro ⟨n, used, hends, hr⟩
    exact ⟨n, hends.lt, used, hends, hr⟩

def CountsWithin (disk : Disk) : Prop :=
  ∃ total, fat16GetTotalItemsForDirectory disk disk.image.rootSector = .ok total ∧
    total ≤ disk.image.header.rootDirEntries ∧
    ∀ i < total.toNat, i < disk.image.header.rootDirEntries

/-- The count stays within the root directory if and only if some item from its start on has the
first byte 0 and at most `root_dir_entries` of the items before it are not deleted. -/
theorem rootCount_within_iff (disk : Disk) : CountsWithin disk ↔
    ∃ n, disk.image.itemByte disk.image.rootStart n = 0 ∧
      (∀ m < n, disk.image.itemByte disk.image.rootStart m ≠ 0) ∧
      Nat.count (fun m => disk.image.itemByte disk.image.rootStart m ≠ 0xE5) n ≤
        disk.image.header.rootDirEntries := by
  constructor
  · intro ⟨total, htotal, hle, _⟩
    obtain ⟨n, used, ⟨hzero, hbefore, rfl⟩, rfl⟩ := fat16GetTotalItems_ok_iff.mp htotal
    exact ⟨n, hzero, hbefore, by exact_mod_cast hle⟩
  · intro ⟨n, hzero, hbefore, hle⟩
    refine ⟨_, fat16GetTotalItems_ok_iff.mpr ⟨n, _, ⟨hzero, hbefore, rfl⟩, rfl⟩, ?_, ?_⟩
    · exact_mod_cast hle
    · intro i hi
      rw [Int.toNat_natCast] at hi
      exact hi.trans_le hle

def fullRoot : DiskImage where
  sector lba i :=
    if lba = 0 then
      match i with
      | 13 | 14 | 16 | 22 => 1
      | 17 => 16
      | 38 => 0x29
      | _ => 0
    else if lba = 2 then if i % 32 = 0 then 0x41 else 0x20
    else if lba = 3 then if i = 0 then 0x42 else 0
    else 0
  stack := fun _ => 0

/-- The count goes on into the data. -/
theorem full_root_counts_data :
    fullRoot.header.rootDirEntries = 16 ∧
      fat16GetTotalItemsForDirectory ⟨fullRoot, fun _ => 0, true, none⟩ fullRoot.rootSector = .ok 17 ∧
      ¬CountsWithin ⟨fullRoot, fun _ => 0, true, none⟩ := by
  have hentries : fullRoot.header.rootDirEntries = 16 := by decide +kernel
  have hcount : fat16GetTotalItemsForDirectory ⟨fullRoot, fun _ => 0, true, none⟩ fullRoot.rootSector =
      .ok 17 := by
    have hloop : fat16CountItems fullRoot 134217728
        (i32 (fullRoot.rootSector * dexterSectorSize)) 0 = .ok 17 := by decide +kernel
    exact hloop
  refine ⟨hentries, hcount, ?_⟩
  intro ⟨total, htotal, hle, _⟩
  have heq := Except.ok.inj (hcount.symm.trans htotal)
  rw [← heq, hentries] at hle
  omega

end Count

/-- `fat16_resolve`, with the two fields of the disk that it sets. -/
def fat16ResolveDisk (disk : Disk) : Prog Crash KernelHeap (ℤ × Disk) := do
  let r ← fat16Resolve disk
  pure (r.1, { disk with filesystem := true, fsPrivate := r.2 })

structure LeavesNothing (disk disk' : Disk) (k k' : KernelHeap) : Prop where
  filesystem : disk'.filesystem = disk.filesystem
  fsPrivate : disk'.fsPrivate = disk.fsPrivate
  heap : SameTable k k'

section Rejected
variable {A : Set ℕ} {c : Prop} {disk : Disk} {k k' : KernelHeap}

theorem diskstreamerNew_loose {α : Type} {f : ℕ → Prog Crash KernelHeap α}
    {Q : α → KernelHeap → Prop} (h : ∀ p, Loose A {p} → Triple (Kept A c) (f p) Q) :
    Triple (Kept A c) (diskstreamerNew >>= f) Q := by
  rw [diskstreamerNew, prog_bind_assoc]
  refine kzalloc_loose (by decide) fun p hp => ?_
  intro s a s' hs hrun
  split_ifs at hrun
  · cases hrun
  · exact h p hp hs hrun

theorem fat16GetRootDirectory_kept (disk : Disk) {header : FatHeader}
    (hentries : header.rootDirEntries < 65536) :
    Triple (Kept A c) (fat16GetRootDirectory disk header) fun _ => Kept A c := by
  refine Triple.bind (Triple.ofExcept fun _ _ _ hk => hk) fun total => ?_
  refine kzalloc_loose (by omega) fun dir _ => Triple.ite ?_ ?_
  · exact fun _ => Triple.pure fun _ hk => hk
  · exact fun _ => Triple.pure fun _ hk => hk

theorem diskstreamerNew_malloc {p : ℕ} (h : diskstreamerNew k = .ok (p, k')) :
    k.malloc 8 = (p, k') := by
  obtain ⟨streamer, k₁, hnew, h⟩ := bind_ok.mp h
  split_ifs at h
  · cases h
  · cases h
    exact kzalloc_malloc hnew

/-- However it ends, a stream is requested that is not given back. -/
theorem fat16Resolve_takes {r : ℤ} {fatPrivate : Option FatPrivate}
    (h : fat16Resolve disk k = .ok ((r, fatPrivate), k')) : ¬SameTable k k' := by
  obtain ⟨p, k₁, hp, h⟩ := bind_ok.mp h
  split_ifs at h with hp0
  · cases h
  obtain ⟨s₁, k₂, hs₁, h⟩ := bind_ok.mp h
  have hprivate := malloc_spec k (by decide : 92 < 4294967296)
  have hstream := malloc_spec k₁ (by decide : 8 < 4294967296)
  rw [kzalloc_malloc hp] at hprivate
  rw [diskstreamerNew_malloc hs₁] at hstream
  have howned : k₁.Owns {p} := hprivate.owns_first hp0 (by decide) (by decide)
  have hkept : Kept {s₁} True k₂ :=
    ⟨hstream.owns_first (diskstreamerNew_ne_zero hs₁) (by decide) (by decide), fun _ => trivial⟩
  have hp' : Loose {s₁} {p} := by
    intro q hq
    rw [Set.mem_singleton_iff] at hq
    subst hq
    have hpos := howned.pos rfl
    have hne : s₁ ≠ q := hstream.fresh howned
    exact ⟨fun h => hne h.symm, hpos.2.2, by omega⟩
  have hend : Kept {s₁} True k' := by
    refine Triple.run (Q := fun _ => Kept {s₁} True) hkept h ?_
    refine diskstreamerNew_loose fun s₂ _ => diskstreamerNew_loose fun s₃ _ =>
      diskstreamerNew_loose fun stream hloose => ?_
    have hfree : Triple (Kept {s₁} True) (kfree stream) fun _ => Kept {s₁} True :=
      hloose.kfree rfl
    have hfree' : Triple (Kept {s₁} True) (kfree p) fun _ => Kept {s₁} True := hp'.kfree rfl
    apply Triple.ite
    · intro _
      exact Triple.bind hfree fun _ => Triple.bind hfree' fun _ => Triple.pure fun _ hk => hk
    · intro _
      refine Triple.bind (fat16GetRootDirectory_kept disk (le16_lt _ _)) fun root =>
        Triple.bind hfree fun _ => ?_
      cases root with
      | error e => exact Triple.bind hfree' fun _ => Triple.pure fun _ hk => hk
      | ok root => exact Triple.pure fun _ hk => hk
  exact hstream.not_sameTable_since (fun b => hprivate.isFree) (diskstreamerNew_ne_zero hs₁) hend.owns

/-- Whatever comes back, the streams are left behind. -/
theorem rejected_never_leaves_nothing {r : ℤ} {disk' : Disk}
    (h : fat16ResolveDisk disk k = .ok ((r, disk'), k')) :
    ¬LeavesNothing disk disk' k k' := by
  obtain ⟨⟨r', fatPrivate⟩, k₁, hrun, hpure⟩ := bind_ok.mp h
  obtain ⟨-, rfl⟩ := ok_inj hpure
  exact fun hnothing => fat16Resolve_takes hrun hnothing.heap

theorem fat16Resolve_unsigned {m : ℕ} (hm : m + 5 ≤ 25600)
    (hsignature : disk.image.header.signature ≠ 0x29) :
    Returns (Room m) (fat16Resolve disk) fun r _ => r = (-eFsNotUs, none) := by
  have hroom : ∀ i ≤ 5, m + i ≤ 25600 := fun i hi => (Nat.add_le_add_left hi m).trans hm
  refine Returns.bind (kzalloc_page (by decide) (by decide) (hroom 1 (by decide))) fun p =>
    Returns.fact fun hp => Returns.ite_neg hp ?_
  refine Returns.bind (diskstreamerNew_room (hroom 2 (by decide))) fun s₁ => Returns.fact fun _ => ?_
  refine Returns.bind (diskstreamerNew_room (hroom 3 (by decide))) fun s₂ => Returns.fact fun _ => ?_
  refine Returns.bind (diskstreamerNew_room (hroom 4 (by decide))) fun s₃ => Returns.fact fun _ => ?_
  refine Returns.bind (diskstreamerNew_room (hroom 5 (by decide))) fun stream =>
    Returns.fact fun _ => ?_
  dsimp only
  rw [header_of_read, if_pos hsignature]
  exact Returns.bind (kfree_room stream) fun _ => Returns.bind (kfree_room p) fun _ =>
    Returns.pure fun _ _ => rfl

def blankDisk : Disk := ⟨emptyVolume fun _ => 0, fun _ => 0, false, none⟩

theorem blankDisk_rejected : ∃ disk' k',
    fat16ResolveDisk blankDisk kheapInit = .ok ((-eFsNotUs, disk'), k') ∧
      disk'.filesystem = true := by
  have hsignature : blankDisk.image.header.signature ≠ 0x29 := by decide +kernel
  have hroom := @fat16Resolve_unsigned blankDisk 0 (by decide) hsignature
  obtain ⟨r, k', hrun, rfl⟩ := hroom ⟨kheapInit_unused, rfl⟩
  exact ⟨_, k', by rw [fat16ResolveDisk, bind_of_ok hrun, pure_apply], rfl⟩

theorem blankDisk_heap_changed : ∃ disk' k',
    fat16ResolveDisk blankDisk kheapInit = .ok ((-eFsNotUs, disk'), k') ∧
      ¬LeavesNothing blankDisk disk' kheapInit k' := by
  obtain ⟨disk', k', hrun, -⟩ := blankDisk_rejected
  exact ⟨disk', k', hrun, rejected_never_leaves_nothing hrun⟩

/-- `filesystem` was not set before. -/
theorem blankDisk_keeps_filesystem : ∃ disk' k',
    fat16ResolveDisk blankDisk kheapInit = .ok ((-eFsNotUs, disk'), k') ∧ -eFsNotUs < 0 ∧
      blankDisk.filesystem = false ∧ disk'.filesystem = true ∧
      ¬LeavesNothing blankDisk disk' kheapInit k' := by
  obtain ⟨disk', k', hrun, hset⟩ := blankDisk_rejected
  refine ⟨disk', k', hrun, by decide, rfl, hset, ?_⟩
  intro h
  have hfilesystem := h.filesystem
  rw [hset] at hfilesystem
  cases hfilesystem

end Rejected

end Dexter
