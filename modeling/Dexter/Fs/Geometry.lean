import Dexter.Fs.ReadContract

/-!
# Where the clusters are

The root directory takes up whole sectors, but `fat16_get_root_directory` stores the
rounded-down end of it, and `fat16_cluster_to_sector` counts the clusters from there. The
position of a byte is kept in an `int`, which ends at 2 GiB; the boot sector of
`x86/boot.asm` declares a volume of about 4 GB.
-/

namespace Dexter
open Lib.Programs KernelHeap

namespace DiskImage

def clusterSector (d : DiskImage) (c : ℕ) : ℕ :=
  d.header.reservedSectors + d.header.fatCopies * d.header.sectorsPerFat +
    d.header.rootDirEntries * 32 / 512 + (c - 2) * d.header.sectorsPerCluster

/-- The sectors that the header declares; the code looks at neither of the two fields. -/
def declaredSectors (d : DiskImage) : ℕ :=
  if le16 d.byteAt 19 = 0 then le32 d.byteAt 32 else le16 d.byteAt 19

/-- Byte `o` of cluster `c` is on the declared volume, which has at most 65524 data clusters. -/
structure Declares (d : DiskImage) (c o : ℕ) : Prop where
  cluster : 2 ≤ c ∧ c < 2 + 65524
  inside : o < d.clusterSize
  volume : d.firstDataSector + (c - 2) * d.header.sectorsPerCluster + o / 512 < d.declaredSectors

end DiskImage

section DataArea
variable {disk : Disk} {fatPrivate : FatPrivate} {c : ℕ}

theorem fat16ClusterToSector_wraps (hm : Mounted disk.image fatPrivate) (hc : 2 ≤ c)
    (hint : c < 2147483648) :
    fat16ClusterToSector fatPrivate c = i32 (disk.image.clusterSector c) := by
  have hsub : (c : ℤ) - 2 = (c - 2 : ℕ) := by omega
  rw [fat16ClusterToSector, hm.ending, hm.header, hsub, i32_natCast (by omega), i32_add_i32,
    DiskImage.clusterSector]
  push_cast
  rfl

structure InDataArea (d : DiskImage) (c : ℕ) (sector : ℤ) : Prop where
  placed : sector = (d.firstDataSector + (c - 2) * d.header.sectorsPerCluster : ℕ)
  behind : d.firstDataSector ≤ sector

/-- A cluster is looked for at its place if and only if the root directory fills its last sector
and the number of the sector is an `int`. -/
theorem fat16ClusterToSector_right_iff {k k' : KernelHeap}
    (hresolve : fat16Resolve disk k = .ok ((0, some fatPrivate), k')) (hc : 2 ≤ c)
    (hint : c < 2147483648) :
    InDataArea disk.image c (fat16ClusterToSector fatPrivate c) ↔
      disk.image.header.rootDirEntries % 16 = 0 ∧
        disk.image.firstDataSector + (c - 2) * disk.image.header.sectorsPerCluster <
          2147483648 := by
  rw [fat16ClusterToSector_wraps (mounted_of_resolve hresolve) hc hint]
  have hplaced : i32 (disk.image.clusterSector c) = (disk.image.firstDataSector +
      (c - 2) * disk.image.header.sectorsPerCluster : ℕ) ↔
      disk.image.header.rootDirEntries % 16 = 0 ∧
        disk.image.firstDataSector + (c - 2) * disk.image.header.sectorsPerCluster <
          2147483648 := by
    rw [i32_eq_iff, DiskImage.clusterSector, DiskImage.firstDataSector]
    generalize (c - 2) * disk.image.header.sectorsPerCluster = q
    generalize disk.image.header.fatCopies * disk.image.header.sectorsPerFat = t
    omega
  constructor
  · intro h
    exact hplaced.mp h.placed
  · intro h
    have hsector := hplaced.mpr h
    exact ⟨hsector, by omega⟩

end DataArea

def emptyVolume (boot : ℕ → UInt8) : DiskImage where
  sector lba i := if lba = 0 then boot i else 0
  stack := fun _ => 0

def emptyDisk (boot : ℕ → UInt8) : Disk := ⟨emptyVolume boot, fun _ => 0, true, none⟩

theorem emptyDisk_accepted {boot : ℕ → UInt8}
    (hsignature : (emptyVolume boot).header.signature = 0x29)
    (hsize : 1 ≤ (emptyVolume boot).header.rootDirEntries * 32 ∧
      (emptyVolume boot).header.rootDirEntries * 32 ≤ 4096)
    (htotal : fat16GetTotalItemsForDirectory (emptyDisk boot)
      ((emptyVolume boot).header.fatCopies * (emptyVolume boot).header.sectorsPerFat +
        (emptyVolume boot).header.reservedSectors) = .ok 0) :
    ∃ fatPrivate k, fat16Resolve (emptyDisk boot) kheapInit = .ok ((0, some fatPrivate), k) := by
  have hroom := @fat16Resolve_room 0 (emptyDisk boot) 0 (by decide) hsignature hsize htotal
  obtain ⟨r, k, hresolve, ⟨dir, s₁, s₂, s₃, rfl, -⟩, -⟩ := hroom ⟨kheapInit_unused, rfl⟩
  exact ⟨_, k, hresolve⟩

def bootHeader (i : ℕ) : UInt8 :=
  match i with
  | 12 => 0x02
  | 13 => 0x80
  | 14 => 200
  | 16 => 0x02
  | 17 => 0x40
  | 21 => 0xF8
  | 23 => 0x01
  | 24 => 0x20
  | 26 => 0x40
  | 32 => 0x94
  | 33 => 0x35
  | 34 => 0x77
  | 36 => 0x80
  | 38 => 0x29
  | _ => 0

theorem bootHeader_decode : (emptyVolume bootHeader).header = ⟨128, 200, 2, 64, 256, 0x29⟩ := by
  decide +kernel

theorem bootHeader_accepted : ∃ fatPrivate k,
    fat16Resolve (emptyDisk bootHeader) kheapInit = .ok ((0, some fatPrivate), k) := by
  apply emptyDisk_accepted <;> rw [bootHeader_decode]
  · decide
  · decide +kernel

theorem boot_volume_first_cluster : ∃ fatPrivate k,
    fat16Resolve (emptyDisk bootHeader) kheapInit = .ok ((0, some fatPrivate), k) ∧
      InDataArea (emptyVolume bootHeader) 2 (fat16ClusterToSector fatPrivate (2 : ℕ)) := by
  obtain ⟨fatPrivate, k, hresolve⟩ := bootHeader_accepted
  refine ⟨fatPrivate, k, hresolve, ?_⟩
  apply (fat16ClusterToSector_right_iff hresolve (by decide) (by decide)).mpr
  decide +kernel

def halfSectorRoot (i : ℕ) : UInt8 :=
  match i with
  | 12 => 0x02
  | 13 | 14 | 16 | 22 => 1
  | 17 => 8
  | 38 => 0x29
  | _ => 0

/-- Cluster 2 is looked for in the sector of the root directory. -/
theorem half_sector_root_overlaps : ∃ fatPrivate k,
    fat16Resolve (emptyDisk halfSectorRoot) kheapInit = .ok ((0, some fatPrivate), k) ∧
      fat16ClusterToSector fatPrivate (2 : ℕ) = 2 ∧
      (emptyVolume halfSectorRoot).firstDataSector = 3 ∧
      ¬InDataArea (emptyVolume halfSectorRoot) 2 (fat16ClusterToSector fatPrivate (2 : ℕ)) := by
  have hheader : (emptyVolume halfSectorRoot).header = ⟨1, 1, 1, 8, 1, 0x29⟩ := by decide +kernel
  obtain ⟨fatPrivate, k, hresolve⟩ : ∃ fatPrivate k,
      fat16Resolve (emptyDisk halfSectorRoot) kheapInit = .ok ((0, some fatPrivate), k) := by
    apply emptyDisk_accepted <;> rw [hheader]
    · decide
    · decide +kernel
  have hsector : fat16ClusterToSector fatPrivate (2 : ℕ) = 2 := by
    rw [fat16ClusterToSector_wraps (mounted_of_resolve hresolve) (by decide) (by decide)]
    decide +kernel
  have hfirst : (emptyVolume halfSectorRoot).firstDataSector = 3 := by decide +kernel
  refine ⟨fatPrivate, k, hresolve, hsector, hfirst, ?_⟩
  intro h
  have hbehind := h.behind
  rw [hfirst, hsector] at hbehind
  omega

section Positions
variable {disk : Disk} {fatPrivate : FatPrivate} {c o : ℕ}

def startingPos (fatPrivate : FatPrivate) (cluster offsetFromCluster : ℤ) : ℤ :=
  i32 (i32 (fat16ClusterToSector fatPrivate cluster * dexterSectorSize) + offsetFromCluster)

theorem startingPos_wraps (hm : Mounted disk.image fatPrivate) (hc : 2 ≤ c)
    (hint : c < 2147483648) (o : ℕ) :
    startingPos fatPrivate c o = i32 (disk.image.clusterSector c * 512 + o) := by
  rw [startingPos, fat16ClusterToSector_wraps hm hc hint, i32_i32_mul, i32_i32_add]
  rfl

open Streamed in
theorem requestsFrom_head (k : ℕ) (pos total : ℤ) : ∃ count rest,
    requestsFrom k pos total = ⟨pos.tdiv 512, pos.tmod 512, count⟩ :: rest := by
  cases k with
  | zero => exact ⟨_, _, rfl⟩
  | succ k => exact ⟨_, _, rfl⟩

open Streamed in
theorem readCluster_request (hbytes : fat16SizeOfClusterBytes fatPrivate = disk.image.clusterSize)
    (ho : o < disk.image.clusterSize) (total : ℕ) (s : Streams) : ∃ r s' count rest,
      Streamed.fat16ReadInternalFromStream disk fatPrivate .clusterReadStream 0 c o total s =
        .ok (r, s') ∧
      s'.requests = s.requests ++ ⟨(startingPos fatPrivate c o).tdiv 512,
        (startingPos fatPrivate c o).tmod 512, count⟩ :: rest := by
  have hne : ¬disk.image.clusterSize = 0 := by omega
  have hahead : (o : ℤ).tdiv (disk.image.clusterSize : ℕ) = 0 := by
    rw [← Int.ofNat_tdiv, Nat.div_eq_of_lt ho]
    rfl
  have hoffset : (o : ℤ).tmod (disk.image.clusterSize : ℕ) = o := by
    rw [← Int.ofNat_tmod, Nat.mod_eq_of_lt ho]
  have hlookup : Streamed.fat16GetClusterForOffset disk fatPrivate c o s = .ok ((c : ℤ), s) := by
    rw [Streamed.fat16GetClusterForOffset, hbytes]
    simp only [if_neg hne, hahead]
    rfl
  have hneg : ¬(c : ℤ) < 0 := by omega
  rw [Streamed.fat16ReadInternalFromStream, Streamed.fat16ReadCluster, bind_of_ok hlookup,
    if_neg hneg, hbytes, hoffset]
  generalize (if (total : ℤ) > (disk.image.clusterSize : ℕ) then
    ((disk.image.clusterSize : ℕ) : ℤ) else total) = totalToRead
  obtain ⟨count, rest, hhead⟩ := requestsFrom_head
    ((totalToRead - 1) / (dexterSectorSize : ℕ)).toNat (startingPos fatPrivate c o) totalToRead
  rw [← prog_bind_assoc, bind_of_ok (seek_read_run _ _)]
  exact ⟨_, _, count, rest, rfl, congrArg (s.requests ++ ·) hhead⟩

/-- However much of the cluster is read from its byte `o` on, the sector and the place in it are
those of the byte. -/
def ReadsInPlace (disk : Disk) (fatPrivate : FatPrivate) (c o : ℕ) : Prop :=
  ∀ total ≤ disk.image.clusterSize, ∀ s, ∃ r s' count rest,
    Streamed.fat16ReadInternalFromStream disk fatPrivate .clusterReadStream 0 c o total s =
      .ok (r, s') ∧
    s'.requests = s.requests ++
      ⟨(disk.image.clusterSector c + o / 512 : ℕ), (o % 512 : ℕ), count⟩ :: rest

theorem ReadsInPlace.startingPos_eq
    (hbytes : fat16SizeOfClusterBytes fatPrivate = disk.image.clusterSize)
    (ho : o < disk.image.clusterSize) (h : ReadsInPlace disk fatPrivate c o) :
    startingPos fatPrivate c o = (disk.image.clusterSector c * 512 + o : ℕ) := by
  obtain ⟨r, s', count, rest, hrun, hmade⟩ := h 0 (Nat.zero_le _) ⟨fun _ => 0, []⟩
  obtain ⟨r', s'', count', rest', hrun', hmade'⟩ := readCluster_request (c := c) hbytes ho 0
    ⟨fun _ => 0, []⟩
  rw [hrun] at hrun'
  obtain ⟨-, rfl⟩ := ok_inj hrun'
  have hfirst := List.append_cancel_left (hmade.symm.trans hmade')
  obtain ⟨hsector, hoffset, -⟩ := Streamed.Request.mk.inj (List.cons.inj hfirst).1
  rw [← Int.mul_tdiv_add_tmod (startingPos fatPrivate c o) 512, ← hsector, ← hoffset]
  omega

theorem readsInPlace_of_startingPos
    (hbytes : fat16SizeOfClusterBytes fatPrivate = disk.image.clusterSize)
    (ho : o < disk.image.clusterSize)
    (h : startingPos fatPrivate c o = (disk.image.clusterSector c * 512 + o : ℕ)) :
    ReadsInPlace disk fatPrivate c o := by
  intro total _ s
  have hsector : (startingPos fatPrivate c o).tdiv 512 =
      (disk.image.clusterSector c + o / 512 : ℕ) := by
    have hdiv : (disk.image.clusterSector c * 512 + o) / 512 =
        disk.image.clusterSector c + o / 512 := by omega
    rw [h, ← hdiv]
    exact (Int.ofNat_tdiv _ 512).symm
  have hoffset : (startingPos fatPrivate c o).tmod 512 = (o % 512 : ℕ) := by
    have hmod : (disk.image.clusterSector c * 512 + o) % 512 = o % 512 := by omega
    rw [h, ← hmod]
    exact (Int.ofNat_tmod _ 512).symm
  have hrequest := readCluster_request (c := c) hbytes ho total s
  rwa [hsector, hoffset] at hrequest

/-- A read finds its place if and only if the sector is below `2^22`, so that the position is below
`2^31`. -/
theorem readsInPlace_iff {k k' : KernelHeap}
    (hresolve : fat16Resolve disk k = .ok ((0, some fatPrivate), k')) (hc : 2 ≤ c)
    (hint : c < 2147483648) (ho : o < disk.image.clusterSize) :
    ReadsInPlace disk fatPrivate c o ↔ disk.image.clusterSector c + o / 512 < 4194304 := by
  have hm := mounted_of_resolve hresolve
  have hpos := startingPos_wraps hm hc hint o
  have hwhole : startingPos fatPrivate c o = (disk.image.clusterSector c * 512 + o : ℕ) ↔
      disk.image.clusterSector c + o / 512 < 4194304 := by
    rw [hpos, i32_eq_iff]
    generalize disk.image.clusterSector c = sector
    omega
  rw [← hwhole]
  exact ⟨ReadsInPlace.startingPos_eq (sizeOfClusterBytes_eq hm) ho,
    readsInPlace_of_startingPos (sizeOfClusterBytes_eq hm) ho⟩

theorem boot_volume_first_byte : ∃ fatPrivate k,
    fat16Resolve (emptyDisk bootHeader) kheapInit = .ok ((0, some fatPrivate), k) ∧
      ReadsInPlace (emptyDisk bootHeader) fatPrivate 2 0 := by
  obtain ⟨fatPrivate, k, hresolve⟩ := bootHeader_accepted
  refine ⟨fatPrivate, k, hresolve, ?_⟩
  apply (readsInPlace_iff hresolve (by decide) (by decide) (by decide +kernel)).mpr
  decide +kernel

/-- Cluster 32765 of the declared 4 GB starts behind 2 GiB: the position wraps to a negative one. -/
theorem boot_volume_wraps : ∃ fatPrivate k,
    fat16Resolve (emptyDisk bootHeader) kheapInit = .ok ((0, some fatPrivate), k) ∧
      (emptyVolume bootHeader).Declares 32765 0 ∧
      startingPos fatPrivate (32765 : ℕ) (0 : ℕ) = -2147444736 ∧
      ¬ReadsInPlace (emptyDisk bootHeader) fatPrivate 32765 0 := by
  obtain ⟨fatPrivate, k, hresolve⟩ := bootHeader_accepted
  have hm := mounted_of_resolve hresolve
  have hdeclares : (emptyVolume bootHeader).Declares 32765 0 :=
    ⟨by decide, by decide +kernel, by decide +kernel⟩
  have hpos : startingPos fatPrivate (32765 : ℕ) (0 : ℕ) = -2147444736 := by
    rw [startingPos_wraps hm (by decide) (by decide)]
    decide +kernel
  refine ⟨fatPrivate, k, hresolve, hdeclares, hpos, ?_⟩
  intro h
  have hplace := h.startingPos_eq (sizeOfClusterBytes_eq hm) hdeclares.inside
  rw [hpos] at hplace
  omega

end Positions

end Dexter
