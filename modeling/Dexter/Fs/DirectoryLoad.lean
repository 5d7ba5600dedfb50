import Dexter.Fs.Mounting
import Dexter.Fs.HeaderSafety
import Dexter.Fs.DirectoryWalk

/-!
# Loading a subdirectory

`fat16_load_fat_directory` has one cleanup for all its exits and one return behind it, so
a directory that was released on a failure is handed out like one that was loaded. Compared
with it is what a caller can rely on: a null pointer and an untouched heap, or a directory
whose blocks are taken and whose items are those of the cluster chain.
-/

namespace Dexter
open Lib.Programs Lib.BlockPool Lib.Pieces KernelHeap

/-- The byte `j` from the start of a sector on, where positions are `int`s. -/
def DiskImage.byteFrom (d : DiskImage) (sector : ℤ) (j : ℕ) : UInt8 :=
  d.sector ((i32 ((sector + (j / 512 : ℕ)) * 512)).tdiv 512) (j % 512)

section Sectors
variable {d : DiskImage} {sector : ℤ}

theorem byteFrom_add_sector (j : ℕ) : d.byteFrom sector (512 + j) = d.byteFrom (sector + 1) j := by
  have hdiv : (512 + j) / 512 = 1 + j / 512 := by omega
  have hmod : (512 + j) % 512 = j % 512 := by omega
  rw [DiskImage.byteFrom, DiskImage.byteFrom, hdiv, hmod, Nat.cast_add, Nat.cast_one, ← add_assoc]

theorem i32_sector_dvd (sector : ℤ) : 512 ∣ i32 (sector * 512) := by
  unfold i32
  omega

theorem diskstreamerReadSector_aligned {n : ℕ} (hn : n ≤ 512) :
    (diskstreamerReadSector d (i32 (sector * 512)) n).1 =
      (List.range n).map (d.byteFrom sector) := by
  have hoffset : (i32 (sector * 512)).tmod (dexterSectorSize : ℕ) = 0 :=
    Int.tmod_eq_zero_of_dvd (i32_sector_dvd sector)
  rw [diskstreamerReadSector, Int.toNat_natCast]
  dsimp only
  rw [hoffset]
  refine List.map_congr_left fun i hi => ?_
  have hlt : i < 512 := (List.mem_range.mp hi).trans_le hn
  have hdiv : i / 512 = 0 := Nat.div_eq_of_lt hlt
  have hin : 0 ≤ (0 + (i : ℤ)) ∧ 0 + (i : ℤ) < (dexterSectorSize : ℕ) := by
    rw [dexterSectorSize]
    omega
  rw [DiskImage.buf, if_pos hin, DiskImage.byteFrom, hdiv, Nat.mod_eq_of_lt hlt, zero_add,
    Int.toNat_natCast, Nat.cast_zero, add_zero]
  rfl

theorem diskstreamerReadLoop_aligned {k total : ℕ} (hlower : 512 * k < total ∨ k = 0)
    (hupper : total ≤ 512 * (k + 1)) :
    (diskstreamerReadLoop d k (i32 (sector * 512)) total).1 =
      (List.range total).map (d.byteFrom sector) := by
  induction k generalizing sector total with
  | zero =>
    have hmin : min (total : ℤ) (dexterSectorSize : ℕ) = (total : ℕ) := by
      rw [dexterSectorSize]
      omega
    rw [diskstreamerReadLoop, hmin]
    exact diskstreamerReadSector_aligned (by omega)
  | succ k ih =>
    have hnext : (diskstreamerReadSector d (i32 (sector * 512)) (dexterSectorSize : ℕ)).2 =
        i32 ((sector + 1) * 512) := by
      rw [diskstreamerReadSector_pos, i32_i32_add, add_mul, one_mul]
      rfl
    have hrest : (total : ℤ) - (dexterSectorSize : ℕ) = (total - 512 : ℕ) := by
      rw [dexterSectorSize]
      omega
    have hsplit : total = 512 + (total - 512) := by omega
    rw [diskstreamerReadLoop]
    dsimp only
    rw [hnext, hrest, ih (by omega) (by omega), diskstreamerReadSector_aligned (le_refl 512)]
    conv_rhs => rw [hsplit, List.range_add, List.map_append, List.map_map]
    refine congrArg _ (List.map_congr_left fun j _ => ?_)
    exact (byteFrom_add_sector j).symm

theorem diskstreamerRead_aligned (total : ℕ) :
    (diskstreamerRead d (i32 (sector * 512)) total).1 =
      (List.range total).map (d.byteFrom sector) := by
  rw [diskstreamerRead]
  apply diskstreamerReadLoop_aligned
  · rw [dexterSectorSize]
    omega
  · rw [dexterSectorSize]
    omega

end Sectors

/-- The cluster that the code looks up for the `i`-th piece behind `cluster`, or an error. -/
def lookupCluster (disk : Disk) (fatPrivate : FatPrivate) (cluster i : ℕ) : ℤ :=
  fat16ClusterAhead disk fatPrivate i cluster

/-- What is on the disk where the code looks for the byte `j` behind `cluster`. -/
def lookupByte (disk : Disk) (fatPrivate : FatPrivate) (cluster j : ℕ) : UInt8 :=
  let size := fat16SizeOfClusterBytes fatPrivate
  disk.image.byteFrom
    (fat16ClusterToSector fatPrivate (lookupCluster disk fatPrivate cluster (j / size))) (j % size)

section Chain
variable {disk : Disk} {fatPrivate : FatPrivate} {cluster i k total : ℕ}

theorem clusterForOffset_multiple (hsize : 0 < fat16SizeOfClusterBytes fatPrivate) :
    fat16GetClusterForOffset disk fatPrivate cluster (fat16SizeOfClusterBytes fatPrivate * i : ℕ) =
      .ok (lookupCluster disk fatPrivate cluster i) := by
  have hahead : ((fat16SizeOfClusterBytes fatPrivate * i : ℕ) : ℤ).tdiv
      (fat16SizeOfClusterBytes fatPrivate) = i := by
    rw [← Int.ofNat_tdiv, Nat.mul_div_cancel_left i hsize]
  rw [fat16GetClusterForOffset]
  dsimp only
  rw [if_neg hsize.ne', hahead, Int.toNat_natCast, lookupCluster]

theorem lookupByte_share {n : ℕ} (hn : n ≤ fat16SizeOfClusterBytes fatPrivate) :
    (diskstreamerRead disk.image (i32 (i32 (fat16ClusterToSector fatPrivate
      (lookupCluster disk fatPrivate cluster i) * dexterSectorSize) +
        ((fat16SizeOfClusterBytes fatPrivate * i : ℕ) : ℤ).tmod
          (fat16SizeOfClusterBytes fatPrivate))) n).1 =
      (List.range n).map fun j =>
        lookupByte disk fatPrivate cluster (fat16SizeOfClusterBytes fatPrivate * i + j) := by
  have hstart : ((fat16SizeOfClusterBytes fatPrivate * i : ℕ) : ℤ).tmod
      (fat16SizeOfClusterBytes fatPrivate) = 0 := by
    rw [← Int.ofNat_tmod, Nat.mul_mod_right, Nat.cast_zero]
  have hread := @diskstreamerRead_aligned disk.image
    (fat16ClusterToSector fatPrivate (lookupCluster disk fatPrivate cluster i)) n
  rw [hstart, add_zero, i32_i32, dexterSectorSize, Nat.cast_ofNat, hread]
  refine List.map_congr_left fun j hj => ?_
  have hlt : j < fat16SizeOfClusterBytes fatPrivate := (List.mem_range.mp hj).trans_le hn
  have hdiv : (fat16SizeOfClusterBytes fatPrivate * i + j) / fat16SizeOfClusterBytes fatPrivate = i := by
    rw [Nat.mul_add_div (Nat.zero_lt_of_lt hlt), Nat.div_eq_of_lt hlt, add_zero]
  have hmod : (fat16SizeOfClusterBytes fatPrivate * i + j) % fat16SizeOfClusterBytes fatPrivate = j := by
    rw [Nat.mul_add_mod, Nat.mod_eq_of_lt hlt]
  simp only [lookupByte, hdiv, hmod]

/-- A read from the start of a cluster on, with `k` clusters more: it comes to its end if the
chain is long enough, and then it has all the bytes. -/
theorem readChain_spec (hsize : 0 < fat16SizeOfClusterBytes fatPrivate)
    (hlower : fat16SizeOfClusterBytes fatPrivate * k < total ∨ k = 0)
    (hupper : total ≤ fat16SizeOfClusterBytes fatPrivate * (k + 1))
    (hsigned : fat16SizeOfClusterBytes fatPrivate * i + total < 2147483648) :
    ∃ r bytes, fat16ReadInternalFromStream disk fatPrivate k cluster
        (fat16SizeOfClusterBytes fatPrivate * i : ℕ) total = .ok (r, bytes) ∧
      (r = 0 ↔ ∀ m ≤ k, 0 ≤ lookupCluster disk fatPrivate cluster (i + m)) ∧
      (r = 0 → bytes = (List.range total).map fun j =>
        lookupByte disk fatPrivate cluster (fat16SizeOfClusterBytes fatPrivate * i + j)) := by
  induction k generalizing i total with
  | zero =>
    have hwhole : ¬(total : ℤ) > fat16SizeOfClusterBytes fatPrivate := by
      simpa using hupper
    rw [fat16ReadInternalFromStream, clusterForOffset_multiple hsize]
    simp only [bind, Except.bind, if_neg hwhole]
    by_cases hneg : lookupCluster disk fatPrivate cluster i < 0
    · refine ⟨_, [], if_pos hneg, iff_of_false hneg.ne fun h => ?_, fun h => absurd h hneg.ne⟩
      exact absurd (h 0 le_rfl) (not_le.mpr hneg)
    · refine ⟨0, _, if_neg hneg, iff_of_true rfl fun m hm => ?_, fun _ => ?_⟩
      · obtain rfl := Nat.le_zero.mp hm
        exact not_lt.mp hneg
      · exact lookupByte_share (by simpa using hupper)
  | succ k ih =>
    have hlong := hlower.resolve_right (Nat.succ_ne_zero k)
    have hle : fat16SizeOfClusterBytes fatPrivate < total := by
      rw [Nat.mul_succ] at hlong
      omega
    have hgt : (total : ℤ) > fat16SizeOfClusterBytes fatPrivate := by exact_mod_cast hle
    have hnext : i32 (((fat16SizeOfClusterBytes fatPrivate * i : ℕ) : ℤ) +
        (fat16SizeOfClusterBytes fatPrivate : ℕ)) =
          (fat16SizeOfClusterBytes fatPrivate * (i + 1) : ℕ) := by
      rw [← Nat.cast_add, ← Nat.mul_succ]
      exact i32_natCast (by rw [Nat.mul_succ]; omega)
    have hrest : (total : ℤ) - (fat16SizeOfClusterBytes fatPrivate : ℕ) =
        (total - fat16SizeOfClusterBytes fatPrivate : ℕ) := (Nat.cast_sub hle.le).symm
    obtain ⟨r, bytes, hrun, hzero, hbytes⟩ := @ih (i + 1)
      (total - fat16SizeOfClusterBytes fatPrivate)
      (Or.inl (by rw [Nat.mul_succ] at hlong; omega))
      (by rw [Nat.mul_succ] at hupper; omega) (by rw [Nat.mul_succ]; omega)
    rw [fat16ReadInternalFromStream, clusterForOffset_multiple hsize]
    simp only [bind, Except.bind, if_pos hgt, hnext, hrest, hrun]
    by_cases hneg : lookupCluster disk fatPrivate cluster i < 0
    · refine ⟨_, [], if_pos hneg, iff_of_false hneg.ne fun h => ?_, fun h => absurd h hneg.ne⟩
      exact absurd (h 0 (Nat.zero_le _)) (not_le.mpr hneg)
    · refine ⟨r, _, if_neg hneg, hzero.trans ⟨fun h m hm => ?_, fun h m hm => ?_⟩, fun h0 => ?_⟩
      · cases m with
        | zero => exact not_lt.mp hneg
        | succ m =>
          rw [Nat.add_comm m 1, ← Nat.add_assoc]
          exact h m (Nat.le_of_succ_le_succ hm)
      · rw [Nat.add_assoc, Nat.add_comm 1 m]
        exact h (m + 1) (Nat.succ_le_succ hm)
      · have hsplit : total = fat16SizeOfClusterBytes fatPrivate +
            (total - fat16SizeOfClusterBytes fatPrivate) := (Nat.add_sub_cancel' hle.le).symm
        rw [lookupByte_share le_rfl, hbytes h0]
        conv_rhs => rw [hsplit, List.range_add, List.map_append, List.map_map]
        refine congrArg _ (List.map_congr_left fun j _ => ?_)
        rw [Nat.mul_succ, Nat.add_assoc]
        rfl

theorem fat16ReadInternal_chain (hp : disk.fsPrivate = some fatPrivate)
    (hsize : 0 < fat16SizeOfClusterBytes fatPrivate) (hpos : 1 ≤ total)
    (hsigned : total < 2147483648) :
    ∃ r bytes, fat16ReadInternal disk cluster 0 total = .ok (r, bytes) ∧
      (r = 0 ↔ ∀ i, fat16SizeOfClusterBytes fatPrivate * i < total →
        0 ≤ lookupCluster disk fatPrivate cluster i) ∧
      (r = 0 → bytes = (List.range total).map (lookupByte disk fatPrivate cluster)) := by
  have hdata := privateData_of_some hp
  have hcuts := @cuts_eq_toNat _ total hsize
  have hspec := @readChain_spec disk fatPrivate cluster 0 _ total hsize
    (cuts_lower _ total) (cuts_upper hsize total) (by omega)
  simp only [Nat.mul_zero, Nat.cast_zero, zero_add] at hspec
  obtain ⟨r, bytes, hrun, hzero, hbytes⟩ := hspec
  refine ⟨r, bytes, ?_, hzero.trans (forall_congr' fun i => ?_), hbytes⟩
  · rw [fat16ReadInternal, hdata]
    simp only [bind, Except.bind, hcuts]
    exact hrun
  · rw [le_cuts_iff hsize hpos]

end Chain

def directorySector (fatPrivate : FatPrivate) (item : FatDirectoryItem) : ℕ :=
  u32 (fat16ClusterToSector fatPrivate (fat16GetFirstCluster item))

/-- The blocks of the directory are taken, and its items are the bytes of the cluster chain that
the FAT gives. -/
structure LiveDirectory (disk : Disk) (item : FatDirectoryItem) (d : FatDirectory)
    (k : KernelHeap) : Prop where
  own : k.Owns {d.addr}
  items : k.Owns ({d.itemAddr} ∪ frames d.itemAddr (needed (32 * d.total.toNat)))
  filled : ∃ chain, disk.image.Chain (fat16GetFirstCluster item) chain ∧
    ∀ j < 32 * d.total.toNat, (disk.image.fileBytes chain)[j]? = some (d.bytes j)

/-- The load comes back with nothing and the heap as it was, or with a directory that is there. -/
def LoadsLive (disk : Disk) (item : FatDirectoryItem) (k : KernelHeap) : Prop :=
  ∃ r k', fat16LoadFatDirectory disk item k = .ok (r, k') ∧
    match r with
    | none => SameTable k k'
    | some d => LiveDirectory disk item d k'

inductive LoadEnd (disk : Disk) (fatPrivate : FatPrivate) (item : FatDirectoryItem)
    (k : KernelHeap) : Option FatDirectory → KernelHeap → Prop
  | plain (unset : item.attributes &&& fatFileSubdirectory = 0) :
      LoadEnd disk fatPrivate item k none k
  | noBlock (k' : KernelHeap) (directory : k.malloc 16 = (0, k')) :
      LoadEnd disk fatPrivate item k none k'
  | released (d : FatDirectory) (k₁ : KernelHeap) :
      LoadEnd disk fatPrivate item k (some d) (k₁.free d.addr)
  | loaded (dir p : ℕ) (total : ℤ) (bytes : List UInt8) (k₁ k' : KernelHeap)
      (directory : k.malloc 16 = (dir, k₁)) (found : dir ≠ 0)
      (count : fat16GetTotalItemsForDirectory disk (directorySector fatPrivate item) = .ok total)
      (items : k₁.malloc (u32 (i32 (total * 32))) = (p, k')) (served : p ≠ 0)
      (read : fat16ReadInternal disk (fat16GetFirstCluster item) 0 (i32 (total * 32)) =
        .ok (0, bytes)) :
      LoadEnd disk fatPrivate item k (some ⟨dir, p, disk.loaded bytes, total⟩) k'

section Load
variable {disk : Disk} {fatPrivate : FatPrivate} {item : FatDirectoryItem} {k k' : KernelHeap}

theorem fat16FreeDirectory_releases (d : FatDirectory) (k : KernelHeap) :
    ∃ k₁ : KernelHeap, fat16FreeDirectory (some d) k = .ok ((), k₁.free d.addr) := by
  have hitems : onlyIf (d.itemAddr ≠ 0) (kfree d.itemAddr) k =
      .ok ((), if d.itemAddr ≠ 0 then k.free d.itemAddr else k) := onlyIf_of_ok fun _ => rfl
  exact ⟨_, bind_of_ok hitems _⟩

theorem fat16LoadFatDirectory_end (hp : disk.fsPrivate = some fatPrivate) {r : Option FatDirectory}
    (h : fat16LoadFatDirectory disk item k = .ok (r, k')) :
    LoadEnd disk fatPrivate item k r k' := by
  have hdata := privateData_of_some hp
  unfold fat16LoadFatDirectory at h
  by_cases hattribute : item.attributes &&& fatFileSubdirectory = 0
  · rw [if_pos hattribute] at h
    cases h
    exact .plain hattribute
  rw [if_neg hattribute] at h
  obtain ⟨dir, k₁, hdir, h₁⟩ := bind_ok.mp h
  have hdirectory := kzalloc_malloc hdir
  by_cases hdir0 : dir = 0
  · rw [if_pos hdir0] at h₁
    subst hdir0
    cases h₁
    exact .noBlock _ hdirectory
  rw [if_neg hdir0] at h₁
  obtain ⟨x, k₂, hprivate, h₂⟩ := bind_ok.mp h₁
  obtain ⟨hx, rfl⟩ := ofExcept_ok.mp hprivate
  obtain rfl := Except.ok.inj (hdata.symm.trans hx)
  obtain ⟨total, k₃, htotal, h₃⟩ := bind_ok.mp h₂
  obtain ⟨hcount, rfl⟩ := ofExcept_ok.mp htotal
  obtain ⟨p, k₄, hitems, h₄⟩ := bind_ok.mp h₃
  by_cases hp0 : p = 0
  · rw [if_pos hp0] at h₄
    obtain ⟨u, k₅, hfree, h₅⟩ := bind_ok.mp h₄
    obtain ⟨k₆, hreleased⟩ := fat16FreeDirectory_releases ⟨dir, 0, disk.past, total⟩ k₄
    cases hreleased.symm.trans hfree
    cases h₅
    exact .released _ k₆
  rw [if_neg hp0] at h₄
  obtain ⟨y, k₅, hbytes, h₅⟩ := bind_ok.mp h₄
  obtain ⟨hread, rfl⟩ := ofExcept_ok.mp hbytes
  obtain ⟨u, k₆, hfree, h₆⟩ := bind_ok.mp h₅
  cases h₆
  by_cases hy : y.1 = 0
  · rw [onlyIf, if_neg (not_not.mpr hy)] at hfree
    cases hfree
    obtain ⟨r, bytes⟩ := y
    obtain rfl : r = 0 := hy
    exact .loaded dir p total bytes _ _ hdirectory hdir0 hcount (kzalloc_malloc hitems) hp0 hread
  · rw [onlyIf, if_pos hy] at hfree
    obtain ⟨k₇, hreleased⟩ := fat16FreeDirectory_releases ⟨dir, p, disk.loaded y.2, total⟩ k₅
    cases hreleased.symm.trans hfree
    exact .released _ k₇

def RoomBehind (k : KernelHeap) (n : ℕ) : Prop :=
  ∃ b s, b < s ∧ k.IsFree b ∧ s + n ≤ kernelHeapBlocks ∧ IsRun k.IsFree s n

theorem roomBehind_iff {dir n : ℕ} {k₁ : KernelHeap} (h : k.malloc 16 = (dir, k₁)) (hdir : dir ≠ 0)
    (hn : 1 ≤ n) :
    (∃ s, s + n ≤ kernelHeapBlocks ∧ IsRun k₁.IsFree s n) ↔ RoomBehind k n := by
  have hanswer := (malloc_answer k (by decide : 1 ≤ 16) (by decide)).page
  rw [h] at hanswer
  obtain ⟨b, hb, -, hfree, hfirst, hrest⟩ := hanswer.resolve_left fun hfull => hdir hfull.1
  constructor
  · intro ⟨s, hin, hrun⟩
    refine ⟨b, s, ?_, hfree, hin, fun c hc hc' => ((hrest c).mp (hrun c hc hc')).1⟩
    have hs := (hrest s).mp (hrun s le_rfl (by omega))
    by_contra hle
    exact hfirst s (by omega) hs.1
  · intro ⟨c, s, hcs, hc, hin, hrun⟩
    have hbc : b ≤ c := by
      by_contra hlt
      exact hfirst c (by omega) hc
    exact ⟨s, hin, fun i hi hi' => (hrest i).mpr ⟨hrun i hi hi', by omega⟩⟩

/-- The directory can be loaded: its count comes to `total`, there are blocks for it, the lookup
finds a cluster for every piece, and the bytes there are those of the chain. -/
structure Loadable (disk : Disk) (fatPrivate : FatPrivate) (item : FatDirectoryItem)
    (k : KernelHeap) (total : ℕ) : Prop where
  ends : ∃ n, EndsAt disk.image (i32 (directorySector fatPrivate item * dexterSectorSize)) n total
  filled : 1 ≤ total
  room : RoomBehind k (needed (32 * total))
  clusters : 0 < fat16SizeOfClusterBytes fatPrivate
  lookup : ∀ i, fat16SizeOfClusterBytes fatPrivate * i < 32 * total →
    0 ≤ lookupCluster disk fatPrivate (fat16GetFirstCluster item) i
  chain : ∃ chain, disk.image.Chain (fat16GetFirstCluster item) chain ∧
    ∀ j < 32 * total, (disk.image.fileBytes chain)[j]? =
      some (lookupByte disk fatPrivate (fat16GetFirstCluster item) j)

theorem directorySize_eq {total : ℕ} (h : total < 134217728) :
    u32 (i32 ((total : ℤ) * 32)) = 32 * total := by
  unfold u32 i32
  omega

theorem directorySize_signed {total : ℕ} (h : 32 * total < 2147483648) :
    i32 ((total : ℤ) * 32) = (32 * total : ℕ) := by
  rw [← i32_natCast h]
  push_cast
  rw [mul_comm]

theorem loaded_map {n j : ℕ} (f : ℕ → UInt8) (hj : j < n) :
    disk.loaded ((List.range n).map f) j = f j := by
  simp [Disk.loaded, hj]

theorem LiveDirectory.loadable {dir p : ℕ} {total : ℤ} {bytes : List UInt8} {k₁ : KernelHeap}
    (hp : disk.fsPrivate = some fatPrivate) (hdirectory : k.malloc 16 = (dir, k₁)) (hdir : dir ≠ 0)
    (hcount : fat16GetTotalItemsForDirectory disk (directorySector fatPrivate item) = .ok total)
    (hitems : k₁.malloc (u32 (i32 (total * 32))) = (p, k'))
    (hread : fat16ReadInternal disk (fat16GetFirstCluster item) 0 (i32 (total * 32)) =
      .ok (0, bytes))
    (hlive : LiveDirectory disk item ⟨dir, p, disk.loaded bytes, total⟩ k') :
    ∃ used, Loadable disk fatPrivate item k used := by
  obtain ⟨n, used, hends, rfl⟩ := fat16GetTotalItems_ok_iff.mp hcount
  have hused : used < 134217728 := hends.used_le.trans_lt hends.lt
  have howns := hlive.items
  dsimp only at howns
  rw [Int.toNat_natCast] at howns
  rw [directorySize_eq hused] at hitems
  have hpos : 1 ≤ used := by
    by_contra h0
    obtain rfl : used = 0 := by omega
    exact malloc_zero_not_owns hitems (howns.mono Set.subset_union_left)
  have hframes := howns.mono Set.subset_union_right
  have hle := hframes.frames_le
  have hneed := needed_pos (by omega : 1 ≤ 32 * used)
  have hbound : 32 * used ≤ 104857600 := by
    unfold needed kernelHeapBlocks at hle
    omega
  have hanswer := malloc_answer k₁ (by omega : 1 ≤ 32 * used) (by omega)
  rw [hitems] at hanswer
  have hclusters : 0 < fat16SizeOfClusterBytes fatPrivate := by
    refine Nat.pos_of_ne_zero fun h0 => ?_
    rw [(fat16ReadInternal_divides hp _ _ _).mpr h0] at hread
    cases hread
  rw [directorySize_signed (by omega)] at hread
  obtain ⟨r, bytes', hrun, hzero, hcontent⟩ := @fat16ReadInternal_chain disk fatPrivate
    (fat16GetFirstCluster item) (32 * used) hp hclusters (by omega) (by omega)
  obtain ⟨rfl, rfl⟩ := ok_inj (hread.symm.trans hrun)
  refine ⟨used, ⟨n, hends⟩, hpos, (roomBehind_iff hdirectory hdir hneed).mp
    (hanswer.fits_of_owns hneed hframes), hclusters, ?_, ?_⟩
  · exact hzero.mp rfl
  · obtain ⟨chain, hchain, hfilled⟩ := hlive.filled
    refine ⟨chain, hchain, fun j hj => (hfilled j (by rwa [Int.toNat_natCast])).trans ?_⟩
    rw [hcontent rfl]
    exact congrArg some (loaded_map _ hj)

theorem RoomBehind.page {n dir : ℕ} {k₁ : KernelHeap} (h : RoomBehind k n)
    (hmalloc : k.malloc 16 = (dir, k₁)) : dir ≠ 0 := by
  have hanswer := (malloc_answer k (by decide : 1 ≤ 16) (by decide)).page
  rw [hmalloc] at hanswer
  dsimp only at hanswer
  obtain ⟨b, s, hbs, hfree, hin, -⟩ := h
  rcases hanswer with ⟨-, -, hnone⟩ | ⟨c, -, hdir, -⟩
  · exact absurd hfree (hnone b (by omega))
  · rw [hdir, frame]
    omega

theorem Loadable.live {total : ℕ} (hp : disk.fsPrivate = some fatPrivate)
    (hsub : item.attributes &&& fatFileSubdirectory ≠ 0)
    (h : Loadable disk fatPrivate item k total) : LoadsLive disk item k := by
  have hdata := privateData_of_some hp
  obtain ⟨⟨n, hends⟩, hpos, hroom, hclusters, hlookup, chain, hchain, hfilled⟩ := h
  have hcount : fat16GetTotalItemsForDirectory disk (u32 (fat16ClusterToSector fatPrivate
      (fat16GetFirstCluster item))) = .ok (total : ℤ) :=
    fat16GetTotalItems_ok_iff.mpr ⟨n, total, hends, rfl⟩
  have hneed := needed_pos (by omega : 1 ≤ 32 * total)
  have hbound : 32 * total ≤ 104857600 := by
    obtain ⟨b, s, -, -, hin, -⟩ := hroom
    unfold needed kernelHeapBlocks at hin
    omega
  have hsize := directorySize_signed (by omega : 32 * total < 2147483648)
  have hbytes : u32 (i32 ((total : ℤ) * 32)) = 32 * total := directorySize_eq (by omega)
  -- the two requests
  obtain ⟨⟨dir, k₁⟩, hdirectory⟩ : ∃ r, k.malloc 16 = r := ⟨_, rfl⟩
  obtain ⟨⟨p, k₂⟩, hitems⟩ : ∃ r, k₁.malloc (32 * total) = r := ⟨_, rfl⟩
  have hdir := hroom.page hdirectory
  obtain ⟨s, hin, hrun⟩ := (roomBehind_iff hdirectory hdir hneed).mpr hroom
  have hanswer := malloc_answer k₁ (by omega : 1 ≤ 32 * total) (by omega)
  have hfirst := malloc_spec k (by decide : 16 < 4294967296)
  have hsecond := malloc_spec k₁ (by omega : 32 * total < 4294967296)
  rw [hdirectory] at hfirst
  rw [hitems] at hanswer hsecond
  obtain ⟨hp0, hframes⟩ := hanswer.owns_of_fits hin hrun
  obtain ⟨r, bytes, hread, hzero, hcontent⟩ := @fat16ReadInternal_chain disk fatPrivate
    (fat16GetFirstCluster item) (32 * total) hp hclusters (by omega) (by omega)
  obtain rfl := hzero.mpr hlookup
  refine ⟨some ⟨dir, p, disk.loaded bytes, total⟩, k₂, ?_, ?_, ?_, ?_⟩
  · have hdirRun : kzalloc 16 k = .ok (dir, k₁) := congrArg _ hdirectory
    have hitemsRun : kzalloc (32 * total) k₁ = .ok (p, k₂) := congrArg _ hitems
    rw [fat16LoadFatDirectory, if_neg hsub, bind_of_ok hdirRun, if_neg hdir,
      bind_of_ok (ofExcept_ok.mpr ⟨hdata, rfl⟩), bind_of_ok (ofExcept_ok.mpr ⟨hcount, rfl⟩)]
    dsimp only
    rw [hbytes, bind_of_ok hitemsRun, if_neg hp0, hsize,
      bind_of_ok (ofExcept_ok.mpr ⟨hread, rfl⟩)]
    rfl
  · exact hsecond.owns (hfirst.owns_first hdir (by decide) (by decide))
  · rw [Int.toNat_natCast]
    refine Owns.union (hframes.mono ?_) hframes
    exact Set.singleton_subset_iff.mpr ⟨0, hneed, rfl⟩
  · refine ⟨chain, hchain, fun j hj => ?_⟩
    rw [Int.toNat_natCast] at hj
    rw [hfilled j hj, hcontent rfl]
    exact congrArg some (loaded_map _ hj).symm

/-- What is handed out is live if and only if the item is no directory, or there is no free block,
or the directory is loadable. -/
theorem loadFatDirectory_live_iff (hp : disk.fsPrivate = some fatPrivate)
    (item : FatDirectoryItem) (k : KernelHeap) : LoadsLive disk item k ↔
      item.attributes &&& fatFileSubdirectory = 0 ∨ (∀ b < kernelHeapBlocks, ¬k.IsFree b) ∨
        ∃ total, Loadable disk fatPrivate item k total := by
  have hpage := (malloc_answer k (by decide : 1 ≤ 16) (by decide)).page
  constructor
  · intro h
    obtain ⟨r, k', hrun, hlive⟩ := h
    cases fat16LoadFatDirectory_end hp hrun with
    | plain unset => exact Or.inl unset
    | noBlock k' directory =>
      rw [directory] at hpage
      rcases hpage with ⟨-, -, hnone⟩ | ⟨b, -, hzero, -⟩
      · exact Or.inr (Or.inl hnone)
      · exact absurd hzero.symm (frame_ne_zero b)
    | released d k₁ => exact absurd hlive.own (free_not_owns k₁ d.addr)
    | loaded dir p total bytes k₁ k' directory found count items served read =>
      exact Or.inr (Or.inr (hlive.loadable hp directory found count items read))
  · intro h
    by_cases hsub : item.attributes &&& fatFileSubdirectory = 0
    · refine ⟨none, k, ?_, SameTable.refl k⟩
      rw [fat16LoadFatDirectory, if_pos hsub]
      rfl
    rcases h.resolve_left hsub with hnone | ⟨total, hloadable⟩
    · obtain ⟨hzero, hsame, -⟩ := hpage.resolve_right (by
        rintro ⟨b, hb, -, hfree, -⟩
        exact hnone b hb hfree)
      refine ⟨none, (k.malloc 16).2, ?_, fun b _ => by rw [hsame]⟩
      have hrun : kzalloc 16 k = .ok ((k.malloc 16).1, (k.malloc 16).2) := rfl
      rw [fat16LoadFatDirectory, if_neg hsub, bind_of_ok hrun, if_pos hzero]
      rfl
    · exact hloadable.live hp hsub

/-- A chain that breaks off: the directory is released, and handed out. -/
theorem fat16LoadFatDirectory_broken {m : ℕ} {e : ℤ} {total : ℤ} {bytes : List UInt8}
    (hm : m + 2 ≤ 25600) (hp : disk.fsPrivate = some fatPrivate)
    (hsub : item.attributes &&& fatFileSubdirectory ≠ 0)
    (htotal : fat16GetTotalItemsForDirectory disk (u32 (fat16ClusterToSector fatPrivate
      (fat16GetFirstCluster item))) = .ok total)
    (hsize : 1 ≤ u32 (i32 (total * 32)) ∧ u32 (i32 (total * 32)) ≤ 4096)
    (hread : fat16ReadInternal disk (fat16GetFirstCluster item) 0 (i32 (total * 32)) =
      .ok (e, bytes)) (he : e ≠ 0) :
    Returns (Room m) (fat16LoadFatDirectory disk item) fun r k =>
      ∃ d, r = some d ∧ ¬k.Owns {d.addr} := by
  refine fat16LoadFatDirectory_reads hm hp hsub htotal hsize hread fun directory items => ?_
  dsimp only
  rw [onlyIf, if_pos he]
  intro k _
  obtain ⟨k₁, hfree⟩ := fat16FreeDirectory_releases ⟨directory, items, disk.loaded bytes, total⟩ k
  exact ⟨(), _, hfree, _, rfl, free_not_owns k₁ directory⟩

end Load

def twoDirectories : DiskImage where
  sector lba i :=
    if lba = 0 then
      match i with
      | 13 | 14 | 16 | 22 => 1
      | 17 => 16
      | 38 => 0x29
      | _ => 0
    else if lba = 1 then
      match i with
      | 4 | 5 | 8 | 9 => 0xff
      | 6 => 4
      | _ => 0
    else if lba = 2 then
      match i with
      | 0 => 0x41
      | 32 => 0x42
      | 11 | 43 => 0x10
      | 26 => 2
      | 58 => 3
      | _ => if i < 64 ∧ i % 32 < 11 then 0x20 else 0
    else if lba = 3 then if i = 0 ∨ i = 32 then 0x2e else 0
    else if lba = 4 then if i % 32 = 0 then 0x2e else 0
    else if lba = 5 then if i = 0 then 0x2e else 0
    else 0
  stack := fun _ => 0

def twoDirectoriesDisk (fsPrivate : Option FatPrivate) : Disk :=
  ⟨twoDirectories, fun _ => 0, true, fsPrivate⟩

def directoryItem (i : ℕ) : FatDirectoryItem := ⟨fun j => twoDirectories.byteAt (1024 + 32 * i + j)⟩

theorem twoDirectories_resolved : ∃ fatPrivate k,
    fat16Resolve (twoDirectoriesDisk none) kheapInit = .ok ((0, some fatPrivate), k) ∧
      fatPrivate.header = ⟨1, 1, 1, 16, 1, 0x29⟩ ∧ fatPrivate.rootDirectory.endingSectorPos = 3 ∧
      fatPrivate.fatReadStream ≠ 0 ∧ Room 6 k := by
  have hheader : (twoDirectoriesDisk none).image.header = ⟨1, 1, 1, 16, 1, 0x29⟩ := by
    decide +kernel
  have htotal : fat16GetTotalItemsForDirectory (twoDirectoriesDisk none) 2 = .ok 2 := by
    decide +kernel
  obtain ⟨r, k, hresolve, ⟨dir, s₁, s₂, s₃, rfl, hs₂⟩, hk⟩ :=
    @fat16Resolve_room 0 (twoDirectoriesDisk none) 2 (by decide) (by rw [hheader])
      (by rw [hheader]; decide) (by rw [hheader]; exact htotal) kheapInit ⟨kheapInit_unused, rfl⟩
  have hmounted := mounted_of_resolve hresolve
  refine ⟨_, k, hresolve, hmounted.header.trans hheader, ?_, hs₂, hk⟩
  rw [hmounted.ending, hheader]
  decide

theorem directorySector_two {fatPrivate : FatPrivate} {item : FatDirectoryItem} {c : ℕ}
    (hheader : fatPrivate.header = ⟨1, 1, 1, 16, 1, 0x29⟩)
    (hending : fatPrivate.rootDirectory.endingSectorPos = 3) (hc : fat16GetFirstCluster item = c + 2)
    (hlt : c < 100) : directorySector fatPrivate item = c + 3 := by
  have hfrom : i32 (((c + 2 : ℕ) : ℤ) - 2) = c := by
    rw [← i32_natCast (x := c) (by omega)]
    push_cast
    ring_nf
  rw [directorySector, fat16ClusterToSector, hc, hending, hheader, hfrom]
  dsimp only
  rw [Nat.cast_one, mul_one, i32_natCast (by omega), add_comm, ← Nat.cast_ofNat, ← Nat.cast_add,
    i32_natCast (by omega), u32_natCast (by omega)]

theorem one_cluster_live : ∃ fatPrivate k,
    fat16Resolve (twoDirectoriesDisk none) kheapInit = .ok ((0, some fatPrivate), k) ∧
      LoadsLive (twoDirectoriesDisk (some fatPrivate)) (directoryItem 0) k := by
  obtain ⟨fatPrivate, k, hresolve, hheader, hending, -, hk⟩ := twoDirectories_resolved
  have hcluster : fat16GetFirstCluster (directoryItem 0) = 2 := by decide +kernel
  have hsector := directorySector_two (c := 0) hheader hending hcluster (by decide)
  have hsize : fat16SizeOfClusterBytes fatPrivate = 512 := by
    rw [fat16SizeOfClusterBytes, hheader]
    rfl
  have hcount : fat16CountItems twoDirectories 134217728 (i32 ((3 : ℕ) * (dexterSectorSize : ℕ))) 0 =
      .ok 2 := by decide +kernel
  have htotal : fat16GetTotalItemsForDirectory (twoDirectoriesDisk (some fatPrivate)) 3 = .ok 2 :=
    hcount
  obtain ⟨n, used, hends, hused⟩ := fat16GetTotalItems_ok_iff.mp htotal
  obtain rfl : used = 2 := by omega
  refine ⟨fatPrivate, k, hresolve, (loadFatDirectory_live_iff rfl _ _).mpr (Or.inr (Or.inr
    ⟨2, ⟨n, ?_⟩, by decide, ⟨6, 7, by decide, hk.unused 6 le_rfl (by decide), by decide, ?_⟩, ?_, ?_,
      [2], ?_, fun j hj => ?_⟩))⟩
  · rw [hsector]
    exact hends
  · have hneed : needed (32 * 2) = 1 := by decide
    rw [hneed]
    intro b hb hb'
    exact hk.unused b (by omega) (by rw [kernelHeapBlocks]; omega)
  · rw [hsize]
    decide
  · intro i hi
    rw [hsize] at hi
    obtain rfl : i = 0 := by omega
    rw [hcluster]
    exact Int.natCast_nonneg 2
  · rw [hcluster]
    have hlast : 0xfff8 ≤ twoDirectories.fatEntry 2 := by decide +kernel
    exact .last 2 (by decide) hlast
  · have hbytes : ∀ j < 64, (twoDirectories.fileBytes [2])[j]? =
        some (twoDirectories.byteFrom 3 j) := by decide +kernel
    have hplace : fat16ClusterToSector fatPrivate (2 : ℕ) = 3 := by
      rw [fat16ClusterToSector, hending, hheader]
      decide
    have hin : j < 512 := lt_trans hj (by decide)
    rw [lookupByte, hsize, Nat.div_eq_of_lt hin, Nat.mod_eq_of_lt hin, hcluster, lookupCluster,
      fat16ClusterAhead, hplace]
    exact hbytes j hj

theorem twoDirectories_chain : twoDirectories.Chain 3 [3, 4] := by
  have hnext : twoDirectories.fatEntry 3 = 4 := by decide +kernel
  refine .link 3 [4] (by decide) ?_
  rw [hnext]
  exact .last 4 (by decide) (by decide +kernel)

/-- The entry of cluster 3 is looked up in the sector 6, where there is nothing. -/
theorem twoDirectories_broken {fatPrivate : FatPrivate}
    (hheader : fatPrivate.header = ⟨1, 1, 1, 16, 1, 0x29⟩) (hstream : fatPrivate.fatReadStream ≠ 0) :
    lookupCluster (twoDirectoriesDisk (some fatPrivate)) fatPrivate 3 1 = -eIo := by
  have hread : (diskstreamerRead twoDirectories 3072 2).1 = [0, 0] := by decide +kernel
  have hpos : i32 (u32 ((u32 ((1 : ℕ) * (dexterSectorSize : ℤ)) : ℤ) * u32 (i32 ((3 : ℕ) * 2)))) =
      3072 := by decide
  have htable : fat16GetFirstFatSector fatPrivate = 1 := by
    rw [fat16GetFirstFatSector, hheader]
  have hentry : fat16GetFatEntry (twoDirectoriesDisk (some fatPrivate)) fatPrivate (3 : ℕ) = 0 := by
    rw [fat16GetFatEntry, if_neg hstream, htable]
    dsimp only [twoDirectoriesDisk]
    rw [hpos, hread]
    rfl
  rw [lookupCluster, fat16ClusterAhead, hentry]
  rfl

/-- The directory `B` is released, and handed out. -/
theorem two_clusters_freed : ∃ fatPrivate k d k',
    fat16Resolve (twoDirectoriesDisk none) kheapInit = .ok ((0, some fatPrivate), k) ∧
      twoDirectories.Chain 3 [3, 4] ∧ fat16GetFirstCluster (directoryItem 1) = 3 ∧
      fat16LoadFatDirectory (twoDirectoriesDisk (some fatPrivate)) (directoryItem 1) k =
        .ok (some d, k') ∧ ¬k'.Owns {d.addr} ∧
      ¬LoadsLive (twoDirectoriesDisk (some fatPrivate)) (directoryItem 1) k := by
  obtain ⟨fatPrivate, k, hresolve, hheader, hending, hstream, hk⟩ := twoDirectories_resolved
  have hcluster : fat16GetFirstCluster (directoryItem 1) = 3 := by decide +kernel
  have hsub : (directoryItem 1).attributes &&& fatFileSubdirectory ≠ 0 := by decide +kernel
  have hsector := directorySector_two (c := 1) hheader hending hcluster (by decide)
  have hsize : fat16SizeOfClusterBytes fatPrivate = 512 := by
    rw [fat16SizeOfClusterBytes, hheader]
    rfl
  have hcount : fat16CountItems twoDirectories 134217728 (i32 ((4 : ℕ) * (dexterSectorSize : ℕ))) 0 =
      .ok 17 := by decide +kernel
  have htotal : fat16GetTotalItemsForDirectory (twoDirectoriesDisk (some fatPrivate))
      (directorySector fatPrivate (directoryItem 1)) = .ok 17 := by
    rw [hsector]
    exact hcount
  obtain ⟨e, bytes, hread, hzero, -⟩ := @fat16ReadInternal_chain
    (twoDirectoriesDisk (some fatPrivate)) fatPrivate 3 544 rfl (by rw [hsize]; decide) (by decide)
    (by decide)
  have he : e ≠ 0 := by
    intro h0
    have hsecond := hzero.mp h0 1 (by rw [hsize]; decide)
    rw [twoDirectories_broken hheader hstream] at hsecond
    exact absurd hsecond (by decide)
  have hroom := @fat16LoadFatDirectory_broken (twoDirectoriesDisk (some fatPrivate)) fatPrivate
    (directoryItem 1) 6 e 17 bytes (by decide) rfl hsub htotal (by decide)
    (by rw [hcluster]; exact hread) he
  obtain ⟨r, k', hrun, d, rfl, hfreed⟩ := hroom hk
  refine ⟨fatPrivate, k, d, k', hresolve, twoDirectories_chain, hcluster, hrun, hfreed, ?_⟩
  intro ⟨r', k'', hrun', hlive⟩
  obtain ⟨rfl, rfl⟩ := ok_inj (hrun.symm.trans hrun')
  exact hfreed hlive.own

end Dexter
