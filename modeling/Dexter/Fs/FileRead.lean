import Dexter.Fs.File

/-!
# Reading a file

What a FAT16 volume says a file is: the clusters along its chain in the file
allocation table, one after the other. `fread` delivers these bytes as long as it
stays clear of the places where `fs/fat16.c` and `fs/streamer.c` go wrong, which
`ReadsCleanly` lists: a read never gets to an entry of the table, and no member
crosses the end of a sector unless it starts one.
-/

namespace Dexter
open Lib.Programs KernelHeap FileState

namespace DiskImage

def fatEntry (d : DiskImage) (c : ℕ) : ℕ :=
  le16 d.byteAt (d.header.reservedSectors * 512 + 2 * c)

def clusterSize (d : DiskImage) : ℕ := d.header.sectorsPerCluster * 512

theorem two_clusters_lt (d : DiskImage) : d.clusterSize + d.clusterSize < 2147483648 := by
  have hbyte := (d.byteAt 13).toNat_lt
  show (d.byteAt 13).toNat * 512 + (d.byteAt 13).toNat * 512 < 2147483648
  omega

def firstDataSector (d : DiskImage) : ℕ :=
  d.header.reservedSectors + d.header.fatCopies * d.header.sectorsPerFat +
    (d.header.rootDirEntries * 32 + 511) / 512

def clusterAddress (d : DiskImage) (c : ℕ) : ℕ :=
  (d.firstDataSector + (c - 2) * d.header.sectorsPerCluster) * 512

def clusterBytes (d : DiskImage) (c : ℕ) : List UInt8 :=
  (List.range d.clusterSize).map fun i => d.byteAt (d.clusterAddress c + i)

inductive Chain (d : DiskImage) : ℕ → List ℕ → Prop
  | last (c : ℕ) (data : 2 ≤ c ∧ c < 0xfff0) (ends : 0xfff8 ≤ d.fatEntry c) : Chain d c [c]
  | link (c : ℕ) (chain : List ℕ) (data : 2 ≤ c ∧ c < 0xfff0)
      (rest : Chain d (d.fatEntry c) chain) : Chain d c (c :: chain)

def fileBytes (d : DiskImage) (chain : List ℕ) : List UInt8 := chain.flatMap d.clusterBytes

variable {d : DiskImage} {c : ℕ} {chain : List ℕ}

theorem clusterBytes_length (d : DiskImage) (c : ℕ) : (d.clusterBytes c).length = d.clusterSize := by
  simp [clusterBytes]

theorem clusterBytes_getElem {i : ℕ} (hi : i < d.clusterSize) :
    (d.clusterBytes c)[i]? = some (d.byteAt (d.clusterAddress c + i)) := by
  simp [clusterBytes, hi]

theorem Chain.data (h : Chain d c chain) : 2 ≤ c ∧ c < 0xfff0 := by
  cases h <;> assumption

theorem Chain.head (h : Chain d c chain) : ∃ rest, chain = c :: rest := by
  cases h with
  | last data ends => exact ⟨[], rfl⟩
  | link rest data hrest => exact ⟨_, rfl⟩

/-- Up to the end of the first cluster, and behind it where the next cluster is the next one on
the disk, the bytes of the file follow each other on the disk. -/
theorem fileBytes_getElem (h : Chain d c chain) {n j : ℕ} (hn : n ≤ chain.length * d.clusterSize)
    (htwo : n ≤ 2 * d.clusterSize) (hnext : d.clusterSize < n → chain[1]? = some (c + 1))
    (hj : j < n) : (d.fileBytes chain)[j]? = some (d.byteAt (d.clusterAddress c + j)) := by
  obtain ⟨rest, rfl⟩ := h.head
  rw [fileBytes, List.flatMap_cons]
  by_cases hin : j < d.clusterSize
  · rw [List.getElem?_append_left (by rwa [clusterBytes_length]), clusterBytes_getElem hin]
  · have hsecond := hnext (by omega)
    rw [List.getElem?_cons_succ] at hsecond
    obtain ⟨rest', rfl⟩ : ∃ rest', rest = (c + 1) :: rest' := by
      cases rest with
      | nil => cases hsecond
      | cons x rest' => exact ⟨rest', by rw [← Option.some.inj hsecond]⟩
    have haddr : d.clusterAddress (c + 1) + (j - d.clusterSize) = d.clusterAddress c + j := by
      have hc := h.data.1
      have hsucc : c + 1 - 2 = c - 2 + 1 := by omega
      have hsize : d.clusterSize = d.header.sectorsPerCluster * 512 := rfl
      unfold clusterAddress
      rw [hsucc, Nat.add_mul, Nat.add_mul, Nat.add_mul, Nat.one_mul, ← hsize]
      omega
    have hlast : j - d.clusterSize < d.clusterSize := by omega
    rw [List.getElem?_append_right (by rw [clusterBytes_length]; omega), clusterBytes_length,
      List.flatMap_cons, List.getElem?_append_left (by rwa [clusterBytes_length]),
      clusterBytes_getElem hlast, haddr]

end DiskImage

/-- The fields of the private data that reading uses. -/
structure Mounted (d : DiskImage) (fatPrivate : FatPrivate) : Prop where
  header : fatPrivate.header = d.header
  ending : fatPrivate.rootDirectory.endingSectorPos =
    (d.header.reservedSectors + d.header.fatCopies * d.header.sectorsPerFat +
      d.header.rootDirEntries * 32 / 512 : ℕ)

theorem mounted_of_resolve {disk : Disk} {k k' : KernelHeap} {fatPrivate : FatPrivate}
    (h : fat16Resolve disk k = .ok ((0, some fatPrivate), k')) : Mounted disk.image fatPrivate := by
  obtain ⟨total, dir, s₁, s₂, s₃, -, -, rfl⟩ := fat16Resolve_ok h
  refine ⟨rfl, ?_⟩
  simp only [resolvedPrivate, dexterSectorSize]
  push_cast
  ring

section Read
variable {disk : Disk} {fatPrivate : FatPrivate} {c pos size : ℕ}

theorem sizeOfClusterBytes_eq (hm : Mounted disk.image fatPrivate) :
    fat16SizeOfClusterBytes fatPrivate = disk.image.clusterSize := by
  rw [fat16SizeOfClusterBytes, hm.header]
  rfl

theorem fat16GetClusterForOffset_first (hm : Mounted disk.image fatPrivate)
    (hpos : pos < disk.image.clusterSize) :
    fat16GetClusterForOffset disk fatPrivate c pos = .ok c := by
  have hbytes := sizeOfClusterBytes_eq hm
  have hahead : (pos : ℤ).tdiv (disk.image.clusterSize : ℕ) = 0 := by
    rw [← Int.ofNat_tdiv, Nat.div_eq_of_lt hpos]
    rfl
  have hne : ¬disk.image.clusterSize = 0 := by omega
  rw [fat16GetClusterForOffset, hbytes]
  simp only [if_neg hne, hahead]
  rfl

theorem fat16ClusterToSector_eq (hm : Mounted disk.image fatPrivate)
    (hroot : disk.image.header.rootDirEntries % 16 = 0) (hc : 2 ≤ c ∧ c < 0xfff0)
    (hsigned : disk.image.clusterAddress c < 2147483648) :
    i32 (fat16ClusterToSector fatPrivate c * dexterSectorSize) = disk.image.clusterAddress c := by
  have hending : fatPrivate.rootDirectory.endingSectorPos = disk.image.firstDataSector := by
    rw [hm.ending, DiskImage.firstDataSector]
    omega
  rw [DiskImage.clusterAddress] at hsigned ⊢
  generalize disk.image.firstDataSector = e at hending hsigned
  have hsub : ((c : ℤ) - 2) = (c - 2 : ℕ) := by omega
  rw [fat16ClusterToSector, hending, hm.header, hsub, i32_natCast (by omega), ← Nat.cast_mul]
  generalize (c - 2) * disk.image.header.sectorsPerCluster = q at hsigned
  rw [i32_natCast (by omega), ← Nat.cast_add, i32_natCast (by omega), ← Nat.cast_mul]
  exact i32_natCast hsigned

/-- A read inside the first cluster, or over its end into what follows on the disk. -/
theorem fat16ReadInternal_eq (hp : disk.fsPrivate = some fatPrivate)
    (hm : Mounted disk.image fatPrivate) (hroot : disk.image.header.rootDirEntries % 16 = 0)
    (hc : 2 ≤ c ∧ c < 0xfff0) (hpos : pos < disk.image.clusterSize) (h1 : 1 ≤ size)
    (hsize : size ≤ disk.image.clusterSize)
    (hsector : pos % 512 = 0 ∨ pos % 512 + size ≤ 512)
    (hsigned : disk.image.clusterAddress c + pos + size ≤ 2147483648) :
    fat16ReadInternal disk c pos size = .ok (0, (List.range size).map fun i =>
      disk.image.byteAt (disk.image.clusterAddress c + pos + i)) := by
  have hbytes := sizeOfClusterBytes_eq hm
  have hdata := privateData_of_some hp
  have hal : disk.image.clusterAddress c % 512 = 0 := by
    rw [DiskImage.clusterAddress, Nat.mul_mod_left]
  have hread := @diskstreamerRead_eq disk.image (disk.image.clusterAddress c + pos) size
    (by omega) hsigned
  have hstart : i32 (disk.image.clusterAddress c + (pos : ℤ)) =
      (disk.image.clusterAddress c + pos : ℕ) := by
    rw [← Nat.cast_add]
    exact i32_natCast (by omega)
  have hwhole : ¬(size : ℤ) > (disk.image.clusterSize : ℕ) := by omega
  have hneg : ¬(c : ℤ) < 0 := by omega
  have hlast : ((size : ℤ) - 1) / (disk.image.clusterSize : ℕ) = 0 :=
    Int.ediv_eq_zero_of_lt (by omega) (by omega)
  have haddr := fat16ClusterToSector_eq hm hroot hc (by omega)
  have hoffset : (pos : ℤ).tmod (disk.image.clusterSize : ℕ) = pos := by
    rw [← Int.ofNat_tmod, Nat.mod_eq_of_lt hpos]
  have hstream : fat16ReadInternalFromStream disk fatPrivate 0 c pos size =
      .ok (0, (List.range size).map fun i =>
        disk.image.byteAt (disk.image.clusterAddress c + pos + i)) := by
    rw [fat16ReadInternalFromStream, fat16GetClusterForOffset_first hm hpos]
    dsimp only [bind, Except.bind]
    rw [if_neg hneg, hbytes, if_neg hwhole, hoffset, haddr, hstart, hread]
    rfl
  rw [fat16ReadInternal, hdata]
  dsimp only [bind, Except.bind]
  rw [hbytes, hlast]
  exact hstream

theorem range_append {α : Type} (f : ℕ → α) (a b : ℕ) :
    (List.range a).map f ++ (List.range b).map (fun i => f (a + i)) = (List.range (a + b)).map f := by
  rw [List.range_add, List.map_append, List.map_map]
  rfl

theorem fat16ReadLoop_eq (hp : disk.fsPrivate = some fatPrivate)
    (hm : Mounted disk.image fatPrivate) (hroot : disk.image.header.rootDirEntries % 16 = 0)
    {item : FatDirectoryItem} (hitem : fat16GetFirstCluster item = c) (hc : 2 ≤ c ∧ c < 0xfff0)
    (h1 : 1 ≤ size) (hsize : size ≤ disk.image.clusterSize) (nmemb : ℕ) {k : ℕ}
    (hin : ∀ i < k, pos + i * size < disk.image.clusterSize ∧
      ((pos + i * size) % 512 = 0 ∨ (pos + i * size) % 512 + size ≤ 512))
    (hsigned : disk.image.clusterAddress c + pos + k * size ≤ 2147483648) :
    fat16ReadLoop disk item size nmemb k pos = .ok (i32 nmemb, (List.range (k * size)).map fun i =>
      disk.image.byteAt (disk.image.clusterAddress c + pos + i)) := by
  induction k generalizing pos with
  | zero =>
    rw [Nat.zero_mul]
    rfl
  | succ k ih =>
    have hmul : (k + 1) * size = size + k * size := by ring
    rw [hmul] at hsigned ⊢
    have hfirst := hin 0 (Nat.succ_pos k)
    rw [Nat.zero_mul, Nat.add_zero] at hfirst
    have hsum : disk.image.clusterAddress c + pos + (size + k * size) =
        disk.image.clusterAddress c + (pos + size) + k * size := by ring
    have hlt : pos + size < 2147483648 :=
      (Nat.add_lt_add_of_lt_of_le hfirst.1 hsize).trans disk.image.two_clusters_lt
    have hhead := fat16ReadInternal_eq hp hm hroot hc hfirst.1 h1 hsize hfirst.2
      (le_trans (Nat.add_le_add_left (Nat.le_add_right _ _) _) hsigned)
    have hrest := @ih (pos + size) (fun i hi => by
      have hshift : pos + size + i * size = pos + (i + 1) * size := by ring
      rw [hshift]
      exact hin (i + 1) (Nat.succ_lt_succ hi)) (hsum ▸ hsigned)
    have hsz : i32 (size : ℤ) = size := i32_natCast (Nat.lt_of_le_of_lt (Nat.le_add_left _ _) hlt)
    have hnext : i32 ((pos : ℤ) + size) = (pos + size : ℕ) := by
      rw [← Nat.cast_add]
      exact i32_natCast hlt
    rw [fat16ReadLoop, hitem, hsz, hhead]
    dsimp only [bind, Except.bind]
    rw [if_neg (by decide), hnext, hrest]
    dsimp only [pure, Except.pure]
    rw [← range_append]
    simp only [Nat.add_assoc]

/-- What keeps a read of `nmemb` members of `size` bytes at `pos` clear of the defects: the
descriptor's number can be looked up and its item was copied, the first cluster is the low word,
the root directory ends with a sector, no member starts behind the first cluster or is longer than
one, what lies behind the first cluster is the next one of the chain, no member crosses the end of
a sector unless it starts one, and the disk addresses are below `2^31`. -/
structure ReadsCleanly (d : DiskImage) (fd addr : ℕ) (item : FatDirectoryItem) (chain : List ℕ)
    (pos size nmemb : ℕ) : Prop where
  number : fd < 512
  copied : addr ≠ 0
  first : fat16GetFirstCluster item = item.low16BitsFirstCluster
  root : d.header.rootDirEntries % 16 = 0
  member : size ≤ d.clusterSize
  start : ∀ i < nmemb, pos + i * size < d.clusterSize
  next : d.clusterSize < pos + size * nmemb → chain[1]? = some (item.low16BitsFirstCluster + 1)
  sectors : ∀ i < nmemb, (pos + i * size) % 512 = 0 ∨ (pos + i * size) % 512 + size ≤ 512
  signed : d.clusterAddress item.low16BitsFirstCluster + pos + size * nmemb ≤ 2147483648

end Read

section Fread
variable {disk : Disk} {k k' : KernelHeap} {fatPrivate : FatPrivate} {s : FileState} {fd : ℕ}
  {desc : FileDescriptor} {addr : ℕ} {item : FatDirectoryItem} {chain : List ℕ} {size nmemb : ℕ}

theorem ReadsCleanly.end_le {pos : ℕ} (hnmemb : 1 ≤ nmemb)
    (h : ReadsCleanly disk.image fd addr item chain pos size nmemb) :
    pos + size * nmemb ≤ 2 * disk.image.clusterSize := by
  obtain ⟨n, rfl⟩ := Nat.exists_eq_add_of_le' hnmemb
  have hlast := h.start n (Nat.lt_succ_self n)
  have hmul : size * (n + 1) = n * size + size := by ring
  have hmember := h.member
  rw [hmul]
  omega

theorem fileGetDescriptor_of_slot (h1 : 1 ≤ fd) (hfd : fd < 512)
    (hopen : s.fileDescriptors (fd - 1) = some desc) : fileGetDescriptor s fd = some desc := by
  obtain ⟨i, rfl⟩ := Nat.exists_eq_add_of_le' h1
  have hslot := @fileGetDescriptor_slot i s (by omega)
  rw [Nat.cast_add, Nat.cast_one, hslot]
  exact hopen

theorem clean_bytes {pos : ℕ} (hnmemb : 1 ≤ nmemb)
    (hchain : disk.image.Chain item.low16BitsFirstCluster chain)
    (hin : pos + size * nmemb ≤ chain.length * disk.image.clusterSize)
    (h : ReadsCleanly disk.image fd addr item chain pos size nmemb) :
    ((List.range (nmemb * size)).map fun i =>
      disk.image.byteAt (disk.image.clusterAddress item.low16BitsFirstCluster + pos + i)) =
    ((disk.image.fileBytes chain).drop pos).take (size * nmemb) := by
  have hbyte : ∀ j < size * nmemb, (disk.image.fileBytes chain)[pos + j]? =
      some (disk.image.byteAt (disk.image.clusterAddress item.low16BitsFirstCluster + pos + j)) := by
    intro j hj
    rw [DiskImage.fileBytes_getElem hchain hin (h.end_le hnmemb) h.next
      (Nat.add_lt_add_left hj pos), Nat.add_assoc]
  apply List.ext_getElem?
  intro j
  rw [Nat.mul_comm nmemb, List.getElem?_map]
  by_cases hj : j < size * nmemb
  · rw [List.getElem?_range hj, List.getElem?_take_of_lt hj, List.getElem?_drop, hbyte j hj]
    rfl
  · have hle : size * nmemb ≤ j := Nat.le_of_not_lt hj
    rw [List.getElem?_eq_none (by simpa using hle), List.getElem?_take_eq_none hle]
    rfl

/-- A read that keeps clear of the defects returns the bytes of the file. -/
theorem fread_returns_file (hresolve : fat16Resolve disk k = .ok ((0, some fatPrivate), k'))
    (h1 : 1 ≤ fd) (hopen : s.fileDescriptors (fd - 1) = some desc)
    (hitem : desc.privateData.item.body = .file addr item)
    (hchain : disk.image.Chain item.low16BitsFirstCluster chain)
    (hfile : item.filesize ≤ chain.length * disk.image.clusterSize)
    (hsize : 1 ≤ size) (hnmemb : 1 ≤ nmemb)
    (hrange : desc.privateData.pos + size * nmemb ≤ item.filesize)
    (hclean : ReadsCleanly disk.image fd addr item chain desc.privateData.pos size nmemb) :
    fread { disk with fsPrivate := some fatPrivate } size nmemb fd s =
      .ok ((nmemb, ((disk.image.fileBytes chain).drop desc.privateData.pos).take (size * nmemb)),
        s) := by
  have hfirst : desc.privateData.pos < disk.image.clusterSize := by
    have hzero := hclean.start 0 hnmemb
    rwa [Nat.zero_mul, Nat.add_zero] at hzero
  have hcluster := disk.image.two_clusters_lt
  have hpos : i32 (desc.privateData.pos : ℤ) = desc.privateData.pos := i32_natCast (by omega)
  have hcount : nmemb < 2147483648 := by
    have hend := hclean.end_le hnmemb
    have hmul := Nat.le_mul_of_pos_left nmemb hsize
    clear hpos
    omega
  have hm : Mounted disk.image fatPrivate := mounted_of_resolve hresolve
  have hloop := @fat16ReadLoop_eq { disk with fsPrivate := some fatPrivate } fatPrivate _
    desc.privateData.pos size rfl hm hclean.root item hclean.first
    hchain.data hsize hclean.member nmemb nmemb
    (fun i hi => ⟨hclean.start i hi, hclean.sectors i hi⟩) (by
      have hsigned := hclean.signed
      rwa [Nat.mul_comm size] at hsigned)
  have hbytes := clean_bytes hnmemb hchain (hrange.trans hfile) hclean
  have hread : fat16Read { disk with fsPrivate := some fatPrivate } desc.privateData size nmemb =
      .ok (nmemb, ((disk.image.fileBytes chain).drop desc.privateData.pos).take (size * nmemb)) := by
    rw [fat16Read, hitem]
    dsimp only
    rw [if_neg hclean.copied, hpos, hloop, i32_natCast hcount, hbytes]
  have harguments : ¬(size = 0 ∨ nmemb = 0 ∨ (fd : ℤ) < 1) := by
    clear hpos
    omega
  rw [fread, bind_of_ok (get_apply _), if_neg harguments,
    fileGetDescriptor_of_slot h1 hclean.number hopen]
  dsimp only
  rw [hread]
  rfl

theorem sample_chain : sampleImage.Chain 2 [2, 4] := by
  have hfirst : sampleImage.fatEntry 2 = 4 := by decide +kernel
  refine .link 2 [4] (by decide) ?_
  rw [hfirst]
  exact .last 4 (by decide) (by decide +kernel)

theorem fread_returns_file_start : ∃ fatPrivate k s,
    fat16Resolve (sampleDisk none) kheapInit = .ok ((0, some fatPrivate), k) ∧
    fopen (sampleDisk (some fatPrivate)) samplePath [0x72] ⟨k, fun _ => none⟩ = .ok (1, s) ∧
    fread (sampleDisk (some fatPrivate)) 11 2 1 s =
      .ok ((2, ((sampleImage.fileBytes [2, 4]).drop 0).take 22), s) := by
  obtain ⟨dir, s₁, s₂, s₃, k, s, desc, h⟩ := sampleOpened_exists
  obtain ⟨addr, fItem, copy, hdata, hcopy⟩ := h.descriptor
  refine ⟨_, k, s, h.resolved, h.opened, ?_⟩
  have hclean : ReadsCleanly sampleImage 1 copy sampleItem [2, 4] 0 11 2 := by
    have hcluster : sampleImage.clusterSize = 512 := by decide +kernel
    have haddress : sampleImage.clusterAddress sampleItem.low16BitsFirstCluster = 1536 := by
      decide +kernel
    refine ⟨by decide, hcopy, by decide +kernel, by decide +kernel, ?_, ?_, ?_, ?_, ?_⟩
    · omega
    · intro i hi
      omega
    · omega
    · intro i hi
      interval_cases i <;> decide
    · omega
  have hlow : sampleItem.low16BitsFirstCluster = 2 := by decide +kernel
  have hsize : sampleItem.filesize = 600 := by decide +kernel
  have hcluster : sampleImage.clusterSize = 512 := by decide +kernel
  have hread := @fread_returns_file (sampleDisk none) kheapInit k _ s 1 desc copy sampleItem [2, 4]
    11 2 h.resolved le_rfl (by rw [h.slot, Function.update_self]) (by rw [hdata])
    (by rw [hlow]; exact sample_chain)
    (by rw [hsize]; exact hcluster ▸ (by decide))
    (by decide) (by decide) (by rw [hdata, hsize]; show 0 + 11 * 2 ≤ 600; decide)
    (by rw [hdata]; exact hclean)
  rw [hdata] at hread
  exact hread

/-- The entry of cluster 2 is looked up in the data of cluster 3. -/
theorem fat16GetFatEntry_sample {dir s₁ s₂ s₃ : ℕ} (h : s₂ ≠ 0) :
    fat16GetFatEntry (sampleDisk (some (samplePrivate dir s₁ s₂ s₃)))
      (samplePrivate dir s₁ s₂ s₃) 2 = 771 := by
  have hread : (diskstreamerRead sampleImage 2048 2).1 = [3, 3] := by decide +kernel
  have hstream : ¬(samplePrivate dir s₁ s₂ s₃).fatReadStream = 0 := h
  have htable : fat16GetFirstFatSector (samplePrivate dir s₁ s₂ s₃) = 1 := rfl
  have hpos : i32 (u32 ((u32 ((1 : ℕ) * (dexterSectorSize : ℤ)) : ℤ) * u32 (i32 (2 * 2)))) = 2048 := by
    decide
  have himage : (sampleDisk (some (samplePrivate dir s₁ s₂ s₃))).image = sampleImage := rfl
  unfold fat16GetFatEntry
  rw [if_neg hstream, htable, himage]
  dsimp only
  rw [hpos, hread]
  rfl

theorem fat16SizeOfClusterBytes_sample (dir s₁ s₂ s₃ : ℕ) :
    fat16SizeOfClusterBytes (samplePrivate dir s₁ s₂ s₃) = 512 := by
  have hsectors : (samplePrivate dir s₁ s₂ s₃).header.sectorsPerCluster = 1 := rfl
  rw [fat16SizeOfClusterBytes, hsectors, Nat.one_mul]

theorem fat16GetClusterForOffset_sample {dir s₁ s₂ s₃ : ℕ} (h : s₂ ≠ 0) :
    fat16GetClusterForOffset (sampleDisk (some (samplePrivate dir s₁ s₂ s₃)))
      (samplePrivate dir s₁ s₂ s₃) 2 512 = .ok 771 := by
  have hahead : ((512 : ℤ).tdiv (512 : ℕ)).toNat = 1 := by decide
  unfold fat16GetClusterForOffset
  rw [fat16SizeOfClusterBytes_sample]
  dsimp only
  rw [if_neg (by decide), hahead, fat16ClusterAhead, fat16GetFatEntry_sample h, fat16ClusterAhead]
  rfl

theorem fat16ReadInternal_sample {dir s₁ s₂ s₃ : ℕ} (h : s₂ ≠ 0) :
    fat16ReadInternal (sampleDisk (some (samplePrivate dir s₁ s₂ s₃))) 2 512 1 = .ok (0, [3]) := by
  have hsectors : (samplePrivate dir s₁ s₂ s₃).header.sectorsPerCluster = 1 := rfl
  have hbytes := fat16SizeOfClusterBytes_sample dir s₁ s₂ s₃
  have hoffset : (512 : ℤ).tmod (512 : ℕ) = 0 := by decide
  have hsector : fat16ClusterToSector (samplePrivate dir s₁ s₂ s₃) 771 = 772 := by
    have hending : (samplePrivate dir s₁ s₂ s₃).rootDirectory.endingSectorPos = 3 := rfl
    rw [fat16ClusterToSector, hending, hsectors]
    decide
  have hstart : i32 (i32 (772 * (dexterSectorSize : ℕ)) + 0) = 395264 := by decide
  have hread : (diskstreamerRead sampleImage 395264 1).1 = [3] := by decide +kernel
  have hdata : (sampleDisk (some (samplePrivate dir s₁ s₂ s₃))).privateData =
      .ok (samplePrivate dir s₁ s₂ s₃) := rfl
  have himage : (sampleDisk (some (samplePrivate dir s₁ s₂ s₃))).image = sampleImage := rfl
  have hlast : (((1 : ℤ) - 1) / (512 : ℕ)).toNat = 0 := by decide
  rw [fat16ReadInternal, hdata]
  dsimp only [bind, Except.bind]
  rw [hbytes, hlast, fat16ReadInternalFromStream, fat16GetClusterForOffset_sample h]
  dsimp only [bind, Except.bind]
  rw [if_neg (by decide), hbytes, if_neg (by decide), hoffset, hsector, hstart, himage, hread]
  rfl

theorem fat16Read_sample_whole {dir s₁ s₂ s₃ addr fItem copy : ℕ} (h : s₂ ≠ 0) (hcopy : copy ≠ 0) :
    ∃ bytes, fat16Read (sampleDisk (some (samplePrivate dir s₁ s₂ s₃)))
      ⟨addr, ⟨fItem, .file copy sampleItem⟩, 0⟩ 600 1 = .ok (1, bytes) := by
  have hfirst : (fat16GetFirstCluster sampleItem : ℤ) = 2 := by decide +kernel
  have hbytes := fat16SizeOfClusterBytes_sample dir s₁ s₂ s₃
  have hstart : fat16GetClusterForOffset (sampleDisk (some (samplePrivate dir s₁ s₂ s₃)))
      (samplePrivate dir s₁ s₂ s₃) 2 0 = .ok 2 := by
    unfold fat16GetClusterForOffset
    rw [hbytes]
    rfl
  have hcalls : (((600 : ℤ) - 1) / (512 : ℕ)).toNat = 1 := by decide
  have hsecond : ∃ bytes, fat16ReadInternalFromStream
      (sampleDisk (some (samplePrivate dir s₁ s₂ s₃))) (samplePrivate dir s₁ s₂ s₃) 0 2 512 88 =
      .ok (0, bytes) := by
    rw [fat16ReadInternalFromStream, fat16GetClusterForOffset_sample h]
    dsimp only [bind, Except.bind]
    rw [if_neg (by decide)]
    exact ⟨_, rfl⟩
  have hread : ∃ bytes, fat16ReadInternal (sampleDisk (some (samplePrivate dir s₁ s₂ s₃))) 2 0 600 =
      .ok (0, bytes) := by
    have hdata : (sampleDisk (some (samplePrivate dir s₁ s₂ s₃))).privateData =
        .ok (samplePrivate dir s₁ s₂ s₃) := rfl
    have hnext : i32 (0 + (512 : ℕ)) = 512 := by decide
    have hleft : (600 : ℤ) - (512 : ℕ) = 88 := by decide
    obtain ⟨bytes, hrest⟩ := hsecond
    rw [fat16ReadInternal, hdata]
    dsimp only [bind, Except.bind]
    rw [hbytes, hcalls, fat16ReadInternalFromStream, hstart]
    dsimp only [bind, Except.bind]
    rw [if_neg (by decide), hbytes, if_pos (by decide), hnext, hleft, hrest]
    exact ⟨_, rfl⟩
  obtain ⟨bytes, hread⟩ := hread
  refine ⟨bytes ++ [], ?_⟩
  rw [fat16Read]
  dsimp only
  rw [if_neg hcopy, fat16ReadLoop, hfirst]
  show (do let r ← fat16ReadInternal _ 2 0 600; _) = _
  rw [hread]
  rfl

/-- The byte at 512 is the first one of the cluster 4; the code takes the entry of the table from
the wrong place and reads a byte of another cluster. -/
theorem fread_second_cluster_wrong : ∃ fatPrivate k s s' desc copy,
    fat16Resolve (sampleDisk none) kheapInit = .ok ((0, some fatPrivate), k) ∧
    fopen (sampleDisk (some fatPrivate)) samplePath [0x72] ⟨k, fun _ => none⟩ = .ok (1, s) ∧
    fseek 1 512 .set s = .ok (0, s') ∧
    s'.fileDescriptors 0 = some desc ∧ desc.privateData.item.body = .file copy sampleItem ∧
    desc.privateData.pos + 1 * 1 ≤ sampleItem.filesize ∧ desc.privateData.pos = 512 ∧
    fread (sampleDisk (some fatPrivate)) 1 1 1 s' = .ok ((1, [3]), s') ∧
    sampleImage.Chain 2 [2, 4] ∧ ((sampleImage.fileBytes [2, 4]).drop 512).take 1 = [4] := by
  obtain ⟨dir, s₁, s₂, s₃, k, s, desc, h⟩ := sampleOpened_exists
  obtain ⟨addr, fItem, copy, hdata, hcopy⟩ := h.descriptor
  have hget : fileGetDescriptor s 1 = some desc := by
    show s.fileDescriptors 0 = some desc
    rw [h.slot, Function.update_self]
  have hsize : ¬u32 512 ≥ sampleItem.filesize := by decide +kernel
  have hrange : 512 + 1 * 1 ≤ sampleItem.filesize := by decide +kernel
  have hseek : fat16Seek desc.privateData (u32 512) .set =
      .ok (0, ⟨addr, ⟨fItem, .file copy sampleItem⟩, 512⟩) := by
    rw [fat16Seek, hdata]
    dsimp only
    rw [if_neg hcopy, if_neg hsize]
    rfl
  have hfirst : (fat16GetFirstCluster sampleItem : ℤ) = 2 := by decide +kernel
  have hread : fat16Read (sampleDisk (some (samplePrivate dir s₁ s₂ s₃)))
      ⟨addr, ⟨fItem, .file copy sampleItem⟩, 512⟩ 1 1 = .ok (1, [3]) := by
    rw [fat16Read]
    dsimp only
    rw [if_neg hcopy, fat16ReadLoop, hfirst]
    show (do let r ← fat16ReadInternal _ 2 512 1; _) = _
    rw [fat16ReadInternal_sample h.stream]
    rfl
  refine ⟨_, k, s, putSlot 0 (some { desc with
    privateData := ⟨addr, ⟨fItem, .file copy sampleItem⟩, 512⟩ }) s,
    { desc with privateData := ⟨addr, ⟨fItem, .file copy sampleItem⟩, 512⟩ }, copy, h.resolved,
    h.opened, ?_, rfl, rfl, hrange, rfl, ?_, sample_chain, by decide +kernel⟩
  · rw [fseek, bind_of_ok (get_apply _), hget]
    dsimp only
    rw [hseek]
    rfl
  · rw [fread, bind_of_ok (get_apply _), if_neg (by decide)]
    show (ofExcept (fat16Read _ _ 1 1) : Prog Crash FileState _) _ = _
    rw [hread]
    rfl

end Fread

end Dexter
