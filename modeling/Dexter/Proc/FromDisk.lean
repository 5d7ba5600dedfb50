import Dexter.Proc.FileNames
import Dexter.Fs.Directory
import Dexter.Fs.PathContract

/-!
# Programs from the disk

The whole way of a program: the path is parsed, the name is looked up in the root directory, the
file is opened, its size is asked for, its bytes are read into a block of the heap, and the block is
mapped into an address space. What the task finds at `0x400000` is the file that the volume holds
under that name, for a file that is read in one piece.
-/

namespace Dexter.FromDisk
open Lib.Programs KernelHeap KernelState TaskLayer PathContract LoadContract

def stored (p : ℕ) (bytes : List UInt8) (ram : ℕ → UInt8) : ℕ → UInt8 :=
  fun q => if p ≤ q ∧ q < p + bytes.length then bytes.getD (q - p) 0 else ram q

def pageOf (q : ℕ) : ℕ := q / 4096 * 4096

theorem pageOf_block {p q n : ℕ} (hp : p % 4096 = 0) (hle : p ≤ q) (hlt : q < p + n) :
    pageOf q ∈ frames p (needed n) :=
  ⟨(q - p) / 4096, by unfold needed; omega, by unfold pageOf; omega⟩

/-- The bytes of the program and its stack are in memory: the blocks were zero before, and lie
apart unless a request was short. -/
structure Stores (s : KernelState) (x : Process) (bytes : List UInt8) (s' : KernelState) :
    Prop where
  ram : s'.ram = cleared x.stack 16384 (stored x.ptr bytes (cleared x.ptr x.size s.ram))
  apart : s'.heap.short = false → ∀ i < x.size,
    ¬(x.stack ≤ x.ptr + i ∧ x.ptr + i < x.stack + 16384)

theorem Stores.found {s s' : KernelState} {x : Process} {bytes : List UInt8} {b : UInt8} {i : ℕ}
    (h : Stores s x bytes s') (hshort : s'.heap.short = false) (hi : i < x.size)
    (hb : bytes[i]? = some b) : s'.ram (x.ptr + i) = b := by
  have hlen : i < bytes.length := (List.getElem?_eq_some_iff.mp hb).1
  rw [h.ram, cleared_of_not_mem (h.apart hshort i hi), stored,
    if_pos ⟨Nat.le_add_right _ _, Nat.add_lt_add_left hlen _⟩, Nat.add_sub_cancel_left,
    List.getD_eq_getElem?_getD, hb, Option.getD_some]

/-- The file is opened, `size` is the size that is found, and one member of that size is read. -/
def Delivers (files : FileLayer) (filename : CString) (f : FileState) (size : ℕ)
    (bytes : List UInt8) : Prop :=
  ∃ fd f₁ stat k, files.fopen filename f = .ok (fd, f₁) ∧ fd ≠ 0 ∧
    files.fstat fd f₁ = .ok ((0, stat), f₁) ∧ size = u32 ((stat.map FileStat.filesize).getD 0) ∧
    files.fread size 1 fd ⟨k, f₁.fileDescriptors⟩ = .ok ((1, bytes), ⟨k, f₁.fileDescriptors⟩)

section Stores
variable {files : FileLayer} {filename : CString} {s s' : KernelState} {p : ℕ} {x : Process}

theorem processLoadBinaryBody_stores {fd : ℤ} (hx : s.processAt p = some x)
    (h : processLoadBinaryBody files fd p s = .ok (0, s')) :
    ∃ stat k ptr size bytes, fd ≠ 0 ∧ files.fstat fd s.files = .ok ((0, stat), s.files) ∧
      size = u32 ((stat.map FileStat.filesize).getD 0) ∧
      files.fread size 1 fd ⟨k, s.fileDescriptors⟩ = .ok ((1, bytes), ⟨k, s.fileDescriptors⟩) ∧
      s'.processAt p = some { x with ptr := ptr, size := size } ∧
      s'.ram = stored ptr bytes (cleared ptr size s.ram) := by
  unfold processLoadBinaryBody at h
  split_ifs at h with hfd
  · exact absurd (ok_inj h).1 (by decide)
  obtain ⟨⟨r, stat⟩, s₁, hstat, h₁⟩ := bind_ok.mp h
  obtain ⟨f, hrun, rfl⟩ := onFiles_ok.mp hstat
  obtain ⟨rfl, -⟩ := files.fstat_same hrun
  split_ifs at h₁ with hok
  · exact absurd (ok_inj h₁).1 hok
  obtain rfl : r = 0 := not_not.mp hok
  rw [bind_of_ok (onHeap_kzalloc _ _)] at h₁
  split_ifs at h₁ with h0
  · exact absurd (ok_inj h₁).1 (by decide)
  rw [bind_of_ok (clearBytes_apply _ _ _)] at h₁
  obtain ⟨⟨count, bytes⟩, s₂, hread, h₂⟩ := bind_ok.mp h₁
  obtain ⟨f₂, hrun₂, rfl⟩ := onFiles_ok.mp hread
  obtain rfl := files.fread_same hrun₂
  obtain ⟨u, s₃, hstore, h₃⟩ := bind_ok.mp h₂
  obtain ⟨-, rfl⟩ := ok_inj hstore
  split_ifs at h₃ with hcount
  · exact absurd (ok_inj h₃).1 (by decide)
  obtain rfl : count = 1 := not_not.mp hcount
  obtain ⟨v, s₄, hset, h₄⟩ := bind_ok.mp h₃
  obtain ⟨-, y, hy, rfl⟩ := setProcess_ok.mp hset
  obtain ⟨-, rfl⟩ := ok_inj h₄
  obtain rfl : x = y := Option.some.inj (hx.symm.trans hy)
  exact ⟨stat, _, _, _, bytes, hfd, hrun, rfl, hrun₂, putProcess_self _ _ _, rfl⟩

theorem processLoadBinary_stores (hx : s.processAt p = some x)
    (h : processLoadBinary files filename p s = .ok (0, s')) :
    ∃ ptr size bytes, Delivers files filename s.files size bytes ∧
      s'.processAt p = some { x with ptr := ptr, size := size } ∧
      s'.ram = stored ptr bytes (cleared ptr size s.ram) := by
  obtain ⟨fd, s₁, hopen, h₁⟩ := bind_ok.mp h
  obtain ⟨f, hrun, rfl⟩ := onFiles_ok.mp hopen
  obtain ⟨r, s₂, hbody, h₂⟩ := bind_ok.mp h₁
  obtain ⟨u, s₃, hclose, hpure⟩ := bind_ok.mp h₂
  obtain ⟨rfl, rfl⟩ := ok_inj hpure
  obtain ⟨f', -, rfl⟩ := onFiles_ok.mp hclose
  obtain ⟨stat, k, ptr, size, bytes, hfd, hstat, hsize, hread, hobject, hram⟩ :=
    processLoadBinaryBody_stores
      (s := { s with heap := f.heap, fileDescriptors := f.fileDescriptors }) hx hbody
  exact ⟨ptr, size, bytes, ⟨fd, f, stat, k, hrun, hfd, hstat, hsize, hread⟩, hobject, hram⟩

theorem processLoadTask_keeps {slot : ℤ} {out : ℤ × ℕ} (hx : s.processAt p = some x)
    (h : processLoadTask slot p s = .ok (out, s')) :
    (∃ t, s'.processAt p = some { x with task := t }) ∧ s'.ram = s.ram ∧
      ∃ t ts, taskNew p s.toTaskLayer = .ok (t, ts) ∧ s'.heap = ts.heap := by
  obtain ⟨t, s₁, htask, h₁⟩ := bind_ok.mp h
  obtain ⟨ts, hnew, rfl⟩ := onTasks_ok.mp htask
  obtain ⟨chunk, hspec⟩ := taskNew_spec (A := ∅) (Owns.empty _) hnew
  have hpos := hspec.owned.pos (Or.inl (Or.inr rfl))
  have hi : i32 t = t := i32_of_range (by omega) (by omega)
  rw [if_neg (by rw [hi]; exact_mod_cast hspec.nonzero)] at h₁
  obtain ⟨u, s₂, hset, h₂⟩ := bind_ok.mp h₁
  obtain ⟨-, y, hy, rfl⟩ := setProcess_ok.mp hset
  obtain rfl : x = y := Option.some.inj (hx.symm.trans hy)
  obtain ⟨r, s₃, hmap, h₃⟩ := bind_ok.mp h₂
  obtain ⟨rfl, pages, rfl⟩ := processMapMemory_ok hmap
  rw [if_neg (by decide)] at h₃
  obtain ⟨v, s₄, hstore, h₄⟩ := bind_ok.mp h₃
  obtain ⟨n, -, -, rfl⟩ := storeSlot_ok.mp hstore
  obtain ⟨-, rfl⟩ := ok_inj h₄
  exact ⟨⟨t, putProcess_self _ _ _⟩, hspec.ram, t, ts, hnew, rfl⟩

theorem processLoadForSlotBody_stores {slot : ℤ} {q : ℕ} (hx : s.processAt p = some x)
    (h : processLoadForSlotBody files filename slot p s = .ok ((0, q), s')) :
    ∃ y bytes, Delivers files filename s.files y.size bytes ∧ s'.processAt p = some y ∧
      Stores s y bytes s' := by
  obtain ⟨r, s₁, hload, h₁⟩ := bind_ok.mp h
  split_ifs at h₁ with hneg
  · have hr := (Prod.mk.inj (ok_inj h₁).1).1
    omega
  have hspec :=
    processLoadBinary_spec (A := ∅) (c := True) ⟨Owns.empty _, fun _ => trivial⟩ hx hload
  cases hspec with
  | fails r k table ram negative kept => exact absurd negative hneg
  | loads k table ram ptr' size' sized kept program =>
    obtain ⟨ptr, size, bytes, hdelivers, hobject, hram⟩ := processLoadBinary_stores hx hload
    have hsame := Option.some.inj ((putProcess_self _ _ _).symm.trans hobject)
    obtain ⟨rfl, rfl⟩ : ptr' = ptr ∧ size' = size :=
      ⟨congrArg Process.ptr hsame, congrArg Process.size hsame⟩
    rw [bind_of_ok (onHeap_kzalloc _ _)] at h₁
    split_ifs at h₁ with h0
    · exact absurd (Prod.mk.inj (ok_inj h₁).1).1 (by decide)
    rw [bind_of_ok (clearBytes_apply _ _ _)] at h₁
    obtain ⟨u, s₂, hset, h₂⟩ := bind_ok.mp h₁
    obtain ⟨-, y, hy, rfl⟩ := setProcess_ok.mp hset
    obtain rfl := Option.some.inj (hobject.symm.trans hy)
    obtain ⟨⟨t, ht⟩, hkeeps, t', ts, hnew, hheap⟩ :=
      processLoadTask_keeps (putProcess_self _ _ _) h₂
    obtain ⟨chunk, hnew⟩ := taskNew_spec (A := ∅) (Owns.empty _) hnew
    refine ⟨_, bytes, hdelivers, ht, hkeeps.trans (congrArg (cleared _ 16384) hram), fun hshort i hi hin => ?_⟩
    -- the stack was handed out while the program's frames were taken
    have hlong : (k.malloc 16384).2.short = false := hnew.short (hheap ▸ hshort)
    have hmalloc := @malloc_spec k 16384 (by decide)
    have hfresh := (hmalloc.owns_frames hlong (program.owned (malloc_short_mono rfl hlong))).2
    exact Set.disjoint_left.mp hfresh
      (pageOf_block program.aligned (Nat.le_add_right _ i) (Nat.add_lt_add_left hi _))
      (pageOf_block (kzalloc_kept (by decide) kept (step_apply _ k)).aligned hin.1 hin.2)

theorem processLoad_stores (h : processLoad files filename s = .ok ((0, p), s')) :
    ∃ x bytes, Delivers files filename ⟨(s.heap.malloc 5256).2, s.fileDescriptors⟩ x.size bytes ∧
      s'.processAt p = some x ∧ Stores s x bytes s' := by
  rcases processGetFreeSlot_cases s with hslot | ⟨slot, hlt, hslot, hfree⟩
  · rw [processLoad, bind_of_ok (get_apply s), if_pos (by rw [hslot]; decide)] at h
    exact absurd (Prod.mk.inj (ok_inj h).1).1 (by decide)
  · rw [processLoad_free hlt hslot hfree] at h
    split_ifs at h with h0
    · exact absurd (Prod.mk.inj (ok_inj h).1).1 (by decide)
    obtain ⟨⟨r, q⟩, s₁, hbody, h₁⟩ := bind_ok.mp h
    obtain ⟨u, s₂, hout, hpure⟩ := bind_ok.mp h₁
    obtain ⟨heq, rfl⟩ := ok_inj hpure
    obtain ⟨rfl, rfl⟩ := Prod.mk.inj heq
    rw [processLoadOut, onlyIf, if_neg (lt_irrefl 0)] at hout
    obtain ⟨-, rfl⟩ := ok_inj hout
    have hspec := processLoadForSlotBody_spec (A := ∅) (c := True) (x := .zero)
      (s := KernelState.putProcess _ .zero { s with heap := (s.heap.malloc 5256).2 })
      ⟨Owns.empty _, fun _ => trivial⟩ (putProcess_self _ _ _) hbody
    obtain ⟨x, bytes, hdelivers, hobject, hram, hapart⟩ := processLoadForSlotBody_stores
      (s := KernelState.putProcess _ .zero { s with heap := (s.heap.malloc 5256).2 })
      (putProcess_self _ _ _) hbody
    have hq : q = (s.heap.malloc 5256).1 := by
      generalize hresult : ((0 : ℤ), q) = out at hspec
      cases hspec with
      | fails r k table ram y negative kept task =>
        have hr := (Prod.mk.inj hresult).1
        omega
      | loads n y t chunk s' place inside sized named loaded => exact (Prod.mk.inj hresult).2
    rw [hq]
    exact ⟨x, bytes, hdelivers, hobject, hram, hapart⟩

end Stores

section Found
variable {disk : Disk} {entries : List FatDirectoryItem} {d : FatDirectory} {name path : CString}
  {k k' : KernelHeap} {item : FatItem}

theorem fopenPrivate_one {fatPrivate : FatPrivate} {modeStr : CString} {x : FatFileDescriptor}
    (hp : disk.fsPrivate = some fatPrivate)
    (h : fopenPrivate disk path modeStr k = .ok (.ok x, k')) :
    ∃ part m copy, (components path).takeWhile NonEmpty = [part] ∧
      LastRead fatPrivate.rootDirectory.toFatDirectory part
        fatPrivate.rootDirectory.total.toNat m ∧
      x.item.body = .file copy (fatPrivate.rootDirectory.toFatDirectory.item m) ∧ x.pos = 0 := by
  obtain ⟨root, k₁, part, item, hparse, hpart, -, -, -, -, hfind, rfl⟩ := (fopenPrivate_ok hp).mp h
  have hparts := (pathparserParse_parts hparse).2
  rw [partsOf, hpart] at hparts
  obtain ⟨m, copy, hlast, hbody⟩ := (findItem_spec hfind).2.body rfl
  exact ⟨part.part, m, copy, hparts.symm, hlast, hbody, rfl⟩

theorem fopen_descriptor {s s' : FileState} {modeStr : CString} {fd : ℤ}
    (h : fopen disk path modeStr s = .ok (fd, s')) (hfd : fd ≠ 0) :
    ∃ (i : ℕ) (desc : FileDescriptor) (k : KernelHeap), fd = i + 1 ∧
      s'.fileDescriptors i = some desc ∧
      fopenPrivate disk path modeStr s.heap = .ok (.ok desc.privateData, k) := by
  obtain ⟨⟨r, desc⟩, s₁, hbody, h₁⟩ := bind_ok.mp h
  obtain ⟨x, s₂, hprivate, h₂⟩ := bind_ok.mp hbody
  obtain ⟨k, hrun, rfl⟩ := zoom_ok.mp hprivate
  cases x with
  | error e =>
    obtain ⟨heq, rfl⟩ := ok_inj h₂
    obtain ⟨rfl, rfl⟩ := Prod.mk.inj heq
    have hneg := (fopenPrivate_kept (A := ∅) (c := True) disk path modeStr
      ⟨Owns.empty _, fun _ => trivial⟩ hrun).1
    rw [if_pos hneg] at h₁
    exact absurd (ok_inj h₁).1.symm hfd
  | ok privateData =>
    obtain ⟨y, s₃, hnew, h₃⟩ := bind_ok.mp h₂
    rw [fileNewDescriptor, bind_of_ok (get_apply _)] at hnew
    cases hslot : freeSlot s.fileDescriptors with
    | none =>
      simp only [hslot] at hnew
      obtain ⟨rfl, rfl⟩ := ok_inj hnew
      obtain ⟨heq, rfl⟩ := ok_inj h₃
      obtain ⟨rfl, rfl⟩ := Prod.mk.inj heq
      exact absurd (ok_inj h₁).1.symm hfd
    | some i =>
      simp only [hslot] at hnew
      obtain ⟨addr, s₄, halloc, h₄⟩ := bind_ok.mp hnew
      split_ifs at h₄ with h0
      · cases h₄
      obtain ⟨rfl, rfl⟩ := ok_inj h₄
      obtain ⟨heq, rfl⟩ := ok_inj h₃
      obtain ⟨rfl, rfl⟩ := Prod.mk.inj heq
      rw [if_neg (by dsimp only; omega)] at h₁
      obtain ⟨rfl, rfl⟩ := ok_inj h₁
      exact ⟨i, _, k, rfl, Function.update_self _ _ _, hrun⟩

end Found

/-- The file lies in the first cluster of its chain, where it can be read: its first cluster is the
low word of two, the root directory ends with a sector, and the file lies below `2^31`. -/
structure OnePiece (d : DiskImage) (e : FatDirectoryItem) (chain : List ℕ) : Prop where
  chain : d.Chain e.low16BitsFirstCluster chain
  first : e.high16BitsFirstCluster = 0
  root : d.header.rootDirEntries % 16 = 0
  cluster : e.filesize ≤ d.clusterSize
  signed : d.clusterAddress e.low16BitsFirstCluster + e.filesize ≤ 2147483648

section Read
variable {disk : Disk} {fatPrivate : FatPrivate} {e raw : FatDirectoryItem} {chain : List ℕ}
  {x : FatFileDescriptor} {copy : ℕ}

theorem le16_same (h : raw.Same e) {i : ℕ} (hi : i + 1 < 32) : le16 raw.bytes i = le16 e.bytes i := by
  rw [le16, le16, h i (by omega), h (i + 1) hi]

theorem filesize_same (h : raw.Same e) : raw.filesize = e.filesize := by
  rw [FatDirectoryItem.filesize, FatDirectoryItem.filesize, le32, le32, le16_same h (by decide),
    le16_same h (by decide)]

theorem filesize_lt (e : FatDirectoryItem) : e.filesize < 4294967296 := by
  have hlow := le16_lt e.bytes 28
  have hhigh := le16_lt e.bytes (28 + 2)
  rw [FatDirectoryItem.filesize, le32]
  omega

theorem getFirstCluster_onePiece (hsame : raw.Same e) (h : OnePiece disk.image e chain) :
    fat16GetFirstCluster raw = e.low16BitsFirstCluster := by
  have hlow : raw.low16BitsFirstCluster = e.low16BitsFirstCluster := le16_same hsame (by decide)
  have hhigh : raw.high16BitsFirstCluster = e.high16BitsFirstCluster := le16_same hsame (by decide)
  rw [fat16GetFirstCluster, hlow, hhigh, h.first, Nat.zero_or]

theorem OnePiece.byte {d : DiskImage} (h : OnePiece d e chain) {i : ℕ} (hi : i < e.filesize) :
    (d.fileBytes chain)[i]? = some (d.byteAt (d.clusterAddress e.low16BitsFirstCluster + i)) := by
  have hcluster := h.cluster
  have hlength : chain.length ≠ 0 := by
    obtain ⟨rest, rfl⟩ := h.chain.head
    simp
  have hfile : e.filesize ≤ chain.length * d.clusterSize :=
    hcluster.trans (Nat.le_mul_of_pos_left _ (Nat.pos_of_ne_zero hlength))
  exact DiskImage.fileBytes_getElem h.chain hfile (by omega) (by omega) hi

theorem fat16Read_onePiece (hp : disk.fsPrivate = some fatPrivate)
    (hm : Mounted disk.image fatPrivate) (hbody : x.item.body = .file copy raw) (hpos : x.pos = 0)
    (hcopy : copy ≠ 0) (hsame : raw.Same e) (h : OnePiece disk.image e chain)
    (hsize : 1 ≤ e.filesize) : fat16Read disk x e.filesize 1 =
      .ok (1, (disk.image.fileBytes chain).take e.filesize) := by
  have hcluster := h.cluster
  have hone : ∀ i < 1, i = 0 := fun i hi => Nat.lt_one_iff.mp hi
  have hloop := @fat16ReadLoop_eq disk fatPrivate e.low16BitsFirstCluster 0 e.filesize hp hm h.root
    raw (getFirstCluster_onePiece hsame h) h.chain.data hsize hcluster 1 1
    (fun i hi => by
      rw [hone i hi]
      exact ⟨by omega, Or.inl (by omega)⟩) (by
      rw [Nat.one_mul, Nat.add_zero]
      exact h.signed)
  have hbytes : ((List.range (1 * e.filesize)).map fun i => disk.image.byteAt
      (disk.image.clusterAddress e.low16BitsFirstCluster + 0 + i)) =
      (disk.image.fileBytes chain).take e.filesize := by
    apply List.ext_getElem?
    intro j
    rw [Nat.one_mul, Nat.add_zero, List.getElem?_map]
    by_cases hj : j < e.filesize
    · rw [List.getElem?_range hj, List.getElem?_take_of_lt hj, h.byte hj]
      rfl
    · have hle : e.filesize ≤ j := Nat.le_of_not_lt hj
      rw [List.getElem?_eq_none (by simpa using hle), List.getElem?_take_eq_none hle]
      rfl
  rw [fat16Read, hbody]
  dsimp only
  rw [if_neg hcopy, hpos]
  exact hloop.trans (by rw [hbytes]; rfl)

theorem fstat_file {f f' : FileState} {fd : ℤ} {stat : Option FileStat} {desc : FileDescriptor}
    {i : ℕ} (hfd : fd = i + 1) (hslot : f.fileDescriptors i = some desc)
    (hbody : desc.privateData.item.body = .file copy raw)
    (h : fstat fd f = .ok ((0, stat), f')) : fileGetDescriptor f fd = some desc ∧ copy ≠ 0 ∧
      (stat.map FileStat.filesize).getD 0 = raw.filesize := by
  subst hfd
  rw [fstat, bind_of_ok (get_apply f)] at h
  by_cases hi : i < 511
  · have hget := (fileGetDescriptor_slot (s := f) hi).trans hslot
    rw [hget] at h
    have hstat := (ofExcept_ok.mp h).1
    rw [fat16Stat, hbody] at hstat
    dsimp only at hstat
    by_cases hcopy : copy = 0
    · rw [if_pos hcopy] at hstat
      cases hstat
    · rw [if_neg hcopy] at hstat
      obtain ⟨-, rfl⟩ := Prod.mk.inj (Except.ok.inj hstat)
      exact ⟨hget, hcopy, rfl⟩
  · have hnone : fileGetDescriptor f (i + 1) = none := by
      unfold fileGetDescriptor
      rw [if_pos (by simp only [dexterMaxFileDescriptors]; omega)]
    rw [hnone] at h
    exact absurd (Prod.mk.inj (ok_inj h).1).1 (by decide)

theorem fread_file {f f' : FileState} {fd : ℤ} {size : ℕ} {bytes : List UInt8}
    {desc : FileDescriptor} (hget : fileGetDescriptor f fd = some desc)
    (h : fread disk size 1 fd f = .ok ((1, bytes), f')) :
    1 ≤ size ∧ fat16Read disk desc.privateData size 1 = .ok (1, bytes) := by
  rw [fread, bind_of_ok (get_apply f), hget] at h
  by_cases harguments : size = 0 ∨ 1 = 0 ∨ fd < 1
  · rw [if_pos harguments] at h
    exact absurd (Prod.mk.inj (ok_inj h).1).1 (by decide)
  · rw [if_neg harguments] at h
    exact ⟨by omega, (ofExcept_ok.mp h).1⟩

theorem delivers_file {entries : List FatDirectoryItem} {path : CString} {f : FileState} {size : ℕ}
    {bytes : List UInt8} (hp : disk.fsPrivate = some fatPrivate)
    (hm : Mounted disk.image fatPrivate)
    (hd : LoadedDirectory entries fatPrivate.rootDirectory.toFatDirectory)
    (hlookup : ∀ name, (components path).takeWhile NonEmpty = [name] →
      LookupCondition entries fatPrivate.rootDirectory.toFatDirectory name)
    (h : Delivers (fat16Layer disk) path f size bytes) :
    ∃ name e, (components path).takeWhile NonEmpty = [name] ∧ e ∈ entries ∧ e.Named name ∧
      size = e.filesize ∧ ∀ chain, OnePiece disk.image e chain →
        bytes = (disk.image.fileBytes chain).take e.filesize := by
  obtain ⟨fd, f₁, stat, k, hopen, hfd, hstat, hsize, hread⟩ := h
  obtain ⟨i, desc, k', rfl, hslot, hprivate⟩ := fopen_descriptor hopen hfd
  obtain ⟨name, m, copy, hpath, hlast, hbody, hpos⟩ := fopenPrivate_one hp hprivate
  obtain ⟨e, hat, he, hsame⟩ := hd.entry hlast.bound
  have hnamed := (hlookup name hpath).last m e hlast.bound hlast.reads hlast.after hat
  obtain ⟨hget, hcopy, hfilesize⟩ := fstat_file rfl hslot hbody hstat
  have hsize' : size = e.filesize := by
    rw [hsize, hfilesize, filesize_same hsame]
    exact u32_natCast (filesize_lt e)
  obtain ⟨hpositive, hbytes⟩ := fread_file (f := ⟨k, f₁.fileDescriptors⟩) hget hread
  refine ⟨name, e, hpath, he, hnamed, hsize', fun chain hpiece => ?_⟩
  rw [hsize'] at hpositive hbytes
  rw [fat16Read_onePiece hp hm hbody hpos hcopy hsame hpiece hpositive] at hbytes
  exact (Prod.mk.inj (Except.ok.inj hbytes)).2.symm

end Read

structure FindsByte (s : TaskState) (task : Task) (i : ℕ) (b : UInt8) : Prop where
  start : task.registers.ip = dexterProgramVirtualAddress
  found : TaskLayer.readByte (dexterProgramVirtualAddress + i) (s.onTask task) =
    .ok (b, s.onTask task)

/-- Whatever path a program has been loaded from consists of one name, and where names are looked up
rightly it is that of an entry in the root directory. The process has the size of this file, and
where it lies in one cluster its task finds the bytes that the volume holds for it. -/
theorem loaded_program_is_file {disk : Disk} {fatPrivate : FatPrivate}
    {entries : List FatDirectoryItem} {k k' : KernelHeap} {path : CString} {s s' : KernelState}
    {p : ℕ} (hresolve : fat16Resolve disk k = .ok ((0, some fatPrivate), k'))
    (hlist : Listing disk.image ((disk.image.header.fatCopies * disk.image.header.sectorsPerFat +
      disk.image.header.reservedSectors) * 512) entries)
    (hends : entries.length < disk.image.header.rootDirEntries)
    (hlt : (disk.image.header.fatCopies * disk.image.header.sectorsPerFat +
      disk.image.header.reservedSectors) * 512 + disk.image.header.rootDirEntries * 32 ≤ 2147483648)
    (hlookup : ∀ name, (components path).takeWhile NonEmpty = [name] →
      LookupCondition entries fatPrivate.rootDirectory.toFatDirectory name)
    (hload : processLoad (fat16Layer { disk with fsPrivate := some fatPrivate }) path s =
      .ok ((0, p), s')) (hshort : s'.heap.short = false) :
    ∃ name e x task, (components path).takeWhile NonEmpty = [name] ∧ e ∈ entries ∧ e.Named name ∧
      s'.processAt p = some x ∧ x.size = e.filesize ∧ s'.tasks x.task = some task ∧
      ∀ chain, OnePiece disk.image e chain → ∀ i < e.filesize,
        ∃ b, (disk.image.fileBytes chain)[i]? = some b ∧ FindsByte s'.toTaskLayer task i b := by
  have hd := resolved_directory_loaded hresolve hlist hends hlt
  have hm : Mounted disk.image fatPrivate := mounted_of_resolve hresolve
  obtain ⟨x, bytes, hdelivers, hx, hstores⟩ := processLoad_stores hload
  obtain ⟨name, e, hpath, he, hnamed, hsize, hbytes⟩ :=
    @delivers_file { disk with fsPrivate := some fatPrivate } fatPrivate _ _ _ _ _ rfl hm hd hlookup
      hdelivers
  have hspec := processLoad_spec (A := ∅) (c := True) ⟨Owns.empty _, fun _ => trivial⟩ hload
  generalize hout : ((0 : ℤ), p) = out at hspec
  cases hspec with
  | noSlot none => exact absurd (Prod.mk.inj hout).1 (by decide)
  | noProcess slot full => exact absurd (Prod.mk.inj hout).1 (by decide)
  | fails r q k table ram y slot object nonzero negative kept =>
    have hr := (Prod.mk.inj hout).1
    omega
  | loads q slot t chunk y s' free object nonzero new whole sized loaded =>
    obtain rfl : p = q := (Prod.mk.inj hout).2
    have hy : x = y := by
      rw [loaded.object, Function.update_self] at hx
      exact (Option.some.inj hx).symm
    subst hy
    have hcontent := loaded.content t
    rw [if_pos rfl] at hcontent
    obtain ⟨task, htask, hc⟩ := Option.map_eq_some_iff.mp hcontent
    obtain ⟨rfl, hregisters, -⟩ : task.pageDirectory = chunk ∧
        task.registers = initialRegisters ∧ task.process = p := by
      simpa [Task.content] using hc
    have hsees := seesImage_of_placement (loaded.placement hshort)
    refine ⟨name, e, x, task, hpath, he, hnamed, hx, hsize, loaded.task ▸ htask,
      fun chain hpiece i hi => ?_⟩
    obtain ⟨b, hbyte⟩ : ∃ b, (disk.image.fileBytes chain)[i]? = some b := ⟨_, hpiece.byte hi⟩
    have hstored : bytes[i]? = some b := by
      rw [hbytes chain hpiece, List.getElem?_take_of_lt hi, hbyte]
    refine ⟨b, hbyte, by rw [hregisters]; rfl, ?_⟩
    have htranslate : (s'.onTask task).translate (dexterProgramVirtualAddress + i) =
        some (x.ptr + i) := (hsees.program i (hsize ▸ hi)).translates
    have hvalue := hstores.found hshort (hsize ▸ hi) hstored
    rw [TaskLayer.readByte, bind_of_ok (get_apply _), htranslate, ← hvalue]
    rfl

def blankPath : CString :=
  [0x30, 0x3a, 0x2f, 0x62, 0x6c, 0x61, 0x6e, 0x6b, 0x2e, 0x62, 0x69, 0x6e]

def programImage : DiskImage where
  sector lba i :=
    if lba = 2 then
      match i with
      | 0 | 8 => 0x42
      | 1 => 0x4c
      | 2 => 0x41
      | 3 | 10 => 0x4e
      | 4 => 0x4b
      | 9 => 0x49
      | 28 => 5
      | 29 => 0
      | _ => sampleImage.sector 2 i
    else sampleImage.sector lba i
  stack := sampleImage.stack

def programDisk (fsPrivate : Option FatPrivate) : Disk :=
  { sampleDisk fsPrivate with image := programImage }

def programItem : FatDirectoryItem :=
  (resolvedPrivate (programDisk none) 1 0 0 0 0).rootDirectory.item 0

def programEntry : FatDirectoryItem := ⟨fun j => programImage.byteAt (1024 + j)⟩

theorem programItem_same : programItem.Same programEntry := by
  unfold FatDirectoryItem.Same
  decide +kernel

theorem programEntry_onePiece : OnePiece programImage programEntry [2, 4] := by
  have hlow : programEntry.low16BitsFirstCluster = 2 := by decide +kernel
  have hfirst : programImage.fatEntry 2 = 4 := by decide +kernel
  refine ⟨?_, by decide +kernel, by decide +kernel, by decide +kernel, by decide +kernel⟩
  rw [hlow]
  refine .link 2 [4] (by decide) ?_
  rw [hfirst]
  exact .last 4 (by decide) (by decide +kernel)

theorem programEntry_plain :
    programEntry.Plain [0x42, 0x4c, 0x41, 0x4e, 0x4b] [0x42, 0x49, 0x4e] := by
  refine ⟨by decide +kernel, by decide +kernel, by decide +kernel, by decide, ?_, by simp⟩
  exact Or.inr ⟨rfl, by decide +kernel⟩

theorem blankPath_names : NamesFile (blankPath.drop 3) blankPath :=
  ⟨by decide, by decide, by decide, by decide, by decide⟩

theorem program_oneFile (dir s₁ s₂ s₃ : ℕ) : OneFile (blankPath.drop 3)
    (resolvedPrivate (programDisk none) 1 dir s₁ s₂ s₃) programItem where
  total := rfl
  first := rfl
  named := ⟨_, programEntry_plain.fullRelativeFilename programItem_same, by decide +kernel⟩
  ordinary := by decide +kernel

theorem blank_component {name : CString}
    (h : (components blankPath).takeWhile NonEmpty = [name]) : name = blankPath.drop 3 := by
  have hparts : (components blankPath).takeWhile NonEmpty = [blankPath.drop 3] := by decide
  exact List.singleton_inj.mp (h.symm.trans hparts)

theorem program_listing : Listing programImage 1024 [programEntry] := by
  refine ⟨fun i e hi => ?_, ?_, by decide +kernel⟩
  · obtain rfl : i = 0 := Nat.lt_one_iff.mp (List.getElem?_eq_some_iff.mp hi).1
    obtain rfl := Option.some.inj hi
    decide +kernel
  · intro e he
    obtain rfl := List.mem_singleton.mp he
    decide +kernel

theorem loaded_program_is_file_blank : ∃ disk s s' p x task,
    processLoad (fat16Layer disk) blankPath s = .ok ((0, p), s') ∧ s'.processAt p = some x ∧
      x.size = 5 ∧ s'.tasks x.task = some task ∧
        ∀ i < 5, FindsByte s'.toTaskLayer task i 2 := by
  have hheader : (programDisk none).image.header = ⟨1, 1, 1, 16, 1, 0x29⟩ := by decide +kernel
  have htotal : fat16GetTotalItemsForDirectory (programDisk none) 2 = .ok 1 := by decide +kernel
  obtain ⟨r, k, hresolve, ⟨dir, s₁, s₂, s₃, rfl, hs₂⟩, hk⟩ :=
    @fat16Resolve_room 0 (programDisk none) 1 (by decide) (by rw [hheader])
      (by rw [hheader]; decide) (by rw [hheader]; exact htotal) kheapInit ⟨kheapInit_unused, rfl⟩
  have hone := program_oneFile dir s₁ s₂ s₃
  generalize resolvedPrivate (programDisk none) 1 dir s₁ s₂ s₃ = fatPrivate at hresolve hone
  have hmounted : Mounted programImage fatPrivate :=
    @mounted_of_resolve (programDisk none) _ _ _ hresolve
  have hneed : needed 5256 = 2 := by decide
  obtain ⟨hp, hb, hshort⟩ := @malloc_of_unused k 6 5256 hk.unused (by decide) (by decide)
  rw [hneed] at hb
  have hsize : programItem.filesize = 5 := by decide +kernel
  have hsize' : programEntry.filesize = 5 := by decide +kernel
  obtain ⟨t, hload, hroom⟩ := @FileNames.processLoadBinary_room (k.malloc 5256).1 .zero
    { bootKernel with heap := (k.malloc 5256).2 } (programDisk (some fatPrivate)) fatPrivate
    programItem _ blankPath 8 blankPath_names (by decide) rfl rfl hone
    (by rw [hsize]; decide) (fun addr fItem copy hcopy => by
      have hread := @fat16Read_onePiece (programDisk (some fatPrivate)) fatPrivate programEntry
        programItem [2, 4] ⟨addr, ⟨fItem, .file copy programItem⟩, 0⟩ copy rfl
        hmounted rfl rfl hcopy programItem_same programEntry_onePiece
        (by rw [hsize']; decide)
      rw [hsize'] at hread
      rw [hsize]
      exact ⟨_, hread⟩) ⟨hb, hshort.trans hk.long⟩ rfl hp
  have hslot : processGetFreeSlot { bootKernel with heap := k } = (0 : ℕ) :=
    (by decide : processGetFreeSlot bootKernel = (0 : ℕ))
  obtain ⟨-, s', hrun, hlong, -⟩ := processLoad_of_binary (s := { bootKernel with heap := k })
    (by decide) hslot rfl (held_nil _) ⟨⟨rfl, rfl⟩, Or.inr ⟨rfl, rfl⟩⟩ hp hload hroom.unused
    hroom.long (by decide)
  have hloaded : LoadedDirectory [programEntry] fatPrivate.rootDirectory.toFatDirectory :=
    resolved_directory_loaded hresolve (by rw [hheader]; exact program_listing)
      (by rw [hheader]; decide) (by rw [hheader]; decide)
  obtain ⟨name, e, x, task, -, he, -, hx, hxsize, htask, hbytes⟩ :=
    @loaded_program_is_file (programDisk none) _ [programEntry] _ _ _ _ _ _ hresolve
    (by rw [hheader]; exact program_listing) (by rw [hheader]; decide) (by rw [hheader]; decide)
    (fun name hname => lookupCondition_of_plain hloaded
      (fun e he => ⟨_, _, List.mem_singleton.mp he ▸ programEntry_plain⟩)
      (by rw [blank_component hname]; simp [blankPath])) hrun hlong
  obtain rfl := List.mem_singleton.mp he
  refine ⟨_, _, s', _, x, task, hrun, hx, hxsize.trans hsize', htask, fun i hi => ?_⟩
  obtain ⟨b, hb', hfinds⟩ := hbytes [2, 4] programEntry_onePiece i (by rw [hsize']; exact hi)
  have hall : ∀ i < 5, (programImage.fileBytes [2, 4])[i]? = some 2 := by decide +kernel
  obtain rfl : b = 2 := Option.some.inj (hb'.symm.trans (hall i hi))
  exact hfinds

end Dexter.FromDisk
