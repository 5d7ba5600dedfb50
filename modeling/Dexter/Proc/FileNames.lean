import Dexter.Proc.LoadContract
import Dexter.Fs.FileRead

/-!
# The file name of a process (`proc/process.c`)

The name is copied into a field of 108 bytes with `strncpy`, and a path of up to 108 bytes is a path.
A path of exactly 108 bytes fills the field and leaves no byte for the terminator.
-/

namespace Dexter.FileNames
open Lib.Programs KernelHeap KernelState LoadContract

structure KnowsName (x : Process) (filename : CString) : Prop where
  field : x.filename.length = dexterMaxPath
  terminated : 0 ∈ x.filename
  name : x.filename.takeWhile (· ≠ 0) = filename

section Field
variable {filename : CString} {n : ℕ}

theorem strncpyBytes_length : (strncpyBytes filename n).length = n := by
  rw [strncpyBytes, List.length_append, List.length_take, List.length_replicate]
  omega

theorem strncpyBytes_of_lt (h : filename.length < n) :
    strncpyBytes filename n = filename ++ 0 :: List.replicate (n - filename.length - 1) 0 := by
  obtain ⟨k, hk⟩ := Nat.exists_eq_add_of_lt h
  have hrest : n - filename.length = k + 1 := by omega
  rw [strncpyBytes, List.take_of_length_le h.le, hrest, List.replicate_succ, Nat.add_sub_cancel]

theorem strncpyBytes_of_le (h : n ≤ filename.length) :
    strncpyBytes filename n = filename.take n := by
  rw [strncpyBytes, Nat.sub_eq_zero_of_le h, List.replicate_zero, List.append_nil]

theorem knowsName_iff {x : Process} (hstring : 0 ∉ filename)
    (hx : x.filename = strncpyBytes filename dexterMaxPath) :
    KnowsName x filename ↔ filename.length < dexterMaxPath := by
  constructor
  · intro h
    by_contra hlong
    have hterminated := h.terminated
    rw [hx, strncpyBytes_of_le (not_lt.mp hlong)] at hterminated
    exact hstring (List.mem_of_mem_take hterminated)
  · intro hshort
    refine ⟨hx ▸ strncpyBytes_length, ?_, ?_⟩
    · rw [hx, strncpyBytes_of_lt hshort]
      simp
    · have hall : ∀ c ∈ filename, decide (c ≠ 0) = true := fun c hc =>
        decide_eq_true fun h0 => hstring (h0 ▸ hc)
      rw [hx, strncpyBytes_of_lt hshort, List.takeWhile_append_of_pos hall]
      simp

end Field

theorem processLoad_named {files : FileLayer} {filename : CString} {s s' : KernelState} {r : ℤ}
    {p : ℕ} (hr : 0 ≤ r) (h : processLoad files filename s = .ok ((r, p), s')) :
    ∃ x, s'.processAt p = some x ∧ x.filename = strncpyBytes filename dexterMaxPath := by
  rcases processGetFreeSlot_cases s with hslot | ⟨slot, -, hslot, -⟩
  · rw [processLoad, bind_of_ok (get_apply s), if_pos (by rw [hslot]; decide)] at h
    obtain ⟨rfl, -⟩ := Prod.mk.inj (ok_inj h).1
    exact absurd hr (by decide)
  · rw [processLoad_eq hslot] at h
    cases processLoadForSlot_spec (A := ∅) (c := True) ⟨Owns.empty _, fun _ => trivial⟩ h with
    | noProcess full => exact absurd hr (by decide)
    | fails r p k table ram y object nonzero negative kept => exact absurd hr (not_le.mpr negative)
    | loads n p t chunk y s' place inside free object nonzero new whole sized named loaded =>
      refine ⟨y, ?_, named.filename⟩
      rw [loaded.object, Function.update_self]

/-- After a load that succeeds the process knows its file name exactly if the name has fewer than
108 bytes. -/
theorem process_knows_name_iff (files : FileLayer) (filename : CString) (hstring : 0 ∉ filename)
    (s s' : KernelState) (r : ℤ) (p : ℕ) (hr : 0 ≤ r)
    (h : processLoad files filename s = .ok ((r, p), s')) :
    (∃ x, s'.processAt p = some x ∧ KnowsName x filename) ↔ filename.length < dexterMaxPath := by
  obtain ⟨x, hx, hname⟩ := processLoad_named hr h
  rw [← knowsName_iff hstring hname, hx]
  simp

theorem process_knows_name_short : ∃ s' p, processLoad (givenFile [0xC3]) [0x78] bootKernel =
    .ok ((0, p), s') ∧ ∃ x, s'.processAt p = some x ∧ KnowsName x [0x78] := by
  obtain ⟨p, s', h, -⟩ := @givenFile_booted [0xC3] [0x78] (by decide) (by decide)
  exact ⟨s', p, h, (process_knows_name_iff _ [0x78] (by decide) _ _ 0 p le_rfl h).mpr (by decide)⟩

def longPath : CString := samplePath ++ List.replicate 104 slash

theorem longPath_names : NamesFile [0x41] longPath := ⟨by decide, by decide, rfl, by decide, by decide⟩

section Sample
variable {dir s₁ s₂ s₃ p : ℕ} {x : Process} {s : KernelState} {disk : Disk}
  {fatPrivate : FatPrivate} {item : FatDirectoryItem}

theorem fclose_room {f : FileState} {desc : FileDescriptor} {m : ℕ}
    (hget : fileGetDescriptor f 1 = some desc) (hdesc : AtStart item desc)
    (hroom : Room m f.heap) : ∃ f', fclose 1 f = .ok (0, f') ∧ Room m f'.heap := by
  obtain ⟨addr, fItem, copy, hdata, -⟩ := hdesc
  have hclose : FileState.onHeap (fat16Close desc.privateData) f =
      .ok (0, { f with heap := ((f.heap.free copy).free fItem).free addr }) := by
    rw [hdata]
    rfl
  refine ⟨⟨(((f.heap.free copy).free fItem).free addr).free desc.addr,
    (FileState.putSlot (desc.index - 1).toNat none f).fileDescriptors⟩, ?_,
    (((hroom.free copy).free fItem).free addr).free desc.addr⟩
  rw [fclose, bind_of_ok (get_apply f), hget]
  dsimp only
  rw [bind_of_ok hclose, onlyIf, if_pos rfl]
  rfl

theorem fstat_opened {f : FileState} {desc : FileDescriptor} (hdesc : AtStart item desc)
    (hget : fileGetDescriptor f 1 = some desc) :
    ∃ flags, fstat 1 f = .ok ((0, some ⟨flags, item.filesize⟩), f) := by
  obtain ⟨addr, fItem, copy, hdata, hcopy⟩ := hdesc
  refine ⟨if item.attributes &&& fatFileReadOnly ≠ 0 then 1 else 0, ?_⟩
  rw [fstat, bind_of_ok (get_apply f), hget]
  dsimp only
  rw [hdata, fat16Stat]
  dsimp only
  rw [if_neg hcopy]
  rfl

theorem fread_opened {f : FileState} {desc : FileDescriptor} {bytes : List UInt8} {n : ℕ}
    (hn : n ≠ 0) (hget : fileGetDescriptor f 1 = some desc)
    (hread : fat16Read disk desc.privateData n 1 = .ok (1, bytes)) :
    fread disk n 1 1 f = .ok ((1, bytes), f) := by
  rw [fread, bind_of_ok (get_apply _), if_neg (by omega), hget]
  dsimp only
  rw [hread]
  rfl

theorem processLoadBinaryBody_room {desc : FileDescriptor} {m : ℕ} (hm : m + 1 ≤ 25600)
    (hdesc : AtStart item desc) (hget : s.fileDescriptors 0 = some desc)
    (hsize : 1 ≤ item.filesize ∧ item.filesize ≤ 4096)
    (hwhole : ∃ bytes, fat16Read disk desc.privateData item.filesize 1 = .ok (1, bytes))
    (hroom : Room m s.heap) (hp : p ≠ 0) (hx : s.processAt p = some x) :
    ∃ k ram y, processLoadBinaryBody (fat16Layer disk) 1 p s =
      .ok (0, KernelState.putProcess p y { s with heap := k, ram := ram }) ∧ Room (m + 1) k := by
  have hget' : ∀ k, fileGetDescriptor ⟨k, s.fileDescriptors⟩ 1 = some desc := fun _ => hget
  obtain ⟨bytes, hbytes⟩ := hwhole
  obtain ⟨flags, hfstat⟩ := fstat_opened hdesc (hget' s.heap)
  generalize item.filesize = n at hsize hbytes hfstat
  obtain ⟨ptr, k, halloc, hptr, hk⟩ := @kzalloc_page m n hsize.1 hsize.2 hm s.heap hroom
  have hstat : onFiles ((fat16Layer disk).fstat 1) s = .ok ((0, some ⟨flags, n⟩), s) :=
    onFiles_ok.mpr ⟨s.files, hfstat, rfl⟩
  have hfilesize : u32 (((some (⟨flags, n⟩ : FileStat)).map FileStat.filesize).getD 0 : ℕ) = n :=
    @u32_natCast n (by omega)
  have hallocated : onHeap (kzalloc n) s = .ok (ptr, { s with heap := k }) := by
    rw [onHeap_kzalloc]
    have hmalloc := kzalloc_malloc halloc
    simp only [hmalloc]
  set s₁ : KernelState := { s with heap := k, ram := TaskLayer.cleared ptr n s.ram } with hs₁
  have hclear : clearBytes ptr n { s with heap := k } = .ok ((), s₁) := rfl
  have hread : onFiles ((fat16Layer disk).fread n 1 1) s₁ = .ok ((1, bytes), s₁) :=
    onFiles_ok.mpr ⟨s₁.files, fread_opened (by omega) (hget' k) hbytes, rfl⟩
  obtain ⟨ram, hstore⟩ : ∃ ram, storeBytes ptr bytes s₁ =
      .ok ((), { s with heap := k, ram := ram }) := ⟨_, rfl⟩
  obtain ⟨y, hset⟩ : ∃ y, setProcess p (fun x => { x with ptr := ptr, size := n })
      { s with heap := k, ram := ram } =
      .ok ((), KernelState.putProcess p y { s with heap := k, ram := ram }) :=
    ⟨_, setProcess_ok.mpr ⟨hp, x, hx, rfl⟩⟩
  refine ⟨k, ram, y, ?_, hk⟩
  rw [processLoadBinaryBody, if_neg (by decide), bind_of_ok hstat, if_neg (not_not.mpr rfl)]
  dsimp only
  rw [hfilesize, bind_of_ok hallocated, if_neg hptr, bind_of_ok hclear, bind_of_ok hread,
    bind_of_ok hstore, if_neg (not_not.mpr rfl), bind_of_ok hset, pure_apply]

theorem processLoadBinary_room {name path : CString} {m : ℕ} (hpath : NamesFile name path)
    (hm : m + 9 ≤ 25600) (hfs : disk.filesystem = true) (hprivate : disk.fsPrivate = some fatPrivate)
    (hone : OneFile name fatPrivate item) (hsize : 1 ≤ item.filesize ∧ item.filesize ≤ 4096)
    (hwhole : ∀ addr fItem copy, copy ≠ 0 → ∃ bytes,
      fat16Read disk ⟨addr, ⟨fItem, .file copy item⟩, 0⟩ item.filesize 1 = .ok (1, bytes))
    (hroom : Room m s.heap) (htable : s.fileDescriptors = fun _ => none) (hp : p ≠ 0) :
    ∃ s', processLoadBinary (fat16Layer disk) path p (s.putProcess p x) = .ok (0, s') ∧
      Room (m + 9) s'.heap := by
  have hslot : freeSlot (fun _ => none) = some 0 :=
    freeSlot_some.mpr ⟨by decide, rfl, fun j hj => absurd hj (Nat.not_lt_zero j)⟩
  obtain ⟨r, f, hfopen, ⟨rfl, desc, hdesc, -, hslots⟩, hroom₁⟩ :=
    @fopen_room m disk _ _ _ _ hpath (by omega) hfs hprivate hone (fun _ => none) 0 hslot s.files
      ⟨htable, hroom⟩
  have hget : f.fileDescriptors 0 = some desc := by
    rw [hslots, Function.update_self]
  have hbytes : ∃ bytes, fat16Read disk desc.privateData item.filesize 1 = .ok (1, bytes) := by
    obtain ⟨addr, fItem, copy, hdata, hcopy⟩ := hdesc
    rw [hdata]
    exact hwhole addr fItem copy hcopy
  set t := s.putProcess p x with ht
  have hopen : onFiles ((fat16Layer disk).fopen path) t =
      .ok (1, { t with heap := f.heap, fileDescriptors := f.fileDescriptors }) :=
    onFiles_ok.mpr ⟨f, hfopen, rfl⟩
  obtain ⟨k, ram, y, hbody, hk⟩ := @processLoadBinaryBody_room p x
    { t with heap := f.heap, fileDescriptors := f.fileDescriptors } disk item desc (m + 8)
    (by omega) hdesc hget hsize hbytes hroom₁ hp (putProcess_self s p x)
  obtain ⟨f', hfclose, hroom₂⟩ := fclose_room (f := ⟨k, f.fileDescriptors⟩) hget hdesc hk
  obtain ⟨s', hclose, hheap⟩ : ∃ s', onFiles ((fat16Layer disk).fclose 1)
      (KernelState.putProcess p y
        { t with heap := k, fileDescriptors := f.fileDescriptors, ram := ram }) = .ok (0, s') ∧
      s'.heap = f'.heap := ⟨_, onFiles_ok.mpr ⟨f', hfclose, rfl⟩, rfl⟩
  refine ⟨s', ?_, hheap ▸ hroom₂⟩
  rw [processLoadBinary, bind_of_ok hopen, bind_of_ok hbody, bind_of_ok hclose, pure_apply]

theorem processLoadBinary_sample {path : CString} {m : ℕ} (hpath : NamesFile [0x41] path)
    (hm : m + 9 ≤ 25600) (hstream : s₂ ≠ 0) (hroom : Room m s.heap)
    (htable : s.fileDescriptors = fun _ => none) (hp : p ≠ 0) :
    ∃ s', processLoadBinary (fat16Layer (sampleDisk (some (samplePrivate dir s₁ s₂ s₃)))) path p
      (s.putProcess p x) = .ok (0, s') ∧ Room (m + 9) s'.heap := by
  have hsize : sampleItem.filesize = 600 := by decide +kernel
  exact processLoadBinary_room hpath hm rfl rfl (sample_oneFile dir s₁ s₂ s₃) (by omega)
    (fun addr fItem copy hcopy => hsize ▸ fat16Read_sample_whole hstream hcopy) hroom htable hp

end Sample

/-- The load succeeds, and the field has no terminator. -/
theorem full_name_unterminated : ∃ fatPrivate k p s' x,
    fat16Resolve (sampleDisk none) kheapInit = .ok ((0, some fatPrivate), k) ∧
    processLoad (fat16Layer (sampleDisk (some fatPrivate))) longPath { bootKernel with heap := k } =
      .ok ((0, p), s') ∧ 0 ∉ longPath ∧ s'.processAt p = some x ∧ 0 ∉ x.filename ∧
    ¬KnowsName x longPath := by
  obtain ⟨r, k, hresolve, ⟨dir, s₁, s₂, s₃, rfl, hstream⟩, hk⟩ :=
    fat16Resolve_sample (m := 0) (by decide) ⟨kheapInit_unused, rfl⟩
  have hneed : needed 5256 = 2 := by decide
  obtain ⟨hp, hb, hshort⟩ := @malloc_of_unused k 6 5256 hk.unused (by decide) (by decide)
  rw [hneed] at hb
  obtain ⟨t, hload, hroom⟩ := @processLoadBinary_sample dir s₁ s₂ s₃ (k.malloc 5256).1 .zero
    { bootKernel with heap := (k.malloc 5256).2 } longPath 8 longPath_names (by decide) hstream
    ⟨hb, hshort.trans hk.long⟩ rfl hp
  have hslot : processGetFreeSlot { bootKernel with heap := k } = (0 : ℕ) :=
    (by decide : processGetFreeSlot bootKernel = (0 : ℕ))
  obtain ⟨-, s', hrun, -⟩ := processLoad_of_binary (s := { bootKernel with heap := k }) (by decide)
    hslot rfl (held_nil _) ⟨⟨rfl, rfl⟩, Or.inr ⟨rfl, rfl⟩⟩ hp hload hroom.unused hroom.long
    (by decide)
  obtain ⟨x, hx, hname⟩ := processLoad_named le_rfl hrun
  have hfull : 0 ∉ x.filename := by
    rw [hname]
    decide +kernel
  exact ⟨_, k, _, s', x, hresolve, hrun, by decide +kernel, hx, hfull, fun h => hfull h.terminated⟩

end Dexter.FileNames
