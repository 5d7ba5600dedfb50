import Dexter.Fs.Lookup

/-!
# Looking a name up in a directory

A directory is a list of items up to the first one whose name starts with a zero
byte. `fat16_get_total_items_for_directory` counts the items that are not deleted,
and `fat16_find_item_in_directory` then looks at as many items from the start of the
list, deleted ones and volume labels included, and takes the last one that reads as
the name. `LookupCondition` says when this finds what it should.
-/

namespace Dexter
open Lib.Programs Lib.Faults KernelHeap

def fatFileVolumeLabel : UInt8 := 0x08
def fatFileLongName : UInt8 := 0x0f

namespace FatDirectoryItem

def Same (item item' : FatDirectoryItem) : Prop := ∀ i < 32, item.bytes i = item'.bytes i

def Deleted (item : FatDirectoryItem) : Prop := item.bytes 0 = 0xE5

/-- Neither deleted nor a volume label nor a piece of a long name. -/
def Ordinary (item : FatDirectoryItem) : Prop :=
  ¬item.Deleted ∧ item.attributes &&& fatFileVolumeLabel = 0 ∧ item.attributes ≠ fatFileLongName

def shortName (item : FatDirectoryItem) : CString :=
  let base := ((List.range 8).map item.bytes).rdropWhile (· = 0x20)
  let ext := ((List.range 3).map fun i => item.bytes (8 + i)).rdropWhile (· = 0x20)
  if ext = [] then base else base ++ 0x2e :: ext

def Named (item : FatDirectoryItem) (name : CString) : Prop :=
  item.Ordinary ∧ item.shortName.map toupper = name.map toupper

instance (item : FatDirectoryItem) : Decidable item.Deleted :=
  inferInstanceAs (Decidable (item.bytes 0 = 0xE5))

instance (item : FatDirectoryItem) : Decidable item.Ordinary :=
  inferInstanceAs (Decidable (_ ∧ _ ∧ _))

instance (item : FatDirectoryItem) (name : CString) : Decidable (item.Named name) :=
  inferInstanceAs (Decidable (_ ∧ _))

variable {item item' : FatDirectoryItem} {name : CString}

theorem Same.named_iff (h : item.Same item') : item.Named name ↔ item'.Named name := by
  have hbase : (List.range 8).map item.bytes = (List.range 8).map item'.bytes :=
    List.map_congr_left fun i hi => h i (Nat.lt_trans (List.mem_range.mp hi) (by decide))
  have hext : ((List.range 3).map fun i => item.bytes (8 + i)) =
      (List.range 3).map fun i => item'.bytes (8 + i) :=
    List.map_congr_left fun i hi =>
      h (8 + i) (Nat.lt_trans (Nat.add_lt_add_left (List.mem_range.mp hi) 8) (by decide))
  have hattributes : item.attributes = item'.attributes := h 11 (by decide)
  simp only [Named, Ordinary, Deleted, shortName, hbase, hext, hattributes, h 0 (by decide)]

end FatDirectoryItem

structure Listing (d : DiskImage) (a : ℕ) (entries : List FatDirectoryItem) : Prop where
  items : ∀ i e, entries[i]? = some e → ∀ k < 32, d.byteAt (a + 32 * i + k) = e.bytes k
  present : ∀ e ∈ entries, e.bytes 0 ≠ 0
  terminator : d.byteAt (a + 32 * entries.length) = 0

/-- The directory in memory: the items that are not deleted are counted, and as many items from
the start on can be relied on. -/
structure LoadedDirectory (entries : List FatDirectoryItem) (d : FatDirectory) : Prop where
  total : d.total = (entries.filter (¬·.Deleted)).length
  items : ∀ i e, entries[i]? = some e → i < d.total.toNat → (d.item i).Same e

section Loaded
variable {d : DiskImage} {a : ℕ} {entries : List FatDirectoryItem}

theorem Listing.tail {e : FatDirectoryItem} (h : Listing d a (e :: entries)) :
    Listing d (a + 32) entries where
  items i e' hi k hk := by
    have hmem : d.byteAt (a + 32 * (i + 1) + k) = e'.bytes k := h.items (i + 1) e' hi k hk
    rwa [Nat.mul_succ, Nat.add_comm (32 * i), ← Nat.add_assoc] at hmem
  present e' he' := h.present e' (List.mem_cons_of_mem e he')
  terminator := by
    have hend := h.terminator
    rwa [List.length_cons, Nat.mul_succ, Nat.add_comm (32 * entries.length), ← Nat.add_assoc]
      at hend

theorem diskstreamerRead_item (d : DiskImage) (hal : a % 32 = 0) (hlt : a + 32 ≤ 2147483648) :
    ((diskstreamerRead d a 32).1).getD 0 0 = d.byteAt a := by
  have hread := @diskstreamerRead_eq d a 32 (Or.inr (by omega)) hlt
  rw [Nat.cast_ofNat] at hread
  rw [hread]
  rfl

theorem diskstreamerRead_item_pos (d : DiskImage) (hlt : a + 32 < 2147483648) :
    (diskstreamerRead d a 32).2 = (a + 32 : ℕ) := by
  have hshort : ((32 - 1 : ℤ) / dexterSectorSize).toNat = 0 := by decide
  have hmin : min (32 : ℤ) dexterSectorSize = 32 := by decide
  rw [diskstreamerRead, hshort, diskstreamerReadLoop, hmin, diskstreamerReadSector_pos,
    ← i32_natCast hlt]
  norm_cast

theorem fat16CountItems_eq (hal : a % 32 = 0) (h : Listing d a entries)
    (hlt : a + 32 * entries.length + 32 ≤ 2147483648) {fuel : ℕ} (hfuel : entries.length < fuel)
    (i : ℤ) :
    fat16CountItems d fuel a i = .ok (i + (entries.filter (¬·.Deleted)).length) := by
  induction entries generalizing a fuel i with
  | nil =>
    obtain ⟨fuel, rfl⟩ := Nat.exists_eq_add_of_lt hfuel
    have hfirst : ((diskstreamerRead d a 32).1).getD 0 0 = 0x00 :=
      (diskstreamerRead_item d hal hlt).trans h.terminator
    rw [fat16CountItems, if_pos hfirst]
    simp
  | cons e rest ih =>
    obtain ⟨fuel, rfl⟩ := Nat.exists_eq_add_of_lt hfuel
    rw [List.length_cons] at hlt hfuel
    have hbyte : ((diskstreamerRead d a 32).1).getD 0 0 = e.bytes 0 :=
      (diskstreamerRead_item d hal (by omega)).trans (h.items 0 e rfl 0 (by decide))
    have hpos := diskstreamerRead_item_pos d (show a + 32 < 2147483648 by omega)
    have hne : ¬e.bytes 0 = 0x00 := h.present e List.mem_cons_self
    have hrest := fun i => @ih (a + 32) (by omega) h.tail (by omega)
      (rest.length + 1 + fuel) (by omega) i
    rw [List.length_cons, fat16CountItems, hbyte, hpos, if_neg hne]
    by_cases hdeleted : e.Deleted
    · have hmark : e.bytes 0 = 0xE5 := hdeleted
      rw [if_pos hmark, hrest]
      simp [hdeleted]
    · have hmark : ¬e.bytes 0 = 0xE5 := hdeleted
      rw [if_neg hmark, hrest]
      simp [hdeleted]
      ring

theorem totalItems_eq {disk : Disk} {sector : ℕ} (h : Listing disk.image (sector * 512) entries)
    (hlt : sector * 512 + 32 * entries.length + 32 ≤ 2147483648) :
    fat16GetTotalItemsForDirectory disk sector = .ok (entries.filter (¬·.Deleted)).length := by
  have hal : sector * 512 % 32 = 0 := by omega
  have hfuel : entries.length < 134217728 := by omega
  have hpos : i32 ((sector : ℤ) * dexterSectorSize) = (sector * 512 : ℕ) := by
    rw [← Nat.cast_mul]
    exact i32_natCast (by simp only [dexterSectorSize]; omega)
  have hcount := fat16CountItems_eq hal h hlt hfuel 0
  rw [fat16GetTotalItemsForDirectory, hpos, hcount, zero_add]

theorem loaded_byteAt {disk : Disk} {n j : ℕ} (hal : a % 512 = 0) (hlt : a + n ≤ 2147483648)
    (hj : j < n) :
    disk.loaded (diskstreamerRead disk.image a n).1 j = disk.image.byteAt (a + j) := by
  have hlen : (diskstreamerRead disk.image a n).1.length = n := diskstreamerRead_length _ _ _
  rw [Disk.loaded, hlen, if_pos hj, diskstreamerRead_eq _ (Or.inl hal) hlt,
    List.getD_eq_getElem?_getD, List.getElem?_map, List.getElem?_range hj]
  rfl

theorem loaded_of_read {disk : Disk} {sector maxEntries : ℕ} {d : FatDirectory}
    (hlist : Listing disk.image (sector * 512) entries) (hends : entries.length < maxEntries)
    (hlt : sector * 512 + maxEntries * 32 ≤ 2147483648)
    (htotal : fat16GetTotalItemsForDirectory disk sector = .ok d.total)
    (hbytes : d.bytes = disk.loaded (diskstreamerRead disk.image (fat16SectorToAbsolute sector)
      (maxEntries * 32 : ℕ)).1) : LoadedDirectory entries d := by
  have hinside : sector * 512 + 32 * entries.length + 32 ≤ 2147483648 := by linarith
  have hal : sector * 512 % 512 = 0 := Nat.mul_mod_left _ _
  constructor
  · exact Except.ok.inj (htotal.symm.trans (totalItems_eq hlist hinside))
  · intro i e hi _ j hj
    have hlen := (List.getElem?_eq_some_iff.mp hi).1
    have hin : 32 * i + j < maxEntries * 32 := by linarith
    have hpos : fat16SectorToAbsolute sector = (sector * 512 : ℕ) := by
      rw [fat16SectorToAbsolute, ← Nat.cast_mul]
      exact i32_natCast (by rw [dexterSectorSize]; linarith)
    have hitem : (d.item i).bytes j = d.bytes (32 * i + j) := rfl
    rw [hitem, hbytes, hpos, loaded_byteAt hal hlt hin, ← Nat.add_assoc]
    exact hlist.items i e hi j hj

/-- The root directory that `fat16_resolve` loads, where it ends inside its area. -/
theorem resolved_directory_loaded {disk : Disk} {k k' : KernelHeap} {fatPrivate : FatPrivate}
    (h : fat16Resolve disk k = .ok ((0, some fatPrivate), k'))
    (hlist : Listing disk.image ((disk.image.header.fatCopies * disk.image.header.sectorsPerFat +
      disk.image.header.reservedSectors) * 512) entries)
    (hends : entries.length < disk.image.header.rootDirEntries)
    (hlt : (disk.image.header.fatCopies * disk.image.header.sectorsPerFat +
      disk.image.header.reservedSectors) * 512 + disk.image.header.rootDirEntries * 32 ≤
        2147483648) :
    LoadedDirectory entries fatPrivate.rootDirectory.toFatDirectory := by
  obtain ⟨total, dir, s₁, s₂, s₃, -, htotal, rfl⟩ := fat16Resolve_ok h
  exact loaded_of_read hlist hends hlt htotal rfl

end Loaded

/-- The item that the lookup ends with and the copy of its entry are answered by the heap. -/
def Served (disk : Disk) (d : FatDirectory) (name : CString) (k : KernelHeap) : Prop :=
  ∀ m k₀, LastRead d name d.total.toNat m → afterEntries disk d name m k = some k₀ →
    (k₀.malloc 8).1 ≠ 0 ∧
      ∀ k₁, beforeCopy disk (d.item m) k₀ = some k₁ → (k₁.malloc 32).1 ≠ 0

/-- Wherever the lookup over the first `n` entries comes to a subdirectory of this name, its load
comes back. -/
def LoadsReturn (disk : Disk) (d : FatDirectory) (name : CString) (n : ℕ) (k : KernelHeap) : Prop :=
  ∀ m < n, ∀ k₀, afterEntries disk d name m k = some k₀ → ReadsAs d m name →
    afterItem disk (d.item m) k₀ ≠ none

/-- The lookup comes back with a copy of an ordinary entry of this name, or with nothing where
there is none. -/
def FindsRight (disk : Disk) (entries : List FatDirectoryItem) (d : FatDirectory) (name : CString)
    (k : KernelHeap) : Prop :=
  ∃ r k', fat16FindItemInDirectory disk d name k = .ok (r, k') ∧
    match r with
    | none => ∀ e ∈ entries, ¬e.Named name
    | some item => ∃ copy raw, item.body = .file copy raw ∧ copy ≠ 0 ∧
        ∃ e ∈ entries, e.Named name ∧ raw.Same e

/-- Among the items that are looked at, the last one that reads as the name is an ordinary entry
of this name; where none does, there is no such entry. -/
structure LookupCondition (entries : List FatDirectoryItem) (d : FatDirectory) (name : CString) :
    Prop where
  fit : NamesFit d d.total.toNat
  last : ∀ m e, m < d.total.toNat → ReadsAs d m name →
    (∀ i, m < i → i < d.total.toNat → ¬ReadsAs d i name) → entries[m]? = some e → e.Named name
  missing : (∀ i < d.total.toNat, ¬ReadsAs d i name) → ∀ e ∈ entries, ¬e.Named name

section Lookup
variable {disk : Disk} {entries : List FatDirectoryItem} {d : FatDirectory} {name : CString}
  {k k' : KernelHeap} {n : ℕ} {r : Option FatItem}

theorem afterEntries_returns (hfit : NamesFit d n) (hloads : LoadsReturn disk d name n k) :
    ∃ k', afterEntries disk d name n k = some k' := by
  induction n with
  | zero => exact ⟨k, rfl⟩
  | succ n ih =>
    obtain ⟨k₀, hbefore⟩ := ih (fun i hi => hfit i (Nat.lt_succ_of_lt hi))
      fun m hm => hloads m (Nat.lt_succ_of_lt hm)
    obtain ⟨filename, hname⟩ := hfit n (Nat.lt_succ_self n)
    by_cases hcmp : istrncmp (pathBuffer filename) (pathBuffer name) = 0
    · have hload := hloads n (Nat.lt_succ_self n) k₀ hbefore ((readsAs_iff hname).mpr hcmp)
      obtain ⟨k', hk'⟩ := Option.ne_none_iff_exists'.mp hload
      exact ⟨k', afterEntries_succ.mpr ⟨k₀, filename, hbefore, hname, (if_pos hcmp).trans hk'⟩⟩
    · exact ⟨k₀, afterEntries_succ.mpr ⟨k₀, filename, hbefore, hname, if_neg hcmp⟩⟩

theorem afterEntries_loads (h : afterEntries disk d name n k = some k') :
    LoadsReturn disk d name n k := by
  induction n generalizing k' with
  | zero => exact fun m hm => absurd hm (Nat.not_lt_zero m)
  | succ n ih =>
    obtain ⟨k₁, filename, hbefore, hname, hitem⟩ := afterEntries_succ.mp h
    intro m hm k₀ hk₀ hreads
    rcases Nat.lt_succ_iff_lt_or_eq.mp hm with hlt | rfl
    · exact ih hbefore m hlt k₀ hk₀ hreads
    · obtain rfl : k₀ = k₁ := Option.some.inj (hk₀.symm.trans hbefore)
      rw [if_pos ((readsAs_iff hname).mp hreads)] at hitem
      rw [hitem]
      exact Option.some_ne_none k'

theorem LoadedDirectory.entry (hd : LoadedDirectory entries d) {m : ℕ} (hm : m < d.total.toNat) :
    ∃ e, entries[m]? = some e ∧ e ∈ entries ∧ (d.item m).Same e := by
  have hcount := List.length_filter_le (fun e => decide ¬e.Deleted) entries
  have hlen : m < entries.length := by
    have hm' := hm
    rw [hd.total, Int.toNat_natCast] at hm'
    exact hm'.trans_le hcount
  have hat := List.getElem?_eq_getElem hlen
  exact ⟨_, hat, List.mem_of_getElem? hat, hd.items m _ hat hm⟩

/-- The lookup is right exactly under the condition. -/
theorem find_item_right_iff (hd : LoadedDirectory entries d) (hserved : Served disk d name k) :
    FindsRight disk entries d name k ↔
      LookupCondition entries d name ∧ LoadsReturn disk d name d.total.toNat k := by
  constructor
  · intro ⟨r, k', hrun, hright⟩
    obtain ⟨hafter, hfinds⟩ := findItem_spec hrun
    refine ⟨?_, afterEntries_loads hafter⟩
    have hfit := afterEntries_fit hafter
    cases hfinds with
    | nothing unread =>
      exact ⟨hfit, fun m e hm hreads => absurd hreads (unread m hm), fun _ => hright⟩
    | refused m k₀ last before refused => exact absurd refused (hserved m k₀ last before).1
    | item m k₀ k₁ last before built loaded =>
      obtain ⟨_, raw, hbody, -, e, he, hnamed, hsame⟩ := hright
      obtain ⟨-, rfl⟩ := FatItemBody.file.inj hbody
      refine ⟨hfit, fun m' e' hm' hreads' hafter' he' => ?_, fun h =>
        absurd last.reads (h m last.bound)⟩
      obtain rfl := LastRead.unique ⟨hm', hreads', hafter'⟩ last
      exact (hd.items m' e' he' hm').named_iff.mp (hsame.named_iff.mpr hnamed)
  · intro ⟨hcond, hloads⟩
    obtain ⟨k', hafter⟩ := afterEntries_returns hcond.fit hloads
    obtain ⟨r, hrun⟩ := findItem_returns hafter
    refine ⟨r, k', hrun, ?_⟩
    cases (findItem_spec hrun).2 with
    | nothing unread => exact hcond.missing unread
    | refused m k₀ last before refused => exact absurd refused (hserved m k₀ last before).1
    | item m k₀ k₁ last before built loaded =>
      obtain ⟨e, hat, he, hsame⟩ := hd.entry last.bound
      exact ⟨_, d.item m, rfl, (hserved m k₀ last before).2 k₁ loaded, e, he,
        hcond.last m e last.bound last.reads last.after hat, hsame⟩

theorem loadsReturn_of_files
    (h : ∀ m < n, ReadsAs d m name → (d.item m).attributes &&& fatFileSubdirectory = 0) :
    LoadsReturn disk d name n k := by
  intro m hm k₀ _ hreads
  rw [afterItem, beforeCopy, if_neg (not_not.mpr (h m hm hreads))]
  split_ifs
  · exact Option.some_ne_none _
  · exact Option.some_ne_none _

end Lookup

theorem schar_injective {a b : UInt8} (h : schar a = schar b) : a = b := by
  have ha := a.toNat_lt
  have hb := b.toNat_lt
  unfold schar at h
  apply UInt8.toNat_inj.mp
  split_ifs at h <;> omega

theorem istrncmp_eq_zero {a b : CString} (h : a.length = b.length) :
    istrncmp a b = 0 ↔ a.map toupper = b.map toupper := by
  induction a generalizing b with
  | nil =>
    rw [List.eq_nil_of_length_eq_zero h.symm]
    exact ⟨fun _ => rfl, fun _ => rfl⟩
  | cons c as ih =>
    obtain ⟨c', bs, rfl⟩ := List.exists_cons_of_length_eq_add_one h.symm
    have hlen : as.length = bs.length := Nat.succ.inj h
    have hsub : schar (toupper c) - schar (toupper c') = 0 ↔ toupper c = toupper c' :=
      ⟨fun h => schar_injective (Int.sub_eq_zero.mp h), fun h => by rw [h, Int.sub_self]⟩
    rw [istrncmp, List.map_cons, List.map_cons, List.cons.injEq]
    by_cases heq : toupper c = toupper c'
    · by_cases hnil : as = []
      · subst hnil
        rw [List.eq_nil_of_length_eq_zero hlen.symm]
        simp [hsub]
      · rw [if_pos ⟨heq, hnil⟩, ih hlen, and_iff_right heq]
    · rw [if_neg fun h => heq h.1, hsub, iff_false_intro heq, false_and]

theorem toupper_ne_zero {c : UInt8} (h : c ≠ 0) : toupper c ≠ 0 := by
  unfold toupper
  split_ifs with hc
  · intro h0
    have hle : 0x61 ≤ c.toNat := hc.1
    have hge : c.toNat ≤ 0x7a := hc.2
    have hval := congrArg UInt8.toNat h0
    simp only [UInt8.toNat_add, UInt8.toNat_sub, UInt8.reduceToNat] at hval
    omega
  · exact h

theorem pathBuffer_map (s : CString) : (pathBuffer s).map toupper = pathBuffer (s.map toupper) := by
  rw [pathBuffer, pathBuffer, List.map_take, List.map_append, List.map_replicate]
  rfl

theorem takeWhile_pathBuffer {s : CString} (h : ∀ c ∈ s, c ≠ 0) :
    (pathBuffer s).takeWhile (· ≠ 0) = s.take dexterMaxPath := by
  have htake : ∀ c ∈ s.take dexterMaxPath, decide (c ≠ 0) = true := fun c hc =>
    decide_eq_true (h c (List.mem_of_mem_take hc))
  rw [pathBuffer, List.take_append, List.takeWhile_append_of_pos htake, List.take_replicate]
  cases min (dexterMaxPath - s.length) dexterMaxPath with
  | zero => simp
  | succ n => simp [List.replicate_succ]

theorem istrncmp_pathBuffer {a b : CString} (hshort : a.length < dexterMaxPath)
    (ha : ∀ c ∈ a, c ≠ 0) (hb : ∀ c ∈ b, c ≠ 0) :
    istrncmp (pathBuffer a) (pathBuffer b) = 0 ↔ a.map toupper = b.map toupper := by
  have hupper : ∀ {s : CString}, (∀ c ∈ s, c ≠ 0) → ∀ c ∈ s.map toupper, c ≠ 0 := by
    intro s hs c hc
    obtain ⟨x, hx, rfl⟩ := List.mem_map.mp hc
    exact toupper_ne_zero (hs x hx)
  have hlen : (pathBuffer a).length = (pathBuffer b).length := by
    simp [pathBuffer]
  rw [istrncmp_eq_zero hlen, pathBuffer_map, pathBuffer_map]
  constructor
  · intro h
    have htake := congrArg (List.takeWhile (· ≠ 0)) h
    rw [takeWhile_pathBuffer (hupper ha), takeWhile_pathBuffer (hupper hb)] at htake
    have hall : (a.map toupper).take dexterMaxPath = a.map toupper :=
      List.take_of_length_le (by rw [List.length_map]; exact hshort.le)
    have hlength := congrArg List.length htake
    rw [hall, List.length_take, List.length_map] at hlength
    have hbshort : (b.map toupper).length ≤ dexterMaxPath := by omega
    rwa [hall, List.take_of_length_le hbshort] at htake
  · exact fun h => congrArg pathBuffer h

structure FatDirectoryItem.Plain (item : FatDirectoryItem) (base ext : CString) : Prop where
  ordinary : item.Ordinary
  baseBytes : (List.range 8).map item.bytes = base ++ List.replicate (8 - base.length) 0x20
  extBytes : ((List.range 3).map fun i => item.bytes (8 + i)) =
    ext ++ List.replicate (3 - ext.length) 0x20
  baseShort : base.length < 8
  extShort : ext.length < 3 ∨ ext.length = 3 ∧ item.attributes = 0x20
  chars : ∀ c ∈ base ++ ext, c ≠ 0 ∧ c ≠ 0x20

section Plain
variable {item item' : FatDirectoryItem} {base ext : CString}

theorem rdropWhile_blanks {l : CString} (h : ∀ c ∈ l, c ≠ 0x20) (n : ℕ) :
    (l ++ List.replicate n 0x20).rdropWhile (· = 0x20) = l := by
  induction n with
  | zero =>
    rw [List.replicate_zero, List.append_nil, List.rdropWhile_eq_self_iff]
    intro hne hlast
    exact h _ (List.getLast_mem hne) (of_decide_eq_true hlast)
  | succ n ih =>
    rw [List.replicate_succ', ← List.append_assoc, List.rdropWhile_concat_pos _ _ _ (by decide), ih]

theorem FatDirectoryItem.Plain.shortName_eq (h : item.Plain base ext) :
    item.shortName = if ext = [] then base else base ++ 0x2e :: ext := by
  have hbase := rdropWhile_blanks (fun c hc => (h.chars c (List.mem_append_left ext hc)).2)
    (8 - base.length)
  have hext := rdropWhile_blanks (fun c hc => (h.chars c (List.mem_append_right base hc)).2)
    (3 - ext.length)
  rw [FatDirectoryItem.shortName, h.baseBytes, h.extBytes, hbase, hext]

theorem fat16ToProperString_eq {mem : ℕ → UInt8} {l : CString} {room i : ℕ}
    (hl : ∀ j c, l[j]? = some c → mem (i + j) = c) (hc : ∀ c ∈ l, c ≠ 0 ∧ c ≠ 0x20)
    (hend : mem (i + l.length) = 0x20) (hroom : l.length < room) :
    fat16ToProperString mem room i = .ok l := by
  induction l generalizing i room with
  | nil =>
    have hblank : mem i = 0x20 := hend
    rw [fat16ToProperString.eq_def]
    dsimp only
    rw [hblank, if_neg (by decide), if_pos rfl, if_neg (Nat.ne_of_gt (show 0 < room from hroom))]
  | cons c rest ih =>
    obtain ⟨room, rfl⟩ := Nat.exists_eq_add_of_lt hroom
    have hfirst : mem i = c := hl 0 c rfl
    obtain ⟨h0, hblank⟩ := hc c List.mem_cons_self
    have hrest := @ih (rest.length + 1 + room) (i + 1) (fun j c' hj => by
      have hmem := hl (j + 1) c' hj
      rwa [Nat.add_comm j, ← Nat.add_assoc] at hmem) (fun c' hc' => hc c' (List.mem_cons_of_mem c hc'))
      (by rwa [List.length_cons, Nat.add_comm rest.length, ← Nat.add_assoc] at hend) (by omega)
    rw [List.length_cons, fat16ToProperString, hfirst, if_neg h0, if_neg hblank, hrest]
    rfl

section Padded
variable {f : ℕ → UInt8} {l : CString} {n : ℕ}

theorem padded_at (f : ℕ → UInt8) {j : ℕ} (hj : j < n) :
    ((List.range n).map f)[j]? = some (f j) := by
  rw [List.getElem?_map, List.getElem?_range hj]
  rfl

theorem padded_getElem (h : (List.range n).map f = l ++ List.replicate (n - l.length) 0x20)
    (hle : l.length ≤ n) : ∀ j c, l[j]? = some c → f j = c := by
  intro j c hj
  have hlen := (List.getElem?_eq_some_iff.mp hj).1
  have heq := padded_at f (hlen.trans_le hle)
  rw [h, List.getElem?_append_left hlen, hj] at heq
  exact (Option.some.inj heq).symm

theorem padded_blank (h : (List.range n).map f = l ++ List.replicate (n - l.length) 0x20)
    (hlt : l.length < n) : f l.length = 0x20 := by
  have heq := padded_at f hlt
  rw [h, List.getElem?_append_right le_rfl, Nat.sub_self, List.getElem?_replicate,
    if_pos (Nat.sub_pos_of_lt hlt)] at heq
  exact (Option.some.inj heq).symm

end Padded

theorem FatDirectoryItem.Plain.fullRelativeFilename (h : item.Plain base ext)
    (hsame : item'.Same item) : fat16GetFullRelativeFilename item' = .ok item.shortName := by
  have hbaseShort := h.baseShort
  have hextShort : ext.length ≤ 3 := by
    rcases h.extShort with hlt | ⟨heq, -⟩
    · exact hlt.le
    · exact heq.le
  have hbase := padded_getElem h.baseBytes hbaseShort.le
  have hblank := padded_blank h.baseBytes hbaseShort
  have hext := padded_getElem h.extBytes hextShort
  -- the byte behind a full extension is the attribute
  have hextBlank : item.bytes (8 + ext.length) = 0x20 := by
    rcases h.extShort with hlt | ⟨heq, hattributes⟩
    · exact padded_blank h.extBytes hlt
    · rw [heq]
      exact hattributes
  have hname : fat16ToProperString item'.bytes dexterMaxPath 0 = .ok base := by
    apply fat16ToProperString_eq
    · intro j c hj
      have hlen := (List.getElem?_eq_some_iff.mp hj).1
      rw [Nat.zero_add, hsame j (by omega)]
      exact hbase j c hj
    · exact fun c hc => h.chars c (List.mem_append_left ext hc)
    · rw [Nat.zero_add, hsame _ (by omega)]
      exact hblank
    · exact Nat.lt_trans h.baseShort (by decide)
  rw [fat16GetFullRelativeFilename, hname, h.shortName_eq]
  dsimp only [bind, Except.bind]
  by_cases hnil : ext = []
  · subst hnil
    have hno : item'.bytes 8 = 0x20 := (hsame 8 (by decide)).trans hextBlank
    rw [if_neg fun hc => hc.2 hno, if_pos rfl]
    rfl
  · obtain ⟨c, rest, rfl⟩ := List.exists_cons_of_ne_nil hnil
    have hfirst : item'.bytes 8 = c := (hsame 8 (by decide)).trans (hext 0 c rfl)
    have hchar := h.chars c (List.mem_append_right base List.mem_cons_self)
    have hstring : fat16ToProperString item'.bytes (dexterMaxPath - base.length - 1) 8 =
        .ok (c :: rest) := by
      apply fat16ToProperString_eq
      · intro j x hj
        have hlen := (List.getElem?_eq_some_iff.mp hj).1
        rw [hsame (8 + j) (by omega)]
        exact hext j x hj
      · exact fun x hx => h.chars x (List.mem_append_right base hx)
      · rw [hsame _ (by omega)]
        exact hextBlank
      · rw [dexterMaxPath]
        omega
    have hroom : ¬base.length = dexterMaxPath := by
      rw [dexterMaxPath]
      omega
    rw [hfirst, if_pos hchar, if_neg hroom, hstring, if_neg hnil]
    rfl

theorem FatDirectoryItem.Plain.shortName_spec (h : item.Plain base ext) :
    item.shortName.length < dexterMaxPath ∧ ∀ c ∈ item.shortName, c ≠ 0 := by
  have hbaseShort := h.baseShort
  have hextShort := h.extShort
  rw [h.shortName_eq, dexterMaxPath]
  split_ifs with hnil
  · exact ⟨by omega, fun c hc => (h.chars c (List.mem_append_left ext hc)).1⟩
  · constructor
    · rw [List.length_append, List.length_cons]
      omega
    · intro c hc
      rcases List.mem_append.mp hc with hc | hc
      · exact (h.chars c (List.mem_append_left ext hc)).1
      · rcases List.mem_cons.mp hc with rfl | hc
        · decide
        · exact (h.chars c (List.mem_append_right base hc)).1

theorem lookupCondition_of_plain {entries : List FatDirectoryItem} {d : FatDirectory}
    {name : CString} (hd : LoadedDirectory entries d)
    (hplain : ∀ e ∈ entries, ∃ base ext, e.Plain base ext) (hname : ∀ c ∈ name, c ≠ 0) :
    LookupCondition entries d name := by
  have hall : entries.filter (fun e => decide ¬e.Deleted) = entries :=
    List.filter_eq_self.mpr fun e he => by
      obtain ⟨base, ext, h⟩ := hplain e he
      exact decide_eq_true h.ordinary.1
  have htotal : d.total.toNat = entries.length := by
    rw [hd.total, Int.toNat_natCast, hall]
  have hfile : ∀ m e, entries[m]? = some e →
      fat16GetFullRelativeFilename (d.item m) = .ok e.shortName := by
    intro m e hm
    obtain ⟨base, ext, h⟩ := hplain e (List.mem_of_getElem? hm)
    exact h.fullRelativeFilename (hd.items m e hm (htotal ▸ (List.getElem?_eq_some_iff.mp hm).1))
  have hreads : ∀ m e, entries[m]? = some e → (ReadsAs d m name ↔ e.Named name) := by
    intro m e hm
    obtain ⟨base, ext, h⟩ := hplain e (List.mem_of_getElem? hm)
    have hspec := h.shortName_spec
    have hcmp := istrncmp_pathBuffer hspec.1 hspec.2 hname
    constructor
    · intro ⟨filename, hfilename, hzero⟩
      rw [hfile m e hm] at hfilename
      exact ⟨h.ordinary, hcmp.mp (Except.ok.inj hfilename ▸ hzero)⟩
    · exact fun hnamed => ⟨_, hfile m e hm, hcmp.mpr hnamed.2⟩
  constructor
  · intro i hi
    rw [htotal] at hi
    exact ⟨_, hfile i _ (List.getElem?_eq_getElem hi)⟩
  · exact fun m e _ hread _ hm => (hreads m e hm).mp hread
  · intro hnone e he hnamed
    obtain ⟨m, hm⟩ := List.mem_iff_getElem?.mp he
    have hlen := (List.getElem?_eq_some_iff.mp hm).1
    exact hnone m (htotal ▸ hlen) ((hreads m e hm).mpr hnamed)

end Plain

theorem sample_loaded {fatPrivate : FatPrivate} {k k' : KernelHeap}
    (h : fat16Resolve (sampleDisk none) k = .ok ((0, some fatPrivate), k')) :
    LoadedDirectory [sampleItem] fatPrivate.rootDirectory.toFatDirectory := by
  have hheader : (sampleDisk none).image.header = ⟨1, 1, 1, 16, 1, 0x29⟩ := by decide +kernel
  apply resolved_directory_loaded h
  · rw [hheader]
    refine ⟨fun i e hi => ?_, ?_, by decide +kernel⟩
    · have hlen := (List.getElem?_eq_some_iff.mp hi).1
      obtain rfl : i = 0 := Nat.lt_one_iff.mp hlen
      obtain rfl := Option.some.inj hi
      decide +kernel
    · intro e he
      obtain rfl := List.mem_singleton.mp he
      decide +kernel
  · rw [hheader]
    decide
  · rw [hheader]
    decide

theorem sampleItem_plain : sampleItem.Plain [0x41] [] := by
  refine ⟨by decide +kernel, by decide +kernel, by decide +kernel, by decide, by decide, by simp⟩

theorem sample_served {dir s₁ s₂ s₃ : ℕ} {k : KernelHeap} (hk : Room 6 k) (name : CString) :
    Served (sampleDisk (some (samplePrivate dir s₁ s₂ s₃)))
      (samplePrivate dir s₁ s₂ s₃).rootDirectory.toFatDirectory name k := by
  intro m k₀ hlast hbefore
  obtain rfl : m = 0 := Nat.lt_one_iff.mp hlast.bound
  obtain rfl : k = k₀ := Option.some.inj hbefore
  have hitem : (k.malloc 8).1 ≠ 0 ∧ Room 7 (k.malloc 8).2 :=
    hk.malloc (by decide) (by decide) (by decide)
  have hordinary : ((samplePrivate dir s₁ s₂ s₃).rootDirectory.item 0).attributes &&&
      fatFileSubdirectory = 0 := (sample_oneFile dir s₁ s₂ s₃).ordinary
  refine ⟨hitem.1, fun k₁ hcopy => ?_⟩
  rw [beforeCopy, if_neg (not_not.mpr hordinary)] at hcopy
  obtain rfl : (k.malloc 8).2 = k₁ := Option.some.inj hcopy
  exact (hitem.2.malloc (by decide) (by decide) (by decide)).1

theorem sample_loadsReturn (dir s₁ s₂ s₃ : ℕ) (k : KernelHeap) (name : CString) :
    LoadsReturn (sampleDisk (some (samplePrivate dir s₁ s₂ s₃)))
      (samplePrivate dir s₁ s₂ s₃).rootDirectory.toFatDirectory name 1 k := by
  apply loadsReturn_of_files
  intro m hm _
  obtain rfl : m = 0 := Nat.lt_one_iff.mp hm
  exact (sample_oneFile dir s₁ s₂ s₃).ordinary

theorem find_item_right_sample : ∃ fatPrivate k,
    fat16Resolve (sampleDisk none) kheapInit = .ok ((0, some fatPrivate), k) ∧
    FindsRight (sampleDisk (some fatPrivate)) [sampleItem] fatPrivate.rootDirectory.toFatDirectory
      [0x61] k := by
  obtain ⟨r, k, hresolve, ⟨dir, s₁, s₂, s₃, rfl, -⟩, hk⟩ :=
    fat16Resolve_sample (by decide) (show Room 0 kheapInit from ⟨kheapInit_unused, rfl⟩)
  have hloaded := sample_loaded hresolve
  have hcond := lookupCondition_of_plain hloaded
    (fun e he => ⟨_, _, List.mem_singleton.mp he ▸ sampleItem_plain⟩)
    (show ∀ c ∈ [0x61], c ≠ 0 by simp)
  refine ⟨_, k, hresolve, (find_item_right_iff hloaded (sample_served hk _)).mpr ⟨hcond, ?_⟩⟩
  exact sample_loadsReturn dir s₁ s₂ s₃ k _

def deletedImage : DiskImage where
  sector lba i :=
    if lba ≠ 2 then sampleImage.sector lba i
    else if i < 32 then if i = 0 then 0xE5 else if i < 12 then 0x20 else 0
    else sampleImage.sector 2 (i - 32)
  stack := sampleImage.stack

def deletedDisk (fsPrivate : Option FatPrivate) : Disk :=
  { sampleDisk fsPrivate with image := deletedImage }

def deletedEntry (i : ℕ) : FatDirectoryItem := ⟨fun j => deletedImage.byteAt (1024 + 32 * i + j)⟩

theorem deleted_listing : Listing deletedImage 1024 [deletedEntry 0, deletedEntry 1] := by
  refine ⟨fun i e hi j hj => ?_, ?_, by decide +kernel⟩
  · match i with
    | 0 =>
      obtain rfl := Option.some.inj hi
      rfl
    | 1 =>
      obtain rfl := Option.some.inj hi
      rfl
    | i + 2 => cases hi
  · intro e he
    rcases List.mem_cons.mp he with rfl | he
    · decide +kernel
    · obtain rfl := List.mem_singleton.mp he
      decide +kernel

/-- The one item that is counted is the second one, and only the first is looked at. -/
theorem deleted_entry_hides : ∃ fatPrivate k deleted file,
    fat16Resolve (deletedDisk none) kheapInit = .ok ((0, some fatPrivate), k) ∧
    Listing deletedImage 1024 [deleted, file] ∧ file.Named [0x41] ∧
    LoadedDirectory [deleted, file] fatPrivate.rootDirectory.toFatDirectory ∧
    fat16FindItemInDirectory (deletedDisk (some fatPrivate))
      fatPrivate.rootDirectory.toFatDirectory [0x41] k = .ok (none, k) := by
  have hheader : (deletedDisk none).image.header = ⟨1, 1, 1, 16, 1, 0x29⟩ := by decide +kernel
  have htotal : fat16GetTotalItemsForDirectory (deletedDisk none) 2 = .ok 1 := by decide +kernel
  obtain ⟨r, k, hresolve, ⟨dir, s₁, s₂, s₃, rfl, -⟩, -⟩ :=
    @fat16Resolve_room 0 (deletedDisk none) 1 (by decide) (by rw [hheader])
      (by rw [hheader]; decide) (by rw [hheader]; exact htotal) kheapInit ⟨kheapInit_unused, rfl⟩
  have hloaded : LoadedDirectory [deletedEntry 0, deletedEntry 1]
      (resolvedPrivate (deletedDisk none) 1 dir s₁ s₂ s₃).rootDirectory.toFatDirectory := by
    apply resolved_directory_loaded hresolve
    · rw [hheader]
      exact deleted_listing
    · rw [hheader]
      decide
    · rw [hheader]
      decide
  have hname : fat16GetFullRelativeFilename ((resolvedPrivate (deletedDisk none) 1 0 0 0
      0).rootDirectory.toFatDirectory.item 0) = .ok [0xE5] := by decide +kernel
  have hread : (ofExcept (fat16GetFullRelativeFilename ((resolvedPrivate (deletedDisk none) 1 dir s₁
      s₂ s₃).rootDirectory.toFatDirectory.item 0)) : Prog Crash KernelHeap _) k =
      .ok ([0xE5], k) := by
    have hsame : (resolvedPrivate (deletedDisk none) 1 dir s₁ s₂
        s₃).rootDirectory.toFatDirectory.item 0 = (resolvedPrivate (deletedDisk none) 1 0 0 0
          0).rootDirectory.toFatDirectory.item 0 := rfl
    rw [hsame, hname]
    rfl
  refine ⟨_, k, deletedEntry 0, deletedEntry 1, hresolve, deleted_listing, by decide +kernel, hloaded, ?_⟩
  have hcmp : ¬istrncmp (pathBuffer [0xE5]) (pathBuffer [0x41]) = 0 := by decide
  have hone : (resolvedPrivate (deletedDisk none) 1 dir s₁ s₂
      s₃).rootDirectory.toFatDirectory.total.toNat = 1 := rfl
  rw [fat16FindItemInDirectory, hone, countUp, countUp, bind_of_ok (pure_apply _ _),
    bind_of_ok hread, if_neg hcmp]
  rfl

end Dexter
