import Dexter.Fs.Directory
import Dexter.Fs.FileRead

/-!
# Following a path through the directories

On the disk a path leads from the root through subdirectories, each of which lists
its entries in its chain of clusters. `fat16_get_directory_entry` never gets behind the
first part: every item it builds is a file, since `fat16_new_fat_item_for_directory_item`
overwrites the type and the loaded directory of a subdirectory.
-/

namespace Dexter
open Lib.Programs Lib.Faults KernelHeap

structure ListedIn (bytes : List UInt8) (entries : List FatDirectoryItem) : Prop where
  items : ∀ i e, entries[i]? = some e → ∀ k < 32, bytes[32 * i + k]? = some (e.bytes k)
  present : ∀ e ∈ entries, e.bytes 0 ≠ 0
  terminator : bytes[32 * entries.length]? = some 0

def Subdirectory (d : DiskImage) (item : FatDirectoryItem) (entries : List FatDirectoryItem) : Prop :=
  item.attributes &&& fatFileSubdirectory ≠ 0 ∧
    ∃ chain, d.Chain item.low16BitsFirstCluster chain ∧ ListedIn (d.fileBytes chain) entries

inductive Reaches (d : DiskImage) : List FatDirectoryItem → List CString → FatDirectoryItem → Prop
  | last {entries : List FatDirectoryItem} {part : CString} {item : FatDirectoryItem}
      (listed : item ∈ entries) (named : item.Named part) : Reaches d entries [part] item
  | step {entries sub : List FatDirectoryItem} {part : CString} {path : List CString}
      {item target : FatDirectoryItem} (listed : item ∈ entries) (named : item.Named part)
      (directory : Subdirectory d item sub) (rest : Reaches d sub path target) :
      Reaches d entries (part :: path) target

/-- The built item is a copy of a file's entry, or carries a subdirectory that has been loaded. -/
def Represents (d : DiskImage) (item : FatItem) (target : FatDirectoryItem) : Prop :=
  match item.body with
  | .file copy raw => copy ≠ 0 ∧ raw.Same target ∧ target.attributes &&& fatFileSubdirectory = 0
  | .directory none => False
  | .directory (some directory) =>
    ∃ sub, Subdirectory d target sub ∧ LoadedDirectory sub directory

def ResolvesRight (disk : Disk) (entries : List FatDirectoryItem) (path : List PathPart)
    (k : KernelHeap) : Prop :=
  ∃ r k', fat16GetDirectoryEntry disk path k = .ok (r, k') ∧
    match r with
    | none => ∀ target, ¬Reaches disk.image entries (path.map PathPart.part) target
    | some item => ∃ target, Reaches disk.image entries (path.map PathPart.part) target ∧
        Represents disk.image item target

/-- A path of one part is looked up rightly, and does not name a subdirectory. A longer one leads
nowhere. -/
def WalkCondition (disk : Disk) (entries : List FatDirectoryItem) (root : FatDirectory)
    (path : List CString) (k : KernelHeap) : Prop :=
  match path with
  | [] => False
  | [part] => (LookupCondition entries root part ∧
      LoadsReturn disk root part root.total.toNat k) ∧
        ∀ m e, LastRead root part root.total.toNat m → entries[m]? = some e →
          e.attributes &&& fatFileSubdirectory = 0
  | part :: path => (NamesFit root root.total.toNat ∧
      LoadsReturn disk root part root.total.toNat k) ∧
        ∀ target, ¬Reaches disk.image entries (part :: path) target

section Walk
variable {disk : Disk} {entries : List FatDirectoryItem} {fatPrivate : FatPrivate}
  {first : PathPart} {rest : List PathPart} {k k' : KernelHeap}

theorem reaches_singleton {d : DiskImage} {part : CString} {target : FatDirectoryItem} :
    Reaches d entries [part] target ↔ target ∈ entries ∧ target.Named part := by
  constructor
  · intro h
    cases h with
    | last listed named => exact ⟨listed, named⟩
    | step listed named directory rest => cases rest
  · exact fun h => .last h.1 h.2

theorem resolvesRight_one (hp : disk.fsPrivate = some fatPrivate)
    (hd : LoadedDirectory entries fatPrivate.rootDirectory.toFatDirectory)
    (hserved : Served disk fatPrivate.rootDirectory.toFatDirectory first.part k) :
    ResolvesRight disk entries [first] k ↔
      FindsRight disk entries fatPrivate.rootDirectory.toFatDirectory first.part k ∧
        ∀ m e, LastRead fatPrivate.rootDirectory.toFatDirectory first.part
          fatPrivate.rootDirectory.total.toNat m → entries[m]? = some e →
            e.attributes &&& fatFileSubdirectory = 0 := by
  constructor
  · intro ⟨r, k', hrun, hright⟩
    obtain ⟨r, hfind, rfl⟩ := (getDirectoryEntry_ok hp).mp hrun
    cases (findItem_spec hfind).2 with
    | nothing unread =>
      refine ⟨⟨none, _, hfind, fun e he hnamed => hright e (.last he hnamed)⟩, fun m e last => ?_⟩
      exact absurd last.reads (unread m last.bound)
    | refused m k₀ last before refused => exact absurd refused (hserved m k₀ last before).1
    | item m k₀ k₁ last before built loaded =>
      obtain ⟨target, hreaches, hcopy, hsame, hfile⟩ := hright
      obtain ⟨he, hnamed⟩ := reaches_singleton.mp hreaches
      refine ⟨⟨_, _, hfind, _, _, rfl, hcopy, target, he, hnamed, hsame⟩, fun m' e last' hat => ?_⟩
      obtain rfl := last'.unique last
      have hattributes : e.attributes = target.attributes :=
        ((hd.items m' e hat last.bound) 11 (by decide)).symm.trans (hsame 11 (by decide))
      rw [hattributes]
      exact hfile
  · intro ⟨⟨r, k', hfind, hright⟩, hfile⟩
    refine ⟨r, k', (getDirectoryEntry_ok hp).mpr ⟨r, hfind, (if_pos rfl).symm⟩, ?_⟩
    cases (findItem_spec hfind).2 with
    | nothing unread =>
      intro target hreaches
      obtain ⟨he, hnamed⟩ := reaches_singleton.mp hreaches
      exact hright target he hnamed
    | refused m k₀ last before refused => exact absurd refused (hserved m k₀ last before).1
    | item m k₀ k₁ last before built loaded =>
      obtain ⟨copy, raw, hbody, hcopy, target, he, hnamed, hsame⟩ := hright
      obtain ⟨rfl, rfl⟩ := FatItemBody.file.inj hbody
      refine ⟨target, .last he hnamed, hcopy, hsame, ?_⟩
      obtain ⟨e, hat, -, hsame'⟩ := hd.entry last.bound
      have hattributes : target.attributes = e.attributes :=
        (hsame 11 (by decide)).symm.trans (hsame' 11 (by decide))
      rw [hattributes]
      exact hfile m e last hat

theorem resolvesRight_longer (hp : disk.fsPrivate = some fatPrivate) (hrest : rest ≠ []) :
    ResolvesRight disk entries (first :: rest) k ↔
      (NamesFit fatPrivate.rootDirectory.toFatDirectory fatPrivate.rootDirectory.total.toNat ∧
        LoadsReturn disk fatPrivate.rootDirectory.toFatDirectory first.part
          fatPrivate.rootDirectory.total.toNat k) ∧
      ∀ target, ¬Reaches disk.image entries ((first :: rest).map PathPart.part) target := by
  constructor
  · intro ⟨r, k', hrun, hright⟩
    obtain ⟨r, hfind, rfl⟩ := (getDirectoryEntry_ok hp).mp hrun
    rw [if_neg hrest] at hright
    have hafter := (findItem_spec hfind).1
    exact ⟨⟨afterEntries_fit hafter, afterEntries_loads hafter⟩, hright⟩
  · intro ⟨⟨hfit, hloads⟩, hnone⟩
    obtain ⟨k', hafter⟩ := afterEntries_returns hfit hloads
    obtain ⟨r, hfind⟩ := findItem_returns hafter
    exact ⟨none, k', (getDirectoryEntry_ok hp).mpr ⟨r, hfind, (if_neg hrest).symm⟩, hnone⟩

/-- The walk is right exactly under the condition. -/
theorem get_directory_entry_right_iff (hp : disk.fsPrivate = some fatPrivate)
    (hd : LoadedDirectory entries fatPrivate.rootDirectory.toFatDirectory)
    (hserved : Served disk fatPrivate.rootDirectory.toFatDirectory first.part k) :
    ResolvesRight disk entries (first :: rest) k ↔
      WalkCondition disk entries fatPrivate.rootDirectory.toFatDirectory
        ((first :: rest).map PathPart.part) k := by
  cases rest with
  | cons next rest => exact resolvesRight_longer hp (List.cons_ne_nil next rest)
  | nil => exact (resolvesRight_one hp hd hserved).trans (and_congr_left' (find_item_right_iff hd hserved))

end Walk

theorem sampleItem_reaches_file {part : CString} {path : List CString} {target : FatDirectoryItem}
    (hpath : path ≠ []) : ¬Reaches sampleImage [sampleItem] (part :: path) target := by
  intro h
  cases h with
  | last listed named => exact hpath rfl
  | step listed named directory rest =>
    rw [List.mem_singleton.mp listed] at directory
    exact directory.1 (sample_oneFile 0 0 0 0).ordinary

theorem get_directory_entry_right_sample : ∃ fatPrivate k,
    fat16Resolve (sampleDisk none) kheapInit = .ok ((0, some fatPrivate), k) ∧
    ResolvesRight (sampleDisk (some fatPrivate)) [sampleItem] [⟨0, 0, [0x61]⟩] k ∧
    ResolvesRight (sampleDisk (some fatPrivate)) [sampleItem] [⟨0, 0, [0x61]⟩, ⟨0, 0, [0x62]⟩] k := by
  obtain ⟨r, k, hresolve, ⟨dir, s₁, s₂, s₃, rfl, -⟩, hk⟩ :=
    fat16Resolve_sample (by decide) (show Room 0 kheapInit from ⟨kheapInit_unused, rfl⟩)
  have hloaded := sample_loaded hresolve
  have hcond := lookupCondition_of_plain hloaded
    (fun e he => ⟨_, _, List.mem_singleton.mp he ▸ sampleItem_plain⟩)
    (show ∀ c ∈ [0x61], c ≠ 0 by simp)
  have hloads := sample_loadsReturn dir s₁ s₂ s₃ k [0x61]
  refine ⟨_, k, hresolve, ?_, ?_⟩
  · refine (get_directory_entry_right_iff rfl hloaded (sample_served hk _)).mpr
      ⟨⟨hcond, hloads⟩, fun m e _ hat => ?_⟩
    obtain rfl := List.mem_singleton.mp (List.mem_of_getElem? hat)
    exact (sample_oneFile dir s₁ s₂ s₃).ordinary
  · exact (get_directory_entry_right_iff rfl hloaded (sample_served hk _)).mpr
      ⟨⟨hcond.fit, hloads⟩, fun target => sampleItem_reaches_file (by decide)⟩

def nestedImage : DiskImage where
  sector lba i :=
    if lba = 1 then if 4 ≤ i ∧ i < 8 then 0xff else 0
    else if lba = 2 then
      match i with
      | 11 => 0x10
      | 28 | 29 => 0
      | _ => sampleImage.sector 2 i
    else if lba = 3 then
      match i with
      | 0 => 0x42
      | 11 => 0x20
      | 26 => 3
      | 28 => 5
      | _ => if i < 11 then 0x20 else 0
    else sampleImage.sector lba i
  stack := sampleImage.stack

def nestedDisk (fsPrivate : Option FatPrivate) : Disk :=
  { sampleDisk fsPrivate with image := nestedImage }

def nestedDirectory : FatDirectoryItem := ⟨fun j => nestedImage.byteAt (1024 + j)⟩

def nestedFile : FatDirectoryItem := ⟨fun j => nestedImage.byteAt (1536 + j)⟩

theorem nested_reaches : Reaches nestedImage [nestedDirectory] [[0x41], [0x42]] nestedFile := by
  have hlow : nestedDirectory.low16BitsFirstCluster = 2 := by decide +kernel
  have hlisted : ListedIn (nestedImage.fileBytes [2]) [nestedFile] := by
    refine ⟨fun i e hi => ?_, ?_, by decide +kernel⟩
    · obtain rfl : i = 0 := Nat.lt_one_iff.mp (List.getElem?_eq_some_iff.mp hi).1
      obtain rfl := Option.some.inj hi
      decide +kernel
    · intro e he
      obtain rfl := List.mem_singleton.mp he
      decide +kernel
  refine .step List.mem_cons_self (by decide +kernel) ⟨by decide +kernel, [2], ?_, hlisted⟩
    (.last List.mem_cons_self (by decide +kernel))
  rw [hlow]
  exact .last 2 (by decide) (by decide +kernel)

section Room
variable {m : ℕ} {disk : Disk} {fatPrivate : FatPrivate} {item : FatDirectoryItem} {total : ℤ}
  {bytes : List UInt8}

theorem fat16LoadFatDirectory_reads {r : ℤ} (hm : m + 2 ≤ 25600)
    (hp : disk.fsPrivate = some fatPrivate) (hsub : item.attributes &&& fatFileSubdirectory ≠ 0)
    (htotal : fat16GetTotalItemsForDirectory disk (u32 (fat16ClusterToSector fatPrivate
      (fat16GetFirstCluster item))) = .ok total)
    (hsize : 1 ≤ u32 (i32 (total * 32)) ∧ u32 (i32 (total * 32)) ≤ 4096)
    (hread : fat16ReadInternal disk (fat16GetFirstCluster item) 0 (i32 (total * 32)) =
      .ok (r, bytes)) {Q : Option FatDirectory → KernelHeap → Prop}
    (hend : ∀ directory items, let d : FatDirectory :=
        ⟨directory, items, disk.loaded bytes, total⟩
      Returns (Room (m + 2)) (onlyIf (r ≠ 0) (fat16FreeDirectory (some d))) fun _ => Q (some d)) :
    Returns (Room m) (fat16LoadFatDirectory disk item) Q := by
  have hroom : ∀ i ≤ 2, m + i ≤ 25600 := fun i hi => (Nat.add_le_add_left hi m).trans hm
  have hdata := privateData_of_some hp
  unfold fat16LoadFatDirectory
  refine Returns.ite_neg hsub ?_
  refine Returns.bind (kzalloc_page (by decide) (by decide) (hroom 1 (by decide))) fun directory =>
    Returns.fact fun hdir => Returns.ite_neg hdir ?_
  refine Returns.bind_ofExcept hdata ?_
  refine Returns.bind_ofExcept htotal ?_
  refine Returns.bind (kzalloc_page hsize.1 hsize.2 (hroom 2 (by decide))) fun items =>
    Returns.fact fun hitems => Returns.ite_neg hitems ?_
  refine Returns.bind_ofExcept hread ?_
  exact Returns.bind (hend directory items) fun _ => Returns.pure fun _ hk => hk

end Room

theorem nestedDirectory_plain : nestedDirectory.Plain [0x41] [] := by
  refine ⟨by decide +kernel, by decide +kernel, by decide +kernel, by decide, by decide, by simp⟩

theorem nested_resolved : ∃ fatPrivate k,
    fat16Resolve (nestedDisk none) kheapInit = .ok ((0, some fatPrivate), k) ∧
    Mounted nestedImage fatPrivate ∧
    LoadedDirectory [nestedDirectory] fatPrivate.rootDirectory.toFatDirectory ∧ Room 6 k := by
  have hheader : (nestedDisk none).image.header = ⟨1, 1, 1, 16, 1, 0x29⟩ := by decide +kernel
  have htotal : fat16GetTotalItemsForDirectory (nestedDisk none) 2 = .ok 1 := by decide +kernel
  obtain ⟨r, k, hresolve, ⟨dir, s₁, s₂, s₃, rfl, -⟩, hk⟩ :=
    @fat16Resolve_room 0 (nestedDisk none) 1 (by decide) (by rw [hheader])
      (by rw [hheader]; decide) (by rw [hheader]; exact htotal) kheapInit ⟨kheapInit_unused, rfl⟩
  refine ⟨_, k, hresolve, mounted_of_resolve hresolve, ?_, hk⟩
  apply resolved_directory_loaded hresolve
  · rw [hheader]
    refine ⟨fun i e hi => ?_, ?_, by decide +kernel⟩
    · obtain rfl : i = 0 := Nat.lt_one_iff.mp (List.getElem?_eq_some_iff.mp hi).1
      obtain rfl := Option.some.inj hi
      decide +kernel
    · intro e he
      obtain rfl := List.mem_singleton.mp he
      decide +kernel
  · rw [hheader]
    decide
  · rw [hheader]
    decide

section Nested
variable {d : FatDirectory} {fatPrivate : FatPrivate} {disk : Disk} {item : FatDirectoryItem}
  {σ : Type} [Requests σ]

theorem nested_total (h : LoadedDirectory [nestedDirectory] d) : d.total.toNat = 1 := by
  rw [h.total]
  decide +kernel

theorem nested_same (h : LoadedDirectory [nestedDirectory] d) : (d.item 0).Same nestedDirectory :=
  h.items 0 _ rfl (nested_total h ▸ Nat.zero_lt_one)

theorem nested_name (h : LoadedDirectory [nestedDirectory] d) :
    fat16GetFullRelativeFilename (d.item 0) = .ok nestedDirectory.shortName :=
  nestedDirectory_plain.fullRelativeFilename (nested_same h)

theorem nested_fit (h : LoadedDirectory [nestedDirectory] d) : NamesFit d d.total.toNat := by
  intro i hi
  obtain rfl : i = 0 := Nat.lt_one_iff.mp (nested_total h ▸ hi)
  exact ⟨_, nested_name h⟩

theorem nested_readsAs (h : LoadedDirectory [nestedDirectory] d) : ReadsAs d 0 [0x41] := by
  have hplain := nestedDirectory_plain
  have hspec := hplain.shortName_spec
  refine (readsAs_iff (nested_name h)).mpr ((istrncmp_pathBuffer hspec.1 hspec.2 (by simp)).mpr ?_)
  rw [hplain.shortName_eq]
  rfl

theorem nested_subdirectory (h : LoadedDirectory [nestedDirectory] d) :
    (d.item 0).attributes &&& fatFileSubdirectory ≠ 0 := by
  rw [FatDirectoryItem.attributes, nested_same h 11 (by decide)]
  decide +kernel

theorem nested_cluster (h : LoadedDirectory [nestedDirectory] d) :
    fat16GetFirstCluster (d.item 0) = 2 := by
  rw [fat16GetFirstCluster, FatDirectoryItem.high16BitsFirstCluster,
    FatDirectoryItem.low16BitsFirstCluster, le16, le16, nested_same h 20 (by decide),
    nested_same h (20 + 1) (by decide), nested_same h 26 (by decide),
    nested_same h (26 + 1) (by decide)]
  decide +kernel

theorem afterItem_returns {total : ℤ} {r : ℤ × List UInt8} (hp : disk.fsPrivate = some fatPrivate)
    (htotal : fat16GetTotalItemsForDirectory disk (u32 (fat16ClusterToSector fatPrivate
      (fat16GetFirstCluster item))) = .ok total)
    (hread : fat16ReadInternal disk (fat16GetFirstCluster item) 0 (i32 (total * 32)) = .ok r)
    (s : σ) : afterItem disk item s ≠ none := by
  have hload : ∀ s : σ, ∃ s', afterLoad disk item s = some s' := by
    intro s
    unfold afterLoad
    dsimp only
    have hdata := privateData_of_some hp
    by_cases hd : (Requests.ask 16 s).1 = 0
    · exact ⟨_, if_pos hd⟩
    rw [if_neg hd]
    by_cases hi : (Requests.ask (u32 (i32 (total * 32))) (Requests.ask 16 s).2).1 = 0
    · exact ⟨_, toOption_bind hdata (toOption_bind htotal (if_pos hi))⟩
    · exact ⟨_, toOption_bind hdata (toOption_bind htotal
        ((if_neg hi).trans (toOption_bind hread rfl)))⟩
  obtain ⟨s', hs'⟩ := hload (Requests.ask 8 s).2
  rw [afterItem, beforeCopy, hs']
  split_ifs
  · exact Option.some_ne_none _
  · exact Option.some_ne_none _
  · exact Option.some_ne_none _

theorem nested_loadsReturn {name : CString} {k : KernelHeap} (hm : Mounted nestedImage fatPrivate)
    (h : LoadedDirectory [nestedDirectory] fatPrivate.rootDirectory.toFatDirectory) :
    LoadsReturn (nestedDisk (some fatPrivate)) fatPrivate.rootDirectory.toFatDirectory name
      fatPrivate.rootDirectory.total.toNat k := by
  intro m hlt k₀ _ _
  obtain rfl : m = 0 := Nat.lt_one_iff.mp (nested_total h ▸ hlt)
  have hheader : nestedImage.header = ⟨1, 1, 1, 16, 1, 0x29⟩ := by decide +kernel
  have hsector : u32 (fat16ClusterToSector fatPrivate (2 : ℕ)) = 3 := by
    have hending : fatPrivate.rootDirectory.endingSectorPos = 3 := by
      rw [hm.ending, hheader]
      decide
    rw [fat16ClusterToSector, hending, hm.header, hheader]
    decide
  have hcount : fat16GetTotalItemsForDirectory (nestedDisk (some fatPrivate)) 3 = .ok 1 := by
    have hitems : fat16CountItems nestedImage 134217728 (i32 ((3 : ℕ) * (dexterSectorSize : ℕ))) 0 =
      .ok 1 := by decide +kernel
    rw [fat16GetTotalItemsForDirectory]
    exact hitems
  have hroot : nestedImage.header.rootDirEntries % 16 = 0 := by decide +kernel
  have hinside : 0 < nestedImage.clusterSize := by decide +kernel
  have hshort : 32 ≤ nestedImage.clusterSize := by decide +kernel
  have haddress : nestedImage.clusterAddress 2 + 0 + 32 ≤ 2147483648 := by decide +kernel
  have hread := @fat16ReadInternal_eq (nestedDisk (some fatPrivate)) fatPrivate 2 0 32 rfl
    hm hroot (by decide) hinside (by decide) hshort (Or.inl rfl) haddress
  have hitem := @afterItem_returns fatPrivate (nestedDisk (some fatPrivate))
    (fatPrivate.rootDirectory.item 0) KernelHeap _ 1
  rw [nested_cluster h, hsector] at hitem
  exact hitem rfl hcount hread k₀

end Nested

/-- The path `A/B` of this volume leads to the file `B`, and the code comes back with nothing. -/
theorem nested_part_lost : ∃ fatPrivate k k',
    fat16Resolve (nestedDisk none) kheapInit = .ok ((0, some fatPrivate), k) ∧
    LoadedDirectory [nestedDirectory] fatPrivate.rootDirectory.toFatDirectory ∧
    Reaches nestedImage [nestedDirectory] [[0x41], [0x42]] nestedFile ∧
    fat16GetDirectoryEntry (nestedDisk (some fatPrivate)) [⟨0, 0, [0x41]⟩, ⟨0, 0, [0x42]⟩] k =
      .ok (none, k') := by
  obtain ⟨fatPrivate, k, hresolve, hmounted, hloaded, -⟩ := nested_resolved
  obtain ⟨k', hafter⟩ := @afterEntries_returns (nestedDisk (some fatPrivate)) _ [0x41] k _
    (nested_fit hloaded) (nested_loadsReturn hmounted hloaded)
  obtain ⟨r, hfind⟩ := findItem_returns hafter
  refine ⟨fatPrivate, k, k', hresolve, hloaded, nested_reaches, ?_⟩
  exact (getDirectoryEntry_ok rfl).mpr ⟨r, hfind, rfl⟩

end Dexter
