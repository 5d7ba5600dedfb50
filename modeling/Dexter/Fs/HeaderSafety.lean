import Dexter.Fs.FileRead

/-!
# Divisions by a header field

The one divisor that comes off the disk is the size of a cluster, which is 0 where
the header says that a cluster has no sectors; `fat16_resolve` does not look at it.
On such a volume every read through a descriptor divides by zero, and on any other
no call does, whatever the other fields hold.
-/

namespace Dexter
open Lib.Programs Lib.Faults KernelHeap FileState

theorem kfree_avoids {σ : Type} [Requests σ] (e : Crash) (ptr : ℕ) :
    Avoids e (kfree ptr : Prog Crash σ Unit) := Avoids.of_ok fun k => ⟨_, modify_apply _ k⟩

theorem onHeap_avoids {σ α : Type} {e : Crash} {prog : Prog Crash σ α} (h : Avoids e prog) :
    Avoids e (onHeap prog) := Avoids.zoom h

theorem ofExcept_avoids {σ α : Type} {e : Crash} {x : Except Crash α} (h : x ≠ .error e) :
    Avoids e (ofExcept x : Prog Crash σ α) := by
  intro s hs
  cases x with
  | error e' => exact h (congrArg _ (Except.error.inj hs))
  | ok a => cases hs

theorem get_avoids {σ : Type} (e : Crash) : Avoids e (get : Prog Crash σ σ) :=
  Avoids.of_ok fun s => ⟨_, get_apply s⟩

section Read
variable {disk : Disk} {fatPrivate : FatPrivate}

theorem fat16CountItems_avoids {e : Crash} (he : .hang ≠ e) (d : DiskImage) (fuel : ℕ)
    (pos i : ℤ) : fat16CountItems d fuel pos i ≠ .error e := by
  induction fuel generalizing pos i with
  | zero => exact fun h => he (Except.error.inj h)
  | succ fuel ih =>
    unfold fat16CountItems
    dsimp only
    split_ifs
    · exact fun h => by cases h
    · exact ih _ _
    · exact ih _ _

theorem totalItems_avoids {e : Crash} (he : .hang ≠ e) (disk : Disk) (directoryStartSector : ℕ) :
    fat16GetTotalItemsForDirectory disk directoryStartSector ≠ .error e := by
  rw [fat16GetTotalItemsForDirectory]
  exact fat16CountItems_avoids he _ _ _ _

theorem privateData_avoids (disk : Disk) : disk.privateData ≠ .error .divideByZero := by
  unfold Disk.privateData
  split
  · exact fun h => absurd (Except.error.inj h) (by decide)
  · exact fun h => by cases h

theorem readInternalFromStream_divides (h0 : fat16SizeOfClusterBytes fatPrivate = 0) (k : ℕ)
    (cluster offset total : ℤ) :
    fat16ReadInternalFromStream disk fatPrivate k cluster offset total = .error .divideByZero := by
  have hcluster : fat16GetClusterForOffset disk fatPrivate cluster offset =
      .error .divideByZero := by
    rw [fat16GetClusterForOffset]
    exact if_pos h0
  rw [fat16ReadInternalFromStream.eq_def]
  dsimp only
  rw [hcluster]
  rfl

theorem readInternalFromStream_returns (h0 : fat16SizeOfClusterBytes fatPrivate ≠ 0) (k : ℕ)
    (cluster offset total : ℤ) :
    ∃ r, fat16ReadInternalFromStream disk fatPrivate k cluster offset total = .ok r := by
  induction k generalizing offset total with
  | zero =>
    have hcluster : fat16GetClusterForOffset disk fatPrivate cluster offset = .ok _ :=
      if_neg h0
    rw [fat16ReadInternalFromStream, hcluster]
    dsimp only [bind, Except.bind]
    split_ifs <;> exact ⟨_, rfl⟩
  | succ k ih =>
    have hcluster : fat16GetClusterForOffset disk fatPrivate cluster offset = .ok _ :=
      if_neg h0
    rw [fat16ReadInternalFromStream, hcluster]
    dsimp only [bind, Except.bind]
    split_ifs
    · exact ⟨_, rfl⟩
    · obtain ⟨r, hr⟩ := ih (i32 (offset + _)) (total - _)
      rw [hr]
      exact ⟨_, rfl⟩
    · obtain ⟨r, hr⟩ := ih (i32 (offset + _)) (total - _)
      rw [hr]
      exact ⟨_, rfl⟩

theorem fat16ReadInternal_divides (hp : disk.fsPrivate = some fatPrivate)
    (startingCluster offset total : ℤ) :
    fat16ReadInternal disk startingCluster offset total = .error .divideByZero ↔
      fat16SizeOfClusterBytes fatPrivate = 0 := by
  have hdata := privateData_of_some hp
  rw [fat16ReadInternal, hdata]
  dsimp only [bind, Except.bind]
  by_cases h0 : fat16SizeOfClusterBytes fatPrivate = 0
  · exact ⟨fun _ => h0, fun _ => readInternalFromStream_divides h0 _ _ _ _⟩
  · refine ⟨fun h => ?_, fun h => absurd h h0⟩
    obtain ⟨r, hr⟩ := @readInternalFromStream_returns disk _ h0
      ((total - 1) / fat16SizeOfClusterBytes fatPrivate).toNat startingCluster offset total
    rw [hr] at h
    cases h

theorem fat16ReadLoop_divides (hp : disk.fsPrivate = some fatPrivate) (item : FatDirectoryItem)
    (size nmemb k : ℕ) (offset : ℤ) :
    fat16ReadLoop disk item size nmemb k offset = .error .divideByZero ↔
      fat16SizeOfClusterBytes fatPrivate = 0 ∧ k ≠ 0 := by
  induction k generalizing offset with
  | zero => exact ⟨fun h => (by cases h), fun h => absurd rfl h.2⟩
  | succ k ih =>
    have hfirst := fat16ReadInternal_divides hp (fat16GetFirstCluster item) offset (i32 size)
    rw [fat16ReadLoop]
    cases hread : fat16ReadInternal disk (fat16GetFirstCluster item) offset (i32 size) with
    | error e =>
      rw [hread] at hfirst
      dsimp only [bind, Except.bind]
      rw [and_iff_left (Nat.succ_ne_zero k), ← hfirst]
    | ok r =>
      have h0 : ¬fat16SizeOfClusterBytes fatPrivate = 0 := fun h => by
        rw [hread] at hfirst
        cases hfirst.mpr h
      dsimp only [bind, Except.bind]
      refine ⟨fun h => absurd h ?_, fun h => absurd h.1 h0⟩
      split_ifs
      · exact fun h => by cases h
      · exact bind_ne_error (fun h => h0 ((ih _).mp h).1) fun rest h => by cases h

theorem fat16Read_divides (hp : disk.fsPrivate = some fatPrivate) (descriptor : FatFileDescriptor)
    (size nmemb : ℕ) :
    fat16Read disk descriptor size nmemb = .error .divideByZero ↔
      fat16SizeOfClusterBytes fatPrivate = 0 ∧ nmemb ≠ 0 ∧
        ∃ addr item, descriptor.item.body = .file addr item ∧ addr ≠ 0 := by
  unfold fat16Read
  split
  case h_1 d hbody =>
    refine ⟨fun h => absurd (Except.error.inj h) (by decide), fun ⟨_, _, addr, item, hfile, _⟩ => ?_⟩
    rw [hbody] at hfile
    cases hfile
  case h_2 addr item hbody =>
    by_cases haddr : addr = 0
    · rw [if_pos haddr]
      refine ⟨fun h => absurd (Except.error.inj h) (by decide), fun ⟨_, _, a, i, hfile, hne⟩ => ?_⟩
      rw [hbody] at hfile
      exact absurd haddr ((FatItemBody.file.inj hfile).1 ▸ hne)
    · rw [if_neg haddr, fat16ReadLoop_divides hp]
      exact and_congr_right fun _ => ⟨fun h => ⟨h, addr, item, hbody, haddr⟩, fun h => h.1⟩

end Read

/-- No read of the disk ends in the crash `e`, nor does running out of fuel or of a buffer. -/
structure DiskAvoids (disk : Disk) (e : Crash) : Prop where
  hang : .hang ≠ e
  overrun : .overrun ≠ e
  data : disk.privateData ≠ .error e
  read : ∀ cluster offset total, fat16ReadInternal disk cluster offset total ≠ .error e

section Open
variable {σ : Type} [Requests σ] {disk : Disk} {fatPrivate : FatPrivate} {e : Crash}

theorem diskAvoids_divides (hp : disk.fsPrivate = some fatPrivate)
    (h0 : fat16SizeOfClusterBytes fatPrivate ≠ 0) : DiskAvoids disk .divideByZero where
  hang := by decide
  overrun := by decide
  data := privateData_avoids disk
  read _ _ _ h := h0 ((fat16ReadInternal_divides hp _ _ _).mp h)

theorem fat16FreeDirectory_avoids (e : Crash) (d : Option FatDirectory) :
    Avoids e (fat16FreeDirectory d : Prog Crash σ Unit) := by
  cases d with
  | none => exact Avoids.pure ()
  | some d =>
    apply Avoids.bind
    · exact Avoids.ite (kfree_avoids e d.itemAddr) (Avoids.pure ())
    · exact fun _ => kfree_avoids e d.addr

theorem fat16FatItemFree_avoids (e : Crash) (item : FatItem) :
    Avoids e (fat16FatItemFree item : Prog Crash σ Unit) := by
  obtain ⟨addr, body⟩ := item
  cases body with
  | directory d => exact (fat16FreeDirectory_avoids e d).bind fun _ => kfree_avoids e addr
  | file p item => exact (kfree_avoids e p).bind fun _ => kfree_avoids e addr

theorem fat16LoadFatDirectory_avoids (h : DiskAvoids disk e) (item : FatDirectoryItem) :
    Avoids e (fat16LoadFatDirectory disk item : Prog Crash σ _) := by
  have hnone : Avoids e (do
      fat16FreeDirectory none
      pure none : Prog Crash σ (Option FatDirectory)) :=
    (fat16FreeDirectory_avoids _ none).bind fun _ => Avoids.pure none
  unfold fat16LoadFatDirectory
  refine Avoids.ite hnone ((kzalloc_avoids _ _).bind fun directory => Avoids.ite hnone ?_)
  apply (ofExcept_avoids h.data).bind
  intro fatPrivate'
  apply (ofExcept_avoids (totalItems_avoids h.hang disk _)).bind
  intro total
  apply (kzalloc_avoids _ _).bind
  intro items
  apply Avoids.ite
  · exact (fat16FreeDirectory_avoids _ _).bind fun _ => Avoids.pure _
  · apply (ofExcept_avoids (h.read _ _ _)).bind
    intro r
    apply Avoids.bind
    · exact Avoids.ite (fat16FreeDirectory_avoids _ _) (Avoids.pure ())
    · exact fun _ => Avoids.pure _

theorem fat16NewFatItem_avoids (h : DiskAvoids disk e) (item : FatDirectoryItem) :
    Avoids e (fat16NewFatItemForDirectoryItem disk item : Prog Crash σ _) := by
  unfold fat16NewFatItemForDirectoryItem
  refine (kzalloc_avoids _ _).bind fun fItem => Avoids.ite (Avoids.pure _) ?_
  apply Avoids.bind
  · refine Avoids.ite ?_ (Avoids.pure ())
    exact (fat16LoadFatDirectory_avoids h item).bind fun _ => Avoids.pure ()
  · exact fun _ => (kzalloc_avoids _ _).bind fun _ => Avoids.pure _

theorem fat16ToProperString_avoids {e : Crash} (he : .overrun ≠ e) (mem : ℕ → UInt8)
    (room i : ℕ) : fat16ToProperString mem room i ≠ .error e := by
  have hoverrun : (.error .overrun : Except Crash CString) ≠ .error e :=
    fun h => he (Except.error.inj h)
  have hnil : (.ok [] : Except Crash CString) ≠ .error e := fun h => by cases h
  induction room generalizing i with
  | zero =>
    rw [fat16ToProperString]
    split_ifs
    · exact hnil
    · exact hoverrun
    · exact hnil
    · exact hoverrun
  | succ room ih =>
    rw [fat16ToProperString]
    split_ifs
    · exact hnil
    · exact hoverrun
    · exact hnil
    · exact bind_ne_error (ih (i + 1)) fun rest h => by cases h

theorem fullRelativeFilename_avoids {e : Crash} (he : .overrun ≠ e) (item : FatDirectoryItem) :
    fat16GetFullRelativeFilename item ≠ .error e := by
  apply bind_ne_error (fat16ToProperString_avoids he _ _ _)
  intro name
  split_ifs
  · exact fun h => he (Except.error.inj h)
  · exact bind_ne_error (fat16ToProperString_avoids he _ _ _) fun ext h => by cases h
  · exact fun h => by cases h

theorem fat16FindItem_avoids (h : DiskAvoids disk e) (directory : FatDirectory) (name : CString) :
    Avoids e (fat16FindItemInDirectory disk directory name : Prog Crash σ _) := by
  apply Avoids.countUp
  intro i fItem
  apply (ofExcept_avoids (fullRelativeFilename_avoids h.overrun _)).bind
  exact fun _ => Avoids.ite (fat16NewFatItem_avoids h _) (Avoids.pure _)

theorem fat16WalkPath_avoids (h : DiskAvoids disk .divideByZero) (path : List PathPart)
    (item : Option FatItem) :
    Avoids .divideByZero (fat16WalkPath disk path item : Prog Crash σ _) := by
  induction path generalizing item with
  | nil => exact Avoids.pure item
  | cons part rest ih =>
    unfold fat16WalkPath
    split
    · exact Avoids.abort (by decide)
    · split
      · exact Avoids.pure none
      · exact Avoids.abort (by decide)
      · apply (fat16FindItem_avoids h _ _).bind
        exact fun tmpItem => (fat16FatItemFree_avoids _ _).bind fun _ => ih tmpItem

theorem fat16Open_avoids {path : List PathPart}
    (h : Avoids e (fat16GetDirectoryEntry disk path : Prog Crash σ _)) (mode : FileMode) :
    Avoids e (fat16Open disk path mode : Prog Crash σ _) := by
  unfold fat16Open
  refine Avoids.ite (Avoids.pure _) ((kzalloc_avoids _ _).bind fun descriptor =>
    Avoids.ite (Avoids.pure _) (h.bind fun item => ?_))
  cases item with
  | none => exact Avoids.pure _
  | some item => exact Avoids.pure _

theorem fat16Open_divides (h : DiskAvoids disk .divideByZero) (path : List PathPart)
    (mode : FileMode) : Avoids .divideByZero (fat16Open disk path mode : Prog Crash σ _) := by
  refine fat16Open_avoids ?_ mode
  cases path with
  | nil => exact Avoids.abort (by decide)
  | cons first rest =>
    apply (ofExcept_avoids h.data).bind
    intro fatPrivate'
    apply (fat16FindItem_avoids h _ _).bind
    intro rootItem
    cases rootItem with
    | none => exact Avoids.pure none
    | some item => exact fat16WalkPath_avoids h rest (some item)

theorem pathparserParseParts_divides (fuel : ℕ) (path : CString) :
    Avoids .divideByZero (pathparserParseParts fuel path : Prog Crash σ _) := by
  have hpart : ∀ path, Avoids .divideByZero (pathparserGetPathPart path : Prog Crash σ _) :=
    fun path => (kzalloc_avoids _ _).bind fun p =>
      Avoids.ite ((kfree_avoids _ _).bind fun _ => Avoids.pure 0)
        (Avoids.ite (Avoids.abort (by decide)) (Avoids.pure p))
  induction fuel generalizing path with
  | zero => exact Avoids.abort (by decide)
  | succ fuel ih =>
    refine (hpart path).bind fun str => Avoids.ite (Avoids.pure _) ?_
    refine (kzalloc_avoids _ _).bind fun addr => Avoids.ite (Avoids.abort (by decide)) ?_
    exact (ih _).bind fun next => Avoids.pure _

theorem pathparserParse_avoids (path : CString) :
    Avoids .divideByZero (pathparserParse path : Prog Crash σ _) := by
  have hroot : ∀ drive, Avoids .divideByZero (pathparserCreateRoot drive : Prog Crash σ _) :=
    fun drive => (kzalloc_avoids _ _).bind fun addr =>
      Avoids.ite (Avoids.abort (by decide)) (Avoids.pure _)
  refine Avoids.ite (Avoids.pure _) (Avoids.ite (Avoids.pure _) ?_)
  exact (hroot _).bind fun root => (pathparserParseParts_divides _ _).bind fun first => Avoids.pure _

theorem fopen_avoids (hp : disk.fsPrivate = some fatPrivate)
    (h0 : fat16SizeOfClusterBytes fatPrivate ≠ 0) (filename modeStr : CString) :
    Avoids .divideByZero (fopen disk filename modeStr : Prog Crash (DescriptorLayer σ) ℤ) := by
  have hdisk := diskAvoids_divides hp h0
  have hprivate : Avoids .divideByZero (fopenPrivate disk filename modeStr : Prog Crash σ _) := by
    apply (pathparserParse_avoids filename).bind
    intro rootPath
    cases rootPath with
    | none => exact Avoids.pure _
    | some root =>
      refine Avoids.ite (Avoids.pure _) (Avoids.ite (Avoids.pure _) (Avoids.ite (Avoids.pure _)
        (Avoids.ite (Avoids.pure _) (fat16Open_divides hdisk _ _))))
  have hnew : ∀ privateData, Avoids .divideByZero
      (fileNewDescriptor privateData : Prog Crash (DescriptorLayer σ) _) := by
    intro privateData
    apply (get_avoids _).bind
    intro s
    split
    · exact Avoids.pure _
    · refine (onHeap_avoids (kzalloc_avoids _ _)).bind fun addr =>
        Avoids.ite (Avoids.abort (by decide)) ?_
      exact (Avoids.of_ok fun s => ⟨_, modify_apply _ s⟩).bind fun _ => Avoids.pure _
  have hbody : Avoids .divideByZero
      (fopenBody disk filename modeStr : Prog Crash (DescriptorLayer σ) _) := by
    apply (onHeap_avoids hprivate).bind
    intro x
    cases x with
    | error r => exact Avoids.pure _
    | ok privateData =>
      apply (hnew privateData).bind
      intro desc
      cases desc with
      | error r => exact Avoids.pure _
      | ok desc => exact Avoids.pure _
  exact hbody.bind fun r => Avoids.ite (Avoids.pure _) (Avoids.pure _)

end Open

section Calls
variable {disk : Disk} {fatPrivate : FatPrivate} {k k' : KernelHeap} {s : FileState} {fd : ℤ}

theorem fseek_avoids (fd offset : ℤ) (whence : FileSeekMode) :
    Avoids .divideByZero (fseek fd offset whence) := by
  apply (get_avoids _).bind
  intro s
  split
  · exact Avoids.ite (Avoids.pure _) (Avoids.abort (by decide))
  · apply (ofExcept_avoids ?_).bind
    · exact fun r => (Avoids.of_ok fun s => ⟨_, modify_apply _ s⟩).bind fun _ => Avoids.pure _
    · unfold fat16Seek
      split
      · exact fun h => by cases h
      · split_ifs
        · exact fun h => absurd (Except.error.inj h) (by decide)
        · exact fun h => by cases h
        · split <;> exact fun h => by cases h

theorem fstat_avoids (fd : ℤ) : Avoids .divideByZero (fstat fd) := by
  apply (get_avoids _).bind
  intro s
  split
  · exact Avoids.pure _
  · apply ofExcept_avoids
    unfold fat16Stat
    split
    · exact fun h => by cases h
    · split_ifs <;> exact fun h => by cases h

theorem fclose_avoids (fd : ℤ) : Avoids .divideByZero (fclose fd) := by
  apply (get_avoids _).bind
  intro s
  split
  · exact Avoids.pure _
  · apply (onHeap_avoids ?_).bind
    · intro r
      apply Avoids.bind
      · refine Avoids.ite ?_ (Avoids.pure ())
        exact (Avoids.of_ok fun s => ⟨_, modify_apply _ s⟩).bind fun _ =>
          onHeap_avoids (kfree_avoids _ _)
      · exact fun _ => Avoids.pure r
    · refine Avoids.bind ?_ fun _ => Avoids.pure 0
      exact (fat16FatItemFree_avoids _ _).bind fun _ => kfree_avoids _ _

theorem fread_divides (hp : disk.fsPrivate = some fatPrivate) (size nmemb : ℕ) :
    fread disk size nmemb fd s = .error .divideByZero ↔
      fat16SizeOfClusterBytes fatPrivate = 0 ∧ ¬(size = 0 ∨ nmemb = 0 ∨ fd < 1) ∧
        ∃ desc addr item, fileGetDescriptor s fd = some desc ∧
          desc.privateData.item.body = .file addr item ∧ addr ≠ 0 := by
  rw [fread, bind_of_ok (get_apply _)]
  by_cases harguments : size = 0 ∨ nmemb = 0 ∨ fd < 1
  · rw [if_pos harguments]
    exact ⟨fun h => (by cases h), fun h => absurd harguments h.2.1⟩
  · rw [if_neg harguments]
    cases hfd : fileGetDescriptor s fd with
    | none =>
      refine ⟨fun h => (by cases h), fun h => ?_⟩
      obtain ⟨desc, -, -, hdesc, -⟩ := h.2.2
      cases hdesc
    | some desc =>
      have hread := fat16Read_divides hp desc.privateData size nmemb
      have hmap : (ofExcept (fat16Read disk desc.privateData size nmemb) :
          Prog Crash FileState _) s = .error .divideByZero ↔
            fat16Read disk desc.privateData size nmemb = .error .divideByZero := by
        cases fat16Read disk desc.privateData size nmemb with
        | error e =>
          exact ⟨fun h => congrArg _ (Except.error.inj h), fun h => congrArg _ (Except.error.inj h)⟩
        | ok r => exact ⟨fun h => (by cases h), fun h => (by cases h)⟩
      dsimp only
      rw [hmap, hread]
      constructor
      · rintro ⟨h0, _, addr, item, hbody, haddr⟩
        exact ⟨h0, harguments, desc, addr, item, rfl, hbody, haddr⟩
      · rintro ⟨h0, _, desc', addr, item, hdesc, hbody, haddr⟩
        obtain rfl := Option.some.inj hdesc
        exact ⟨h0, fun h => harguments (Or.inr (Or.inl h)), addr, item, hbody, haddr⟩

/-- On an accepted volume no call divides by zero, in any state of the file layer, exactly if a
cluster has sectors. -/
theorem resolved_never_divides (h : fat16Resolve disk k = .ok ((0, some fatPrivate), k')) :
    (∀ (call : FileCall) (s : FileState),
      call.run { disk with fsPrivate := some fatPrivate } s ≠ .error .divideByZero) ↔
        disk.image.header.sectorsPerCluster ≠ 0 := by
  have hsize : fat16SizeOfClusterBytes fatPrivate = 0 ↔
      disk.image.header.sectorsPerCluster = 0 := by
    rw [sizeOfClusterBytes_eq (mounted_of_resolve h), DiskImage.clusterSize]
    exact ⟨fun h => (Nat.mul_eq_zero.mp h).resolve_right (by decide), fun h => by rw [h, Nat.zero_mul]⟩
  rw [ne_eq, ← hsize]
  constructor
  · intro hall h0
    -- one byte through an open descriptor, which no run needs to lead to
    let desc : FileDescriptor := ⟨4096, 1, ⟨4096, ⟨4096, .file 4096 ⟨fun _ => 0⟩⟩, 0⟩⟩
    let s : FileState := ⟨kheapInit, fun _ => some desc⟩
    have hread : fread { disk with fsPrivate := some fatPrivate } 1 1 1 s = .error .divideByZero :=
      (fread_divides rfl 1 1).mpr ⟨h0, by decide, desc, 4096, _, rfl, rfl, by decide⟩
    exact hall (.fread 1 1 1) s (bind_of_error hread _)
  · intro h0 call s
    cases call with
    | fopen filename modeStr =>
      exact (fopen_avoids rfl h0 filename modeStr).bind (fun _ => Avoids.pure ()) s
    | fread size nmemb fd =>
      have hread : Avoids .divideByZero (fread { disk with fsPrivate := some fatPrivate }
          size nmemb fd) := fun s hs => h0 ((fread_divides rfl size nmemb).mp hs).1
      exact hread.bind (fun _ => Avoids.pure ()) s
    | fseek fd offset whence => exact (fseek_avoids fd offset whence).bind (fun _ => Avoids.pure ()) s
    | fstat fd => exact (fstat_avoids fd).bind (fun _ => Avoids.pure ()) s
    | fclose fd => exact (fclose_avoids fd).bind (fun _ => Avoids.pure ()) s

theorem resolved_never_divides_sample : ∃ fatPrivate k,
    fat16Resolve (sampleDisk none) kheapInit = .ok ((0, some fatPrivate), k) ∧
    ∀ (call : FileCall) (s : FileState),
      call.run (sampleDisk (some fatPrivate)) s ≠ .error .divideByZero := by
  obtain ⟨dir, s₁, s₂, s₃, k, s, desc, h⟩ := sampleOpened_exists
  have hsectors : (sampleDisk none).image.header.sectorsPerCluster ≠ 0 := by decide +kernel
  exact ⟨_, k, h.resolved, (resolved_never_divides h.resolved).mpr hsectors⟩

def noSectorsImage : DiskImage where
  sector lba i := if lba = 0 ∧ i = 13 then 0 else sampleImage.sector lba i
  stack := sampleImage.stack

def noSectorsDisk (fsPrivate : Option FatPrivate) : Disk :=
  { sampleDisk fsPrivate with image := noSectorsImage }

/-- Its file is opened, and a byte of it is read. -/
theorem no_sectors_divides : ∃ fatPrivate k s,
    fat16Resolve (noSectorsDisk none) kheapInit = .ok ((0, some fatPrivate), k) ∧
    fopen (noSectorsDisk (some fatPrivate)) samplePath [0x72] ⟨k, fun _ => none⟩ = .ok (1, s) ∧
    fread (noSectorsDisk (some fatPrivate)) 1 1 1 s = .error .divideByZero := by
  have hheader : (noSectorsDisk none).image.header = ⟨0, 1, 1, 16, 1, 0x29⟩ := by decide +kernel
  have htotal : fat16GetTotalItemsForDirectory (noSectorsDisk none) 2 = .ok 1 := by decide +kernel
  have hbytes : (diskstreamerRead noSectorsImage 1024 512).1 =
      (diskstreamerRead sampleImage 1024 512).1 := by decide +kernel
  have hone : ∀ dir s₁ s₂ s₃, OneFile [0x41] (resolvedPrivate (noSectorsDisk none) 1 dir s₁ s₂ s₃)
      sampleItem := by
    intro dir s₁ s₂ s₃
    refine ⟨rfl, ?_, ⟨_, sampleItem_name, by decide⟩, by decide +kernel⟩
    have hpos : fat16SectorToAbsolute ((1 * 1 + 1 : ℕ) : ℤ) = 1024 := by decide
    have hlength : ((16 * 32 : ℕ) : ℤ) = 512 := by decide
    have himage : (noSectorsDisk none).image = noSectorsImage := rfl
    rw [resolvedPrivate, hheader]
    dsimp only
    rw [hpos, hlength, himage, hbytes]
    rfl
  obtain ⟨r, k, hresolve, ⟨dir, s₁, s₂, s₃, rfl, -⟩, hk⟩ :=
    @fat16Resolve_room 0 (noSectorsDisk none) 1 (by decide) (by rw [hheader])
      (by rw [hheader]; decide) (by rw [hheader]; exact htotal) kheapInit ⟨kheapInit_unused, rfl⟩
  have hslot : freeSlot (fun _ => none) = some 0 :=
    freeSlot_some.mpr ⟨by decide, rfl, fun j hj => absurd hj (Nat.not_lt_zero j)⟩
  obtain ⟨r, s, hopen, ⟨rfl, desc, ⟨addr, fItem, copy, hdata, hcopy⟩, -, htable⟩, -⟩ :=
    @fopen_room 6 (noSectorsDisk (some _)) _ sampleItem _ _ samplePath_names (by decide) rfl rfl
      (hone dir s₁ s₂ s₃)
      (fun _ => none) 0 hslot ⟨k, fun _ => none⟩ ⟨rfl, hk⟩
  refine ⟨_, k, s, hresolve, hopen, (fread_divides rfl 1 1).mpr ⟨?_, by decide, desc, copy,
    sampleItem, ?_, by rw [hdata], hcopy⟩⟩
  · rw [fat16SizeOfClusterBytes, resolvedPrivate, hheader, Nat.zero_mul]
  · show s.fileDescriptors 0 = some desc
    rw [htable, Function.update_self]

end Calls

end Dexter
