import Dexter.Fs.DirectoryWalk
import Dexter.Fs.HeaderSafety
import Dexter.Fs.PathContract
import Dexter.Mem.PageRequests

/-!
# Opening while requests fail

`fopen` over a heap whose requests are answered with null where a pattern `fails` says so
(`Lib.Faults`).

Some of the requests are checked: those for the file system's descriptor, for an item and for a
subdirectory. The others are not: those for a path, for the copy of a directory item, which is
null in the descriptor then, and for the descriptor of the file layer.
-/

namespace Dexter
open Lib.Programs Lib.Faults

namespace Failing
open KernelHeap FileState PathContract

section Avoids
variable {σ : Type} [Requests σ] {disk : Disk} {fatPrivate : FatPrivate}

theorem readInternal_avoids (hp : disk.fsPrivate = some fatPrivate)
    (startingCluster offset total : ℤ) :
    fat16ReadInternal disk startingCluster offset total ≠ .error .nullPointer := by
  intro h
  by_cases h0 : fat16SizeOfClusterBytes fatPrivate = 0
  · rw [(fat16ReadInternal_divides hp _ _ _).mpr h0] at h
    exact absurd (Except.error.inj h) (by decide)
  · rw [fat16ReadInternal, privateData_of_some hp] at h
    obtain ⟨r, hr⟩ := @readInternalFromStream_returns disk _ h0
      ((total - 1) / fat16SizeOfClusterBytes fatPrivate).toNat startingCluster offset total
    dsimp only [bind, Except.bind] at h
    rw [hr] at h
    cases h

theorem diskAvoids_null (hp : disk.fsPrivate = some fatPrivate) :
    DiskAvoids disk .nullPointer where
  hang := by decide
  overrun := by decide
  data := by
    rw [privateData_of_some hp]
    exact fun h => by cases h
  read := readInternal_avoids hp

theorem fat16GetDirectoryEntry_avoids (hp : disk.fsPrivate = some fatPrivate)
    {path : List PathPart} (hpath : path ≠ []) :
    Avoids .nullPointer (fat16GetDirectoryEntry disk path : Prog Crash σ _) := by
  obtain ⟨first, rest, rfl⟩ := List.exists_cons_of_ne_nil hpath
  intro s h
  cases hfind : fat16FindItemInDirectory disk fatPrivate.rootDirectory.toFatDirectory
      first.part s with
  | error e =>
    have hdata : (ofExcept disk.privateData : Prog Crash σ FatPrivate) s = .ok (fatPrivate, s) := by
      rw [privateData_of_some hp]
      rfl
    rw [fat16GetDirectoryEntry, bind_of_ok hdata, bind_of_error hfind] at h
    exact fat16FindItem_avoids (diskAvoids_null hp) _ _ s
      (hfind.trans (congrArg _ (Except.error.inj h)))
  | ok r =>
    rw [(getDirectoryEntry_ok hp).mpr ⟨r.1, hfind, rfl⟩] at h
    cases h

theorem fopenPrivate_of_parse (hdisk : disk.filesystem = true → disk.fsPrivate ≠ none)
    {filename modeStr : CString} {rootPath : Option PathRoot} {s s' : σ}
    (h : pathparserParse filename s = .ok (rootPath, s')) :
    fopenPrivate disk filename modeStr s ≠ .error .nullPointer := by
  have herror : ∀ e : ℤ, Avoids Crash.nullPointer
      (pure (.error e) : Prog Crash σ (Except ℤ FatFileDescriptor)) := fun e => Avoids.pure _
  rw [fopenPrivate, bind_of_ok h]
  cases rootPath with
  | none => exact herror _ s'
  | some root =>
    dsimp only
    split_ifs with hfirst hdrive hfs hmode
    · exact herror _ s'
    · exact herror _ s'
    · exact herror _ s'
    · exact herror _ s'
    · obtain ⟨fatPrivate, hp⟩ := Option.ne_none_iff_exists'.mp
        (hdisk (Bool.eq_true_of_not_eq_false hfs))
      exact fat16Open_avoids (fat16GetDirectoryEntry_avoids hp hfirst) _ s'

end Avoids

section Path
variable {fails : ℕ → Bool} {k : KernelHeap} {n : ℕ} {path : CString}

theorem pathparserGetPathPart_answered (h : Answered fails k n) (hne : (nextPart path).1 ≠ []) :
    pathparserGetPathPart path (behind fails k n) = .ok (k.page n, behind fails k (n + 1)) := by
  rw [pathparserGetPathPart, bind_of_ok (kzalloc_answered (by decide) (by decide) h), if_neg hne,
    if_neg h.2, pure_apply]

theorem pathparserGetPathPart_null (h : ¬Answered fails k n) (hne : (nextPart path).1 ≠ []) :
    pathparserGetPathPart path (behind fails k n) = .error .nullPointer := by
  obtain ⟨c, hnull⟩ := kzalloc_null dexterMaxPath (by decide) (by decide) h
  rw [pathparserGetPathPart, bind_of_ok hnull, if_neg hne, if_pos rfl, abort_apply]

def endOfPath {σ : Type} [Requests σ] (s : σ) : σ :=
  Requests.release (Requests.ask dexterMaxPath s).1 (Requests.ask dexterMaxPath s).2

theorem pathparserGetPathPart_empty {σ : Type} [Requests σ] (hnil : (nextPart path).1 = [])
    (s : σ) : pathparserGetPathPart path s = .ok (0, endOfPath s) := by
  rw [pathparserGetPathPart, bind_of_ok (kzalloc_apply _ s), if_pos hnil,
    bind_of_ok (kfree_apply _ _), pure_apply]
  rfl

def partRequests (path : CString) : ℕ :=
  2 * ((path.splitOn slash).takeWhile PathContract.NonEmpty).length

theorem partRequests_cons (h : (nextPart path).1 ≠ []) :
    partRequests path = partRequests (nextPart path).2 + 2 := by
  rw [partRequests, PathContract.takeWhile_nextPart path h, List.length_cons, partRequests]
  omega

theorem pathparserParseParts_answered {fuel : ℕ} (hfuel : path.length < fuel)
    (h : ∀ i < partRequests path, Answered fails k (n + i)) :
    ∃ parts, pathparserParseParts fuel path (behind fails k n) =
      .ok (parts, endOfPath (behind fails k (n + partRequests path))) := by
  induction fuel generalizing path n with
  | zero => exact absurd hfuel (Nat.not_lt_zero _)
  | succ fuel ih =>
    rw [pathparserParseParts]
    by_cases hnil : (nextPart path).1 = []
    · have hpart := pathparserGetPathPart_empty hnil (behind fails k n)
      have hnone : partRequests path = 0 := by
        rw [partRequests, PathContract.takeWhile_nextPart_nil path hnil]
        rfl
      exact ⟨_, by rw [bind_of_ok hpart, if_pos rfl, pure_apply, hnone, Nat.add_zero]⟩
    · have hlt := nextPart_length hnil
      rw [partRequests_cons hnil] at h ⊢
      have hstring : Answered fails k n := h 0 (by omega)
      have hstruct : Answered fails k (n + 1) := h 1 (by omega)
      obtain ⟨parts, hrest⟩ := @ih (n + 1 + 1) (nextPart path).2 (by omega) fun i hi => by
        have hi' := h (i + 2) (by omega)
        rwa [Nat.add_comm i 2, ← Nat.add_assoc] at hi'
      rw [Nat.add_assoc n 1 1, Nat.add_assoc, Nat.add_comm (1 + 1)] at hrest
      exact ⟨_, by
        rw [bind_of_ok (pathparserGetPathPart_answered hstring hnil), if_neg hstring.2,
          bind_of_ok (kzalloc_answered (by decide) (by decide) hstruct), if_neg hstruct.2,
          bind_of_ok hrest, pure_apply]⟩

theorem pathparserParseParts_null {fuel : ℕ} (hfuel : path.length < fuel)
    (h : ¬∀ i < partRequests path, Answered fails k (n + i)) :
    pathparserParseParts fuel path (behind fails k n) = .error .nullPointer := by
  induction fuel generalizing path n with
  | zero => exact absurd hfuel (Nat.not_lt_zero _)
  | succ fuel ih =>
    have hnil : (nextPart path).1 ≠ [] := by
      intro hnil
      refine h fun i hi => ?_
      rw [partRequests, PathContract.takeWhile_nextPart_nil path hnil] at hi
      exact absurd hi (Nat.not_lt_zero i)
    have hlt := nextPart_length hnil
    rw [pathparserParseParts]
    by_cases hstring : Answered fails k n
    · rw [bind_of_ok (pathparserGetPathPart_answered hstring hnil), if_neg hstring.2]
      by_cases hstruct : Answered fails k (n + 1)
      · rw [bind_of_ok (kzalloc_answered (by decide) (by decide) hstruct), if_neg hstruct.2]
        refine bind_of_error (@ih (n + 1 + 1) (nextPart path).2 (by omega) fun hrest => h ?_) _
        intro i hi
        rw [partRequests_cons hnil] at hi
        rcases i with _ | _ | i
        · exact hstring
        · exact hstruct
        · rw [Nat.add_comm (i + 1) 1, ← Nat.add_assoc, Nat.add_comm i 1, ← Nat.add_assoc]
          exact hrest i (by omega)
      · obtain ⟨c, hnull⟩ := kzalloc_null 8 (by decide) (by decide) hstruct
        rw [bind_of_ok hnull, if_pos rfl, abort_apply]
    · rw [bind_of_error (pathparserGetPathPart_null hstring hnil)]

/-- The requests for the root of an accepted path, and for the strings and structs of its parts,
are answered. -/
def PathAnswered (fails : ℕ → Bool) (path : CString) (k : KernelHeap) : Prop :=
  PathAccepted path → ∀ i < partRequests (path.drop 3) + 1, Answered fails k i

def behindPath (fails : ℕ → Bool) (path : CString) (k : KernelHeap) : Faulty fails KernelHeap :=
  endOfPath (behind fails k (partRequests (path.drop 3) + 1))

theorem pathparserCreateRoot_answered (h : Answered fails k n) (drive : ℤ) :
    pathparserCreateRoot drive (behind fails k n) =
      .ok (⟨k.page n, drive, []⟩, behind fails k (n + 1)) := by
  rw [pathparserCreateRoot, bind_of_ok (kzalloc_answered (by decide) (by decide) h), if_neg h.2,
    pure_apply]

theorem pathparserParse_answered (hpath : PathAccepted path) (h : PathAnswered fails path k) :
    ∃ root, pathparserParse path (behind fails k 0) = .ok (some root, behindPath fails path k) ∧
      root.driveNo = tonumericdigit (path.getD 0 0) := by
  have hfirst : Answered fails k 0 := h hpath 0 (Nat.succ_pos _)
  obtain ⟨parts, hparts⟩ := @pathparserParseParts_answered fails k 1 (path.drop 3) _
    (Nat.lt_succ_self _) fun i hi => Nat.add_comm i 1 ▸ h hpath (i + 1) (by omega)
  have hroot := pathparserCreateRoot_answered hfirst (tonumericdigit (path.getD 0 0))
  rw [Nat.add_comm 1] at hparts
  rw [pathparserParse_accepted hpath]
  exact ⟨_, (bind_of_ok hroot _).trans (bind_of_ok hparts _), rfl⟩

theorem pathparserParse_returns (h : PathAnswered fails path k) :
    ∃ rootPath c, pathparserParse path (behind fails k 0) = .ok (rootPath, c) := by
  by_cases hpath : PathAccepted path
  · obtain ⟨root, hrun, -⟩ := pathparserParse_answered hpath h
    exact ⟨_, _, hrun⟩
  · exact ⟨_, _, by rw [pathparserParse_rejected hpath, pure_apply]⟩

theorem pathparserParse_null (h : ¬PathAnswered fails path k) :
    pathparserParse path (behind fails k 0) = .error .nullPointer := by
  obtain ⟨hpath, hall⟩ : PathAccepted path ∧
      ¬∀ i < partRequests (path.drop 3) + 1, Answered fails k i := Classical.not_imp.mp h
  rw [pathparserParse_accepted hpath]
  by_cases hfirst : Answered fails k 0
  · have hroot := pathparserCreateRoot_answered hfirst (tonumericdigit (path.getD 0 0))
    refine (bind_of_ok hroot _).trans (bind_of_error ?_ _)
    refine pathparserParseParts_null (Nat.lt_succ_self _) fun hparts => hall fun i hi => ?_
    cases i with
    | zero => exact hfirst
    | succ i => exact Nat.add_comm 1 i ▸ hparts i (by omega)
  · obtain ⟨c, hnull⟩ := kzalloc_null (n := 0) 8 (by decide) (by decide) hfirst
    have hroot : pathparserCreateRoot (tonumericdigit (path.getD 0 0)) (behind fails k 0) =
        .error .nullPointer := by
      rw [pathparserCreateRoot]
      exact (bind_of_ok hnull _).trans rfl
    exact bind_of_error hroot _

end Path

def Complete (desc : FileDescriptor) : Prop :=
  desc.addr ≠ 0 ∧ desc.privateData.addr ≠ 0 ∧ desc.privateData.item.addr ≠ 0 ∧
    match desc.privateData.item.body with
    | .file copy _ => copy ≠ 0
    | .directory d => d ≠ none

section Survives
variable {σ : Type} [Requests σ]

/-- `fopen` never gets to null, what it adds to the table is complete, and so is the descriptor
whose number it returns. -/
structure OpenSurvives (disk : Disk) (filename modeStr : CString) (s : DescriptorLayer σ) : Prop where
  noNull : fopen disk filename modeStr s ≠ .error .nullPointer
  table : ∀ {r : ℤ} {s' : DescriptorLayer σ}, fopen disk filename modeStr s = .ok (r, s') → ∀ i,
    s'.fileDescriptors i = s.fileDescriptors i ∨
      ∃ desc, s'.fileDescriptors i = some desc ∧ Complete desc
  returned : ∀ {r : ℤ} {s' : DescriptorLayer σ}, fopen disk filename modeStr s = .ok (r, s') → r ≠ 0 →
    ∃ desc, s'.fileDescriptors (r - 1).toNat = some desc ∧ Complete desc

variable {disk : Disk} {filename modeStr : CString} {s : DescriptorLayer σ} {k : σ}
  {d : FatFileDescriptor} {i : ℕ}

theorem fopen_error {e : Crash} (h : fopenPrivate disk filename modeStr s.heap = .error e) :
    fopen disk filename modeStr s = .error e := by
  have hheap : FileState.onHeap (fopenPrivate disk filename modeStr) s = .error e := by
    simp only [FileState.onHeap, zoom, h]
  have hbody : fopenBody disk filename modeStr s = .error e := by
    rw [fopenBody, bind_of_error hheap]
  rw [fopen, bind_of_error hbody]

theorem fopen_rejected {e : ℤ} (he : e < 0)
    (h : fopenPrivate disk filename modeStr s.heap = .ok (.error e, k)) :
    fopen disk filename modeStr s = .ok (0, { s with heap := k }) := by
  have hheap : FileState.onHeap (fopenPrivate disk filename modeStr) s =
      .ok (.error e, { s with heap := k }) := zoom_of_ok h
  have hbody : fopenBody disk filename modeStr s = .ok ((e, none), { s with heap := k }) := by
    rw [fopenBody, bind_of_ok hheap]
    exact pure_apply _ _
  rw [fopen, bind_of_ok hbody, if_pos he, pure_apply]

section Body
variable {t : DescriptorLayer σ}

theorem fopenBody_full {r : ℤ} (h : fopenPrivate disk filename modeStr s.heap = .ok (.ok d, k))
    (hnew : fileNewDescriptor d { s with heap := k } = .ok (.error r, t)) :
    fopenBody disk filename modeStr s = .ok ((r, none), t) := by
  have hheap : FileState.onHeap (fopenPrivate disk filename modeStr) s =
      .ok (.ok d, { s with heap := k }) := zoom_of_ok h
  rw [fopenBody, bind_of_ok hheap]
  dsimp only
  rw [bind_of_ok hnew]
  exact pure_apply _ _

theorem fopenBody_stored {desc : FileDescriptor}
    (h : fopenPrivate disk filename modeStr s.heap = .ok (.ok d, k))
    (hnew : fileNewDescriptor d { s with heap := k } = .ok (.ok desc, t)) :
    fopenBody disk filename modeStr s = .ok ((desc.index, some desc), t) := by
  have hheap : FileState.onHeap (fopenPrivate disk filename modeStr) s =
      .ok (.ok d, { s with heap := k }) := zoom_of_ok h
  rw [fopenBody, bind_of_ok hheap]
  dsimp only
  rw [bind_of_ok hnew]
  exact pure_apply _ _

theorem fopenBody_null {e : Crash}
    (h : fopenPrivate disk filename modeStr s.heap = .ok (.ok d, k))
    (hnew : fileNewDescriptor d { s with heap := k } = .error e) :
    fopenBody disk filename modeStr s = .error e := by
  have hheap : FileState.onHeap (fopenPrivate disk filename modeStr) s =
      .ok (.ok d, { s with heap := k }) := zoom_of_ok h
  rw [fopenBody, bind_of_ok hheap]
  dsimp only
  rw [bind_of_error hnew]

end Body

theorem fopen_full (hslot : freeSlot s.fileDescriptors = none)
    (h : fopenPrivate disk filename modeStr s.heap = .ok (.ok d, k)) :
    fopen disk filename modeStr s = .ok (0, { s with heap := k }) := by
  have hnew : fileNewDescriptor d { s with heap := k } =
      .ok (.error (-eNoMem), { s with heap := k }) := by
    rw [fileNewDescriptor, bind_of_ok (get_apply _)]
    dsimp only
    rw [hslot]
    exact pure_apply _ _
  have hbody := fopenBody_full h hnew
  rw [fopen, bind_of_ok hbody, if_pos (by decide), pure_apply]

theorem fopen_null (hslot : freeSlot s.fileDescriptors = some i)
    (h : fopenPrivate disk filename modeStr s.heap = .ok (.ok d, k))
    (hnone : (Requests.ask 16 k).1 = 0) :
    fopen disk filename modeStr s = .error .nullPointer := by
  have hheap : FileState.onHeap (kzalloc 16) { s with heap := k } =
      .ok ((Requests.ask 16 k).1, { s with heap := (Requests.ask 16 k).2 }) := rfl
  have hnew : fileNewDescriptor d { s with heap := k } = .error .nullPointer := by
    rw [fileNewDescriptor, bind_of_ok (get_apply _)]
    dsimp only
    rw [hslot]
    dsimp only
    rw [bind_of_ok hheap, if_pos hnone, abort_apply]
  have hbody := fopenBody_null h hnew
  rw [fopen, bind_of_error hbody]

theorem fopen_stored (hslot : freeSlot s.fileDescriptors = some i)
    (h : fopenPrivate disk filename modeStr s.heap = .ok (.ok d, k))
    (h0 : (Requests.ask 16 k).1 ≠ 0) :
    fopen disk filename modeStr s = .ok (i + 1, FileState.putSlot i
      (some ⟨(Requests.ask 16 k).1, i + 1, d⟩) { s with heap := (Requests.ask 16 k).2 }) := by
  have hheap : FileState.onHeap (kzalloc 16) { s with heap := k } =
      .ok ((Requests.ask 16 k).1, { s with heap := (Requests.ask 16 k).2 }) := rfl
  have hnew : fileNewDescriptor d { s with heap := k } =
      .ok (.ok ⟨(Requests.ask 16 k).1, i + 1, d⟩, FileState.putSlot i
        (some ⟨(Requests.ask 16 k).1, i + 1, d⟩) { s with heap := (Requests.ask 16 k).2 }) := by
    rw [fileNewDescriptor, bind_of_ok (get_apply _)]
    dsimp only
    rw [hslot]
    dsimp only
    rw [bind_of_ok hheap, if_neg h0, bind_of_ok (modify_apply _ _), pure_apply]
  have hbody := fopenBody_stored h hnew
  rw [fopen, bind_of_ok hbody, if_neg (by dsimp only; omega), pure_apply]

theorem OpenSurvives.of_zero
    (h : fopen disk filename modeStr s = .ok (0, { s with heap := k })) :
    OpenSurvives disk filename modeStr s := by
  refine ⟨by simp [h], fun hrun j => ?_, fun hrun hr => ?_⟩
  · rw [h] at hrun
    obtain ⟨-, rfl⟩ := ok_inj hrun
    exact Or.inl rfl
  · rw [h] at hrun
    exact absurd (ok_inj hrun).1.symm hr

theorem OpenSurvives.of_stored {desc : FileDescriptor} (hcomplete : Complete desc)
    (h : fopen disk filename modeStr s =
      .ok ((i : ℤ) + 1, FileState.putSlot i (some desc) { s with heap := k })) :
    OpenSurvives disk filename modeStr s := by
  refine ⟨by simp [h], fun hrun j => ?_, fun hrun _ => ?_⟩
  · rw [h] at hrun
    obtain ⟨-, rfl⟩ := ok_inj hrun
    by_cases hj : j = i
    · subst hj
      exact Or.inr ⟨_, Function.update_self _ _ _, hcomplete⟩
    · exact Or.inl (Function.update_of_ne hj _ _)
  · rw [h] at hrun
    obtain ⟨rfl, rfl⟩ := ok_inj hrun
    have hindex : ((i : ℤ) + 1 - 1).toNat = i := by omega
    rw [hindex]
    exact ⟨_, Function.update_self _ _ _, hcomplete⟩

end Survives

/-- The path and the mode lead to the lookup of `part` in the root directory. -/
structure LooksUp (disk : Disk) (filename modeStr part : CString) (fatPrivate : FatPrivate) :
    Prop where
  accepted : PathAccepted filename
  drive : tonumericdigit (filename.getD 0 0) = 0
  parts : (components filename).takeWhile NonEmpty = [part]
  filesystem : disk.filesystem = true
  mounted : disk.fsPrivate = some fatPrivate
  mode : fileGetModeByString modeStr = .read

/-- Where the lookup builds an item and a slot is free, the request for the copy of its entry is
answered, and so is the next one, for the descriptor. -/
def DescriptorAnswered (fails : ℕ → Bool) (disk : Disk) (filename modeStr : CString)
    (s : FileState) : Prop :=
  ∀ part fatPrivate s₁, LooksUp disk filename modeStr part fatPrivate →
    freeSlot s.fileDescriptors ≠ none →
    (Requests.ask 8 (behindPath fails filename s.heap)).1 ≠ 0 →
    AsksForCopy disk fatPrivate.rootDirectory.toFatDirectory part
      (Requests.ask 8 (behindPath fails filename s.heap)).2 s₁ →
    (Requests.ask 32 s₁).1 ≠ 0 ∧ (Requests.ask 16 (Requests.ask 32 s₁).2).1 ≠ 0

def withFaults (fails : ℕ → Bool) (s : FileState) : DescriptorLayer (Faulty fails KernelHeap) :=
  ⟨behind fails s.heap 0, s.fileDescriptors⟩

section Fopen
variable {fails : ℕ → Bool} {disk : Disk} {filename modeStr : CString} {s : FileState}

/-- What is opened, in terms of the requests. -/
theorem fopenPrivate_asks (hdisk : disk.filesystem = true → disk.fsPrivate ≠ none)
    (hpath : PathAnswered fails filename s.heap) {d : FatFileDescriptor}
    {c : Faulty fails KernelHeap}
    (h : fopenPrivate disk filename modeStr (behind fails s.heap 0) = .ok (.ok d, c)) :
    ∃ part fatPrivate s₁, LooksUp disk filename modeStr part fatPrivate ∧
      (Requests.ask 8 (behindPath fails filename s.heap)).1 ≠ 0 ∧
      AsksForCopy disk fatPrivate.rootDirectory.toFatDirectory part
        (Requests.ask 8 (behindPath fails filename s.heap)).2 s₁ ∧
      c = (Requests.ask 32 s₁).2 ∧ d.addr ≠ 0 ∧ d.item.addr ≠ 0 ∧
      ∃ raw, d.item.body = .file (Requests.ask 32 s₁).1 raw := by
  obtain ⟨fatPrivate, hp⟩ := Option.ne_none_iff_exists'.mp (hdisk (fopenPrivate_filesystem h))
  obtain ⟨root, t, part, item, hparse, hpart, hdrive, hfs, hread, h0, hfind, rfl⟩ :=
    (fopenPrivate_ok hp).mp h
  obtain ⟨haccepted, hparts⟩ := pathparserParse_parts hparse
  obtain ⟨root', hrun, hdrive'⟩ := pathparserParse_answered haccepted hpath
  rw [hparse] at hrun
  obtain ⟨hroot, rfl⟩ := ok_inj hrun
  obtain rfl := Option.some.inj hroot
  obtain ⟨s₁, raw, hasks, haddr, hbody, rfl⟩ := findItem_copy hfind
  rw [partsOf, hpart] at hparts
  exact ⟨part.part, fatPrivate, s₁, ⟨haccepted, hdrive'.symm.trans hdrive, hparts.symm, hfs, hp,
    hread⟩, h0, hasks, rfl, h0, haddr, raw, hbody⟩

theorem fopenPrivate_opens {part : CString} {fatPrivate : FatPrivate}
    {s₁ : Faulty fails KernelHeap} (hpath : PathAnswered fails filename s.heap)
    (h : LooksUp disk filename modeStr part fatPrivate)
    (h0 : (Requests.ask 8 (behindPath fails filename s.heap)).1 ≠ 0)
    (hasks : AsksForCopy disk fatPrivate.rootDirectory.toFatDirectory part
      (Requests.ask 8 (behindPath fails filename s.heap)).2 s₁) :
    ∃ d raw, fopenPrivate disk filename modeStr (behind fails s.heap 0) =
      .ok (.ok d, (Requests.ask 32 s₁).2) ∧ d.item.body = .file (Requests.ask 32 s₁).1 raw := by
  obtain ⟨root, hparse, hdrive⟩ := pathparserParse_answered h.accepted hpath
  have hparts := (pathparserParse_parts hparse).2
  rw [h.parts, partsOf] at hparts
  obtain ⟨node, hnode, hname⟩ := List.map_eq_singleton_iff.mp hparts
  obtain ⟨item, hfind⟩ := hasks.finds
  rw [← hname] at hfind
  obtain ⟨t, raw, hasks', -, hbody, -⟩ := findItem_copy hfind
  rw [hname] at hasks'
  obtain rfl := hasks.unique hasks'
  exact ⟨_, raw, (fopenPrivate_ok h.mounted).mpr ⟨root, _, node, item, hparse, hnode,
    hdrive.trans h.drive, h.filesystem, h.mode, h0, hfind, rfl⟩, hbody⟩

/-- Failed requests are survived exactly where no unchecked one is among them: those of a path
that is accepted, the one for the copy in a descriptor that is stored, and the one for the
descriptor itself. -/
theorem fopen_survives_iff (hdisk : disk.filesystem = true → disk.fsPrivate ≠ none) :
    OpenSurvives disk filename modeStr (withFaults fails s) ↔
      PathAnswered fails filename s.heap ∧ DescriptorAnswered fails disk filename modeStr s := by
  constructor
  · intro h
    have hpath : PathAnswered fails filename s.heap := by
      by_contra hpath
      have hprivate : fopenPrivate disk filename modeStr (withFaults fails s).heap =
          .error .nullPointer := by
        rw [fopenPrivate]
        exact bind_of_error (pathparserParse_null hpath) _
      exact h.noNull (fopen_error hprivate)
    refine ⟨hpath, fun part fatPrivate s₁ hlooks hfree h0 hasks => ?_⟩
    obtain ⟨i, hslot⟩ := Option.ne_none_iff_exists'.mp hfree
    obtain ⟨d, raw, hprivate, hbody⟩ := fopenPrivate_opens hpath hlooks h0 hasks
    have hanswer : (Requests.ask 16 (Requests.ask 32 s₁).2).1 ≠ 0 := fun hnone =>
      h.noNull (@fopen_null _ _ _ _ _ (withFaults fails s) _ _ _ hslot hprivate hnone)
    have hstored := @fopen_stored _ _ _ _ _ (withFaults fails s) _ _ _ hslot hprivate hanswer
    refine ⟨?_, hanswer⟩
    rcases h.table hstored i with hsame | ⟨desc, hat, hc⟩
    · have hslot' : (withFaults fails s).fileDescriptors i = none := (freeSlot_some.mp hslot).2.1
      rw [hslot'] at hsame
      simp [FileState.putSlot] at hsame
    · have hdesc := Option.some.inj ((Function.update_self i _ _).symm.trans hat)
      rw [← hdesc, Complete, hbody] at hc
      exact hc.2.2.2
  · rintro ⟨hpath, hdescriptor⟩
    cases hprivate : fopenPrivate disk filename modeStr (withFaults fails s).heap with
    | error e =>
      have hrun := fopen_error hprivate
      obtain ⟨rootPath, c, hparse⟩ := pathparserParse_returns hpath
      have he : fopenPrivate disk filename modeStr (withFaults fails s).heap ≠
          .error .nullPointer := fopenPrivate_of_parse hdisk hparse
      rw [hprivate] at he
      exact ⟨fun h => he (congrArg _ (Except.error.inj (hrun.symm.trans h))),
        fun h => by simp [hrun] at h, fun h => by simp [hrun] at h⟩
    | ok r =>
      obtain ⟨x, c⟩ := r
      cases x with
      | error e => exact OpenSurvives.of_zero (fopen_rejected (fopenPrivate_error hprivate) hprivate)
      | ok d =>
        cases hslot : freeSlot s.fileDescriptors with
        | none => exact OpenSurvives.of_zero (fopen_full hslot hprivate)
        | some i =>
          obtain ⟨part, fatPrivate, s₁, hlooks, h0, hasks, rfl, hd, hitem, raw, hbody⟩ :=
            fopenPrivate_asks hdisk hpath hprivate
          obtain ⟨hcopy, hanswer⟩ := hdescriptor part fatPrivate s₁ hlooks (by simp [hslot]) h0 hasks
          refine OpenSurvives.of_stored ⟨hanswer, hd, hitem, ?_⟩
            (@fopen_stored _ _ _ _ _ (withFaults fails s) _ _ _ hslot hprivate hanswer)
          rw [hbody]
          exact hcopy

end Fopen

/-- `n` requests have been made, and the heap has as much room as behind `m` blocks. -/
structure Spare {fails : ℕ → Bool} (n m : ℕ) (c : Faulty fails KernelHeap) : Prop where
  room : Room m c.store
  made : c.given.length = n

section Spare
variable {fails : ℕ → Bool} {n m : ℕ} {c : Faulty fails KernelHeap} {k : KernelHeap}

theorem Spare.ask (h : Spare n m c) (size : ℕ) (hn : fails n = false) (h0 : 1 ≤ size) (hsize : size ≤ 4096)
    (hm : m + 1 ≤ 25600) :
    (Requests.ask size c).1 ≠ 0 ∧ Spare (n + 1) (m + 1) (Requests.ask size c).2 := by
  have hmalloc := h.room.malloc h0 hsize hm
  rw [Faulty.ask_passes (h.made.symm ▸ hn)]
  refine ⟨hmalloc.1, hmalloc.2, ?_⟩
  rw [List.length_append, h.made]
  rfl

theorem Spare.ask_fails (h : Spare n m c) (size : ℕ) (hn : fails n = true) :
    (Requests.ask size c).1 = 0 ∧ Spare (n + 1) m (Requests.ask size c).2 := by
  rw [Faulty.ask_fails (h.made.symm ▸ hn)]
  refine ⟨rfl, h.room, ?_⟩
  rw [List.length_append, h.made]
  rfl

theorem Spare.release (h : Spare n m c) (p : ℕ) : Spare n m (Requests.release p c) :=
  ⟨h.room.free p, h.made⟩

theorem room_after (hk : Room m k) (hn : m + n ≤ 25600) : Room (m + n) (k.after n) := by
  induction n with
  | zero => exact hk
  | succ n ih => exact ((ih (by omega)).malloc (by decide) le_rfl hn).2

theorem spare_behind (hk : Room m k) (hn : m + n ≤ 25600) : Spare n (m + n) (behind fails k n) :=
  ⟨room_after hk hn, answers_length k n⟩

end Spare

def oneLetterPath : CString := [0x30, 0x3a, 0x2f, 0x41]

def subdirectoryFails (i : ℕ) : Bool := i == 6

section Sample
variable {fatPrivate : FatPrivate} {k : KernelHeap}

theorem oneLetterPath_looksUp (fatPrivate : FatPrivate) :
    LooksUp (nestedDisk (some fatPrivate)) oneLetterPath [0x72] [0x41] fatPrivate where
  accepted := by decide
  drive := by decide
  parts := by decide
  filesystem := rfl
  mounted := rfl
  mode := by decide

theorem oneLetterPath_answered (hk : Room 6 k) :
    PathAnswered subdirectoryFails oneLetterPath k := by
  intro _ i hi
  have hcount : partRequests (oneLetterPath.drop 3) + 1 = 3 := by decide
  rw [hcount] at hi
  refine ⟨?_, ?_⟩
  · have hne : i ≠ 6 := by omega
    rw [subdirectoryFails, beq_eq_false_iff_ne]
    exact hne
  · exact ((room_after hk (by omega)).malloc (by decide) le_rfl (by omega)).1

/-- The file system's descriptor and the item are answered, the subdirectory is not, and then the
copy is asked for. -/
theorem subdirectoryFails_asks (hk : Room 6 k)
    (hd : LoadedDirectory [nestedDirectory] fatPrivate.rootDirectory.toFatDirectory) :
    (Requests.ask 8 (behindPath subdirectoryFails oneLetterPath k)).1 ≠ 0 ∧
      ∃ s₁, AsksForCopy (nestedDisk (some fatPrivate)) fatPrivate.rootDirectory.toFatDirectory
        [0x41] (Requests.ask 8 (behindPath subdirectoryFails oneLetterPath k)).2 s₁ ∧
          Spare 7 12 s₁ := by
  have hcount : partRequests (oneLetterPath.drop 3) + 1 = 3 := by decide
  have hpath : Spare 4 10 (behindPath subdirectoryFails oneLetterPath k) := by
    rw [behindPath, hcount]
    exact ((spare_behind hk (by decide)).ask _ (by decide) (by decide) (by decide)
      (by decide)).2.release _
  obtain ⟨h0, hc⟩ := hpath.ask 8 (by decide) (by decide) (by decide) (by decide)
  generalize (Requests.ask 8 (behindPath subdirectoryFails oneLetterPath k)).2 = c at hc ⊢
  obtain ⟨hitem, hc'⟩ := hc.ask 8 (by decide) (by decide) (by decide) (by decide)
  obtain ⟨hload, hs₁⟩ := hc'.ask_fails 16 (by decide)
  have htotal := nested_total hd
  refine ⟨h0, _, ⟨nested_fit hd, 0, c, ⟨?_, nested_readsAs hd, ?_⟩, rfl, hitem, ?_⟩, hs₁⟩
  · rw [htotal]
    exact Nat.zero_lt_one
  · intro i hi hlt
    rw [htotal] at hlt
    exact absurd hi (Nat.not_lt.mpr (Nat.le_of_lt_succ hlt))
  · rw [beforeCopy, if_pos (nested_subdirectory hd)]
    exact if_pos hload

end Sample

theorem fopen_survives_sample : ∃ fatPrivate k s',
    fat16Resolve (nestedDisk none) kheapInit = .ok ((0, some fatPrivate), k) ∧
    OpenSurvives (nestedDisk (some fatPrivate)) oneLetterPath [0x72]
      (withFaults subdirectoryFails ⟨k, fun _ => none⟩) ∧
    fopen (nestedDisk (some fatPrivate)) oneLetterPath [0x72]
      (withFaults subdirectoryFails ⟨k, fun _ => none⟩) = .ok (1, s') ∧
    s'.heap.given.length = 9 ∧ s'.fileDescriptors 0 ≠ none := by
  obtain ⟨fatPrivate, k, hresolve, -, hd, hk⟩ := nested_resolved
  have hpath := oneLetterPath_answered hk
  obtain ⟨h0, s₁, hasks, hs₁⟩ := subdirectoryFails_asks hk hd
  obtain ⟨hcopy, hc⟩ := hs₁.ask 32 (by decide) (by decide) (by decide) (by decide)
  obtain ⟨hdesc, hend⟩ := hc.ask 16 (by decide) (by decide) (by decide) (by decide)
  have hslot : freeSlot (fun _ : ℕ => (none : Option FileDescriptor)) = some 0 :=
    freeSlot_some.mpr ⟨by decide, rfl, fun j hj => absurd hj (Nat.not_lt_zero j)⟩
  obtain ⟨d, raw, hprivate, -⟩ := @fopenPrivate_opens _ _ _ _ ⟨k, fun _ => none⟩ _ _ _ hpath
    (oneLetterPath_looksUp fatPrivate) h0 hasks
  have hrun := @fopen_stored _ _ _ _ _ (withFaults subdirectoryFails ⟨k, fun _ => none⟩) _ _ _
    hslot hprivate hdesc
  refine ⟨fatPrivate, k, _, hresolve, ?_, hrun, hend.made, Option.some_ne_none _⟩
  refine (fopen_survives_iff fun _ => Option.some_ne_none _).mpr ⟨hpath, ?_⟩
  intro part fatPrivate' s₁' hlooks _ _ hasks'
  obtain rfl : fatPrivate = fatPrivate' := Option.some.inj hlooks.mounted
  obtain rfl : [0x41] = part :=
    (List.cons.inj ((oneLetterPath_looksUp fatPrivate).parts.symm.trans hlooks.parts)).1
  obtain rfl := hasks.unique hasks'
  exact ⟨hcopy, hdesc⟩

/-- On a full heap the root of the path is written through null. -/
theorem fopen_full_heap : ¬OpenSurvives (sampleDisk (some (samplePrivate 0 0 0 0))) oneLetterPath
    [0x72] (withFaults (fun _ => false) ⟨fullHeap, fun _ => none⟩) := by
  intro h
  have hparse : ¬PathAnswered (fun _ => false) oneLetterPath fullHeap := fun hpath =>
    fullHeap_not_answered _ 0 (hpath (by decide) 0 (by decide))
  have hprivate : fopenPrivate (sampleDisk (some (samplePrivate 0 0 0 0))) oneLetterPath [0x72]
      (behind (fun _ => false) fullHeap 0) = .error .nullPointer := by
    rw [fopenPrivate]
    exact bind_of_error (pathparserParse_null hparse) _
  exact h.noNull (fopen_error hprivate)

end Failing

end Dexter
