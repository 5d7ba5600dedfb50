import Dexter.Fs.File

/-!
# Opening and closing a file

`fopen`, any uses of the descriptor, and `fclose`. Where the path is parsed, the
`struct path_root` it leaves on the heap is never released, neither by an `fopen`
that fails nor by the `fclose` of one that succeeds.
-/

namespace Dexter
open Lib.Programs KernelHeap FileState

inductive FileUse
  | fread (size nmemb : ℕ)
  | fseek (offset : ℤ) (whence : FileSeekMode)
  | fstat
  deriving DecidableEq, Repr

def FileUse.call (fd : ℤ) : FileUse → FileCall
  | .fread size nmemb => .fread size nmemb fd
  | .fseek offset whence => .fseek fd offset whence
  | .fstat => .fstat fd

def useAll (disk : Disk) (fd : ℤ) : List FileUse → Prog Crash FileState Unit
  | [] => pure ()
  | use :: uses => do
    (use.call fd).run disk
    useAll disk fd uses

def openClose (disk : Disk) (filename modeStr : CString) (uses : List FileUse) :
    Prog Crash FileState ℤ := do
  let fd ← fopen disk filename modeStr
  if fd > 0 then do
    useAll disk fd uses
    fclose fd
  else pure fd

section Leak
variable {disk : Disk} {filename modeStr : CString} {s s' : FileState} {k k' : KernelHeap}

theorem pathparserCreateRoot_ok {driveNumber : ℤ} {root : PathRoot}
    (h : pathparserCreateRoot driveNumber k = .ok (root, k')) :
    (k.malloc 8).1 ≠ 0 ∧ k' = (k.malloc 8).2 := by
  obtain ⟨addr, k₁, halloc, hrest⟩ := bind_ok.mp h
  obtain ⟨rfl, rfl⟩ := ok_inj halloc
  split_ifs at hrest with h0
  · cases hrest
  · exact ⟨h0, (ok_inj hrest).2.symm⟩

theorem fopenPrivate_keeps_root {x : Except ℤ FatFileDescriptor} (hpath : PathAccepted filename)
    (h : fopenPrivate disk filename modeStr k = .ok (x, k')) :
    (k.malloc 8).1 ≠ 0 ∧ BuiltDescriptor {(k.malloc 8).1} True x k' := by
  obtain ⟨root, k₂, hparse, -⟩ := bind_ok.mp h
  have hparts := hparse
  rw [pathparserParse_accepted hpath] at hparts
  obtain ⟨root₁, k₁, hroot, hrest⟩ := bind_ok.mp hparts
  obtain ⟨first, k₃, hfirst, hpure⟩ := bind_ok.mp hrest
  obtain ⟨-, rfl⟩ := ok_inj hpure
  obtain ⟨h0, rfl⟩ := pathparserCreateRoot_ok hroot
  have hkept : Kept {(k.malloc 8).1} True (k.malloc 8).2 :=
    ⟨(k.malloc_spec (by decide)).owns_first h0 (by decide) (by decide), fun _ => trivial⟩
  exact ⟨h0, fopenPrivate_of_parse hparse (pathparserParseParts_kept _ _ hkept hfirst) h⟩

/-- The frame `p` is taken, and nothing the descriptor `fd` leads to is built in it. -/
structure Spared (p : ℕ) (fd : ℤ) (s : FileState) : Prop where
  kept : Kept {p} True s.heap
  loose : ∀ desc, fileGetDescriptor s fd = some desc → Loose {p} desc.pointers

theorem fopen_spares {fd : ℤ} (hpath : PathAccepted filename)
    (h : fopen disk filename modeStr s = .ok (fd, s')) :
    (s.heap.malloc 8).1 ≠ 0 ∧ Kept {(s.heap.malloc 8).1} True s'.heap ∧
      (fd > 0 → Spared (s.heap.malloc 8).1 fd s') := by
  obtain ⟨x, k, hprivate⟩ := fopen_private h
  obtain ⟨h0, hx⟩ := fopenPrivate_keeps_root hpath hprivate
  obtain ⟨r₀, desc, -, hspec⟩ := fopen_ends hprivate hx h
  refine ⟨h0, ?_⟩
  cases hspec with
  | fails s' why table kept => exact ⟨kept, fun hpos => absurd hpos (by decide)⟩
  | opens i desc s' opened slot index object table built =>
    refine ⟨built.kept, fun _ => ⟨built.kept, fun d hd => ?_⟩⟩
    have hslot : s'.fileDescriptors i = some d := by
      unfold fileGetDescriptor at hd
      split_ifs at hd
      simpa using hd
    rw [table, Function.update_self] at hslot
    obtain rfl := Option.some.inj hslot
    exact built.loose

theorem Spared.use {p : ℕ} {fd : ℤ} {use : FileUse} (hs : Spared p fd s)
    (h : (use.call fd).run disk s = .ok ((), s')) : Spared p fd s' := by
  cases use with
  | fread size nmemb =>
    obtain ⟨r, s₁, hrun, hpure⟩ := bind_ok.mp h
    obtain ⟨-, rfl⟩ := ok_inj hpure
    exact fread_same hrun ▸ hs
  | fseek offset whence =>
    obtain ⟨r, s₁, hrun, hpure⟩ := bind_ok.mp h
    obtain ⟨-, rfl⟩ := ok_inj hpure
    cases fseek_spec hrun with
    | rejects unknown => exact hs
    | moves desc x found pointers =>
      refine ⟨hs.kept, fun d hd => ?_⟩
      have hd' : d = { desc with privateData := x } := by
        unfold fileGetDescriptor at hd
        split_ifs at hd
        simpa [putSlot, eq_comm] using hd
      subst hd'
      have hloose := hs.loose desc found
      unfold FileDescriptor.pointers at hloose ⊢
      rwa [pointers]
  | fstat =>
    obtain ⟨r, s₁, hrun, hpure⟩ := bind_ok.mp h
    obtain ⟨-, rfl⟩ := ok_inj hpure
    exact fstat_same hrun ▸ hs

theorem Spared.useAll {p : ℕ} {fd : ℤ} {uses : List FileUse} (hs : Spared p fd s)
    (h : useAll disk fd uses s = .ok ((), s')) : Spared p fd s' := by
  induction uses generalizing s with
  | nil =>
    obtain ⟨-, rfl⟩ := ok_inj h
    exact hs
  | cons use uses ih =>
    obtain ⟨u, s₁, huse, hrest⟩ := bind_ok.mp h
    exact ih (hs.use huse) hrest

theorem Spared.fclose {p : ℕ} {fd r : ℤ} (hs : Spared p fd s) (h : fclose fd s = .ok (r, s')) :
    Kept {p} True s'.heap := by
  cases fclose_spec h with
  | rejects unknown => exact hs.kept
  | closes desc s' found table kept => exact kept _ _ (hs.loose desc found) hs.kept

theorem openClose_leaks {uses : List FileUse} {r : ℤ} (hpath : PathAccepted filename)
    (h : openClose disk filename modeStr uses s = .ok (r, s')) : ¬SameTable s.heap s'.heap := by
  obtain ⟨fd, s₁, hopen, hrest⟩ := bind_ok.mp h
  obtain ⟨h0, hkept, hspared⟩ := fopen_spares hpath hopen
  have hend : Kept {(s.heap.malloc 8).1} True s'.heap := by
    split_ifs at hrest with hfd
    · obtain ⟨u, s₂, huses, hclose⟩ := bind_ok.mp hrest
      exact ((hspared hfd).useAll huses).fclose hclose
    · obtain ⟨-, rfl⟩ := ok_inj hrest
      exact hkept
  exact (s.heap.malloc_spec (by decide)).not_sameTable h0 hend.owns

theorem fopen_rejected (hpath : ¬PathAccepted filename) :
    fopen disk filename modeStr s = .ok (0, s) := by
  have hprivate : fopenPrivate disk filename modeStr s.heap = .ok (.error (-eInvArg), s.heap) := by
    rw [fopenPrivate, pathparserParse_rejected hpath]
    rfl
  have hfiles : onHeap (fopenPrivate disk filename modeStr) s = .ok (.error (-eInvArg), s) :=
    zoom_of_ok hprivate
  have hbody : fopenBody disk filename modeStr s = .ok ((-eInvArg, none), s) := by
    rw [fopenBody, bind_of_ok hfiles]
    rfl
  rw [fopen, bind_of_ok hbody]
  rfl

theorem openClose_rejected {uses : List FileUse} (hpath : ¬PathAccepted filename) :
    openClose disk filename modeStr uses s = .ok (0, s) := by
  rw [openClose, bind_of_ok (fopen_rejected hpath)]
  rfl

/-- Opening and closing a file leaves the heap table and the descriptor table as they were
exactly if the path is one that is not parsed. -/
theorem open_close_neutral_iff {uses : List FileUse} {r : ℤ}
    (h : openClose disk filename modeStr uses s = .ok (r, s')) :
    SameTable s.heap s'.heap ∧ s'.fileDescriptors = s.fileDescriptors ↔
      ¬PathAccepted filename := by
  constructor
  · exact fun hsame hpath => openClose_leaks hpath h hsame.1
  · intro hpath
    rw [openClose_rejected hpath] at h
    obtain ⟨-, rfl⟩ := ok_inj h
    exact ⟨SameTable.refl _, rfl⟩

end Leak

theorem openClose_sample : ∃ (fatPrivate : FatPrivate) (k : KernelHeap) (r : ℤ) (s' : FileState),
    openClose (sampleDisk fatPrivate) samplePath [0x72] [] ⟨k, fun _ => none⟩ = .ok (r, s') := by
  obtain ⟨dir, s₁, s₂, s₃, k, s, desc, hsample⟩ := sampleOpened_exists
  obtain ⟨r, s', hclose⟩ := fclose_ok 1 s
  refine ⟨samplePrivate dir s₁ s₂ s₃, k, r, s', ?_⟩
  rw [openClose, bind_of_ok hsample.opened, if_pos (by decide), useAll]
  exact hclose

/-- `A` is opened and closed, and the heap table is not what it was. -/
theorem open_close_not_neutral : ∃ (fatPrivate : FatPrivate) (s s' : FileState) (r : ℤ),
    openClose (sampleDisk fatPrivate) samplePath [0x72] [] s = .ok (r, s') ∧
      ¬(SameTable s.heap s'.heap ∧ s'.fileDescriptors = s.fileDescriptors) := by
  obtain ⟨fatPrivate, k, r, s', h⟩ := openClose_sample
  exact ⟨fatPrivate, _, s', r, h, fun hsame => openClose_leaks (by decide) h hsame.1⟩

theorem open_close_neutral_iff_sample : ∃ (fatPrivate : FatPrivate) (s s' : FileState) (r : ℤ),
    openClose (sampleDisk fatPrivate) samplePath [0x72] [] s = .ok (r, s') ∧
      (SameTable s.heap s'.heap ∧ s'.fileDescriptors = s.fileDescriptors ↔
        ¬PathAccepted samplePath) := by
  obtain ⟨fatPrivate, k, r, s', h⟩ := openClose_sample
  exact ⟨fatPrivate, _, s', r, h, open_close_neutral_iff h⟩

end Dexter
