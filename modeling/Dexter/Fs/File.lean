import Dexter.Fs.Lookup

/-!
# Files (`fs/file.c`)

There is one disk and one file system, so the calls through `desc->filesystem` and
`disk->filesystem` are calls of `fs/fat16.c`, and a descriptor is its index and its
private data. Slot `i` of the table belongs to the descriptor number `i + 1`.
-/

namespace Dexter
open Lib.Programs Lib.Faults KernelHeap

structure FileDescriptor where
  addr : ℕ
  index : ℤ
  privateData : FatFileDescriptor

/-- The table of descriptors, over the heap that its objects come from. -/
structure DescriptorLayer (σ : Type) where
  heap : σ
  fileDescriptors : ℕ → Option FileDescriptor

abbrev FileState := DescriptorLayer KernelHeap

namespace FileState
variable {σ : Type}

def onHeap {α : Type} (prog : Prog Crash σ α) : Prog Crash (DescriptorLayer σ) α :=
  zoom DescriptorLayer.heap (fun k s => { s with heap := k }) prog

def putSlot (i : ℕ) (desc : Option FileDescriptor) (s : DescriptorLayer σ) : DescriptorLayer σ :=
  { s with fileDescriptors := Function.update s.fileDescriptors i desc }

end FileState
open FileState

def freeSlot (table : ℕ → Option FileDescriptor) : Option ℕ :=
  (List.range dexterMaxFileDescriptors).find? fun i => (table i).isNone

/-- The descriptor is stored with the fields that `fopen` fills in right after. -/
def fileNewDescriptor {σ : Type} [Requests σ] (privateData : FatFileDescriptor) :
    Prog Crash (DescriptorLayer σ) (Except ℤ FileDescriptor) := do
  let s ← get
  match freeSlot s.fileDescriptors with
  | none => pure (.error (-eNoMem))
  | some i => do
    let addr ← onHeap (kzalloc 16)
    if addr = 0 then abort .nullPointer
    else do
      let desc : FileDescriptor := ⟨addr, i + 1, privateData⟩
      modify (putSlot i (some desc))
      pure (.ok desc)

def fileGetDescriptor (s : FileState) (fd : ℤ) : Option FileDescriptor :=
  if fd ≤ 0 ∨ fd ≥ dexterMaxFileDescriptors then none else s.fileDescriptors (fd - 1).toNat

def fileFreeDescriptor (desc : FileDescriptor) : Prog Crash FileState Unit := do
  modify (putSlot (desc.index - 1).toNat none)
  onHeap (kfree desc.addr)

def strncmp : CString → CString → ℕ → ℤ
  | _, _, 0 => 0
  | [], s2, _ + 1 => 0 - (s2.headD 0).toNat
  | c :: s1, s2, n + 1 => if c = s2.headD 0 then strncmp s1 s2.tail n else c.toNat - (s2.headD 0).toNat

def fileGetModeByString (str : CString) : FileMode :=
  if strncmp str [0x72] 1 = 0 then .read
  else if strncmp str [0x77] 1 = 0 then .write
  else if strncmp str [0x61] 1 = 0 then .append
  else .invalid

section Opening
variable {σ : Type} [Requests σ]

def fopenPrivate (disk : Disk) (filename modeStr : CString) :
    Prog Crash σ (Except ℤ FatFileDescriptor) := do
  let rootPath ← pathparserParse filename
  match rootPath with
  | none => pure (.error (-eInvArg))
  | some root =>
    if root.first = [] then pure (.error (-eInvArg))
    else if root.driveNo ≠ 0 then pure (.error (-eIo))
    else if disk.filesystem = false then pure (.error (-eIo))
    else if fileGetModeByString modeStr = .invalid then pure (.error (-eInvArg))
    else fat16Open disk root.first (fileGetModeByString modeStr)

/-- `fopen` up to the label `out`, with the values of `r` and `desc` there. -/
def fopenBody (disk : Disk) (filename modeStr : CString) :
    Prog Crash (DescriptorLayer σ) (ℤ × Option FileDescriptor) := do
  let descriptorPrivateData ← onHeap (fopenPrivate disk filename modeStr)
  match descriptorPrivateData with
  | .error r => pure (r, none)
  | .ok privateData => do
    let desc ← fileNewDescriptor privateData
    match desc with
    | .error r => pure (r, none)
    | .ok desc => pure (desc.index, some desc)

def fopen (disk : Disk) (filename modeStr : CString) : Prog Crash (DescriptorLayer σ) ℤ := do
  let r ← fopenBody disk filename modeStr
  if r.1 < 0 then pure 0 else pure r.1

end Opening

def fread (disk : Disk) (size nmemb : ℕ) (fd : ℤ) : Prog Crash FileState (ℤ × List UInt8) := do
  let s ← get
  if size = 0 ∨ nmemb = 0 ∨ fd < 1 then pure (-eInvArg, [])
  else
    match fileGetDescriptor s fd with
    | none => pure (-eInvArg, [])
    | some desc => ofExcept (fat16Read disk desc.privateData size nmemb)

def fclose (fd : ℤ) : Prog Crash FileState ℤ := do
  let s ← get
  match fileGetDescriptor s fd with
  | none => pure (-eIo)
  | some desc => do
    let r ← onHeap (fat16Close desc.privateData)
    onlyIf (r = dexterAllOk) (fileFreeDescriptor desc)
    pure r

def fstat (fd : ℤ) : Prog Crash FileState (ℤ × Option FileStat) := do
  let s ← get
  match fileGetDescriptor s fd with
  | none => pure (-eIo, none)
  | some desc => ofExcept (fat16Stat desc.privateData)

def fseek (fd offset : ℤ) (whence : FileSeekMode) : Prog Crash FileState ℤ := do
  let s ← get
  match fileGetDescriptor s fd with
  | none => if fd = 0 then pure (-eIo) else abort .nullPointer
  | some desc => do
    let r ← ofExcept (fat16Seek desc.privateData (u32 offset) whence)
    modify (putSlot (fd - 1).toNat (some { desc with privateData := r.2 }))
    pure r.1

inductive FileCall
  | fopen (filename modeStr : CString)
  | fread (size nmemb : ℕ) (fd : ℤ)
  | fseek (fd offset : ℤ) (whence : FileSeekMode)
  | fstat (fd : ℤ)
  | fclose (fd : ℤ)
  deriving DecidableEq, Repr

def FileCall.run (disk : Disk) : FileCall → Prog Crash FileState Unit
  | .fopen filename modeStr => do
    let _ ← Dexter.fopen disk filename modeStr
    pure ()
  | .fread size nmemb fd => do
    let _ ← Dexter.fread disk size nmemb fd
    pure ()
  | .fseek fd offset whence => do
    let _ ← Dexter.fseek fd offset whence
    pure ()
  | .fstat fd => do
    let _ ← Dexter.fstat fd
    pure ()
  | .fclose fd => do
    let _ ← Dexter.fclose fd
    pure ()

section Slots
variable {table : ℕ → Option FileDescriptor} {i : ℕ}

theorem freeSlot_some :
    freeSlot table = some i ↔ i < 512 ∧ table i = none ∧ ∀ j < i, table j ≠ none := by
  simp only [freeSlot, List.find?_range_eq_some, List.mem_range, dexterMaxFileDescriptors,
    Option.isNone_iff_eq_none, Bool.not_eq_true', Option.isNone_eq_false_iff,
    Option.isSome_iff_ne_none]
  tauto

theorem freeSlot_none : freeSlot table = none ↔ ∀ i < 512, table i ≠ none := by
  simp [freeSlot]

theorem fileGetDescriptor_slot {s : FileState} (hi : i < 511) :
    fileGetDescriptor s (i + 1) = s.fileDescriptors i := by
  unfold fileGetDescriptor
  rw [if_neg (by simp only [dexterMaxFileDescriptors]; omega)]
  congr 1
  omega

end Slots

section Opened
variable {σ : Type} [Requests σ] {disk : Disk} {fatPrivate : FatPrivate} {s s' : σ}
  {d : FatFileDescriptor}

theorem fat16Open_ok {path : List PathPart} {mode : FileMode}
    (hp : disk.fsPrivate = some fatPrivate) (hpath : path ≠ []) :
    fat16Open disk path mode s = .ok (.ok d, s') ↔
      ∃ part item, path = [part] ∧ mode = .read ∧ (Requests.ask 8 s).1 ≠ 0 ∧
        fat16FindItemInDirectory disk fatPrivate.rootDirectory.toFatDirectory part.part
          (Requests.ask 8 s).2 = .ok (some item, s') ∧ d = ⟨(Requests.ask 8 s).1, item, 0⟩ := by
  obtain ⟨first, rest, rfl⟩ := List.exists_cons_of_ne_nil hpath
  rw [fat16Open]
  constructor
  · intro h
    split_ifs at h with hmode
    · cases h
    rw [bind_of_ok (kzalloc_apply 8 s)] at h
    split_ifs at h with h0
    · cases h
    obtain ⟨r, t, hentry, h⟩ := bind_ok.mp h
    obtain ⟨r, hfind, rfl⟩ := (getDirectoryEntry_ok hp).mp hentry
    by_cases hrest : rest = []
    · subst hrest
      cases r with
      | none => cases h
      | some item =>
        obtain ⟨heq, rfl⟩ := ok_inj h
        exact ⟨first, item, rfl, not_not.mp hmode, h0, hfind, (Except.ok.inj heq).symm⟩
    · rw [if_neg hrest] at h
      cases h
  · rintro ⟨part, item, heq, rfl, h0, hfind, rfl⟩
    obtain ⟨rfl, rfl⟩ := List.cons.inj heq
    rw [if_neg (not_not.mpr rfl), bind_of_ok (kzalloc_apply 8 s), if_neg h0,
      bind_of_ok ((getDirectoryEntry_ok hp).mpr ⟨_, hfind, (if_pos rfl).symm⟩)]
    rfl

theorem fopenPrivate_filesystem {filename modeStr : CString}
    (h : fopenPrivate disk filename modeStr s = .ok (.ok d, s')) : disk.filesystem = true := by
  obtain ⟨root, s₁, -, h⟩ := bind_ok.mp h
  cases root with
  | none => cases h
  | some root =>
    dsimp only at h
    split_ifs at h with hfirst hdrive hfs hmode
    · cases h
    · cases h
    · cases h
    · cases h
    · exact Bool.eq_true_of_not_eq_false hfs

theorem fopenPrivate_error {filename modeStr : CString} {e : ℤ}
    (h : fopenPrivate disk filename modeStr s = .ok (.error e, s')) : e < 0 := by
  obtain ⟨root, s₁, -, h⟩ := bind_ok.mp h
  have herror : ∀ {e' : ℤ} {t : σ}, e' < 0 →
      (pure (.error e') : Prog Crash σ (Except ℤ FatFileDescriptor)) t = .ok (.error e, s') →
        e < 0 := by
    intro e' t he' h'
    obtain rfl := Except.error.inj (ok_inj h').1
    exact he'
  cases root with
  | none => exact herror (by decide) h
  | some root =>
    dsimp only at h
    split_ifs at h with hfirst hdrive hfs hmode
    · exact herror (by decide) h
    · exact herror (by decide) h
    · exact herror (by decide) h
    · exact herror (by decide) h
    rw [fat16Open] at h
    split_ifs at h with hread
    · exact herror (by decide) h
    obtain ⟨p, s₂, -, h⟩ := bind_ok.mp h
    split_ifs at h with h0
    · exact herror (by decide) h
    obtain ⟨item, s₃, -, h⟩ := bind_ok.mp h
    cases item with
    | none => exact herror (by decide) h
    | some item => cases h

theorem fopenPrivate_ok {filename modeStr : CString} (hp : disk.fsPrivate = some fatPrivate) :
    fopenPrivate disk filename modeStr s = .ok (.ok d, s') ↔
      ∃ root s₁ part item, pathparserParse filename s = .ok (some root, s₁) ∧
        root.first = [part] ∧ root.driveNo = 0 ∧ disk.filesystem = true ∧
        fileGetModeByString modeStr = .read ∧ (Requests.ask 8 s₁).1 ≠ 0 ∧
        fat16FindItemInDirectory disk fatPrivate.rootDirectory.toFatDirectory part.part
          (Requests.ask 8 s₁).2 = .ok (some item, s') ∧ d = ⟨(Requests.ask 8 s₁).1, item, 0⟩ := by
  constructor
  · intro h
    obtain ⟨root, s₁, hparse, h⟩ := bind_ok.mp h
    cases root with
    | none => cases h
    | some root =>
      dsimp only at h
      split_ifs at h with hfirst hdrive hfs hmode
      · cases h
      · cases h
      · cases h
      · cases h
      obtain ⟨part, item, hpart, hread, h0, hfind, hd⟩ := (fat16Open_ok hp hfirst).mp h
      exact ⟨root, s₁, part, item, hparse, hpart, not_not.mp hdrive,
        Bool.eq_true_of_not_eq_false hfs, hread, h0, hfind, hd⟩
  · rintro ⟨root, s₁, part, item, hparse, hpart, hdrive, hfs, hread, h0, hfind, rfl⟩
    have hfirst : root.first ≠ [] := hpart ▸ List.cons_ne_nil part []
    rw [fopenPrivate, bind_of_ok hparse]
    dsimp only
    rw [if_neg hfirst, if_neg (not_not.mpr hdrive), if_neg (by rw [hfs]; decide), hread,
      if_neg (by decide)]
    exact (fat16Open_ok hp hfirst).mpr ⟨part, item, hpart, rfl, h0, hfind, rfl⟩

end Opened

def FileDescriptor.pointers (desc : FileDescriptor) : Set ℕ :=
  {desc.addr} ∪ desc.privateData.pointers

section Specs
variable {A : Set ℕ} {c : Prop} {disk : Disk} {s s' : FileState} {r : ℤ}

theorem fopenPrivate_of_parse {filename modeStr : CString} {k k₁ k' : KernelHeap}
    {root : Option PathRoot} {x : Except ℤ FatFileDescriptor}
    (hparse : pathparserParse filename k = .ok (root, k₁)) (hk : Kept A c k₁)
    (h : fopenPrivate disk filename modeStr k = .ok (x, k')) : BuiltDescriptor A c x k' := by
  rw [fopenPrivate, bind_of_ok hparse] at h
  have herror : ∀ e : ℤ, e < 0 → Triple (Kept A c)
      (pure (.error e) : Prog Crash KernelHeap (Except ℤ FatFileDescriptor))
      (BuiltDescriptor A c) := fun e he => Triple.pure fun _ hk => ⟨he, hk⟩
  cases root with
  | none => exact herror _ (by decide) hk h
  | some root =>
    refine Triple.ite (fun _ => herror _ (by decide)) (fun _ => ?_) hk h
    apply Triple.ite (fun _ => herror _ (by decide))
    intro _
    apply Triple.ite (fun _ => herror _ (by decide))
    intro _
    apply Triple.ite (fun _ => herror _ (by decide))
    intro _
    exact fat16Open_kept disk _ _

theorem fopenPrivate_kept (disk : Disk) (filename modeStr : CString) :
    Triple (Kept A c) (fopenPrivate disk filename modeStr) (BuiltDescriptor A c) := by
  intro k x k' hk h
  obtain ⟨root, k₁, hparse, -⟩ := bind_ok.mp h
  exact fopenPrivate_of_parse hparse (pathparserParse_kept filename hk hparse).1 h

def Opens (disk : Disk) (filename modeStr : CString) (k : KernelHeap) : Prop :=
  ∃ d k', fopenPrivate disk filename modeStr k = .ok (.ok d, k')

inductive Fopen (A : Set ℕ) (c opens : Prop) (s : FileState) :
    ℤ → Option FileDescriptor → FileState → Prop
  | fails (s' : FileState) (why : ¬opens ∨ freeSlot s.fileDescriptors = none)
      (table : s'.fileDescriptors = s.fileDescriptors)
      (kept : Kept A c s'.heap) : Fopen A c opens s 0 none s'
  | opens (i : ℕ) (desc : FileDescriptor) (s' : FileState) (opened : opens)
      (slot : freeSlot s.fileDescriptors = some i) (index : desc.index = i + 1)
      (object : desc.addr ≠ 0)
      (table : s'.fileDescriptors = Function.update s.fileDescriptors i (some desc))
      (built : Built A c desc.pointers s'.heap) : Fopen A c opens s (i + 1) (some desc) s'

theorem fileNewDescriptor_ok {privateData : FatFileDescriptor} {x : Except ℤ FileDescriptor}
    (hk : Built A c privateData.pointers s.heap)
    (h : fileNewDescriptor privateData s = .ok (x, s')) :
    (x = .error (-eNoMem) ∧ freeSlot s.fileDescriptors = none ∧ s' = s) ∨
    ∃ i desc, x = .ok desc ∧ freeSlot s.fileDescriptors = some i ∧ desc.index = i + 1 ∧
      desc.addr ≠ 0 ∧ s'.fileDescriptors = Function.update s.fileDescriptors i (some desc) ∧
      Built A c desc.pointers s'.heap := by
  rw [fileNewDescriptor, bind_of_ok (get_apply _)] at h
  cases hslot : freeSlot s.fileDescriptors with
  | none =>
    rw [hslot] at h
    obtain ⟨rfl, rfl⟩ := ok_inj h
    exact Or.inl ⟨rfl, rfl, rfl⟩
  | some i =>
    rw [hslot] at h
    obtain ⟨addr, s₁, halloc, h⟩ := bind_ok.mp h
    obtain ⟨k, hk₁, rfl⟩ := zoom_ok.mp halloc
    have hbuilt := kzalloc_built (by decide) (by decide) hk.all hk₁
    split_ifs at h with h0
    · cases h
    · obtain ⟨u, s₂, hmod, h⟩ := bind_ok.mp h
      obtain ⟨rfl, rfl⟩ := ok_inj h
      rw [modify_apply] at hmod
      obtain ⟨-, rfl⟩ := ok_inj hmod
      refine Or.inr ⟨i, ⟨addr, i + 1, privateData⟩, rfl, rfl, rfl, h0, rfl, ?_⟩
      have hjoin := Built.join hk.loose hbuilt
      rwa [Set.union_comm] at hjoin

theorem fopen_ends {filename modeStr : CString} {x : Except ℤ FatFileDescriptor} {k : KernelHeap}
    (hprivate : fopenPrivate disk filename modeStr s.heap = .ok (x, k))
    (hx : BuiltDescriptor A c x k) (h : fopen disk filename modeStr s = .ok (r, s')) :
    ∃ r₀ desc, fopenBody disk filename modeStr s = .ok ((r₀, desc), s') ∧
      Fopen A c (Opens disk filename modeStr s.heap) s r desc s' := by
  obtain ⟨⟨r₀, desc⟩, s₁, hbody, h⟩ := bind_ok.mp h
  have hfiles : onHeap (fopenPrivate disk filename modeStr) s = .ok (x, { s with heap := k }) :=
    zoom_of_ok hprivate
  have hrest := hbody
  rw [fopenBody, bind_of_ok hfiles] at hrest
  -- the end of `fopen`
  have hend : s' = s₁ ∧ r = if r₀ < 0 then 0 else r₀ := by
    split_ifs at h ⊢ <;> obtain ⟨rfl, rfl⟩ := ok_inj h <;> exact ⟨rfl, rfl⟩
  obtain ⟨rfl, rfl⟩ := hend
  refine ⟨r₀, desc, hbody, ?_⟩
  cases x with
  | error e =>
    obtain ⟨heq, rfl⟩ := ok_inj hrest
    obtain ⟨rfl, rfl⟩ := Prod.mk.inj heq
    rw [if_pos hx.1]
    refine .fails _ (Or.inl fun ⟨d, k', hd⟩ => ?_) rfl hx.2
    rw [hprivate] at hd
    cases hd
  | ok privateData =>
    obtain ⟨y, s₃, hnew, hrest⟩ := bind_ok.mp hrest
    rcases fileNewDescriptor_ok (s := { s with heap := k }) hx hnew with
      ⟨rfl, hnone, rfl⟩ | ⟨i, d, rfl, hslot, hindex, hobj, htable, hbuilt⟩
    · obtain ⟨heq, rfl⟩ := ok_inj hrest
      obtain ⟨rfl, rfl⟩ := Prod.mk.inj heq
      rw [if_pos (by decide)]
      exact .fails _ (Or.inr hnone) rfl (Built.kept hx)
    · obtain ⟨heq, rfl⟩ := ok_inj hrest
      obtain ⟨rfl, rfl⟩ := Prod.mk.inj heq
      rw [hindex, if_neg (by omega)]
      exact .opens i d _ ⟨privateData, k, hprivate⟩ hslot hindex hobj htable hbuilt

theorem fopen_private {filename modeStr : CString}
    (h : fopen disk filename modeStr s = .ok (r, s')) :
    ∃ x k, fopenPrivate disk filename modeStr s.heap = .ok (x, k) := by
  obtain ⟨r₀, s₁, hbody, -⟩ := bind_ok.mp h
  obtain ⟨x, s₂, hprivate, -⟩ := bind_ok.mp hbody
  obtain ⟨k, hk, -⟩ := zoom_ok.mp hprivate
  exact ⟨x, k, hk⟩

theorem fopen_spec {filename modeStr : CString} (hk : Kept A c s.heap)
    (h : fopen disk filename modeStr s = .ok (r, s')) :
    ∃ r₀ desc, fopenBody disk filename modeStr s = .ok ((r₀, desc), s') ∧
      Fopen A c (Opens disk filename modeStr s.heap) s r desc s' := by
  obtain ⟨x, k, hprivate⟩ := fopen_private h
  exact fopen_ends hprivate (fopenPrivate_kept disk filename modeStr hk hprivate) h

theorem fread_same {size nmemb : ℕ} {fd : ℤ} {r : ℤ × List UInt8}
    (h : fread disk size nmemb fd s = .ok (r, s')) : s' = s := by
  rw [fread, bind_of_ok (get_apply _)] at h
  split_ifs at h with hargs
  · exact (ok_inj h).2.symm
  · cases hfd : fileGetDescriptor s fd with
    | none =>
      rw [hfd] at h
      exact (ok_inj h).2.symm
    | some desc =>
      rw [hfd] at h
      exact (ofExcept_ok.mp h).2

theorem fstat_same {fd : ℤ} {r : ℤ × Option FileStat} (h : fstat fd s = .ok (r, s')) :
    s' = s := by
  rw [fstat, bind_of_ok (get_apply _)] at h
  cases hfd : fileGetDescriptor s fd with
  | none =>
    rw [hfd] at h
    exact (ok_inj h).2.symm
  | some desc =>
    rw [hfd] at h
    exact (ofExcept_ok.mp h).2

inductive Fseek (s : FileState) (fd : ℤ) : FileState → Prop
  | rejects (unknown : fileGetDescriptor s fd = none) : Fseek s fd s
  | moves (desc : FileDescriptor) (x : FatFileDescriptor)
      (found : fileGetDescriptor s fd = some desc)
      (pointers : x.pointers = desc.privateData.pointers) :
      Fseek s fd (putSlot (fd - 1).toNat (some { desc with privateData := x }) s)

theorem fat16Seek_pointers {desc : FatFileDescriptor} {offset : ℕ} {seekMode : FileSeekMode}
    {x : ℤ × FatFileDescriptor} (h : fat16Seek desc offset seekMode = .ok x) :
    x.2.pointers = desc.pointers := by
  unfold fat16Seek at h
  split at h
  · obtain rfl := Except.ok.inj h
    rfl
  · split_ifs at h
    · obtain rfl := Except.ok.inj h
      rfl
    · cases seekMode <;> obtain rfl := Except.ok.inj h <;> rfl

theorem fseek_spec {fd offset : ℤ} {whence : FileSeekMode}
    (h : fseek fd offset whence s = .ok (r, s')) : Fseek s fd s' := by
  rw [fseek, bind_of_ok (get_apply _)] at h
  cases hfd : fileGetDescriptor s fd with
  | none =>
    rw [hfd] at h
    dsimp only at h
    split_ifs at h
    · obtain ⟨-, rfl⟩ := ok_inj h
      exact .rejects hfd
    · cases h
  | some desc =>
    rw [hfd] at h
    obtain ⟨x, s₁, hseek, hrest⟩ := bind_ok.mp h
    obtain ⟨u, s₂, hmodify, hpure⟩ := bind_ok.mp hrest
    obtain ⟨hx, rfl⟩ := ofExcept_ok.mp hseek
    obtain ⟨-, rfl⟩ := ok_inj hmodify
    obtain ⟨-, rfl⟩ := ok_inj hpure
    exact .moves desc x.2 hfd (fat16Seek_pointers hx)

inductive Fclose (s : FileState) (fd : ℤ) : ℤ → FileState → Prop
  | rejects (unknown : fileGetDescriptor s fd = none) : Fclose s fd (-eIo) s
  | closes (desc : FileDescriptor) (s' : FileState) (found : fileGetDescriptor s fd = some desc)
      (table : s'.fileDescriptors =
        Function.update s.fileDescriptors (desc.index - 1).toNat none)
      (kept : ∀ A c, Loose A desc.pointers → Kept A c s.heap → Kept A c s'.heap) :
      Fclose s fd 0 s'

theorem fclose_spec {fd : ℤ} (h : fclose fd s = .ok (r, s')) : Fclose s fd r s' := by
  rw [fclose, bind_of_ok (get_apply _)] at h
  cases hfound : fileGetDescriptor s fd with
  | none =>
    rw [hfound] at h
    obtain ⟨rfl, rfl⟩ := ok_inj h
    exact .rejects hfound
  | some desc =>
    rw [hfound] at h
    obtain ⟨r₀, s₁, hclose, h⟩ := bind_ok.mp h
    obtain ⟨k, hk, rfl⟩ := zoom_ok.mp hclose
    obtain ⟨u, s₂, hfree, h⟩ := bind_ok.mp h
    obtain ⟨rfl, rfl⟩ := ok_inj h
    have hr₀ : r₀ = 0 := by
      obtain ⟨v, k₁, -, hpure⟩ := bind_ok.mp hk
      exact (ok_inj hpure).1.symm
    subst hr₀
    rw [onlyIf, if_pos rfl] at hfree
    obtain ⟨v, s₃, hslot, hfree⟩ := bind_ok.mp hfree
    obtain ⟨-, rfl⟩ := ok_inj hslot
    obtain ⟨k', hk', rfl⟩ := zoom_ok.mp hfree
    refine .closes desc _ hfound rfl fun A c hloose hkept => ?_
    have hdata : Loose A desc.privateData.pointers := fun p hp => hloose p (Or.inr hp)
    exact hloose.kfree (Or.inl rfl) (fat16Close_kept hdata hkept hk).2 hk'

theorem fclose_ok (fd : ℤ) (s : FileState) : ∃ r s', fclose fd s = .ok (r, s') := by
  rw [fclose, bind_of_ok (get_apply _)]
  cases fileGetDescriptor s fd with
  | none => exact ⟨-eIo, s, rfl⟩
  | some desc =>
    obtain ⟨k, hclose⟩ := fat16Close_ok desc.privateData s.heap
    have hrun : onHeap (fat16Close desc.privateData) s = .ok (0, { s with heap := k }) :=
      zoom_of_ok hclose
    dsimp only
    rw [bind_of_ok hrun]
    exact ⟨0, _, rfl⟩

end Specs

def samplePath : CString := [0x30, 0x3a, 0x2f, 0x41]

/-- The path names a file of the root directory: what is behind the name is empty. -/
structure NamesFile (name path : CString) : Prop where
  nonempty : name ≠ []
  accepted : PathAccepted path
  drive : tonumericdigit (path.getD 0 0) = 0
  part : (nextPart (path.drop 3)).1 = name
  last : (nextPart (nextPart (path.drop 3)).2).1 = []

theorem samplePath_names : NamesFile [0x41] samplePath := ⟨by decide, by decide, rfl, by decide, by decide⟩

section Sample
variable {m : ℕ}

theorem pathparserGetPathPart_room (path : CString) (hm : m + 1 ≤ 25600) :
    Returns (Room m) (pathparserGetPathPart path) fun p k =>
      (p = 0 ↔ (nextPart path).1 = []) ∧ Room (m + 1) k := by
  refine Returns.bind (kzalloc_page (by decide) (by decide) hm) fun p => Returns.fact fun hp => ?_
  by_cases hnil : (nextPart path).1 = []
  · rw [if_pos hnil]
    exact Returns.bind (kfree_room p) fun _ => Returns.pure fun _ hk => ⟨by simp [hnil], hk⟩
  · rw [if_neg hnil, if_neg hp]
    exact Returns.pure fun _ hk => ⟨by simp [hnil, hp], hk⟩

theorem pathparserParse_named {name path : CString} (hpath : NamesFile name path) (hm : m + 4 ≤ 25600) :
    Returns (Room m) (pathparserParse path) fun r k =>
      (∃ root part, r = some root ∧ root.driveNo = 0 ∧ root.first = [part] ∧ part.part = name) ∧
        Room (m + 4) k := by
  have hsome : (nextPart (path.drop 3)).1 ≠ [] := hpath.part ▸ hpath.nonempty
  have hlong := nextPart_length hsome
  obtain ⟨n, hn⟩ := Nat.exists_eq_succ_of_ne_zero (Nat.ne_zero_of_lt hlong)
  have hroot : Returns (Room m) (pathparserCreateRoot 0) fun root k =>
      (root.driveNo = 0) ∧ Room (m + 1) k := by
    refine Returns.bind (kzalloc_page (by decide) (by decide) (by omega)) fun p =>
      Returns.fact fun hp => ?_
    exact Returns.ite_neg hp (Returns.pure fun _ hk => ⟨rfl, hk⟩)
  have hend : Returns (Room (m + 3)) (pathparserParseParts (n + 1) (nextPart (path.drop 3)).2)
      fun r k => r = [] ∧ Room (m + 4) k := by
    rw [pathparserParseParts]
    refine Returns.bind (pathparserGetPathPart_room _ (by omega)) fun p => Returns.fact fun hp => ?_
    rw [if_pos (hp.mpr hpath.last)]
    exact Returns.pure fun _ hk => ⟨rfl, hk⟩
  have hparts : Returns (Room (m + 1)) (pathparserParseParts (n + 1 + 1) (path.drop 3)) fun r k =>
      (∃ part : PathPart, r = [part] ∧ part.part = name) ∧ Room (m + 4) k := by
    rw [pathparserParseParts, hpath.part]
    refine Returns.bind (pathparserGetPathPart_room _ (by omega)) fun p =>
      Returns.fact fun hp => ?_
    refine Returns.ite_neg (fun h => absurd (hp.mp h) hsome) ?_
    refine Returns.bind (kzalloc_page (by decide) (by decide) (by omega)) fun addr =>
      Returns.fact fun haddr => Returns.ite_neg haddr ?_
    refine Returns.bind hend fun r => Returns.fact fun hr => ?_
    subst hr
    exact Returns.pure fun _ hk => ⟨⟨⟨addr, p, name⟩, rfl, rfl⟩, hk⟩
  rw [pathparserParse_accepted hpath.accepted, hpath.drive, hn]
  refine Returns.bind hroot fun root => Returns.fact fun hdrive => ?_
  refine Returns.bind hparts fun r => Returns.fact fun hr => ?_
  obtain ⟨part, rfl, hpart⟩ := hr
  exact Returns.pure fun _ hk => ⟨⟨_, part, rfl, hdrive, rfl, hpart⟩, hk⟩

variable {disk : Disk} {fatPrivate : FatPrivate} {item : FatDirectoryItem}
  {name path : CString}

theorem fopenPrivate_room (hpath : NamesFile name path) (hm : m + 7 ≤ 25600)
    (hfs : disk.filesystem = true) (hp : disk.fsPrivate = some fatPrivate)
    (hone : OneFile name fatPrivate item) :
    Returns (Room m) (fopenPrivate disk path [0x72])
      fun r k => (∃ addr fItem copy, r = .ok ⟨addr, ⟨fItem, .file copy item⟩, 0⟩ ∧ copy ≠ 0) ∧
        Room (m + 7) k := by
  refine Returns.bind (pathparserParse_named hpath (by omega)) fun r => Returns.fact fun hr => ?_
  obtain ⟨root, part, rfl, hdrive, hfirst, hpart⟩ := hr
  dsimp only
  rw [hfirst, hdrive]
  refine Returns.ite_neg (by simp) (Returns.ite_neg (by decide) (Returns.ite_neg (by simp [hfs])
    (Returns.ite_neg (by decide) ?_)))
  exact fat16Open_room hp hone part hpart hm

def AtStart (item : FatDirectoryItem) (desc : FileDescriptor) : Prop :=
  ∃ addr fItem copy, desc.privateData = ⟨addr, ⟨fItem, .file copy item⟩, 0⟩ ∧ copy ≠ 0

theorem fileNewDescriptor_room (privateData : FatFileDescriptor) (hm : m + 1 ≤ 25600)
    {table : ℕ → Option FileDescriptor} {i : ℕ} (hslot : freeSlot table = some i) :
    Returns (fun s => s.fileDescriptors = table ∧ Room m s.heap) (fileNewDescriptor privateData)
      fun r s => (∃ desc, r = .ok desc ∧ desc.privateData = privateData ∧ desc.index = i + 1 ∧
        s.fileDescriptors = Function.update table i (some desc)) ∧ Room (m + 1) s.heap := by
  intro s hs
  obtain ⟨rfl, hroom⟩ := hs
  obtain ⟨p, k, hrun, hp, hk⟩ := @kzalloc_page m 16 (by decide) (by decide) hm s.heap hroom
  have halloc : onHeap (kzalloc 16) s = .ok (p, { s with heap := k }) := zoom_of_ok hrun
  refine ⟨.ok ⟨p, i + 1, privateData⟩, putSlot i (some ⟨p, i + 1, privateData⟩)
    { s with heap := k }, ?_, ⟨_, rfl, rfl, rfl, rfl⟩, hk⟩
  rw [fileNewDescriptor, bind_of_ok (get_apply _), hslot]
  dsimp only
  rw [bind_of_ok halloc, if_neg hp, bind_of_ok (modify_apply _ _), pure_apply]

theorem fopen_room (hpath : NamesFile name path) (hm : m + 8 ≤ 25600) (hfs : disk.filesystem = true)
    (hp : disk.fsPrivate = some fatPrivate) (hone : OneFile name fatPrivate item)
    {table : ℕ → Option FileDescriptor} {i : ℕ} (hslot : freeSlot table = some i) :
    Returns (fun s => s.fileDescriptors = table ∧ Room m s.heap) (fopen disk path [0x72])
      fun r s => (r = i + 1 ∧ ∃ desc, AtStart item desc ∧ desc.index = i + 1 ∧
        s.fileDescriptors = Function.update table i (some desc)) ∧ Room (m + 8) s.heap := by
  have hbody : Returns (fun s => s.fileDescriptors = table ∧ Room m s.heap)
      (fopenBody disk path [0x72])
      fun r s => (r.1 = i + 1 ∧ ∃ desc, AtStart item desc ∧ desc.index = i + 1 ∧
        s.fileDescriptors = Function.update table i (some desc)) ∧ Room (m + 8) s.heap := by
    refine Returns.bind (Q := fun r s => (∃ addr fItem copy,
      r = .ok ⟨addr, ⟨fItem, .file copy item⟩, 0⟩ ∧ copy ≠ 0) ∧
        s.fileDescriptors = table ∧ Room (m + 7) s.heap) ?_ fun r => Returns.fact fun hr => ?_
    · exact Returns.zoom (fopenPrivate_room hpath (by omega) hfs hp hone) (fun _ hs => hs.2)
        fun s r k hs hr => ⟨hr.1, hs.1, hr.2⟩
    · obtain ⟨addr, fItem, copy, rfl, hcopy⟩ := hr
      refine Returns.bind (fileNewDescriptor_room _ (by omega) hslot) fun r => ?_
      intro s hs
      obtain ⟨⟨desc, rfl, hdata, hindex, htable⟩, hroom⟩ := hs
      exact ⟨_, s, rfl, ⟨hindex, desc, ⟨addr, fItem, copy, hdata, hcopy⟩, hindex, htable⟩, hroom⟩
  refine Returns.bind hbody fun r => ?_
  intro s hs
  obtain ⟨⟨hr, hdesc⟩, hroom⟩ := hs
  refine ⟨r.1, s, ?_, ⟨hr, hdesc⟩, hroom⟩
  rw [if_neg (by omega), pure_apply]

structure SampleOpened (dir s₁ s₂ s₃ : ℕ) (k : KernelHeap) (s : FileState) (desc : FileDescriptor) :
    Prop where
  resolved : fat16Resolve (sampleDisk none) kheapInit =
    .ok ((0, some (samplePrivate dir s₁ s₂ s₃)), k)
  stream : s₂ ≠ 0
  opened : fopen (sampleDisk (some (samplePrivate dir s₁ s₂ s₃))) samplePath [0x72]
    ⟨k, fun _ => none⟩ = .ok (1, s)
  slot : s.fileDescriptors = Function.update (fun _ => none) 0 (some desc)
  index : desc.index = 1
  descriptor : AtStart sampleItem desc

theorem sampleOpened_exists : ∃ dir s₁ s₂ s₃ k s desc, SampleOpened dir s₁ s₂ s₃ k s desc := by
  have hinit : Room 0 kheapInit := ⟨kheapInit_unused, rfl⟩
  have hslot : freeSlot (fun _ => none) = some 0 :=
    freeSlot_some.mpr ⟨by decide, rfl, fun j hj => absurd hj (Nat.not_lt_zero j)⟩
  obtain ⟨r, k, hresolve, ⟨dir, s₁, s₂, s₃, rfl, hs₂⟩, hk⟩ := fat16Resolve_sample (by decide) hinit
  obtain ⟨r, s, hopen, ⟨rfl, desc, hdesc, hindex, htable⟩, -⟩ :=
    @fopen_room 6 (sampleDisk (some (samplePrivate dir s₁ s₂ s₃))) _ _ _ _ samplePath_names
      (by decide) rfl rfl (sample_oneFile dir s₁ s₂ s₃) (fun _ => none) 0 hslot ⟨k, fun _ => none⟩ ⟨rfl, hk⟩
  exact ⟨dir, s₁, s₂, s₃, k, s, desc, hresolve, hs₂, hopen, htable, hindex, hdesc⟩

end Sample

end Dexter
