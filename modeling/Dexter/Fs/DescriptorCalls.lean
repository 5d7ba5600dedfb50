import Dexter.Fs.FileRead
import Dexter.Fs.Streams
import Dexter.Lib.Runs

/-!
# Calls on a descriptor (`fs/file.c`)

What `fread`, `fseek`, `fstat` and `fclose` do with a descriptor number that stands for
no open file, and what they make of the position of one that does.
-/

namespace Dexter
open Lib.Programs Lib.Runs KernelHeap FileState

def Closed (s : FileState) (fd : ℤ) : Prop :=
  ∀ i < dexterMaxFileDescriptors, fd = i + 1 → s.fileDescriptors i = none

theorem fileGetDescriptor_closed {s : FileState} {fd : ℤ} (h : Closed s fd) :
    fileGetDescriptor s fd = none := by
  unfold fileGetDescriptor
  split_ifs with hrange
  · rfl
  · simp only [dexterMaxFileDescriptors, not_or, not_le] at hrange
    exact h (fd - 1).toNat (by simp only [dexterMaxFileDescriptors]; omega) (by omega)

inductive DescriptorCall
  | fread (size nmemb : ℕ)
  | fseek (offset : ℤ) (whence : FileSeekMode)
  | fstat
  | fclose
  deriving DecidableEq, Repr

namespace DescriptorCall

def run (disk : Disk) (fd : ℤ) : DescriptorCall → Prog Crash (FileState × Streamed.Streams) ℤ
  | .fread size nmemb => do
    let r ← Streamed.fread disk size nmemb fd
    pure r.1
  | .fseek offset whence => Streamed.onFiles (Dexter.fseek fd offset whence)
  | .fstat => do
    let r ← Streamed.onFiles (Dexter.fstat fd)
    pure r.1
  | .fclose => Streamed.onFiles (Dexter.fclose fd)

def IsSeek (call : DescriptorCall) : Prop := ∃ offset whence, call = .fseek offset whence

/-- The call comes back with a negative error and has changed nothing. -/
def FailsCleanly (disk : Disk) (fd : ℤ) (call : DescriptorCall)
    (s : FileState × Streamed.Streams) : Prop :=
  ∃ r < 0, call.run disk fd s = .ok (r, s)

section Closed
variable {disk : Disk} {fd : ℤ} {s : FileState × Streamed.Streams}

theorem fread_closed (h : fileGetDescriptor s.1 fd = none) (size nmemb : ℕ) :
    (fread size nmemb).run disk fd s = .ok (-eInvArg, s) := by
  have hget : (Streamed.onFiles get : Prog Crash (FileState × Streamed.Streams) FileState) s =
      .ok (s.1, s) := rfl
  have hread : Streamed.fread disk size nmemb fd s = .ok ((-eInvArg, []), s) := by
    rw [Streamed.fread, bind_of_ok hget, h]
    split_ifs <;> rfl
  rw [run, bind_of_ok hread, pure_apply]

theorem fstat_closed (h : fileGetDescriptor s.1 fd = none) :
    fstat.run disk fd s = .ok (-eIo, s) := by
  have hstat : Dexter.fstat fd s.1 = .ok ((-eIo, none), s.1) := by
    rw [Dexter.fstat, bind_of_ok (get_apply s.1), h]
    rfl
  have hrun : Streamed.onFiles (Dexter.fstat fd) s = .ok ((-eIo, none), s) := zoom_of_ok hstat
  rw [run, bind_of_ok hrun, pure_apply]

theorem fclose_closed (h : fileGetDescriptor s.1 fd = none) :
    fclose.run disk fd s = .ok (-eIo, s) := by
  have hclose : Dexter.fclose fd s.1 = .ok (-eIo, s.1) := by
    rw [Dexter.fclose, bind_of_ok (get_apply s.1), h]
    rfl
  have hrun : Streamed.onFiles (Dexter.fclose fd) s = .ok (-eIo, s) := zoom_of_ok hclose
  exact hrun

theorem fseek_closed (h : fileGetDescriptor s.1 fd = none) (offset : ℤ) (whence : FileSeekMode) :
    (fseek offset whence).run disk fd s =
      if fd = 0 then .ok (-eIo, s) else .error .nullPointer := by
  have hseek : Dexter.fseek fd offset whence s.1 =
      if fd = 0 then .ok (-eIo, s.1) else .error .nullPointer := by
    rw [Dexter.fseek, bind_of_ok (get_apply s.1), h]
    exact Lib.Programs.ite_apply ..
  rw [run, Streamed.onFiles, zoom, hseek]
  split_ifs <;> rfl

/-- On a number without an open file every call fails cleanly but `fseek`, which does so for 0
only. -/
theorem failsCleanly_iff (call : DescriptorCall) (h : Closed s.1 fd) :
    call.FailsCleanly disk fd s ↔ (call.IsSeek → fd = 0) := by
  have hnone := fileGetDescriptor_closed h
  cases call with
  | fread size nmemb =>
    refine iff_of_true ⟨-eInvArg, by decide, fread_closed hnone size nmemb⟩ ?_
    rintro ⟨offset, whence, hseek⟩
    cases hseek
  | fstat =>
    refine iff_of_true ⟨-eIo, by decide, fstat_closed hnone⟩ ?_
    rintro ⟨offset, whence, hseek⟩
    cases hseek
  | fclose =>
    refine iff_of_true ⟨-eIo, by decide, fclose_closed hnone⟩ ?_
    rintro ⟨offset, whence, hseek⟩
    cases hseek
  | fseek offset whence =>
    have hrun := @fseek_closed disk fd s hnone offset whence
    constructor
    · rintro ⟨r, hr, hok⟩ -
      rw [hrun] at hok
      by_contra hfd
      rw [if_neg hfd] at hok
      cases hok
    · intro hfd
      rw [if_pos (hfd ⟨offset, whence, rfl⟩)] at hrun
      exact ⟨-eIo, by decide, hrun⟩

theorem failsCleanly_fread : (fread 1 1).FailsCleanly (sampleDisk none) 5
    (⟨kheapInit, fun _ => none⟩, ⟨fun _ => 0, []⟩) := by
  refine (failsCleanly_iff (fread 1 1) fun _ _ _ => rfl).mpr ?_
  rintro ⟨offset, whence, hseek⟩
  cases hseek

/-- No file is open, and `fseek` on descriptor 1 follows a null pointer. -/
theorem fseek_closed_crashes : Closed ⟨kheapInit, fun _ => none⟩ 1 ∧
    ¬(fseek 0 .set).FailsCleanly (sampleDisk none) 1
      (⟨kheapInit, fun _ => none⟩, ⟨fun _ => 0, []⟩) := by
  refine ⟨fun _ _ _ => rfl, ?_⟩
  rintro ⟨r, -, hrun⟩
  have hcrash : (fseek 0 .set).run (sampleDisk none) 1
      (⟨kheapInit, fun _ => none⟩, ⟨fun _ => 0, []⟩) = .error .nullPointer := rfl
  rw [hcrash] at hrun
  cases hrun

end Closed
end DescriptorCall

def position (s : FileState) (fd : ℤ) : ℕ :=
  match s.fileDescriptors (fd - 1).toNat with
  | some desc => desc.privateData.pos
  | none => 0

def OpenFile (s : FileState) (fd : ℤ) (item : FatDirectoryItem) : Prop :=
  1 ≤ fd ∧ fd ≤ dexterMaxFileDescriptors ∧ ∃ desc addr,
    s.fileDescriptors (fd - 1).toNat = some desc ∧
      desc.privateData.item.body = .file addr item ∧ addr ≠ 0

theorem FatDirectoryItem.filesize_lt (item : FatDirectoryItem) : item.filesize < 4294967296 := by
  have hlow := le16_lt item.bytes 28
  have hhigh := le16_lt item.bytes (28 + 2)
  unfold filesize le32
  omega

structure Seek where
  offset : ℤ
  whence : FileSeekMode
  range : -2147483648 ≤ offset ∧ offset < 2147483648

def Seek.result (c : Seek) (n pos : ℕ) : ℤ × ℕ :=
  if u32 c.offset ≥ n then (-eIo, pos)
  else
    match c.whence with
    | .set => (0, u32 c.offset)
    | .ending => (-eUnimp, pos)
    | .cur => (0, u32 (pos + u32 c.offset))
    | .other => (-eInvArg, pos)

inductive Seek.Moves (c : Seek) (n pos : ℕ) : ℤ × ℕ → Prop
  | fails (r : ℤ) (hr : r < 0) (why : c.whence = .cur → n ≤ u32 c.offset) : Moves c n pos (r, pos)
  | sets (whence : c.whence = .set) (inside : u32 c.offset < n) : Moves c n pos (0, u32 c.offset)
  | advances (whence : c.whence = .cur) (inside : u32 c.offset < n) :
      Moves c n pos (0, u32 (pos + u32 c.offset))

theorem Seek.result_moves (c : Seek) (n pos : ℕ) : c.Moves n pos (c.result n pos) := by
  unfold Seek.result
  split_ifs with hbound
  · exact .fails _ (by decide) fun _ => hbound
  · have hlt : u32 c.offset < n := Nat.lt_of_not_le hbound
    cases hwhence : c.whence with
    | set => exact .sets hwhence hlt
    | ending => exact .fails _ (by decide) fun h => by rw [hwhence] at h; cases h
    | cur => exact .advances hwhence hlt
    | other => exact .fails _ (by decide) fun h => by rw [hwhence] at h; cases h

section Open
variable {s : FileState} {fd : ℤ} {item : FatDirectoryItem}

/-- What is found under the number of an open file; the last slot has a number of its own, but
the lookup stops before it. -/
theorem OpenFile.found (h : OpenFile s fd item) : ∃ desc addr,
    (fileGetDescriptor s fd = if fd < dexterMaxFileDescriptors then some desc else none) ∧
      s.fileDescriptors (fd - 1).toNat = some desc ∧ desc.privateData.pos = position s fd ∧
      desc.privateData.item.body = .file addr item ∧ addr ≠ 0 := by
  obtain ⟨h1, hle, desc, addr, hslot, hbody, haddr⟩ := h
  refine ⟨desc, addr, ?_, hslot, ?_, hbody, haddr⟩
  · unfold fileGetDescriptor
    split_ifs with hrange hlt hlt
    · omega
    · rfl
    · exact hslot
    · omega
  · rw [position, hslot]

theorem fseek_open (hopen : OpenFile s fd item) (hfd : fd < dexterMaxFileDescriptors) (c : Seek) :
    ∃ s', fseek fd c.offset c.whence s = .ok ((c.result item.filesize (position s fd)).1, s') ∧
      OpenFile s' fd item ∧ position s' fd = (c.result item.filesize (position s fd)).2 := by
  obtain ⟨desc, addr, hget, -, hpos, hbody, haddr⟩ := hopen.found
  rw [if_pos hfd] at hget
  have hseek : fat16Seek desc.privateData (u32 c.offset) c.whence =
      .ok ((c.result item.filesize desc.privateData.pos).1, { desc.privateData with
        pos := (c.result item.filesize desc.privateData.pos).2 }) := by
    unfold fat16Seek Seek.result
    rw [hbody]
    dsimp only
    rw [if_neg haddr]
    split_ifs
    · rfl
    · cases c.whence <;> rfl
  rw [← hpos]
  refine ⟨putSlot (fd - 1).toNat (some { desc with privateData := { desc.privateData with
    pos := (c.result item.filesize desc.privateData.pos).2 } }) s, ?_,
    ⟨hopen.1, hopen.2.1, _, addr, Function.update_self .., hbody, haddr⟩, ?_⟩
  · rw [fseek, bind_of_ok (get_apply _), hget]
    dsimp only
    rw [hseek]
    rfl
  · have hslot : (putSlot (fd - 1).toNat (some { desc with privateData := { desc.privateData with
        pos := (c.result item.filesize desc.privateData.pos).2 } }) s).fileDescriptors
        (fd - 1).toNat = some { desc with privateData := { desc.privateData with
          pos := (c.result item.filesize desc.privateData.pos).2 } } := Function.update_self ..
    rw [position, hslot]

/-- The last descriptor is not found, and `fseek` follows a null pointer. -/
theorem fseek_last (hopen : OpenFile s fd item) (hfd : ¬fd < dexterMaxFileDescriptors) (c : Seek) :
    fseek fd c.offset c.whence s = .error .nullPointer := by
  obtain ⟨desc, addr, hget, -⟩ := hopen.found
  have h0 : ¬fd = 0 := by
    simp only [dexterMaxFileDescriptors] at hfd
    omega
  rw [if_neg hfd] at hget
  rw [fseek, bind_of_ok (get_apply _), hget]
  dsimp only
  rw [if_neg h0, abort_apply]

end Open

namespace Seeks

structure State where
  files : FileState
  last : Option (ℕ × Seek × ℤ)

def step (fd : ℤ) (s : State) (c : Seek) : Option State :=
  match fseek fd c.offset c.whence s.files with
  | .ok (r, files) => some ⟨files, some (position s.files fd, c, r)⟩
  | .error _ => none

/-- The position is inside the file of `n` bytes, where the last call failed it is the old one,
and where the last call moved it by an offset it is off by just this offset. -/
def Inside (fd : ℤ) (n : ℕ) (s : State) : Prop :=
  position s.files fd ≤ n ∧ ∀ old c r, s.last = some (old, c, r) →
    (r < 0 → position s.files fd = old) ∧
    (0 ≤ r → c.whence = .cur → (position s.files fd : ℤ) = old + c.offset)

/-- A call that moves from the position by an offset, and is not turned down for the offset, ends
inside the file. -/
def Lands (fd : ℤ) (n : ℕ) (s : State) (c : Seek) : Prop :=
  c.whence = .cur → u32 c.offset < n →
    0 ≤ (position s.files fd : ℤ) + c.offset ∧ (position s.files fd : ℤ) + c.offset ≤ n

section Step
variable {fd : ℤ} {item : FatDirectoryItem} {s s' : State} {c : Seek}

theorem step_open (hopen : OpenFile s.files fd item) (hfd : fd < dexterMaxFileDescriptors) :
    ∃ files, step fd s c = some ⟨files, some (position s.files fd, c,
        (c.result item.filesize (position s.files fd)).1)⟩ ∧ OpenFile files fd item ∧
      position files fd = (c.result item.filesize (position s.files fd)).2 := by
  obtain ⟨files, hrun, hopen', hpos⟩ := fseek_open hopen hfd c
  refine ⟨files, ?_, hopen', hpos⟩
  rw [step, hrun]

theorem step_inside (hopen : OpenFile s.files fd item) (hfd : fd < dexterMaxFileDescriptors)
    (hin : position s.files fd ≤ item.filesize) (h : step fd s c = some s') :
    Inside fd item.filesize s' ↔ Lands fd item.filesize s c := by
  obtain ⟨files, hstep, -, hpos⟩ := @step_open fd item s c hopen hfd
  rw [hstep] at h
  obtain rfl := Option.some.inj h
  have hmoves := c.result_moves item.filesize (position s.files fd)
  generalize c.result item.filesize (position s.files fd) = x at hmoves hpos ⊢
  cases hmoves with
  | fails r hr why =>
    refine iff_of_true ⟨hpos ▸ hin, fun old c' r' hlast => ?_⟩ fun hcur hlt => ?_
    · obtain ⟨rfl, rfl, rfl⟩ := hlast
      exact ⟨fun _ => hpos, fun hr' => absurd hr' (not_le.mpr hr)⟩
    · exact absurd (why hcur) (not_le.mpr hlt)
  | sets whence inside =>
    have hother : ¬c.whence = .cur := by
      rw [whence]
      decide
    refine iff_of_true ⟨hpos ▸ inside.le, fun old c' r' hlast => ?_⟩ fun hcur => absurd hcur hother
    obtain ⟨rfl, rfl, rfl⟩ := hlast
    exact ⟨fun hr => absurd hr (lt_irrefl _), fun _ hcur => absurd hcur hother⟩
  | advances whence inside =>
    have hsize := item.filesize_lt
    have hrange := c.range
    dsimp only at hpos
    constructor
    · rintro ⟨hle, hlast⟩ - -
      have hmove := (hlast _ _ _ rfl).2 le_rfl whence
      dsimp only at hle hmove
      omega
    · intro hlands
      have hend := hlands whence inside
      have hsum : (position files fd : ℤ) = position s.files fd + c.offset := by
        rw [hpos]
        unfold u32
        omega
      refine ⟨by dsimp only; omega, fun old c' r' hlast => ?_⟩
      obtain ⟨rfl, rfl, rfl⟩ := hlast
      exact ⟨fun hr => absurd hr (lt_irrefl _), fun _ _ => hsum⟩

theorem exec_open (hopen : OpenFile s.files fd item) (hfd : fd < dexterMaxFileDescriptors)
    (cs : List Seek) : ∃ s', exec (step fd) s cs = some s' := by
  induction cs generalizing s with
  | nil => exact ⟨s, rfl⟩
  | cons c cs ih =>
    obtain ⟨files, hstep, hopen', -⟩ := @step_open fd item s c hopen hfd
    obtain ⟨s', hrest⟩ := ih (s := ⟨files, _⟩) hopen'
    exact ⟨s', exec_cons_some.mpr ⟨_, hstep, hrest⟩⟩

/-- A run of seeks on an open file comes back and stays inside the file exactly if the file is
not the one of the last descriptor, where there is a seek, and all relative calls land inside. -/
theorem seeks_inside_iff {files : FileState} (hopen : OpenFile files fd item)
    (hin : position files fd ≤ item.filesize) (cs : List Seek) :
    ((∃ s', exec (step fd) ⟨files, none⟩ cs = some s') ∧
      Throughout (step fd) (Inside fd item.filesize) ⟨files, none⟩ cs) ↔
    (fd = dexterMaxFileDescriptors → cs = []) ∧
      Along (step fd) (Lands fd item.filesize) ⟨files, none⟩ cs := by
  have hstart : Inside fd item.filesize ⟨files, none⟩ := ⟨hin, fun _ _ _ hlast => nomatch hlast⟩
  by_cases hfd : fd < dexterMaxFileDescriptors
  · have hruns : Throughout (step fd) (Inside fd item.filesize) ⟨files, none⟩ cs ↔
        Along (step fd) (Lands fd item.filesize) ⟨files, none⟩ cs := by
      refine throughout_iff_along (I := fun s => OpenFile s.files fd item) ?_ ?_ hopen hstart
      · intro s c s' hopen hinside h
        exact step_inside hopen hfd hinside.1 h
      · intro s c s' hopen _ h _
        obtain ⟨files, hstep, hopen', -⟩ := @step_open fd item s c hopen hfd
        rw [hstep] at h
        obtain rfl := Option.some.inj h
        exact hopen'
    rw [hruns]
    exact and_congr_left fun _ => iff_of_true (exec_open hopen hfd cs) fun hlast =>
      absurd hlast hfd.ne
  · have hlast : fd = dexterMaxFileDescriptors := le_antisymm hopen.2.1 (not_lt.mp hfd)
    cases cs with
    | nil => exact iff_of_true ⟨⟨_, rfl⟩, hstart⟩ ⟨fun _ => rfl, trivial⟩
    | cons c cs =>
      refine iff_of_false ?_ fun h => nomatch h.1 hlast
      rintro ⟨⟨s', hexec⟩, -⟩
      obtain ⟨s₁, hstep, -⟩ := exec_cons_some.mp hexec
      rw [step, fseek_last hopen hfd c] at hstep
      cases hstep

end Step

section Sample
variable {dir s₁ s₂ s₃ : ℕ} {k : KernelHeap} {s : FileState} {desc : FileDescriptor}

theorem sample_openFile (h : SampleOpened dir s₁ s₂ s₃ k s desc) :
    OpenFile s 1 sampleItem ∧ position s 1 = 0 := by
  obtain ⟨addr, fItem, copy, hdata, hcopy⟩ := h.descriptor
  have hslot : s.fileDescriptors ((1 : ℤ) - 1).toNat = some desc := by
    rw [h.slot]
    exact Function.update_self ..
  refine ⟨⟨le_rfl, by decide, desc, copy, hslot, by rw [hdata], hcopy⟩, ?_⟩
  rw [position, hslot]
  dsimp only
  rw [hdata]

theorem seeks_inside_iff_sample : ∃ fatPrivate k s,
    fopen (sampleDisk (some fatPrivate)) samplePath [0x72] ⟨k, fun _ => none⟩ = .ok (1, s) ∧
    (∃ s', exec (step 1) ⟨s, none⟩ [⟨300, .cur, by decide⟩, ⟨0, .set, by decide⟩] = some s') ∧
    Throughout (step 1) (Inside 1 sampleItem.filesize) ⟨s, none⟩
      [⟨300, .cur, by decide⟩, ⟨0, .set, by decide⟩] := by
  obtain ⟨dir, s₁, s₂, s₃, k, s, desc, h⟩ := sampleOpened_exists
  obtain ⟨hopen, hpos⟩ := sample_openFile h
  have hsize : sampleItem.filesize = 600 := by decide +kernel
  refine ⟨_, k, s, h.opened, (seeks_inside_iff hopen (hpos ▸ Nat.zero_le _) _).mpr
    ⟨fun hlast => absurd hlast (by decide), ?_⟩⟩
  refine fun _ _ => ⟨fun _ _ => ?_, fun _ _ => ⟨fun hcur => (by cases hcur), trivial⟩⟩
  rw [hpos, hsize]
  decide

/-- Each of two seeks by 500 bytes passes the test, and the position is 1000 in a file of 600
bytes. -/
theorem seek_twice_leaves_file : ∃ fatPrivate k s,
    fat16Resolve (sampleDisk none) kheapInit = .ok ((0, some fatPrivate), k) ∧
    fopen (sampleDisk (some fatPrivate)) samplePath [0x72] ⟨k, fun _ => none⟩ = .ok (1, s) ∧
    OpenFile s 1 sampleItem ∧ sampleItem.filesize = 600 ∧ position s 1 = 0 ∧
    ¬Throughout (step 1) (Inside 1 sampleItem.filesize) ⟨s, none⟩
      [⟨500, .cur, by decide⟩, ⟨500, .cur, by decide⟩] := by
  obtain ⟨dir, s₁, s₂, s₃, k, s, desc, h⟩ := sampleOpened_exists
  obtain ⟨hopen, hpos⟩ := sample_openFile h
  have hsize : sampleItem.filesize = 600 := by decide +kernel
  refine ⟨_, k, s, h.resolved, h.opened, hopen, hsize, hpos, fun hin => ?_⟩
  obtain ⟨f₁, hstep₁, hopen₁, hpos₁⟩ := @step_open 1 sampleItem ⟨s, none⟩ ⟨500, .cur, by decide⟩
    hopen (by decide)
  obtain ⟨f₂, hstep₂, -, hpos₂⟩ := @step_open 1 sampleItem ⟨f₁, _⟩ ⟨500, .cur, by decide⟩ hopen₁
    (by decide)
  have hend := ((hin.2 _ hstep₁).2 _ hstep₂).1
  dsimp only at hend hpos₁ hpos₂
  rw [hsize, hpos] at hpos₁
  rw [hpos₂, hpos₁, hsize] at hend
  exact absurd hend (by decide)

end Sample
end Seeks

abbrev ReadLayer := (startingCluster offset total : ℤ) → Except Crash (ℤ × List UInt8)

namespace ReadLayer

def readLoop (layer : ReadLayer) (item : FatDirectoryItem) (size nmemb : ℕ) :
    ℕ → ℤ → Except Crash (ℤ × List UInt8)
  | 0, _ => .ok (i32 nmemb, [])
  | k + 1, offset => do
    let r ← layer (fat16GetFirstCluster item) offset (i32 size)
    if r.1 < 0 then pure r
    else do
      let rest ← layer.readLoop item size nmemb k (i32 (offset + size))
      pure (rest.1, r.2 ++ rest.2)

def read (layer : ReadLayer) (descriptor : FatFileDescriptor) (size nmemb : ℕ) :
    Except Crash (ℤ × List UInt8) :=
  match descriptor.item.body with
  | .directory _ => .error .nullPointer
  | .file addr item =>
    if addr = 0 then .error .nullPointer
    else layer.readLoop item size nmemb nmemb (i32 descriptor.pos)

def fread (layer : ReadLayer) (size nmemb : ℕ) (fd : ℤ) :
    Prog Crash FileState (ℤ × List UInt8) := do
  let s ← get
  if size = 0 ∨ nmemb = 0 ∨ fd < 1 then pure (-eInvArg, [])
  else
    match fileGetDescriptor s fd with
    | none => pure (-eInvArg, [])
    | some desc => ofExcept (layer.read desc.privateData size nmemb)

theorem readLoop_disk (disk : Disk) (item : FatDirectoryItem) (size nmemb k : ℕ) (offset : ℤ) :
    readLoop (fat16ReadInternal disk) item size nmemb k offset =
      fat16ReadLoop disk item size nmemb k offset := by
  induction k generalizing offset with
  | zero => rfl
  | succ k ih => simp only [readLoop, fat16ReadLoop, ih]

theorem fread_disk (disk : Disk) (size nmemb : ℕ) (fd : ℤ) :
    fread (fat16ReadInternal disk) size nmemb fd = Dexter.fread disk size nmemb fd := by
  simp only [fread, read, readLoop_disk]
  rfl

structure Correct (layer : ReadLayer) (item : FatDirectoryItem) (content : List UInt8) : Prop where
  length : content.length = item.filesize
  reads : ∀ offset total, 1 ≤ total → offset + total ≤ item.filesize →
    layer (fat16GetFirstCluster item) (i32 offset) (i32 total) =
      .ok (0, (content.drop offset).take total)

/-- A read of `nmemb₁` members of `size₁` bytes and one of `nmemb₂` members of `size₂` bytes read
the file on from the position, and leave the position behind what they read. -/
def Composes (layer : ReadLayer) (content : List UInt8) (fd : ℤ) (s : FileState)
    (size₁ nmemb₁ size₂ nmemb₂ : ℕ) : Prop :=
  ∃ r₁ s₁ r₂ s₂, layer.fread size₁ nmemb₁ fd s = .ok (r₁, s₁) ∧
    layer.fread size₂ nmemb₂ fd s₁ = .ok (r₂, s₂) ∧
    r₁.2 = (content.drop (position s fd)).take (size₁ * nmemb₁) ∧
    r₂.2 = (content.drop (position s fd + size₁ * nmemb₁)).take (size₂ * nmemb₂) ∧
    position s₂ fd = position s fd + size₁ * nmemb₁ + size₂ * nmemb₂

section Composes
variable {layer : ReadLayer} {item : FatDirectoryItem} {content : List UInt8} {s s' : FileState}
  {fd : ℤ} {size nmemb size₁ nmemb₁ size₂ nmemb₂ : ℕ}

theorem readLoop_correct (h : layer.Correct item content) (hsize : 1 ≤ size) (nmemb k : ℕ)
    {offset : ℕ} (hin : offset + k * size ≤ item.filesize) :
    layer.readLoop item size nmemb k (i32 offset) =
      .ok (i32 nmemb, (content.drop offset).take (k * size)) := by
  induction k generalizing offset with
  | zero =>
    rw [Nat.zero_mul, List.take_zero]
    rfl
  | succ k ih =>
    have hmul : (k + 1) * size = size + k * size := by ring
    rw [hmul] at hin ⊢
    have hrest := @ih (offset + size) (by omega)
    rw [Nat.cast_add] at hrest
    rw [readLoop, h.reads offset size hsize (by omega)]
    dsimp only [bind, Except.bind]
    rw [if_neg (lt_irrefl 0), i32_i32_add, hrest]
    dsimp only [pure, Except.pure]
    rw [List.take_add, List.drop_drop]

theorem fread_state {r : ℤ × List UInt8} (h : layer.fread size nmemb fd s = .ok (r, s')) :
    s' = s := by
  rw [fread, bind_of_ok (get_apply _)] at h
  split_ifs at h with hargs
  · exact (ok_inj h).2.symm
  · cases hfd : fileGetDescriptor s fd with
    | none =>
      rw [hfd] at h
      exact (ok_inj h).2.symm
    | some desc =>
      rw [hfd] at h
      exact (ofExcept_ok.mp h).2

theorem fread_correct (h : layer.Correct item content) (hopen : OpenFile s fd item)
    (hfd : fd < dexterMaxFileDescriptors) (hsize : 1 ≤ size) (hnmemb : 1 ≤ nmemb)
    (hin : position s fd + size * nmemb ≤ item.filesize) :
    layer.fread size nmemb fd s =
      .ok ((i32 nmemb, (content.drop (position s fd)).take (size * nmemb)), s) := by
  obtain ⟨desc, addr, hget, -, hpos, hbody, haddr⟩ := hopen.found
  have h1 := hopen.1
  rw [if_pos hfd] at hget
  rw [← hpos] at hin ⊢
  have hread : layer.read desc.privateData size nmemb =
      .ok (i32 nmemb, (content.drop desc.privateData.pos).take (size * nmemb)) := by
    rw [read, hbody]
    dsimp only
    rw [Nat.mul_comm size] at hin ⊢
    rw [if_neg haddr, readLoop_correct h hsize nmemb nmemb hin]
  rw [fread, bind_of_ok (get_apply _), if_neg (by omega), hget]
  dsimp only
  rw [hread]
  rfl

/-- Whatever the layer reads, the position is where it was, and two reads never compose: over a
correct layer the second one reads from the position of the first. -/
theorem fread_never_composes (h : layer.Correct item content) (hopen : OpenFile s fd item)
    (hsize₁ : 1 ≤ size₁) (hnmemb₁ : 1 ≤ nmemb₁) (hsize₂ : 1 ≤ size₂) (hnmemb₂ : 1 ≤ nmemb₂)
    (hin : position s fd + size₁ * nmemb₁ + size₂ * nmemb₂ ≤ item.filesize) :
    ¬layer.Composes content fd s size₁ nmemb₁ size₂ nmemb₂ ∧
      (fd < dexterMaxFileDescriptors →
        layer.fread size₁ nmemb₁ fd s =
          .ok ((i32 nmemb₁, (content.drop (position s fd)).take (size₁ * nmemb₁)), s) ∧
        layer.fread size₂ nmemb₂ fd s =
          .ok ((i32 nmemb₂, (content.drop (position s fd)).take (size₂ * nmemb₂)), s)) := by
  refine ⟨?_, fun hfd => ⟨fread_correct h hopen hfd hsize₁ hnmemb₁ (by omega),
    fread_correct h hopen hfd hsize₂ hnmemb₂ (by omega)⟩⟩
  rintro ⟨r₁, s₁, r₂, s₂, hread₁, hread₂, -, -, hpos⟩
  obtain rfl := fread_state hread₁
  obtain rfl := fread_state hread₂
  have hbytes := Nat.mul_le_mul hsize₁ hnmemb₁
  omega

end Composes

def sampleContent : List UInt8 := (sampleImage.fileBytes [2, 4]).take 600

def sampleLayer : ReadLayer := fun _ offset total =>
  .ok (0, (sampleContent.drop offset.toNat).take total.toNat)

theorem sampleLayer_correct : sampleLayer.Correct sampleItem sampleContent where
  length := by decide +kernel
  reads offset total _ hin := by
    have hsize : sampleItem.filesize = 600 := by decide +kernel
    rw [hsize] at hin
    rw [i32_natCast (by omega), i32_natCast (by omega), sampleLayer, Int.toNat_natCast,
      Int.toNat_natCast]

theorem fread_never_composes_sample : ∃ fatPrivate k s,
    fopen (sampleDisk (some fatPrivate)) samplePath [0x72] ⟨k, fun _ => none⟩ = .ok (1, s) ∧
    ¬sampleLayer.Composes sampleContent 1 s 1 3 1 3 ∧
    sampleLayer.fread 1 3 1 s = .ok ((3, sampleContent.take 3), s) := by
  obtain ⟨dir, s₁, s₂, s₃, k, s, desc, h⟩ := sampleOpened_exists
  obtain ⟨hopen, hpos⟩ := Seeks.sample_openFile h
  have hsize : sampleItem.filesize = 600 := by decide +kernel
  obtain ⟨hnot, hreads⟩ := fread_never_composes sampleLayer_correct hopen (le_refl 1)
    (show 1 ≤ 3 by decide) (le_refl 1) (show 1 ≤ 3 by decide) (by rw [hpos, hsize]; decide)
  have hread := (hreads (by decide)).1
  have hcount : i32 (3 : ℕ) = 3 := by decide
  rw [hpos, hcount, List.drop_zero, Nat.one_mul] at hread
  exact ⟨_, k, s, h.opened, hnot, hread⟩

/-- Behind a read of the whole first cluster of the small volume's file, a read of the rest stores
bytes of the first cluster again. -/
theorem fread_twice_same_bytes : ∃ fatPrivate k s,
    fat16Resolve (sampleDisk none) kheapInit = .ok ((0, some fatPrivate), k) ∧
    fopen (sampleDisk (some fatPrivate)) samplePath [0x72] ⟨k, fun _ => none⟩ = .ok (1, s) ∧
    OpenFile s 1 sampleItem ∧ sampleLayer.Correct sampleItem sampleContent ∧
    position s 1 + 1 * 512 + 1 * 88 ≤ sampleItem.filesize ∧
    sampleLayer.fread 1 512 1 s = .ok ((512, List.replicate 512 2), s) ∧
    sampleLayer.fread 1 88 1 s = .ok ((88, List.replicate 88 2), s) ∧
    (sampleContent.drop 512).take 88 = List.replicate 88 4 ∧
    ¬sampleLayer.Composes sampleContent 1 s 1 512 1 88 := by
  obtain ⟨dir, s₁, s₂, s₃, k, s, desc, h⟩ := sampleOpened_exists
  obtain ⟨hopen, hpos⟩ := Seeks.sample_openFile h
  have hsize : sampleItem.filesize = 600 := by decide +kernel
  have hread : ∀ n : ℕ, 1 ≤ n → n ≤ 512 →
      sampleLayer.fread 1 n 1 s = .ok ((n, List.replicate n 2), s) := by
    intro n h1 hn
    have hfirst : sampleContent.take 512 = List.replicate 512 2 := by decide +kernel
    have hrun := fread_correct sampleLayer_correct hopen (by decide) (le_refl 1) h1
      (by rw [hpos, hsize]; omega)
    rw [hpos, List.drop_zero, Nat.one_mul, i32_natCast (by omega)] at hrun
    rw [hrun, ← Nat.min_eq_left hn, ← List.take_take, hfirst, List.take_replicate]
  refine ⟨_, k, s, h.resolved, h.opened, hopen, sampleLayer_correct,
    by rw [hpos, hsize], hread 512 (by decide) le_rfl, hread 88 (by decide) (by decide),
    by decide +kernel, ?_⟩
  rintro ⟨r₁, s₁, r₂, s₂, hread₁, hread₂, -, -, hend⟩
  obtain rfl := fread_state hread₁
  obtain rfl := fread_state hread₂
  rw [hpos] at hend
  exact absurd hend (by decide)

end ReadLayer

end Dexter
