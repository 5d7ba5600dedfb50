import Dexter.Lib.LittleEndian
import Dexter.Fs.Streamer

/-!
# Sectors from the controller (`fs/disk.c`)

`disk_read_sector` writes the number of a sector into the registers of the controller, gives the
command to read and takes the words of every sector from one port as soon as the status says that
they are there. The controller has a master drive, takes its time over every sector and stops where
the drive has no more of them; nothing but the status tells.
-/

namespace Dexter
open Lib.Programs Lib.LittleEndian

structure Drive where
  sectors : ℕ
  data : ℕ → ℕ → UInt8

def Drive.bytesFrom (drive : Drive) (lba i : ℕ) : UInt8 := drive.data (lba + i / 512) (i % 512)

/-- What has become of the last command. The sector `lba` is the first of `left` that are still to
be handed over, after so many more polls of the status or from one of its words on. -/
inductive Transfer
  | idle
  | searching (drive : Drive) (polls lba left : ℕ)
  | ready (drive : Drive) (lba left word : ℕ)
  | stopped

def Transfer.takesCommands : Transfer → Bool
  | .idle => true
  | .searching .. => false
  | .ready .. => false
  | .stopped => true

/-- `latency i` is the time that the sector number `i` of all those ever sought takes. -/
structure Controller where
  master : Drive
  slave : Option Drive
  latency : ℕ → ℕ
  device : BitVec 8
  count : BitVec 8
  low : BitVec 8
  mid : BitVec 8
  high : BitVec 8
  sought : ℕ
  transfer : Transfer

namespace Controller

def seek (drive : Drive) (lba left : ℕ) (k : Controller) : Controller :=
  if left = 0 then { k with transfer := .idle }
  else if lba < drive.sectors then
    { k with
      sought := k.sought + 1
      transfer := .searching drive (k.latency k.sought) lba left }
  else { k with transfer := .stopped }

def selected (k : Controller) : Option Drive :=
  if k.device.getLsbD 4 then k.slave else some k.master

def address (k : Controller) : ℕ :=
  k.low.toNat + 256 * k.mid.toNat + 65536 * k.high.toNat + 16777216 * (k.device.toNat % 16)

/-- Only reading sectors by their numbers is known. -/
def command (c : BitVec 8) (k : Controller) : Controller :=
  match k.selected with
  | none => { k with transfer := .stopped }
  | some drive =>
    if c = 0x20 ∧ k.device.getLsbD 6 then
      k.seek drive k.address (if k.count = 0 then 256 else k.count.toNat)
    else { k with transfer := .stopped }

def write (port : ℕ) (val : BitVec 8) (k : Controller) : Controller :=
  if k.transfer.takesCommands then
    match port with
    | 0x1F2 => { k with count := val }
    | 0x1F3 => { k with low := val }
    | 0x1F4 => { k with mid := val }
    | 0x1F5 => { k with high := val }
    | 0x1F6 => { k with device := val }
    | 0x1F7 => k.command val
    | _ => k
  else k

def status (k : Controller) : BitVec 8 × Controller :=
  match k.transfer with
  | .idle => (0x40, k)
  | .searching drive 0 lba left => (0x48, { k with transfer := .ready drive lba left 0 })
  | .searching drive (polls + 1) lba left =>
    (0x80, { k with transfer := .searching drive polls lba left })
  | .ready .. => (0x48, k)
  | .stopped => (0x41, k)

def takeWord (k : Controller) : ℕ × Controller :=
  match k.transfer with
  | .ready drive lba left word =>
    ((drive.data lba (2 * word)).toNat + 256 * (drive.data lba (2 * word + 1)).toNat,
      if word = 255 then k.seek drive (lba + 1) (left - 1)
      else { k with transfer := .ready drive lba left (word + 1) })
  | _ => (0xFFFF, k)

end Controller

structure Ports where
  ram : ℕ → UInt8
  controller : Controller

namespace Ports

def outb (port : ℕ) (val : BitVec 8) : Prog Crash Ports Unit :=
  modify fun s => { s with controller := s.controller.write port val }

def insbStatus : Prog Crash Ports (BitVec 8) :=
  step fun s => (s.controller.status.1, { s with controller := s.controller.status.2 })

def inswData : Prog Crash Ports ℕ :=
  step fun s => (s.controller.takeWord.1, { s with controller := s.controller.takeWord.2 })

/-- Both reads of the status and the loop between them, for so many reads. -/
def waitReady : ℕ → Prog Crash Ports Unit
  | 0 => abort .hang
  | fuel + 1 => do
    let c ← insbStatus
    if c.getLsbD 3 then pure () else waitReady fuel

def copyWord (ptr : ℕ) : Prog Crash Ports ℕ := do
  let w ← inswData
  modify fun s => { s with ram := store s.ram 2 ptr w }
  pure (ptr + 2)

def copySector (fuel ptr : ℕ) : Prog Crash Ports ℕ := do
  waitReady fuel
  countUp (fun _ => copyWord) 256 ptr

def diskReadSector (fuel : ℕ) (lba : BitVec 32) (total : ℤ) (buf : ℕ) : Prog Crash Ports ℤ := do
  outb 0x1F6 ((lba.sshiftRight 24 ||| 0xE0).setWidth 8)
  outb 0x1F2 (BitVec.ofInt 8 total)
  outb 0x1F3 ((lba &&& 0xff).setWidth 8)
  outb 0x1F4 ((lba.sshiftRight 8).setWidth 8)
  outb 0x1F5 ((lba.sshiftRight 16).setWidth 8)
  outb 0x1F7 0x20
  let _ ← countUp (fun _ => copySector fuel) total.toNat buf
  pure 0

end Ports

section Address
variable (lba : BitVec 32)

theorem setWidth_sshiftRight {n : ℕ} (hn : n ≤ 24) :
    (lba.sshiftRight n).setWidth 8 = lba.extractLsb' n 8 := by
  apply BitVec.eq_of_getLsbD_eq
  intro i hi
  have hin : n + i < 32 := by omega
  have hout : ¬32 ≤ i := by omega
  rw [BitVec.getLsbD_setWidth, BitVec.getLsbD_sshiftRight, BitVec.getLsbD_extractLsb', if_pos hin]
  simp [hi, hout]

theorem setWidth_and : (lba &&& 0xff).setWidth 8 = lba.extractLsb' 0 8 := by
  apply BitVec.eq_of_getLsbD_eq
  intro i hi
  have hmask : ∀ i < 8, (0xff : BitVec 32).getLsbD i = true := by decide
  rw [BitVec.getLsbD_setWidth, BitVec.getLsbD_and, BitVec.getLsbD_extractLsb', hmask i hi,
    Bool.and_true, Nat.zero_add]

theorem setWidth_or : (lba.sshiftRight 24 ||| 0xE0).setWidth 8 = lba.extractLsb' 24 8 ||| 0xE0 := by
  rw [BitVec.setWidth_or, setWidth_sshiftRight lba le_rfl]
  rfl

def Controller.addressed (lba : BitVec 32) (total : ℤ) (k : Controller) : Controller :=
  { k with
    device := lba.extractLsb' 24 8 ||| 0xE0
    count := BitVec.ofInt 8 total
    low := lba.extractLsb' 0 8
    mid := lba.extractLsb' 8 8
    high := lba.extractLsb' 16 8 }

def Controller.afterRead (lba : BitVec 32) (total : ℕ) (k : Controller) : Controller :=
  { k.addressed lba total with
    sought := k.sought + total
    transfer := .idle }

def sectorOf (lba : BitVec 32) : ℕ := lba.toNat % 268435456

def Controller.driveOf (k : Controller) (lba : BitVec 32) : Option Drive :=
  if lba.getLsbD 28 then k.slave else some k.master

theorem Controller.address_addressed (total : ℤ) (k : Controller) :
    (k.addressed lba total).address = sectorOf lba := by
  have hdevice : ∀ b : BitVec 8, (b ||| 0xE0).toNat % 16 = b.toNat % 16 := by decide
  have hbyte : ∀ n, (lba.extractLsb' n 8).toNat = lba.toNat / 2 ^ n % 256 := fun n => by
    rw [BitVec.extractLsb'_toNat, Nat.shiftRight_eq_div_pow]
  simp only [address, addressed, sectorOf, hdevice, hbyte]
  omega

theorem Controller.selected_addressed (total : ℤ) (k : Controller) :
    (k.addressed lba total).selected = k.driveOf lba := by
  have hdevice : ∀ b : BitVec 8, (b ||| 0xE0).getLsbD 4 = b.getLsbD 4 := by decide
  have hbit : (lba.extractLsb' 24 8).getLsbD 4 = lba.getLsbD 28 := by
    rw [BitVec.getLsbD_extractLsb']
    rfl
  simp only [selected, addressed, driveOf, hdevice, hbit]

def sectorCount (total : ℤ) : ℕ :=
  if BitVec.ofInt 8 total = 0 then 256 else (BitVec.ofInt 8 total).toNat

theorem sectorCount_eq (total : ℤ) (hpos : 1 ≤ total) :
    (total ≤ 256 → sectorCount total = total.toNat) ∧ sectorCount total ≤ 256 := by
  have hcount : (BitVec.ofInt 8 total).toNat = (total % 256).toNat := BitVec.toNat_ofInt total
  have hzero : BitVec.ofInt 8 total = 0 ↔ (total % 256).toNat = 0 := by
    rw [← hcount, BitVec.toNat_eq]
    rfl
  unfold sectorCount
  split_ifs with h
  · rw [hzero] at h
    omega
  · rw [hcount]
    rw [hzero] at h
    omega

end Address

namespace Ports
variable {s s' : Ports} {k : Controller} {drive : Drive} {lba left fuel ptr p n : ℕ}

theorem diskReadSector_eq (hfree : s.controller.transfer.takesCommands) (fuel : ℕ)
    (lba : BitVec 32) (total : ℤ) (buf : ℕ) : diskReadSector fuel lba total buf s = (do
      let _ ← countUp (fun _ => copySector fuel) total.toNat buf
      pure 0) { s with controller := (s.controller.addressed lba total).command 0x20 } := by
  have hregisters : ((((((s.controller.write 0x1F6 ((lba.sshiftRight 24 ||| 0xE0).setWidth 8)).write
      0x1F2 (BitVec.ofInt 8 total)).write 0x1F3 ((lba &&& 0xff).setWidth 8)).write
      0x1F4 ((lba.sshiftRight 8).setWidth 8)).write 0x1F5 ((lba.sshiftRight 16).setWidth 8)).write
      0x1F7 0x20) = (s.controller.addressed lba total).command 0x20 := by
    simp only [Controller.write, hfree, if_true, setWidth_or, setWidth_and,
      setWidth_sshiftRight lba (by decide : 8 ≤ 24), setWidth_sshiftRight lba (by decide : 16 ≤ 24)]
    rfl
  rw [← hregisters]
  rfl

def filled (data : ℕ → UInt8) (p n : ℕ) (m : ℕ → UInt8) : ℕ → UInt8 :=
  fun a => if p ≤ a ∧ a < p + n then data (a - p) else m a

theorem filled_add {data : ℕ → UInt8} {n' : ℕ} {m : ℕ → UInt8} :
    filled (fun i => data (n + i)) (p + n) n' (filled data p n m) = filled data p (n + n') m := by
  funext a
  unfold filled
  by_cases h₁ : p + n ≤ a ∧ a < p + n + n'
  · rw [if_pos h₁, if_pos (by omega)]
    exact congrArg data (by omega)
  · rw [if_neg h₁]
    by_cases h₂ : p ≤ a ∧ a < p + n
    · rw [if_pos h₂, if_pos (by omega)]
    · rw [if_neg h₂, if_neg (by omega)]

theorem filled_congr {data data' : ℕ → UInt8} (h : ∀ i < n, data i = data' i) (p : ℕ)
    (m : ℕ → UInt8) : filled data p n m = filled data' p n m := by
  funext a
  unfold filled
  split_ifs with ha
  · exact h _ (by omega)
  · rfl

theorem store_word {data : ℕ → UInt8} {m : ℕ → UInt8} :
    store m 2 p ((data 0).toNat + 256 * (data 1).toNat) = filled data p 2 m := by
  have hword : (data 1).toNat = (data 1).toNat + 256 * 0 := (add_zero _).symm
  rw [store_succ, hword, store_succ]
  funext a
  unfold filled store
  by_cases h₀ : a = p
  · rw [h₀, Function.update_self, if_pos (by omega), Nat.sub_self]
  · rw [Function.update_of_ne h₀]
    by_cases h₁ : a = p + 1
    · rw [h₁, Function.update_self, if_pos (by omega), Nat.add_sub_cancel_left]
    · rw [Function.update_of_ne h₁, if_neg (by omega)]

theorem waitReady_searching {u : Unit} {ram : ℕ → UInt8} {polls : ℕ}
    (hk : k.transfer = .searching drive polls lba left) : waitReady fuel ⟨ram, k⟩ = .ok (u, s') ↔
      polls < fuel ∧ s' = ⟨ram, { k with transfer := .ready drive lba left 0 }⟩ := by
  induction fuel generalizing polls k with
  | zero => simp [waitReady]
  | succ fuel ih =>
    cases polls with
    | zero =>
      have hstatus : insbStatus ⟨ram, k⟩ =
          .ok (0x48, ⟨ram, { k with transfer := .ready drive lba left 0 }⟩) := by
        simp only [insbStatus, step_apply, Controller.status, hk]
      rw [waitReady, bind_of_ok hstatus, if_pos (by decide)]
      simp [eq_comm]
    | succ polls =>
      have hstatus : insbStatus ⟨ram, k⟩ =
          .ok (0x80, ⟨ram, { k with transfer := .searching drive polls lba left }⟩) := by
        simp only [insbStatus, step_apply, Controller.status, hk]
      rw [waitReady, bind_of_ok hstatus, if_neg (by decide), ih rfl, Nat.succ_lt_succ_iff]

theorem waitReady_hangs {ram : ℕ → UInt8} (hk : k.transfer.takesCommands) (fuel : ℕ) :
    waitReady fuel ⟨ram, k⟩ = .error .hang := by
  induction fuel with
  | zero => rfl
  | succ fuel ih =>
    have hstatus : ∃ c : BitVec 8, insbStatus ⟨ram, k⟩ = .ok (c, ⟨ram, k⟩) ∧
        c.getLsbD 3 = false := by
      cases h : k.transfer with
      | idle =>
        refine ⟨0x40, ?_, by decide⟩
        simp only [insbStatus, step_apply, Controller.status, h]
      | stopped =>
        refine ⟨0x41, ?_, by decide⟩
        simp only [insbStatus, step_apply, Controller.status, h]
      | searching drive polls lba left => simp [h, Transfer.takesCommands] at hk
      | ready drive lba left word => simp [h, Transfer.takesCommands] at hk
    obtain ⟨c, hc, hbit⟩ := hstatus
    rw [waitReady, bind_of_ok hc, hbit, if_neg Bool.false_ne_true, ih]

theorem waitReady_ok {u : Unit} {ram : ℕ → UInt8} :
    waitReady fuel ⟨ram, k.seek drive lba left⟩ = .ok (u, s') ↔
      left ≠ 0 ∧ lba < drive.sectors ∧ k.latency k.sought < fuel ∧
      s' = ⟨ram, { k with
        sought := k.sought + 1
        transfer := .ready drive lba left 0 }⟩ := by
  unfold Controller.seek
  split_ifs with hleft hlba
  · rw [waitReady_hangs rfl]
    simp [hleft]
  · rw [waitReady_searching rfl]
    simp [hleft, hlba]
  · rw [waitReady_hangs rfl]
    simp [hlba]

theorem filled_zero (data : ℕ → UInt8) (p : ℕ) (m : ℕ → UInt8) : filled data p 0 m = m :=
  funext fun _ => if_neg (by omega)

theorem copyWord_apply {ram : ℕ → UInt8} {word : ℕ} (hk : k.transfer = .ready drive lba left word) :
    copyWord ptr ⟨ram, k⟩ = .ok (ptr + 2,
      ⟨filled (fun i => drive.data lba (2 * word + i)) ptr 2 ram,
        if word = 255 then k.seek drive (lba + 1) (left - 1)
        else { k with transfer := .ready drive lba left (word + 1) }⟩) := by
  have hword : inswData ⟨ram, k⟩ =
      .ok ((drive.data lba (2 * word)).toNat + 256 * (drive.data lba (2 * word + 1)).toNat, ⟨ram,
        if word = 255 then k.seek drive (lba + 1) (left - 1)
        else { k with transfer := .ready drive lba left (word + 1) }⟩) := by
    simp only [inswData, step_apply, Controller.takeWord, hk]
  rw [← store_word, copyWord, bind_of_ok hword, bind_of_ok (modify_apply _ _), pure_apply]
  rfl

theorem copyWords_apply {ram : ℕ → UInt8} (hn : n < 256) :
    countUp (fun _ => copyWord) n ptr ⟨ram, { k with transfer := .ready drive lba left 0 }⟩ =
      .ok (ptr + 2 * n, ⟨filled (drive.data lba) ptr (2 * n) ram,
        { k with transfer := .ready drive lba left n }⟩) := by
  induction n with
  | zero => rw [countUp, pure_apply, mul_zero, filled_zero, add_zero]
  | succ n ih =>
    have hlast : n ≠ 255 := by omega
    rw [countUp, bind_of_ok (ih (by omega)), copyWord_apply rfl, if_neg hlast, filled_add]
    rfl

theorem copySector_ok {ram : ℕ → UInt8} :
    copySector fuel ptr ⟨ram, k.seek drive lba left⟩ = .ok (p, s') ↔
      (left ≠ 0 ∧ lba < drive.sectors ∧ k.latency k.sought < fuel) ∧ p = ptr + 512 ∧
      s' = ⟨filled (drive.data lba) ptr 512 ram,
        Controller.seek drive (lba + 1) (left - 1) { k with sought := k.sought + 1 }⟩ := by
  have hwords : countUp (fun _ => copyWord) 256 ptr ⟨ram, { k with
      sought := k.sought + 1
      transfer := .ready drive lba left 0 }⟩ = .ok (ptr + 512, ⟨filled (drive.data lba) ptr 512 ram,
        Controller.seek drive (lba + 1) (left - 1) { k with sought := k.sought + 1 }⟩) := by
    rw [countUp, bind_of_ok (copyWords_apply (k := { k with sought := k.sought + 1 }) (by decide)),
      copyWord_apply rfl, if_pos rfl, filled_add]
    rfl
  rw [copySector, bind_ok]
  constructor
  · rintro ⟨u, s₁, hwait, hcopy⟩
    obtain ⟨hleft, hlba, hlatency, rfl⟩ := waitReady_ok.mp hwait
    rw [hwords] at hcopy
    obtain ⟨rfl, rfl⟩ := ok_inj hcopy
    exact ⟨⟨hleft, hlba, hlatency⟩, rfl, rfl⟩
  · rintro ⟨⟨hleft, hlba, hlatency⟩, rfl, rfl⟩
    exact ⟨(), _, waitReady_ok.mpr ⟨hleft, hlba, hlatency, rfl⟩, hwords⟩

theorem filled_sector {ram : ℕ → UInt8} :
    filled (drive.data (lba + n)) (ptr + 512 * n) 512
      (filled (drive.bytesFrom lba) ptr (512 * n) ram) =
      filled (drive.bytesFrom lba) ptr (512 * (n + 1)) ram := by
  rw [Nat.mul_succ, ← filled_add]
  refine filled_congr (fun i hi => ?_) _ _
  have hdiv : (512 * n + i) / 512 = n := by omega
  have hmod : (512 * n + i) % 512 = i := by omega
  rw [Drive.bytesFrom, hdiv, hmod]

theorem copySectors_ok {ram : ℕ → UInt8} :
    countUp (fun _ => copySector fuel) n ptr ⟨ram, k.seek drive lba left⟩ = .ok (p, s') ↔
      (n ≤ left ∧ (n ≠ 0 → lba + n ≤ drive.sectors) ∧ ∀ i < n, k.latency (k.sought + i) < fuel) ∧
      p = ptr + 512 * n ∧ s' = ⟨filled (drive.bytesFrom lba) ptr (512 * n) ram,
        Controller.seek drive (lba + n) (left - n) { k with sought := k.sought + n }⟩ := by
  induction n generalizing p s' with
  | zero =>
    rw [countUp, pure_apply, mul_zero, filled_zero]
    simp [eq_comm]
  | succ n ih =>
    have hsub : left - n - 1 = left - (n + 1) := by omega
    rw [countUp, bind_ok]
    constructor
    · rintro ⟨q, s₁, hfirst, hlast⟩
      obtain ⟨⟨hn, -, hlatency⟩, rfl, rfl⟩ := ih.mp hfirst
      obtain ⟨⟨hleft, hlba, hn'⟩, rfl, rfl⟩ := copySector_ok.mp hlast
      refine ⟨⟨by omega, by omega, fun i hi => ?_⟩, by ring, ?_⟩
      · rcases (Nat.lt_succ_iff.mp hi).eq_or_lt with rfl | hlt
        · exact hn'
        · exact hlatency i hlt
      · rw [filled_sector, hsub]
        rfl
    · rintro ⟨⟨hn, hlba, hlatency⟩, rfl, rfl⟩
      have hlba' := hlba (Nat.succ_ne_zero n)
      refine ⟨_, _, ih.mpr ⟨⟨by omega, by omega, fun i hi => hlatency i (by omega)⟩, rfl, rfl⟩,
        copySector_ok.mpr ⟨⟨by omega, by omega, hlatency n n.lt_succ_self⟩, by ring, ?_⟩⟩
      rw [filled_sector, hsub]
      rfl

theorem command_addressed (lba : BitVec 32) (total : ℤ) (k : Controller) :
    (k.addressed lba total).command 0x20 =
      match k.driveOf lba with
      | none => { k.addressed lba total with transfer := .stopped }
      | some drive => (k.addressed lba total).seek drive (sectorOf lba) (sectorCount total) := by
  have hbit : ∀ b : BitVec 8, (b ||| 0xE0).getLsbD 6 = true := by decide
  have hlba : (k.addressed lba total).device.getLsbD 6 = true := hbit _
  rw [Controller.command, Controller.selected_addressed]
  cases k.driveOf lba with
  | none => rfl
  | some drive =>
    dsimp only
    rw [if_pos ⟨rfl, hlba⟩, Controller.address_addressed]
    rfl

/-- A read of at least one sector comes back where there are at most 256 of them, the drive is there
and has them all, and no search takes too long for the wait. -/
theorem diskReadSector_ok {ram : ℕ → UInt8} {lba : BitVec 32} {total : ℕ} {buf : ℕ} {r : ℤ}
    (hfree : k.transfer.takesCommands) (hpos : 1 ≤ total) :
    diskReadSector fuel lba total buf ⟨ram, k⟩ = .ok (r, s') ↔
      ∃ drive, k.driveOf lba = some drive ∧ total ≤ 256 ∧ sectorOf lba + total ≤ drive.sectors ∧
        (∀ i < total, k.latency (k.sought + i) < fuel) ∧ r = 0 ∧
        s' = ⟨filled (drive.bytesFrom (sectorOf lba)) buf (512 * total) ram,
          k.afterRead lba total⟩ := by
  obtain ⟨heq, hle⟩ := sectorCount_eq total (by omega)
  rw [diskReadSector_eq hfree, Int.toNat_natCast]
  dsimp only
  rw [command_addressed]
  cases hdrive : k.driveOf lba with
  | none =>
    obtain ⟨n, rfl⟩ := Nat.exists_eq_add_of_le' hpos
    have herror : copySector fuel buf
        ⟨ram, { k.addressed lba (n + 1 : ℕ) with transfer := .stopped }⟩ = .error .hang :=
      bind_of_error (waitReady_hangs rfl fuel) _
    rw [bind_of_error (countUp_of_error herror n)]
    simp
  | some drive =>
    have hidle : total ≤ 256 → Controller.seek drive (sectorOf lba + total)
        (sectorCount total - total) { k.addressed lba total with
          sought := (k.addressed lba total).sought + total } = k.afterRead lba total := by
      intro h256
      rw [Controller.seek, if_pos (by rw [heq (by omega)]; omega)]
      rfl
    rw [bind_ok]
    constructor
    · rintro ⟨p, s₁, hsectors, hpure⟩
      obtain ⟨⟨hn, hlba, hlatency⟩, -, rfl⟩ := copySectors_ok.mp hsectors
      obtain ⟨rfl, rfl⟩ := ok_inj hpure
      have h256 : total ≤ 256 := hn.trans hle
      exact ⟨drive, rfl, h256, hlba (by omega), hlatency, rfl, by rw [hidle h256]⟩
    · rintro ⟨drive', hdrive', h256, hlba, hlatency, rfl, rfl⟩
      obtain rfl := Option.some.inj hdrive'
      refine ⟨_, _, copySectors_ok.mpr ⟨⟨?_, fun _ => hlba, hlatency⟩, rfl, rfl⟩, ?_⟩
      · rw [heq (by omega)]
        omega
      · rw [hidle h256, pure_apply]

theorem exists_fuel (latency : ℕ → ℕ) (n : ℕ) : ∃ fuel, ∀ i < n, latency i < fuel :=
  ⟨(Finset.range n).sup latency + 1, fun _ hi =>
    Nat.lt_succ_of_le (Finset.le_sup (f := latency) (Finset.mem_range.mpr hi))⟩

theorem filled_of_lt {data : ℕ → UInt8} {m : ℕ → UInt8} {i : ℕ} (hi : i < n) :
    filled data p n m (p + i) = data i := by
  rw [filled, if_pos (by omega), Nat.add_sub_cancel_left]

theorem filled_frame {data : ℕ → UInt8} {m : ℕ → UInt8} {a : ℕ} (ha : a < p ∨ p + n ≤ a) :
    filled data p n m a = m a := if_neg (by omega)

end Ports

open Ports

/-- `disk_read_sector` comes back, however long the controller takes, exactly if it is to read at
most 256 sectors, which one drive has. Then the buffer holds them, nothing else in memory has
changed, and the controller takes the next command. -/
theorem diskReadSector_returns_iff (lba : BitVec 32) (total buf : ℕ) (s : Ports)
    (hfree : s.controller.transfer.takesCommands) (hpos : 1 ≤ total) :
    ((∃ fuel r s', diskReadSector fuel lba total buf s = .ok (r, s')) ↔
      total ≤ 256 ∧ ∃ drive, s.controller.driveOf lba = some drive ∧
        sectorOf lba + total ≤ drive.sectors) ∧
    ∀ fuel r s', diskReadSector fuel lba total buf s = .ok (r, s') →
      r = 0 ∧ s'.controller.transfer.takesCommands ∧
      (∃ drive, s.controller.driveOf lba = some drive ∧
        ∀ i < 512 * total, s'.ram (buf + i) = drive.bytesFrom (sectorOf lba) i) ∧
      ∀ a, a < buf ∨ buf + 512 * total ≤ a → s'.ram a = s.ram a := by
  obtain ⟨ram, k⟩ := s
  refine ⟨⟨?_, ?_⟩, ?_⟩
  · rintro ⟨fuel, r, s', hrun⟩
    obtain ⟨drive, hdrive, h256, hlba, -⟩ := (diskReadSector_ok hfree hpos).mp hrun
    exact ⟨h256, drive, hdrive, hlba⟩
  · rintro ⟨h256, drive, hdrive, hlba⟩
    obtain ⟨fuel, hfuel⟩ := exists_fuel (fun i => k.latency (k.sought + i)) total
    exact ⟨fuel, 0, _,
      (diskReadSector_ok hfree hpos).mpr ⟨drive, hdrive, h256, hlba, hfuel, rfl, rfl⟩⟩
  · rintro fuel r s' hrun
    obtain ⟨drive, hdrive, h256, hlba, -, rfl, rfl⟩ := (diskReadSector_ok hfree hpos).mp hrun
    exact ⟨rfl, rfl, ⟨drive, hdrive, fun i hi => filled_of_lt hi⟩, fun a ha => filled_frame ha⟩

def oneSector : Controller where
  master := ⟨1, fun _ i => UInt8.ofNat i⟩
  slave := none
  latency := fun i => i
  device := 0
  count := 0
  low := 0
  mid := 0
  high := 0
  sought := 0
  transfer := .idle

theorem diskReadSector_returns_iff_two :
    ¬∃ fuel r s', diskReadSector fuel 0 (2 : ℕ) 0x7C00 ⟨fun _ => 0, oneSector⟩ = .ok (r, s') := by
  rw [(diskReadSector_returns_iff 0 2 0x7C00 ⟨fun _ => 0, oneSector⟩ rfl (by decide)).1]
  rintro ⟨-, drive, hdrive, hlba⟩
  obtain rfl := Option.some.inj hdrive
  exact absurd hlba (by decide)

end Dexter
