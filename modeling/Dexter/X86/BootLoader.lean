import Dexter.Fs.Ata
import Dexter.Lib.Refinement

/-!
# The boot loader (`x86/boot.asm`)

`ata_lba_read` is the loader's own way to the disk, with the sector in `eax`, the number of sectors
in `ecx` and the buffer at `edi`. It keeps its count on the stack while a sector is copied. It does
to the controller and to memory what `disk_read_sector` does.
-/

namespace Dexter
open Lib.Programs Lib.LittleEndian Lib.Refinement Ports

structure Boot extends Ports where
  eax : BitVec 32
  ebx : BitVec 32
  ecx : BitVec 32
  dx : BitVec 16
  edi : ℕ
  esp : ℕ

namespace Boot

def mov (f : Boot → Boot) : Prog Crash Boot Unit := modify f

def setAl (al : BitVec 8) (b : Boot) : Boot :=
  { b with eax := b.eax &&& 0xFFFFFF00 ||| al.setWidth 32 }

def outDxAl : Prog Crash Boot Unit :=
  modify fun b => { b with controller := b.controller.write b.dx.toNat (b.eax.setWidth 8) }

def inAlDx : Prog Crash Boot Unit :=
  modify fun b =>
    ({ b with controller := b.controller.status.2 } : Boot).setAl b.controller.status.1

def insw : Prog Crash Boot Unit :=
  modify fun b =>
    { b with
      ram := store b.ram 2 b.edi b.controller.takeWord.1
      controller := b.controller.takeWord.2
      edi := b.edi + 2 }

def pushEcx : Prog Crash Boot Unit :=
  modify fun b => { b with esp := b.esp - 4, ram := store b.ram 4 (b.esp - 4) b.ecx.toNat }

def popEcx : Prog Crash Boot Unit :=
  modify fun b => { b with esp := b.esp + 4, ecx := BitVec.ofNat 32 (load b.ram 4 b.esp) }

def tryAgain : ℕ → Prog Crash Boot Unit
  | 0 => abort .hang
  | fuel + 1 => do
    mov fun b => { b with dx := 0x1F7 }
    inAlDx
    let b ← get
    if b.eax.getLsbD 3 then pure () else tryAgain fuel

def repInsw : Prog Crash Boot Unit := do
  let b ← get
  countUp (fun _ _ => insw) b.ecx.toNat ()
  mov fun b => { b with ecx := 0 }

def sectorRound (fuel : ℕ) : Prog Crash Boot Unit := do
  pushEcx
  tryAgain fuel
  mov fun b => { b with ecx := 256 }
  mov fun b => { b with dx := 0x1F0 }
  repInsw
  popEcx
  mov fun b => { b with ecx := b.ecx - 1 }

def nextSector (fuel : ℕ) : ℕ → Prog Crash Boot Unit
  | 0 => abort .hang
  | rounds + 1 => do
    sectorRound fuel
    let b ← get
    if b.ecx ≠ 0 then nextSector fuel rounds else pure ()

def ataLbaRead (fuel rounds : ℕ) : Prog Crash Boot Unit := do
  mov fun b => { b with ebx := b.eax }
  mov fun b => { b with eax := b.eax >>> 24 }
  mov fun b => { b with eax := b.eax ||| 0xE0 }
  mov fun b => { b with dx := 0x1F6 }
  outDxAl
  mov fun b => { b with eax := b.ecx }
  mov fun b => { b with dx := 0x1F2 }
  outDxAl
  mov fun b => { b with eax := b.ebx }
  mov fun b => { b with dx := 0x1F3 }
  outDxAl
  mov fun b => { b with dx := 0x1F4 }
  mov fun b => { b with eax := b.ebx }
  mov fun b => { b with eax := b.eax >>> 8 }
  outDxAl
  mov fun b => { b with dx := 0x1F5 }
  mov fun b => { b with eax := b.ebx }
  mov fun b => { b with eax := b.eax >>> 16 }
  outDxAl
  mov fun b => { b with dx := 0x1F7 }
  mov (setAl 0x20)
  outDxAl
  nextSector fuel rounds

theorem setWidth_setAl (al : BitVec 8) (b : Boot) : (b.setAl al).eax.setWidth 8 = al := by
  have hmask : (0xFFFFFF00 : BitVec 32).setWidth 8 = 0#8 := by decide
  rw [setAl, BitVec.setWidth_or, BitVec.setWidth_and, hmask, BitVec.and_zero, BitVec.zero_or,
    BitVec.setWidth_setWidth_of_le _ (by decide), BitVec.setWidth_eq]

theorem getLsbD_setAl (al : BitVec 8) (b : Boot) :
    (b.setAl al).eax.getLsbD 3 = al.getLsbD 3 := by
  rw [← setWidth_setAl al b, BitVec.getLsbD_setWidth, setWidth_setAl]
  rfl

theorem setWidth_ushiftRight (lba : BitVec 32) (n : ℕ) :
    (lba >>> n).setWidth 8 = lba.extractLsb' n 8 := by
  apply BitVec.eq_of_getLsbD_eq
  intro i _
  rw [BitVec.getLsbD_setWidth, BitVec.getLsbD_ushiftRight, BitVec.getLsbD_extractLsb']

theorem setWidth_ofNat (x : BitVec 32) : x.setWidth 8 = BitVec.ofInt 8 (x.toNat : ℤ) := by
  apply BitVec.eq_of_toNat_eq
  rw [BitVec.toNat_setWidth, BitVec.toNat_ofInt]
  omega

theorem ataLbaRead_eq (b : Boot) (hfree : b.controller.transfer.takesCommands) (fuel rounds : ℕ) :
    ∃ eax ebx dx, ataLbaRead fuel rounds b = nextSector fuel rounds { b with
      eax := eax
      ebx := ebx
      dx := dx
      controller := (b.controller.addressed b.eax b.ecx.toNat).command 0x20 } := by
  have hdevice : (b.eax >>> 24 ||| 0xE0).setWidth 8 = b.eax.extractLsb' 24 8 ||| 0xE0 := by
    rw [BitVec.setWidth_or, setWidth_ushiftRight]
    rfl
  have hlow : b.eax.setWidth 8 = b.eax.extractLsb' 0 8 := setWidth_ushiftRight b.eax 0
  have hregisters : ((((((b.controller.write 0x1F6 ((b.eax >>> 24 ||| 0xE0).setWidth 8)).write
      0x1F2 (b.ecx.setWidth 8)).write 0x1F3 (b.eax.setWidth 8)).write
      0x1F4 ((b.eax >>> 8).setWidth 8)).write 0x1F5 ((b.eax >>> 16).setWidth 8)).write
      0x1F7 ((setAl 0x20 { b with eax := b.eax >>> 16 }).eax.setWidth 8)) =
        (b.controller.addressed b.eax b.ecx.toNat).command 0x20 := by
    simp only [Controller.write, hfree, if_true, hdevice, hlow, setWidth_ushiftRight,
      setWidth_ofNat b.ecx, setWidth_setAl]
    rfl
  rw [← hregisters]
  exact ⟨_, _, _, rfl⟩

/-- The loader has the count `w` in the slot on its stack, and elsewhere what the driver has. -/
structure Copying (slot w edi : ℕ) (b : Boot) (s : Ports) : Prop where
  controller : b.controller = s.controller
  ram : ∀ a, a < slot ∨ slot + 4 ≤ a → b.ram a = s.ram a
  count : load b.ram 4 slot = w
  esp : b.esp = slot
  edi : b.edi = edi

structure Counting (slot w edi : ℕ) (b : Boot) (s : Ports) : Prop where
  controller : b.controller = s.controller
  ram : ∀ a, a < slot ∨ slot + 4 ≤ a → b.ram a = s.ram a
  count : b.ecx.toNat = w
  esp : b.esp = slot + 4
  edi : b.edi = edi

section Loop
variable {slot w edi : ℕ}

theorem tryAgain_corres (fuel : ℕ) : Corres (Copying slot w edi) (tryAgain fuel) (waitReady fuel)
    fun _ _ => Copying slot w edi := by
  induction fuel with
  | zero => exact Corres.abort Crash.hang
  | succ fuel ih =>
    intro b s h
    have hbit : (setAl b.controller.status.1 { b with
        dx := 0x1F7
        controller := b.controller.status.2 }).eax.getLsbD 3 = s.controller.status.1.getLsbD 3 := by
      rw [getLsbD_setAl, h.controller]
    have hafter : Copying slot w edi (setAl b.controller.status.1 { b with
        dx := 0x1F7
        controller := b.controller.status.2 }) { s with controller := s.controller.status.2 } :=
      ⟨congrArg (·.status.2) h.controller, h.ram, h.count, h.esp, h.edi⟩
    have hleft : tryAgain (fuel + 1) b = (if s.controller.status.1.getLsbD 3 then pure () else
        tryAgain fuel) (setAl b.controller.status.1 { b with
          dx := 0x1F7
          controller := b.controller.status.2 }) := by
      rw [← hbit]
      rfl
    have hright : waitReady (fuel + 1) s = (if s.controller.status.1.getLsbD 3 then pure () else
        waitReady fuel) { s with controller := s.controller.status.2 } := rfl
    rw [hleft, hright]
    split_ifs
    · exact .returns hafter
    · exact ih _ _ hafter

theorem insw_corres (hapart : edi + 2 ≤ slot ∨ slot + 4 ≤ edi) :
    Corres (Copying slot w edi) insw (copyWord edi)
      fun _ ptr b s => ptr = edi + 2 ∧ Copying slot w (edi + 2) b s := by
  refine Corres.both (fun b => rfl) (fun s => rfl) fun b s h => ⟨rfl, ?_⟩
  dsimp only
  rw [h.edi, h.controller]
  refine ⟨rfl, fun a ha => store_congr (h.ram a ha), ?_, h.esp, rfl⟩
  exact (load_store_of_disjoint (by omega)).trans h.count

theorem words_corres {n : ℕ} (hapart : edi + 2 * n ≤ slot ∨ slot + 4 ≤ edi) :
    Corres (Copying slot w edi) (countUp (fun _ _ => insw) n ()) (countUp (fun _ => copyWord) n edi)
      fun _ ptr b s => ptr = edi + 2 * n ∧ Copying slot w (edi + 2 * n) b s := by
  refine (Corres.countUp (I := fun i _ ptr b s => ptr = edi + 2 * i ∧
    Copying slot w (edi + 2 * i) b s) (fun i hi _ ptr => ?_) () edi).conseq
    (fun b s h => ⟨rfl, h⟩) fun _ ptr b s h => h
  rintro b s ⟨rfl, h⟩
  rw [Nat.mul_succ, ← Nat.add_assoc]
  exact @insw_corres slot w (edi + 2 * i) (by omega) b s h

theorem repInsw_corres {n : ℕ} (hapart : edi + 2 * n ≤ slot ∨ slot + 4 ≤ edi) :
    Corres (fun b s => b.ecx.toNat = n ∧ Copying slot w edi b s) repInsw
      (countUp (fun _ => copyWord) n edi)
      fun _ ptr b s => ptr = edi + 2 * n ∧ Copying slot w (edi + 2 * n) b s := by
  rintro b s ⟨hecx, h⟩
  rw [repInsw, bind_of_ok (get_apply b), hecx]
  exact (words_corres hapart).left_last (fun _ _ => rfl)
    (fun _ ptr b s h => ⟨h.1, h.2.controller, h.2.ram, h.2.count, h.2.esp, h.2.edi⟩) b s h

theorem mov_left {P S : Boot → Ports → Prop} {f : Boot → Boot} {g : Prog Crash Boot Unit}
    {n : Prog Crash Ports ℕ} {R : Unit → ℕ → Boot → Ports → Prop}
    (h : ∀ b s, P b s → S (f b) s) (hg : Corres S g n R) : Corres P (mov f >>= fun _ => g) n R :=
  Corres.left (f := fun b => ((), f b)) (fun _ => rfl) h fun _ => hg

theorem sectorRound_corres (fuel : ℕ) {n : ℕ} (hlt : n + 1 < 4294967296)
    (hapart : edi + 512 ≤ slot ∨ slot + 4 ≤ edi) :
    Corres (Counting slot (n + 1) edi) (sectorRound fuel) (copySector fuel edi)
      fun _ ptr b s => ptr = edi + 512 ∧ Counting slot n (edi + 512) b s := by
  rw [sectorRound, copySector]
  refine mov_left (S := Copying slot (n + 1) edi) (fun b s h => ?_) ?_
  · have hslot : b.esp - 4 = slot := by
      rw [h.esp, Nat.add_sub_cancel]
    refine ⟨h.controller, fun a ha => ?_, ?_, hslot, h.edi⟩
    · dsimp only
      rw [hslot, store_frame ha]
      exact h.ram a ha
    · dsimp only
      rw [hslot, load_store_self, h.count]
      exact Nat.mod_eq_of_lt hlt
  refine Corres.bind (tryAgain_corres fuel) fun _ _ => ?_
  refine mov_left (S := fun b s => b.ecx.toNat = 256 ∧ Copying slot (n + 1) edi b s)
    (fun b s h => ⟨rfl, h.controller, h.ram, h.count, h.esp, h.edi⟩) ?_
  refine mov_left (S := fun b s => b.ecx.toNat = 256 ∧ Copying slot (n + 1) edi b s)
    (fun b s h => ⟨h.1, h.2.controller, h.2.ram, h.2.count, h.2.esp, h.2.edi⟩) ?_
  refine (repInsw_corres hapart).left_last (fun _ b => rfl) fun _ ptr b s h => ⟨h.1, ?_⟩
  obtain ⟨hcontroller, hram, hcount, hesp, hedi⟩ := h.2
  refine ⟨hcontroller, hram, ?_, congrArg (· + 4) hesp, hedi⟩
  show (BitVec.ofNat 32 (load b.ram 4 b.esp) - 1).toNat = n
  rw [hesp, hcount, BitVec.toNat_sub, BitVec.toNat_ofNat]
  have hone : (1 : BitVec 32).toNat = 1 := rfl
  rw [hone]
  omega

theorem nextSector_corres (fuel : ℕ) {rounds n : ℕ} (hn : n < rounds) (hlt : n + 1 < 4294967296)
    (hapart : edi + 512 * (n + 1) ≤ slot ∨ slot + 4 ≤ edi) :
    Corres (Counting slot (n + 1) edi) (nextSector fuel rounds)
      (countUp (fun _ => copySector fuel) (n + 1) edi)
      fun _ _ => Counting slot 0 (edi + 512 * (n + 1)) := by
  induction rounds generalizing n edi with
  | zero => exact absurd hn (Nat.not_lt_zero n)
  | succ rounds ih =>
    rw [countUp_succ, nextSector]
    show Corres _ _ (copySector fuel edi >>= countUp (fun _ => copySector fuel) n) _
    rw [Nat.mul_succ, ← Nat.add_assoc] at hapart ⊢
    have hsector : edi + 512 ≤ slot ∨ slot + 4 ≤ edi := by omega
    refine Corres.bind (sectorRound_corres fuel hlt hsector) fun _ ptr => ?_
    rintro b s ⟨rfl, h⟩
    rw [bind_of_ok (get_apply b)]
    cases n with
    | zero =>
      rw [if_neg (not_not.mpr (BitVec.eq_of_toNat_eq h.count))]
      exact .returns h
    | succ n =>
      have hne : b.ecx ≠ 0 := by
        intro h0
        have hcount := h.count
        rw [h0] at hcount
        cases hcount
      rw [if_pos hne]
      rw [Nat.add_right_comm] at hapart ⊢
      exact ih (Nat.succ_lt_succ_iff.mp hn) (by omega) (hapart.imp_right (le_add_right ·)) b s h

end Loop

end Boot

open Boot

/-- The loader's read and the driver's do the same, whatever the controller answers and also where
they never end: they leave the controller and memory alike, but for the word that the loader keeps
on its stack, and the registers behind the buffer and at the end of the count. -/
theorem ataLbaRead_agrees (b : Boot) (fuel rounds : ℕ) (hfree : b.controller.transfer.takesCommands)
    (hecx : b.ecx ≠ 0) (hrounds : b.ecx.toNat ≤ rounds) (hesp : 4 ≤ b.esp)
    (hapart : b.edi + 512 * b.ecx.toNat ≤ b.esp - 4 ∨ b.esp ≤ b.edi) :
    Agree (fun (_ : Unit) (r : ℤ) b' s => r = 0 ∧ b'.controller = s.controller ∧
        (∀ a, a < b.esp - 4 ∨ b.esp ≤ a → b'.ram a = s.ram a) ∧ b'.ecx = 0 ∧ b'.esp = b.esp ∧
        b'.edi = b.edi + 512 * b.ecx.toNat)
      (ataLbaRead fuel rounds b) (diskReadSector fuel b.eax b.ecx.toNat b.edi b.toPorts) := by
  obtain ⟨eax, ebx, dx, hloader⟩ := ataLbaRead_eq b hfree fuel rounds
  have hlt := b.ecx.isLt
  have hpos : b.ecx.toNat ≠ 0 := fun h0 => hecx (BitVec.eq_of_toNat_eq h0)
  obtain ⟨n, hn⟩ := Nat.exists_eq_succ_of_ne_zero hpos
  rw [hloader, diskReadSector_eq hfree, Int.toNat_natCast]
  rw [hn] at hapart hrounds ⊢
  have hslot : b.esp - 4 + 4 = b.esp := by omega
  have hruns := @nextSector_corres (b.esp - 4) b.edi fuel rounds n hrounds (by omega)
    (by rwa [hslot]) { b with
      eax := eax
      ebx := ebx
      dx := dx
      controller := (b.controller.addressed b.eax (n + 1 : ℕ)).command 0x20 }
    ⟨b.ram, (b.controller.addressed b.eax (n + 1 : ℕ)).command 0x20⟩
    ⟨rfl, fun _ _ => rfl, hn, hslot.symm, rfl⟩
  generalize nextSector fuel rounds _ = x at hruns ⊢
  generalize hy : countUp (fun _ => copySector fuel) (n + 1) b.edi
    ⟨b.ram, (b.controller.addressed b.eax (n + 1 : ℕ)).command 0x20⟩ = y at hruns
  cases hruns with
  | fails e =>
    rw [bind_of_error hy]
    exact .fails e
  | returns related =>
    rw [bind_of_ok hy, pure_apply]
    obtain ⟨hcontroller, hram, hcount, hesp', hedi⟩ := related
    rw [hslot] at hram hesp'
    exact .returns ⟨rfl, hcontroller, hram, BitVec.eq_of_toNat_eq hcount, hesp', hedi⟩

def load32 : Boot where
  ram := fun _ => 0
  controller := oneSector
  eax := 1
  ebx := 0
  ecx := 100
  dx := 0
  edi := 0x0100000
  esp := 0x7BFC

theorem ataLbaRead_agrees_load32 :
    Agree (fun (_ : Unit) (r : ℤ) b' s => r = 0 ∧ b'.controller = s.controller ∧
        (∀ a, a < 0x7BF8 ∨ 0x7BFC ≤ a → b'.ram a = s.ram a) ∧ b'.ecx = 0 ∧ b'.esp = 0x7BFC ∧
        b'.edi = 0x010C800)
      (ataLbaRead 1000 100 load32) (diskReadSector 1000 1 (100 : ℕ) 0x0100000 load32.toPorts) :=
  ataLbaRead_agrees load32 1000 100 rfl (by decide) le_rfl (by decide) (Or.inr (by decide))

end Dexter
