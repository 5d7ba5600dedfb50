import Dexter.Lib.Programs

/-!
# Words, status codes and configuration

The kernel is 32-bit code: `unsigned` values and pointers are natural numbers
below `2^32`, `int` values are integers in `[-2^31, 2^31)`. `u32` and `i32` are
the wrap-around of the two, `u16` that of `uint16_t`; the compiler is run at `-O0`, where signed overflow
wraps as well. `Crash` lists the ways in which a run of the kernel ends without
coming back: an access through a null pointer, an access to a `struct task` that
is not allocated, a division by zero, a write outside an array, a read of a local
variable that has no value, and a loop that never ends (also the one in `panic`).
-/

namespace Dexter

inductive Crash
  | nullPointer
  | freedTask
  | divideByZero
  | overrun
  | uninitialised
  | hang
  deriving DecidableEq, Repr

def u32 (x : ℤ) : ℕ := (x % 4294967296).toNat

def u16 (x : ℤ) : ℕ := (x % 65536).toNat

def i32 (x : ℤ) : ℤ := (x + 2147483648) % 4294967296 - 2147483648

theorem u32_lt (x : ℤ) : u32 x < 4294967296 := by
  unfold u32
  omega

theorem u32_of_range {x : ℤ} (h0 : 0 ≤ x) (h1 : x < 4294967296) : (u32 x : ℤ) = x := by
  unfold u32
  omega

theorem u32_natCast {x : ℕ} (h : x < 4294967296) : u32 x = x := by
  unfold u32
  omega

theorem i32_of_range {x : ℤ} (h0 : -2147483648 ≤ x) (h1 : x < 2147483648) : i32 x = x := by
  unfold i32
  omega

theorem i32_lt (x : ℤ) : i32 x < 2147483648 := by
  unfold i32
  omega

theorem i32_natCast {x : ℕ} (h : x < 2147483648) : i32 x = x :=
  i32_of_range (by omega) (by omega)

theorem i32_eq_iff {x y : ℤ} :
    i32 x = y ↔ -2147483648 ≤ y ∧ y < 2147483648 ∧ 4294967296 ∣ x - y := by
  unfold i32
  omega

theorem i32_u32_eq_iff {x y : ℤ} (h0 : 0 ≤ y) (h1 : y < 2147483648) :
    i32 (u32 x) = y ↔ 4294967296 ∣ x - y := by
  unfold i32 u32
  omega

theorem i32_congr {x y : ℤ} (h : 4294967296 ∣ x - y) : i32 x = i32 y := by
  unfold i32
  omega

theorem dvd_sub_i32 (x : ℤ) : 4294967296 ∣ x - i32 x := by
  unfold i32
  omega

@[simp] theorem i32_i32 (x : ℤ) : i32 (i32 x) = i32 x := by
  have h := dvd_sub_i32 x
  exact i32_congr (by omega)

@[simp] theorem i32_add_i32 (a b : ℤ) : i32 (a + i32 b) = i32 (a + b) := by
  apply i32_congr
  have hb := dvd_sub_i32 b
  omega

@[simp] theorem i32_i32_add (a b : ℤ) : i32 (i32 a + b) = i32 (a + b) := by
  rw [add_comm, i32_add_i32, add_comm]

@[simp] theorem i32_i32_mul (a b : ℤ) : i32 (i32 a * b) = i32 (a * b) := by
  apply i32_congr
  have hsub : i32 a * b - a * b = -((a - i32 a) * b) := by ring
  rw [hsub]
  exact dvd_neg.mpr ((dvd_sub_i32 a).mul_right b)

-- sys/status.h
@[simp] abbrev dexterAllOk : ℤ := 0
@[simp] abbrev eIo : ℤ := 1
@[simp] abbrev eInvArg : ℤ := 2
@[simp] abbrev eNoMem : ℤ := 3
@[simp] abbrev eBadPath : ℤ := 4
@[simp] abbrev eFsNotUs : ℤ := 5
@[simp] abbrev eRdOnly : ℤ := 6
@[simp] abbrev eUnimp : ℤ := 7
@[simp] abbrev eIsTkn : ℤ := 8

-- sys/config.h
@[simp] abbrev dexterTotalInterrupts : ℕ := 512
@[simp] abbrev dexterHeapBlockSize : ℕ := 4096
@[simp] abbrev dexterHeapAddress : ℕ := 0x01000000
@[simp] abbrev dexterSectorSize : ℕ := 512
@[simp] abbrev dexterMaxPath : ℕ := 108
@[simp] abbrev dexterMaxFileDescriptors : ℕ := 512
@[simp] abbrev dexterMaxProcesses : ℕ := 12
@[simp] abbrev dexterMaxIsr80hCommands : ℕ := 1024
@[simp] abbrev dexterProgramVirtualAddress : ℕ := 0x400000
@[simp] abbrev dexterUserProgramStackSize : ℕ := 1024 * 16
@[simp] abbrev dexterProgramVirtualStackAddressStart : ℕ := 0x3FF000
@[simp] abbrev dexterProgramVirtualStackAddressEnd : ℕ :=
  dexterProgramVirtualStackAddressStart - dexterUserProgramStackSize
@[simp] abbrev userDataSegment : ℕ := 0x23
@[simp] abbrev userCodeSegment : ℕ := 0x1b

end Dexter
