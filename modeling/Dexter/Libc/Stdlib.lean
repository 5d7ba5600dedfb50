import Dexter.Fs.Fat16
import Dexter.Lib.Loops

/-!
# The standard library (`libc/stdlib.c`)

`memmove` copies upwards or downwards, so that no byte is written before it has been read. `rand`
keeps two seeds and writes to neither of them: every call returns what the first one did. `atoi`
stops at the end of the string only, and takes every character for a digit.
-/

namespace Dexter
open Lib.Loops

def memmove (dest src n : ℕ) (ram : ℕ → UInt8) : ℕ × (ℕ → UInt8) :=
  let d := fun i : ℕ => u32 (dest + i)
  let s := fun i : ℕ => u32 (src + i)
  if dest < src then (dest, moves d s (List.range n) ram)
  else (dest, moves d s (List.range n).reverse ram)

section Memmove
variable {dest src n : ℕ} {ram : ℕ → UInt8}

theorem u32_add {a : ℕ} (h : a + n ≤ 4294967296) {i : ℕ} (hi : i < n) :
    u32 ((a : ℤ) + i) = a + i :=
  u32_natCast (x := a + i) (by omega)

/-- Upwards no byte is read after it has been written, and downwards neither. -/
theorem memmove_moves (hd : dest + n ≤ 4294967296) (hs : src + n ≤ 4294967296)
    (ram : ℕ → UInt8) : ∃ is, (∀ i, i ∈ is ↔ i < n) ∧
      is.Pairwise (Spares (fun i : ℕ => u32 (dest + i)) (fun i : ℕ => u32 (src + i))) ∧
      memmove dest src n ram =
        (dest, moves (fun i : ℕ => u32 (dest + i)) (fun i : ℕ => u32 (src + i)) is ram) := by
  have hspares : ∀ i < n, ∀ j < n, i ≠ j → dest + i ≠ src + j →
      Spares (fun i : ℕ => u32 (dest + i)) (fun i : ℕ => u32 (src + i)) i j := by
    intro i hi j hj hij hne
    rw [Spares, u32_add hd hi, u32_add hs hj, u32_add hd hj]
    exact ⟨hne, by omega⟩
  have hmem := fun i (hi : i ∈ List.range n) => List.mem_range.mp hi
  rw [memmove]
  split_ifs with hlt
  · refine ⟨List.range n, fun i => List.mem_range, ?_, rfl⟩
    refine List.pairwise_lt_range.imp_of_mem fun hi hj hij => ?_
    exact hspares _ (hmem _ hi) _ (hmem _ hj) hij.ne (by omega)
  · refine ⟨(List.range n).reverse, fun i => List.mem_reverse.trans List.mem_range, ?_, rfl⟩
    refine List.pairwise_reverse.mpr (List.pairwise_lt_range.imp_of_mem fun hi hj hij => ?_)
    exact hspares _ (hmem _ hj) _ (hmem _ hi) hij.ne' (by omega)

theorem memmove_correct (hd : dest + n ≤ 4294967296) (hs : src + n ≤ 4294967296) :
    (memmove dest src n ram).1 = dest ∧
      (∀ i < n, (memmove dest src n ram).2 (dest + i) = ram (src + i)) ∧
      ∀ a, a < dest ∨ dest + n ≤ a → (memmove dest src n ram).2 a = ram a := by
  obtain ⟨is, hmem, hspares, hmoves⟩ := memmove_moves hd hs ram
  rw [hmoves]
  refine ⟨rfl, fun i hi => ?_, fun a ha => moves_frame fun i hi => ?_⟩
  · have htarget := moves_target (m := ram) hspares ((hmem i).mpr hi)
    rwa [u32_add hd hi, u32_add hs hi] at htarget
  · have hlt := (hmem i).mp hi
    rw [u32_add hd hlt]
    omega

theorem memmove_correct_overlap :
    (memmove 5 4 4 UInt8.ofNat).1 = 5 ∧
      (∀ i < 4, (memmove 5 4 4 UInt8.ofNat).2 (5 + i) = UInt8.ofNat (4 + i)) ∧
      ∀ a, a < 5 ∨ 5 + 4 ≤ a → (memmove 5 4 4 UInt8.ofNat).2 a = UInt8.ofNat a :=
  memmove_correct (by decide) (by decide)

end Memmove

/-- `saved_seed`, and the static `seed` of `rand`, which is 1. -/
structure Seeds where
  savedSeed : UInt32
  seed : UInt32
  deriving DecidableEq, Repr

def rand (s : Seeds) : ℤ × Seeds :=
  let x := if s.savedSeed = 0 then s.seed else s.savedSeed
  let x := x * 1103515245 + 12345
  ((x / 65536 % 32768).toNat, s)

def srand (seed : UInt32) (s : Seeds) : Seeds := { s with savedSeed := seed }

def nthRand : ℕ → Seeds → ℤ
  | 0, s => (rand s).1
  | n + 1, s => nthRand n (rand s).2

def generator (seed : ℕ) : ℕ → ℕ
  | 0 => seed
  | n + 1 => (generator seed n * 1103515245 + 12345) % 4294967296

def draw (x : ℕ) : ℤ := (x / 65536 % 32768 : ℕ)

section Rand
variable {s : Seeds} {seed : UInt32} {n : ℕ}

theorem rand_srand (h : 0 < seed) :
    rand (srand seed s) = (draw (generator seed.toNat 1), srand seed s) := by
  have hne : ¬seed = 0 := by
    rintro rfl
    exact absurd h (by decide)
  have hstep : (seed * 1103515245 + 12345).toNat = generator seed.toNat 1 := by
    rw [UInt32.toNat_add, UInt32.toNat_mul, generator, generator]
    show (seed.toNat * 1103515245 % 4294967296 + 12345) % 4294967296 = _
    omega
  rw [rand, srand, if_neg hne]
  dsimp only
  rw [UInt32.toNat_mod, UInt32.toNat_div, hstep]
  rfl

theorem nthRand_srand (h : 0 < seed) (n : ℕ) :
    nthRand n (srand seed s) = draw (generator seed.toNat 1) := by
  induction n with
  | zero => rw [nthRand, rand_srand h]
  | succ n ih => rw [nthRand, rand_srand h, ih]

theorem generator_eq (x n : ℕ) : (generator x n : ℤ) % 4294967296 =
    (affine 1103515245 12345)^[n] x % 4294967296 := by
  induction n with
  | zero => rfl
  | succ n ih =>
    rw [Function.iterate_succ_apply', affine, generator]
    omega

/-- The bit that `draw` has for its lowest is turned over in 65536 steps. -/
theorem draw_changes (x n : ℕ) : draw (generator x (2 ^ 16 + n)) ≠ draw (generator x n) := by
  have hpow : (2 : ℤ) ^ 16 = 65536 := by norm_num
  obtain ⟨d, hd, hsteps⟩ := iterate_two_pow (a := 1103515245) (c := 12345)
    (x := (affine 1103515245 12345)^[n] x) (by decide) (by decide) 16
  have hflips := bit_flips (x := (affine 1103515245 12345)^[n] x) hd 16
  have hlater := generator_eq x (2 ^ 16 + n)
  rw [Function.iterate_add_apply, hsteps] at hlater
  have hnow := generator_eq x n
  rw [hpow] at hlater hflips
  unfold draw
  omega

def Drawn (s : Seeds) (seed : UInt32) (n : ℕ) : Prop :=
  nthRand n (srand seed s) = draw (generator seed.toNat (n + 1))

def Reproduces (s : Seeds) (seed : UInt32) : Prop :=
  ∀ s' n, nthRand n (srand seed s') = nthRand n (srand seed s)

def Advances (s : Seeds) (seed : UInt32) : Prop := (∀ n, Drawn s seed n) ∧ Reproduces s seed

theorem drawn_iff (h : 0 < seed) :
    Drawn s seed n ↔ draw (generator seed.toNat (n + 1)) = draw (generator seed.toNat 1) := by
  rw [Drawn, nthRand_srand h]
  exact eq_comm

/-- A sequence is the same with the same seed, but a call of it is right only where the generator
draws again what it drew first, and one of two calls that are 65536 calls apart is wrong. -/
theorem rand_never_advances (s : Seeds) (h : 0 < seed) :
    ((∀ n, Drawn s seed n ↔
        draw (generator seed.toNat (n + 1)) = draw (generator seed.toNat 1)) ∧
      Reproduces s seed) ∧
      (∀ n, ¬(Drawn s seed n ∧ Drawn s seed (2 ^ 16 + n))) ∧ ¬Advances s seed := by
  have happart : ∀ n, ¬(Drawn s seed n ∧ Drawn s seed (2 ^ 16 + n)) := by
    intro n ⟨hn, hlater⟩
    have hsame := (drawn_iff h).mp hlater
    rw [← (drawn_iff h).mp hn, add_assoc] at hsame
    exact draw_changes seed.toNat (n + 1) hsame
  refine ⟨⟨fun n => drawn_iff h, fun s' n => ?_⟩, happart, fun hall => ?_⟩
  · rw [nthRand_srand h, nthRand_srand h]
  · exact happart 0 ⟨hall.1 0, hall.1 (2 ^ 16 + 0)⟩

theorem rand_never_advances_one :
    ((∀ n, Drawn ⟨0, 1⟩ 1 n ↔
        draw (generator (1 : UInt32).toNat (n + 1)) = draw (generator (1 : UInt32).toNat 1)) ∧
      Reproduces ⟨0, 1⟩ 1) ∧
      (∀ n, ¬(Drawn ⟨0, 1⟩ 1 n ∧ Drawn ⟨0, 1⟩ 1 (2 ^ 16 + n))) ∧ ¬Advances ⟨0, 1⟩ 1 :=
  rand_never_advances ⟨0, 1⟩ (by decide)

/-- 16838 comes again where 5758 is next. -/
theorem second_rand_repeats : ¬∀ (s : Seeds) (seed : UInt32), 0 < seed → Advances s seed := by
  intro h
  have hsecond : Drawn ⟨0, 1⟩ 1 1 := (h ⟨0, 1⟩ 1 (by decide)).1 1
  exact absurd hsecond (by unfold Drawn; decide)

end Rand

def minus : UInt8 := 0x2d

def atoiFrom : CString → ℤ → ℤ
  | [], r => r
  | c :: str, r => atoiFrom str (i32 (r * 10 + schar c - 48))

def atoi (str : CString) : ℤ :=
  if str.head? = some minus then i32 (-1 * atoiFrom str.tail 0) else i32 (1 * atoiFrom str 0)

structure Numeral where
  negative : Bool
  digits : CString
  trailing : CString
  deriving DecidableEq, Repr

def Numeral.ofText (str : CString) : Numeral :=
  let unsigned := if str.head? = some minus then str.tail else str
  ⟨str.head? = some minus, unsigned.takeWhile isdigit, unsigned.dropWhile isdigit⟩

def Numeral.number (x : Numeral) : ℕ :=
  Nat.ofDigits 10 (x.digits.map fun c => c.toNat - 48).reverse

def Numeral.value (x : Numeral) : ℤ := if x.negative then -x.number else x.number

def positional : CString → ℤ
  | [] => 0
  | c :: str => (schar c - 48) * 10 ^ str.length + positional str

section Atoi
variable {str : CString}

theorem positional_append (a b : CString) :
    positional (a ++ b) = positional a * 10 ^ b.length + positional b := by
  induction a with
  | nil => simp [positional]
  | cons c a ih =>
    rw [List.cons_append, positional, positional, ih, List.length_append, pow_add]
    ring

theorem positional_digits {digits : CString} (h : ∀ c ∈ digits, isdigit c = true) :
    positional digits = (Nat.ofDigits 10 (digits.map fun c => c.toNat - 48).reverse : ℕ) := by
  induction digits with
  | nil => rfl
  | cons c digits ih =>
    obtain ⟨hc, hrest⟩ := List.forall_mem_cons.mp h
    obtain ⟨hle, hge⟩ : 48 ≤ c.toNat ∧ c.toNat ≤ 57 := by
      simpa [isdigit, UInt8.le_iff_toNat_le] using hc
    have hval : schar c - 48 = (c.toNat - 48 : ℕ) := by
      unfold schar
      split_ifs <;> omega
    rw [positional, ih hrest, hval, List.map_cons, List.reverse_cons, Nat.ofDigits_append]
    simp
    ring

theorem atoiFrom_eq (str : CString) (r : ℤ) :
    i32 (atoiFrom str r) = i32 (r * 10 ^ str.length + positional str) := by
  induction str generalizing r with
  | nil => simp [atoiFrom, positional]
  | cons c str ih =>
    have hring : (r * 10 + schar c - 48) * 10 ^ str.length + positional str =
        r * 10 ^ (c :: str).length + positional (c :: str) := by
      rw [positional, List.length_cons, pow_succ]
      ring
    rw [atoiFrom, ih, ← i32_i32_add, i32_i32_mul, i32_i32_add, hring]

theorem i32_mul_atoiFrom (sign : ℤ) (str : CString) :
    i32 (sign * atoiFrom str 0) = i32 (sign * positional str) := by
  have h := atoiFrom_eq str 0
  rw [zero_mul, zero_add] at h
  rw [mul_comm, ← i32_i32_mul, h, i32_i32_mul, mul_comm]

theorem ofText_positional (str : CString) :
    positional (if str.head? = some minus then str.tail else str) =
      (Numeral.ofText str).number * 10 ^ (Numeral.ofText str).trailing.length +
        positional (Numeral.ofText str).trailing := by
  have hdigits := @positional_digits (Numeral.ofText str).digits fun c hc =>
    List.mem_takeWhile_imp hc
  rw [Numeral.number, ← hdigits, ← positional_append]
  exact congrArg positional List.takeWhile_append_dropWhile.symm

theorem i32_sign_iff {sign v p : ℤ} (hsign : sign = 1 ∨ sign = -1)
    (hfits : -2147483648 ≤ sign * v ∧ sign * v < 2147483648) :
    i32 (sign * p) = sign * v ↔ (4294967296 : ℤ) ∣ p - v := by
  rw [i32_eq_iff, and_iff_right hfits.1, and_iff_right hfits.2]
  rcases hsign with rfl | rfl
  · omega
  · omega

/-- The number is read as far as it goes exactly if what is behind it adds up to nothing: if nothing
is there, or if the number moved up by its length and what its characters come to give the number
again. -/
theorem atoi_reads_number_iff (hfits : -2147483648 ≤ (Numeral.ofText str).value ∧
    (Numeral.ofText str).value < 2147483648) :
    atoi str = (Numeral.ofText str).value ↔
      (4294967296 : ℤ) ∣ (Numeral.ofText str).number *
        (10 ^ (Numeral.ofText str).trailing.length - 1) +
          positional (Numeral.ofText str).trailing := by
  have hpositional := ofText_positional str
  have hring : ∀ v p t : ℤ, v * (p - 1) + t = v * p + t - v := by
    intro v p t
    ring
  rw [hring, ← hpositional]
  unfold Numeral.value at hfits ⊢
  unfold atoi
  by_cases hminus : str.head? = some minus
  · have hneg : (Numeral.ofText str).negative = true := decide_eq_true hminus
    rw [if_pos hneg, ← neg_one_mul ((Numeral.ofText str).number : ℤ)] at hfits
    rw [if_pos hminus, if_pos hneg, i32_mul_atoiFrom, if_pos hminus,
      ← i32_sign_iff (Or.inr rfl) hfits, neg_one_mul ((Numeral.ofText str).number : ℤ)]
  · have hneg : ¬(Numeral.ofText str).negative = true := fun h => hminus (of_decide_eq_true h)
    rw [if_neg hneg, ← one_mul ((Numeral.ofText str).number : ℤ)] at hfits
    rw [if_neg hminus, if_neg hneg, i32_mul_atoiFrom, if_neg hminus,
      ← i32_sign_iff (Or.inl rfl) hfits, one_mul ((Numeral.ofText str).number : ℤ)]

theorem atoi_reads_number_least : (atoi [0x2d, 0x32, 0x31, 0x34, 0x37, 0x34, 0x38, 0x33, 0x36, 0x34,
      0x38] = -2147483648 ↔ (4294967296 : ℤ) ∣ 2147483648 * (10 ^ 0 - 1) + 0) :=
  atoi_reads_number_iff (by decide)

/-- The letter of `1a` counts 49. -/
theorem letter_counts : ¬∀ str : CString, -2147483648 ≤ (Numeral.ofText str).value →
    (Numeral.ofText str).value < 2147483648 → atoi str = (Numeral.ofText str).value := by
  intro h
  exact absurd (h [0x31, 0x61] (by decide) (by decide)) (by decide)

end Atoi

end Dexter
