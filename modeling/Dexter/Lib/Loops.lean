import Mathlib

/-!
# Loops

What a loop leaves behind, said without running it. `moves` copies one place after the other, which
is the same as all at once where no move writes to a place that a later one reads or writes.
`follow` walks along links and gives up where a place stops it. `leave` goes up an index while a
test holds. An affine map is iterated by a linear congruential generator: doubling the number of
steps multiplies what they add by `a ^ n + 1`, so with `a - 1` divisible by 4 and `c` odd, `2 ^ k`
steps leave the bits below `k` alone and turn over the bit `k`.
-/

namespace Lib.Loops

section Moves
variable {ι α β : Type*} [DecidableEq α]

def moves (dst src : ι → α) : List ι → (α → β) → α → β
  | [], m => m
  | i :: is, m => moves dst src is (Function.update m (dst i) (m (src i)))

def Spares (dst src : ι → α) (i j : ι) : Prop := dst i ≠ src j ∧ dst i ≠ dst j

variable {dst src : ι → α} {is : List ι} {m : α → β} {a : α} {i : ι}

theorem moves_frame (h : ∀ i ∈ is, dst i ≠ a) : moves dst src is m a = m a := by
  induction is generalizing m with
  | nil => rfl
  | cons j is ih =>
    rw [moves, ih fun i hi => h i (List.mem_cons_of_mem j hi)]
    exact Function.update_of_ne (h j List.mem_cons_self).symm _ _

theorem moves_target (h : is.Pairwise (Spares dst src)) (hi : i ∈ is) :
    moves dst src is m (dst i) = m (src i) := by
  induction is generalizing m with
  | nil => exact absurd hi List.not_mem_nil
  | cons j is ih =>
    obtain ⟨hj, hrest⟩ := List.pairwise_cons.mp h
    rw [moves]
    rcases List.mem_cons.mp hi with rfl | hi
    · rw [moves_frame fun k hk => (hj k hk).2.symm, Function.update_self]
    · rw [ih hrest hi, Function.update_of_ne (hj i hi).1.symm]

end Moves

section Walks
variable {α : Type*} (next : α → α) (stops stops' : α → Prop)

def follow [DecidablePred stops] : ℕ → α → Option α
  | 0, a => some a
  | n + 1, a => if stops (next a) then none else follow n (next a)

def Clear (n : ℕ) (a : α) : Prop := ∀ i < n, ¬stops (next^[i + 1] a)

variable {next stops stops'} {n : ℕ} {a : α}

theorem clear_succ : Clear next stops (n + 1) a ↔ ¬stops (next a) ∧ Clear next stops n (next a) :=
  Nat.forall_lt_succ_left

theorem not_clear : ¬Clear next stops n a ↔ ∃ i < n, stops (next^[i + 1] a) := by
  simp [Clear]

theorem follow_of_clear [DecidablePred stops] (h : Clear next stops n a) :
    follow next stops n a = some (next^[n] a) := by
  induction n generalizing a with
  | zero => rfl
  | succ n ih =>
    obtain ⟨hnext, hrest⟩ := clear_succ.mp h
    rw [follow, if_neg hnext, ih hrest, Function.iterate_succ_apply]

theorem follow_of_not_clear [DecidablePred stops] (h : ¬Clear next stops n a) :
    follow next stops n a = none := by
  induction n generalizing a with
  | zero => exact absurd (fun i hi => absurd hi (Nat.not_lt_zero i)) h
  | succ n ih =>
    rw [follow]
    split_ifs with hnext
    · rfl
    · exact ih fun hrest => h (clear_succ.mpr ⟨hnext, hrest⟩)

theorem follow_eq_iff [DecidablePred stops] [DecidablePred stops'] :
    follow next stops n a = follow next stops' n a ↔
      (Clear next stops n a ↔ Clear next stops' n a) := by
  by_cases h : Clear next stops n a <;> by_cases h' : Clear next stops' n a
  · simp [follow_of_clear, h, h']
  · simp [follow_of_clear h, follow_of_not_clear h', h, h']
  · simp [follow_of_clear h', follow_of_not_clear h, h, h']
  · simp [follow_of_not_clear, h, h']

end Walks

section Index
def leave (go : ℕ → Prop) [DecidablePred go] : (n i : ℕ) → ℕ
  | 0, i => i
  | n + 1, i => if go i then leave go n (i + 1) else i

structure Leaves (go : ℕ → Prop) (n i k : ℕ) : Prop where
  lower : i ≤ k
  upper : k ≤ i + n
  before : ∀ j, i ≤ j → j < k → go j
  stops : k < i + n → ¬go k

variable {go go' : ℕ → Prop} {n i k k' : ℕ}

theorem Leaves.unique (h : Leaves go n i k) (h' : Leaves go n i k') : k = k' := by
  rcases lt_trichotomy k k' with hlt | heq | hgt
  · exact absurd (h'.before k h.lower hlt) (h.stops (hlt.trans_le h'.upper))
  · exact heq
  · exact absurd (h.before k' h'.lower hgt) (h'.stops (hgt.trans_le h.upper))

theorem Leaves.congr (h : Leaves go n i k) (hsame : ∀ j, i ≤ j → j ≤ k → (go j ↔ go' j)) :
    Leaves go' n i k where
  lower := h.lower
  upper := h.upper
  before j hi hj := (hsame j hi hj.le).mp (h.before j hi hj)
  stops hlt := fun hgo => h.stops hlt ((hsame k h.lower le_rfl).mpr hgo)

theorem leaves_leave (go : ℕ → Prop) [DecidablePred go] (n i : ℕ) :
    Leaves go n i (leave go n i) := by
  induction n generalizing i with
  | zero =>
    exact ⟨le_rfl, le_rfl, fun j hi hj => absurd hj (not_lt.mpr hi), fun h => absurd h (lt_irrefl i)⟩
  | succ n ih =>
    rw [leave]
    split_ifs with hgo
    · have hrest := ih (i + 1)
      have hlower := hrest.lower
      have hupper := hrest.upper
      refine ⟨by omega, by omega, fun j hi hj => ?_, fun hlt => hrest.stops (by omega)⟩
      rcases hi.eq_or_lt with rfl | hi
      · exact hgo
      · exact hrest.before j hi hj
    · exact ⟨le_rfl, Nat.le_add_right i _, fun j hi hj => absurd hj (not_lt.mpr hi), fun _ => hgo⟩

theorem leave_eq [DecidablePred go] (h : Leaves go n i k) : leave go n i = k :=
  (leaves_leave go n i).unique h

theorem go_leave_iff (go : ℕ → Prop) [DecidablePred go] (n i : ℕ) :
    go (leave go n i) ↔ ∀ j, i ≤ j → j ≤ i + n → go j := by
  have h := leaves_leave go n i
  constructor
  · intro hgo j hi hj
    have hlast : leave go n i = i + n :=
      le_antisymm h.upper (not_lt.mp fun hlt => h.stops hlt hgo)
    rcases (hlast ▸ hj : j ≤ leave go n i).eq_or_lt with rfl | hlt
    · exact hgo
    · exact h.before j hi hlt
  · exact fun hall => hall _ h.lower h.upper

theorem leave_succ [DecidablePred go] (n i : ℕ) :
    leave go n (i + 1) = leave (fun j => go (j + 1)) n i + 1 := by
  induction n generalizing i with
  | zero => rfl
  | succ n ih =>
    rw [leave, leave]
    split_ifs with hgo
    · exact ih (i + 1)
    · rfl

end Index

section Affine
def affine (a c x : ℤ) : ℤ := a * x + c

variable {a c x y : ℤ}

theorem iterate_sub (n : ℕ) : (affine a c)^[n] y - (affine a c)^[n] x = a ^ n * (y - x) := by
  induction n with
  | zero => rw [Function.iterate_zero_apply, Function.iterate_zero_apply, pow_zero, one_mul]
  | succ n ih =>
    rw [Function.iterate_succ_apply', Function.iterate_succ_apply', affine, affine, pow_succ']
    linear_combination a * ih

theorem iterate_double (n : ℕ) :
    (affine a c)^[n + n] x - x = (a ^ n + 1) * ((affine a c)^[n] x - x) := by
  have hstep := iterate_sub (a := a) (c := c) (x := x) (y := (affine a c)^[n] x) n
  rw [Function.iterate_add_apply]
  linear_combination hstep

theorem four_dvd_pow_sub_one (ha : 4 ∣ a - 1) (n : ℕ) : 4 ∣ a ^ n - 1 := by
  have hpow := sub_dvd_pow_sub_pow a 1 n
  rw [one_pow] at hpow
  exact ha.trans hpow

theorem iterate_two_pow (ha : 4 ∣ a - 1) (hc : Odd c) (k : ℕ) :
    ∃ d, Odd d ∧ (affine a c)^[2 ^ k] x = x + 2 ^ k * d := by
  induction k with
  | zero =>
    obtain ⟨t, ht⟩ := ha
    refine ⟨4 * t * x + c, Even.add_odd ⟨2 * t * x, by ring⟩ hc, ?_⟩
    rw [pow_zero, Function.iterate_one, affine]
    linear_combination x * ht
  | succ k ih =>
    obtain ⟨d, hd, hk⟩ := ih
    obtain ⟨t, ht⟩ := four_dvd_pow_sub_one ha (2 ^ k)
    have hdouble := iterate_double (a := a) (c := c) (x := x) (2 ^ k)
    refine ⟨(2 * t + 1) * d, Odd.mul ⟨t, rfl⟩ hd, ?_⟩
    rw [pow_succ 2 k, Nat.mul_two, pow_succ]
    linear_combination hdouble + (a ^ 2 ^ k + 1) * hk + 2 ^ k * d * ht

/-- The bit `k` of a number is another one after an odd multiple of `2 ^ k` has been added. -/
theorem bit_flips {d : ℤ} (hd : Odd d) (k : ℕ) : (x + 2 ^ k * d) / 2 ^ k % 2 ≠ x / 2 ^ k % 2 := by
  obtain ⟨t, rfl⟩ := hd
  rw [Int.add_mul_ediv_left x _ (by positivity)]
  omega

end Affine

end Lib.Loops
