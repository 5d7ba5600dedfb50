import Mathlib

/-!
# Requests cut into pieces

A request for `total` units from `start` on is cut after every `size` units of the
request, which need not be where the blocks of `size` units end. The pieces follow each
other and make up the request (`cut_consecutive`), so reading them one after the other
reads the request (`Consecutive.flatMap`). Each of them stays inside one block just when
the request starts a block or ends inside its first one (`cut_inside_iff`).
-/

namespace Lib.Pieces

structure Piece where
  start : ℕ
  length : ℕ
  deriving DecidableEq, Repr

def cut (size : ℕ) : ℕ → ℕ → ℕ → List Piece
  | 0, start, total => [⟨start, total⟩]
  | k + 1, start, total => ⟨start, size⟩ :: cut size k (start + size) (total - size)

def cuts (size total : ℕ) : ℕ := (total - 1) / size

def Piece.Inside (size : ℕ) (p : Piece) : Prop := p.start % size + p.length ≤ size

def Consecutive : List Piece → ℕ → ℕ → Prop
  | [], _, total => total = 0
  | p :: ps, start, total =>
    p.start = start ∧ p.length ≤ total ∧ Consecutive ps (start + p.length) (total - p.length)

variable {size k start total : ℕ}

theorem cuts_lower (size total : ℕ) : size * cuts size total < total ∨ cuts size total = 0 := by
  have hmul := Nat.div_mul_le_self (total - 1) size
  rw [Nat.mul_comm] at hmul
  rcases Nat.eq_zero_or_pos total with h0 | hpos
  · exact Or.inr (by simp [cuts, h0])
  · exact Or.inl (by rw [cuts]; omega)

theorem cuts_upper (h : 0 < size) (total : ℕ) : total ≤ size * (cuts size total + 1) := by
  have hlt := Nat.lt_mul_div_succ (total - 1) h
  rw [cuts]
  omega

theorem cuts_eq_toNat (h : 0 < size) : (((total : ℤ) - 1) / size).toNat = cuts size total := by
  rw [cuts]
  cases total with
  | zero =>
    have hneg : ((0 : ℕ) - 1 : ℤ) / size < 0 :=
      Int.ediv_neg_of_neg_of_pos (by decide) (by exact_mod_cast h)
    rw [Int.toNat_of_nonpos hneg.le]
    simp
  | succ n =>
    have hpred : ((n + 1 : ℕ) : ℤ) - 1 = n := by push_cast; ring
    rw [hpred, ← Int.natCast_ediv, Int.toNat_natCast, Nat.add_sub_cancel]

theorem le_cuts_iff (h : 0 < size) (ht : 1 ≤ total) : k ≤ cuts size total ↔ size * k < total := by
  rw [cuts, Nat.le_div_iff_mul_le h, Nat.mul_comm]
  omega

theorem cuts_mul_le (size total : ℕ) : size * cuts size total ≤ total := by
  rcases cuts_lower size total with hlt | h0
  · exact hlt.le
  · simp [h0]

theorem cut_consecutive (h : size * k ≤ total) : Consecutive (cut size k start total) start total := by
  induction k generalizing start total with
  | zero => simp [cut, Consecutive]
  | succ k ih =>
    rw [Nat.mul_succ] at h
    have hrest : size * k ≤ total - size := by omega
    exact ⟨rfl, (Nat.le_add_left _ _).trans h, ih hrest⟩

theorem Consecutive.flatMap {α : Type*} (f : ℕ → α) {pieces : List Piece}
    (h : Consecutive pieces start total) :
    (pieces.flatMap fun p => (List.range p.length).map fun i => f (p.start + i)) =
      (List.range total).map fun i => f (start + i) := by
  induction pieces generalizing start total with
  | nil =>
    have h0 : total = 0 := h
    simp [h0]
  | cons p ps ih =>
    obtain ⟨hstart, hle, hrest⟩ := h
    have hsum : total = p.length + (total - p.length) := by omega
    rw [List.flatMap_cons, ih hrest, hstart, hsum, List.range_add, List.map_append, List.map_map]
    simp [Function.comp_def, Nat.add_assoc]

theorem cut_inside (hstart : start % size = 0) (hle : total ≤ size * (k + 1)) :
    ∀ p ∈ cut size k start total, p.Inside size := by
  induction k generalizing start total with
  | zero => simpa [cut, Piece.Inside, hstart] using hle
  | succ k ih =>
    have hrest : total - size ≤ size * (k + 1) := by
      rw [Nat.mul_succ] at hle
      omega
    intro p hp
    rcases List.mem_cons.mp hp with rfl | hp
    · simp [Piece.Inside, hstart]
    · exact ih (by simpa using hstart) hrest p hp

theorem cut_inside_iff (hlower : size * k < total ∨ k = 0) (hle : total ≤ size * (k + 1)) :
    (∀ p ∈ cut size k start total, p.Inside size) ↔
      start % size = 0 ∨ start % size + total ≤ size := by
  cases k with
  | zero =>
    rw [Nat.zero_add, Nat.mul_one] at hle
    have hsingle : (∀ p ∈ cut size 0 start total, p.Inside size) ↔ start % size + total ≤ size := by
      simp [cut, Piece.Inside]
    rw [hsingle]
    omega
  | succ k =>
    have hmore : size < total := by
      have hmul : size ≤ size * (k + 1) := Nat.le_mul_of_pos_right _ (Nat.succ_pos k)
      rcases hlower with hlt | h0
      · omega
      · cases h0
    constructor
    · intro h
      have hfirst : start % size + size ≤ size := h ⟨start, size⟩ (List.mem_cons_self ..)
      exact Or.inl (by omega)
    · intro h
      exact cut_inside (by omega) hle

end Lib.Pieces
