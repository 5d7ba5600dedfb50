import Mathlib

/-!
# Two-level tables

A memory holds rows of words; the words of a root row name the rows one level
below, through `child`. Cell `c` of the whole is word `c.2` of the row that word
`c.1` of the root names. When the children of the `n` words of the root are
different rows and none of them is the root (`Separated`), the cells are as
independent as the cells of one array: `lookup_store`, and `lookup_storeRange`
for a run of stores along a numbering of the cells.
-/

namespace Lib.TwoLevel

variable {ω : Type*} (child : ω → ℕ)

def row (rows : ℕ → ℕ → ω) (root i : ℕ) : ℕ := child (rows root i)

def lookup (rows : ℕ → ℕ → ω) (root : ℕ) (c : ℕ × ℕ) : ω := rows (row child rows root c.1) c.2

def setWord (rows : ℕ → ℕ → ω) (p j : ℕ) (w : ω) : ℕ → ℕ → ω :=
  Function.update rows p (Function.update (rows p) j w)

def store (rows : ℕ → ℕ → ω) (root : ℕ) (c : ℕ × ℕ) (w : ω) : ℕ → ℕ → ω :=
  setWord rows (row child rows root c.1) c.2 w

def storeRange (root : ℕ) (cell : ℕ → ℕ × ℕ) (w : ℕ → ω) :
    ℕ → ℕ → (ℕ → ℕ → ω) → ℕ → ℕ → ω
  | 0, _, rows => rows
  | k + 1, i, rows => storeRange root cell w k (i + 1) (store child rows root (cell i) (w i))

structure Separated (n : ℕ) (rows : ℕ → ℕ → ω) (root : ℕ) : Prop where
  below : ∀ i < n, row child rows root i ≠ root
  apart : ∀ i < n, ∀ j < n, row child rows root i = row child rows root j → i = j

theorem setWord_apply (rows : ℕ → ℕ → ω) (p j q i : ℕ) (w : ω) :
    setWord rows p j w q i = if q = p ∧ i = j then w else rows q i := by
  unfold setWord
  by_cases hq : q = p
  · subst hq
    simp [Function.update_apply]
  · simp [hq]

theorem setWord_of_ne {rows : ℕ → ℕ → ω} {p j q : ℕ} {w : ω} (h : q ≠ p) :
    setWord rows p j w q = rows q := Function.update_of_ne h _ _

variable {child} {n : ℕ} {rows : ℕ → ℕ → ω} {root : ℕ}

theorem row_congr {rows' : ℕ → ℕ → ω} (h : rows' root = rows root) (i : ℕ) :
    row child rows' root i = row child rows root i := by
  rw [row, h, row]

theorem Separated.congr (hs : Separated child n rows root) {rows' : ℕ → ℕ → ω}
    (h : rows' root = rows root) : Separated child n rows' root where
  below i hi := by
    rw [row_congr h]
    exact hs.below i hi
  apart i hi j hj hij := by
    rw [row_congr h, row_congr h] at hij
    exact hs.apart i hi j hj hij

theorem Separated.store_root (hs : Separated child n rows root) {c : ℕ × ℕ} (hc : c.1 < n)
    (w : ω) : store child rows root c w root = rows root :=
  setWord_of_ne (hs.below c.1 hc).symm

theorem Separated.lookup_store (hs : Separated child n rows root) {c d : ℕ × ℕ} (hc : c.1 < n)
    (hd : d.1 < n) (w : ω) : lookup child (store child rows root c w) root d =
      if d = c then w else lookup child rows root d := by
  rw [lookup, row_congr (hs.store_root hc w), store, setWord_apply]
  have hiff : row child rows root d.1 = row child rows root c.1 ∧ d.2 = c.2 ↔ d = c := by
    constructor
    · intro h
      exact Prod.ext (hs.apart d.1 hd c.1 hc h.1) h.2
    · intro h
      exact h ▸ ⟨rfl, rfl⟩
  simp only [hiff, lookup]

theorem Separated.store_back (hs : Separated child n rows root) {c : ℕ × ℕ} (hc : c.1 < n)
    (w : ω) : store child (store child rows root c w) root c (lookup child rows root c) =
      rows := by
  rw [store, row_congr (hs.store_root hc w)]
  funext q i
  rw [setWord_apply, store, setWord_apply]
  split_ifs with h
  · obtain ⟨rfl, rfl⟩ := h
    rfl
  · rfl

theorem Separated.storeRange_root (hs : Separated child n rows root) {cell : ℕ → ℕ × ℕ}
    (hcell : ∀ i, (cell i).1 < n) (w : ℕ → ω) (k i : ℕ) :
    storeRange child root cell w k i rows root = rows root := by
  induction k generalizing i rows with
  | zero => rfl
  | succ k ih =>
    have hroot := hs.store_root (hcell i) (w i)
    rw [storeRange, ih (hs.congr hroot), hroot]

theorem Separated.storeRange_frame (hs : Separated child n rows root) {cell : ℕ → ℕ × ℕ}
    (hcell : ∀ i, (cell i).1 < n) (w : ℕ → ω) (k i : ℕ) {q : ℕ}
    (hq : ∀ i < n, q ≠ row child rows root i) :
    storeRange child root cell w k i rows q = rows q := by
  induction k generalizing i rows with
  | zero => rfl
  | succ k ih =>
    have hroot := hs.store_root (hcell i) (w i)
    have hq' : ∀ j < n, q ≠ row child (store child rows root (cell i) (w i)) root j := by
      intro j hj
      rw [row_congr hroot]
      exact hq j hj
    rw [storeRange, ih (hs.congr hroot) (i + 1) hq', store, setWord_of_ne (hq _ (hcell i))]

theorem Separated.lookup_storeRange_of_ne (hs : Separated child n rows root)
    {cell : ℕ → ℕ × ℕ} (hcell : ∀ i, (cell i).1 < n) (w : ℕ → ω) (k i : ℕ) {d : ℕ × ℕ}
    (hd : d.1 < n) (hne : ∀ j < k, d ≠ cell (i + j)) :
    lookup child (storeRange child root cell w k i rows) root d = lookup child rows root d := by
  induction k generalizing i rows with
  | zero => rfl
  | succ k ih =>
    have hs' := hs.congr (hs.store_root (hcell i) (w i))
    have hrest : ∀ j < k, d ≠ cell (i + 1 + j) := by
      intro j hj
      have hstep : i + 1 + j = i + (j + 1) := by omega
      rw [hstep]
      exact hne (j + 1) (by omega)
    have hfirst : d ≠ cell i := hne 0 (by omega)
    rw [storeRange, ih hs' (i + 1) hrest, hs.lookup_store (hcell i) hd, if_neg hfirst]

/-- Along different cells, the `j`-th cell of a run of stores holds the `j`-th word. -/
theorem Separated.lookup_storeRange (hs : Separated child n rows root) {cell : ℕ → ℕ × ℕ}
    (hcell : ∀ i, (cell i).1 < n) (w : ℕ → ω) {k i j : ℕ} (hj : j < k)
    (hinj : ∀ j < k, ∀ l < k, cell (i + j) = cell (i + l) → j = l) :
    lookup child (storeRange child root cell w k i rows) root (cell (i + j)) = w (i + j) := by
  induction k generalizing i j rows with
  | zero => exact absurd hj (Nat.not_lt_zero j)
  | succ k ih =>
    have hs' := hs.congr (hs.store_root (hcell i) (w i))
    have hshift : ∀ l, i + 1 + l = i + (l + 1) := fun l => by omega
    rw [storeRange]
    cases j with
    | zero =>
      simp only [Nat.add_zero]
      -- the later stores go elsewhere
      have hlater : ∀ l < k, cell i ≠ cell (i + 1 + l) := by
        intro l hl heq
        rw [hshift] at heq
        exact absurd (hinj 0 (by omega) (l + 1) (by omega) heq) (by omega)
      rw [hs'.lookup_storeRange_of_ne hcell w k (i + 1) (hcell _) hlater,
        hs.lookup_store (hcell i) (hcell _), if_pos rfl]
    | succ j =>
      rw [← hshift j]
      apply ih hs' (by omega)
      intro j' hj' l hl heq
      rw [hshift, hshift] at heq
      have := hinj (j' + 1) (by omega) (l + 1) (by omega) heq
      omega

end Lib.TwoLevel
