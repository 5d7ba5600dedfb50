import Mathlib

/-!
# Pools of blocks handed out in runs

A pool numbers its blocks from `0`. A `Region` is a run of consecutive blocks,
`IsRun free s n` says that the `n` blocks from `s` on are all free. A table of a
given size can only say of the blocks below that size that they are taken; a
region may stick out at the end of the table. `Separate.cons` is the rule an
allocator needs: a region whose recorded blocks were not taken, and which starts
in the table, meets no region that was recorded before, sticking out or not.
-/

namespace Lib.BlockPool

structure Region where
  start : ℕ
  len : ℕ
  deriving DecidableEq, Repr

def Region.blocks (r : Region) : Set ℕ := Set.Ico r.start (r.start + r.len)

theorem Region.mem_blocks {r : Region} {b : ℕ} :
    b ∈ r.blocks ↔ r.start ≤ b ∧ b < r.start + r.len := Set.mem_Ico

theorem Region.mem_blocks_mk {s n b : ℕ} : b ∈ Region.blocks ⟨s, n⟩ ↔ s ≤ b ∧ b < s + n :=
  Set.mem_Ico

def Separate (live : List Region) : Prop :=
  live.Pairwise fun r r' => Disjoint r.blocks r'.blocks

def Recorded (taken : ℕ → Prop) (size : ℕ) (live : List Region) : Prop :=
  ∀ r ∈ live, r.start < size ∧ ∀ b ∈ r.blocks, b < size → taken b

theorem disjoint_of_recorded {taken : ℕ → Prop} {size : ℕ} {r r' : Region}
    (hr : r.start < size) (hfree : ∀ b ∈ r.blocks, b < size → ¬taken b)
    (hr' : r'.start < size) (htaken : ∀ b ∈ r'.blocks, b < size → taken b) :
    Disjoint r.blocks r'.blocks := by
  rw [Set.disjoint_left]
  intro b hb hb'
  by_cases hin : b < size
  · exact hfree b hb hin (htaken b hb' hin)
  · -- both regions stick out, so both contain the last block of the table
    rw [Region.mem_blocks] at hb hb'
    have hlast : size - 1 ∈ r.blocks := Region.mem_blocks.mpr (by omega)
    have hlast' : size - 1 ∈ r'.blocks := Region.mem_blocks.mpr (by omega)
    exact hfree _ hlast (by omega) (htaken _ hlast' (by omega))

theorem Separate.cons {taken : ℕ → Prop} {size : ℕ} {r : Region} {live : List Region}
    (hlive : Separate live) (hrec : Recorded taken size live) (hr : r.start < size)
    (hfree : ∀ b ∈ r.blocks, b < size → ¬taken b) : Separate (r :: live) := by
  refine List.pairwise_cons.mpr ⟨fun r' hr' => ?_, hlive⟩
  exact disjoint_of_recorded hr hfree (hrec r' hr').1 (hrec r' hr').2

theorem Recorded.cons {taken taken' : ℕ → Prop} {size : ℕ} {r : Region} {live : List Region}
    (hrec : Recorded taken size live) (hmono : ∀ b, taken b → taken' b) (hr : r.start < size)
    (hnew : ∀ b ∈ r.blocks, b < size → taken' b) : Recorded taken' size (r :: live) := by
  intro r' hr'
  rcases List.mem_cons.mp hr' with rfl | hr'
  · exact ⟨hr, hnew⟩
  · exact ⟨(hrec r' hr').1, fun b hb hin => hmono b ((hrec r' hr').2 b hb hin)⟩

def IsRun (free : ℕ → Prop) (s n : ℕ) : Prop := ∀ b, s ≤ b → b < s + n → free b

theorem IsRun.zero (free : ℕ → Prop) (s : ℕ) : IsRun free s 0 := fun b h h' => by omega

theorem IsRun.snoc {free : ℕ → Prop} {s n : ℕ} (h : IsRun free s n) (hn : free (s + n)) :
    IsRun free s (n + 1) := by
  intro b hb hb'
  rcases Nat.lt_or_ge b (s + n) with hlt | hge
  · exact h b hb hlt
  · have hbe : b = s + n := by omega
    exact hbe ▸ hn

/-- A run cannot begin before a block that is not free and reach past it. -/
theorem IsRun.not_across {free : ℕ → Prop} {s n b : ℕ} (h : IsRun free s n) (hb : ¬free b)
    (hs : s ≤ b) : s + n ≤ b := by
  by_contra hlt
  exact hb (h b hs (by omega))

end Lib.BlockPool
