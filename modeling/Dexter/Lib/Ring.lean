import Mathlib

/-!
# Lists in a ring of cells

`Holds n e cells h q` reads: of the `n` cells, which are numbered round and round, those from
`h` on hold the list `q`, and all the others hold `e`, the mark of an empty cell. There is no
count: the end of the list is where the first empty cell is, so `e` is not in `q`.
-/

namespace Lib.Ring

variable {α : Type*}

structure Holds (n : ℕ) (e : α) (cells : ℕ → α) (h : ℕ) (q : List α) : Prop where
  room : q.length ≤ n
  filled : e ∉ q
  cell : ∀ k < n, cells ((h + k) % n) = q.getD k e

variable {n h i k : ℕ} {e x : α} {cells : ℕ → α} {q q' : List α}

theorem slot_eq_iff (hi : i < n) (hk : k < n) : (h + k) % n = (h + i) % n ↔ k = i := by
  constructor
  · intro heq
    have hmod : k ≡ i [MOD n] := Nat.ModEq.add_left_cancel' h heq
    rwa [Nat.ModEq, Nat.mod_eq_of_lt hk, Nat.mod_eq_of_lt hi] at hmod
  · rintro rfl
    rfl

theorem exists_slot (hn : 0 < n) (p : ℕ) : ∃ k < n, (h + k) % n = p % n := by
  refine ⟨(p + (n - h % n)) % n, Nat.mod_lt _ hn, ?_⟩
  have hh := Nat.mod_lt h hn
  have hsplit := Nat.div_add_mod h n
  have hsum : h + (p + (n - h % n)) = p + n * (h / n + 1) := by
    rw [Nat.mul_succ]
    omega
  rw [Nat.add_mod_mod, hsum, Nat.add_mul_mod_self_left]

theorem getD_eq_empty (hq : e ∉ q) : q.getD k e = e ↔ q.length ≤ k := by
  constructor
  · intro hk
    by_contra hlt
    rw [List.getD_eq_getElem q e (not_le.mp hlt)] at hk
    exact hq (hk ▸ List.getElem_mem _)
  · exact fun hle => List.getD_eq_default q e hle

theorem holds_nil (hcells : ∀ i, cells i = e) : Holds n e cells h [] :=
  ⟨Nat.zero_le n, List.not_mem_nil, fun _ _ => hcells _⟩

theorem Holds.congr_head {h' : ℕ} (hq : Holds n e cells h q) (hh : h' % n = h % n) :
    Holds n e cells h' q := by
  refine ⟨hq.room, hq.filled, fun k hk => ?_⟩
  rw [Nat.add_mod, hh, ← Nat.add_mod]
  exact hq.cell k hk

theorem Holds.head (hq : Holds n e cells h q) (hn : 0 < n) : cells (h % n) = q.headD e := by
  have hcell := hq.cell 0 hn
  rw [Nat.add_zero] at hcell
  rw [hcell]
  cases q <;> rfl

theorem Holds.end_empty (hq : Holds n e cells h q) (hroom : q.length < n) :
    cells ((h + q.length) % n) = e := by
  rw [hq.cell _ hroom, List.getD_eq_default q e le_rfl]

theorem Holds.filled_of_le (hq : Holds n e cells h q) (hk : k < n) (hik : i ≤ k)
    (hfull : cells ((h + k) % n) ≠ e) : cells ((h + i) % n) ≠ e := by
  rw [hq.cell k hk, ne_eq, getD_eq_empty hq.filled] at hfull
  rw [hq.cell i (by omega), ne_eq, getD_eq_empty hq.filled]
  omega

theorem Holds.write (hq : Holds n e cells h q) (hi : i < n) (hroom : q'.length ≤ n) (hfill : e ∉ q')
    (hget : ∀ k < n, q'.getD k e = if k = i then x else q.getD k e) :
    Holds n e (Function.update cells ((h + i) % n) x) h q' := by
  refine ⟨hroom, hfill, fun k hk => ?_⟩
  rw [hget k hk]
  split_ifs with hki
  · rw [hki, Function.update_self]
  · rw [Function.update_of_ne (mt (slot_eq_iff hi hk).mp hki), hq.cell k hk]

theorem Holds.snoc (hq : Holds n e cells h q) (hroom : q.length < n) (hx : x ≠ e) :
    Holds n e (Function.update cells ((h + q.length) % n) x) h (q ++ [x]) := by
  refine hq.write hroom (by simpa using hroom) ?_ fun k _ => ?_
  · simp [hq.filled, hx.symm]
  · rcases lt_trichotomy k q.length with hlt | rfl | hgt
    · rw [if_neg hlt.ne, List.getD_append _ _ _ _ hlt]
    · simp
    · rw [if_neg hgt.ne', List.getD_eq_default _ _ hgt.le,
        List.getD_eq_default _ _ (by simpa using hgt)]

theorem Holds.dropLast (hq : Holds n e cells h (q ++ [x])) :
    Holds n e (Function.update cells ((h + q.length) % n) e) h q := by
  have hroom : q.length < n := by simpa using hq.room
  refine hq.write hroom hroom.le (fun hmem => hq.filled (List.mem_append_left _ hmem)) fun k _ => ?_
  rcases lt_trichotomy k q.length with hlt | rfl | hgt
  · rw [if_neg hlt.ne, List.getD_append _ _ _ _ hlt]
  · simp
  · rw [if_neg hgt.ne', List.getD_eq_default _ _ hgt.le,
      List.getD_eq_default _ _ (by simpa using hgt)]

theorem Holds.tail (hq : Holds n e cells h (x :: q)) :
    Holds n e (Function.update cells (h % n) e) (h + 1) q := by
  have hroom : q.length + 1 ≤ n := hq.room
  have hn : 0 < n := by omega
  refine ⟨by omega, fun hmem => hq.filled (List.mem_cons_of_mem _ hmem), fun k hk => ?_⟩
  have hplace : h + 1 + k = h + (k + 1) := by omega
  rw [hplace]
  rcases Nat.lt_or_eq_of_le (Nat.succ_le_of_lt hk) with hlt | hlast
  · have hne : (h + (k + 1)) % n ≠ h % n := mt (slot_eq_iff hn hlt).mp (Nat.succ_ne_zero k)
    rw [Function.update_of_ne hne, hq.cell (k + 1) hlt, List.getD_cons_succ]
  · -- the cell in front of the head
    have hwrap : (h + (k + 1)) % n = h % n := by
      rw [show k + 1 = n from hlast, Nat.add_mod_right]
    rw [hwrap, Function.update_self, List.getD_eq_default q e (by omega)]

end Lib.Ring
