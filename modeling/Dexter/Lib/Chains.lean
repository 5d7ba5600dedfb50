import Mathlib

/-!
# Chains of links

`Path next a l b` says that the links lead from `a` through the nodes of `l` to `b`; `0` is no
node. A chain that comes to `0` visits no node twice, so a way back to where one has been keeps it
from ending.
-/

namespace Lib.Chains

def Path (next : ℕ → ℕ) : ℕ → List ℕ → ℕ → Prop
  | a, [], b => a = b
  | a, x :: xs, b => a = x ∧ x ≠ 0 ∧ Path next (next x) xs b

variable {next next' : ℕ → ℕ} {a b c x : ℕ} {l l' : List ℕ}

theorem Path.congr (h : Path next a l b) (hsame : ∀ x ∈ l, next' x = next x) :
    Path next' a l b := by
  induction l generalizing a with
  | nil => exact h
  | cons x xs ih =>
    obtain ⟨hax, hx, hrest⟩ := h
    refine ⟨hax, hx, ?_⟩
    rw [hsame x List.mem_cons_self]
    exact ih hrest fun y hy => hsame y (List.mem_cons_of_mem x hy)

theorem path_append : Path next a (l ++ l') c ↔ ∃ b, Path next a l b ∧ Path next b l' c := by
  induction l generalizing a with
  | nil => simp [Path]
  | cons x xs ih =>
    rw [List.cons_append, Path, ih]
    constructor
    · intro ⟨hax, hx, b, hxs, hrest⟩
      exact ⟨b, ⟨hax, hx, hxs⟩, hrest⟩
    · intro ⟨b, ⟨hax, hx, hxs⟩, hrest⟩
      exact ⟨hax, hx, b, hxs, hrest⟩

theorem path_snoc : Path next a (l ++ [x]) b ↔ Path next a l x ∧ x ≠ 0 ∧ next x = b := by
  rw [path_append]
  constructor
  · intro ⟨c, hl, hcx, hx, hb⟩
    exact ⟨hcx ▸ hl, hx, hb⟩
  · intro ⟨hl, hx, hb⟩
    exact ⟨x, hl, rfl, hx, hb⟩

theorem Path.split (h : Path next a l 0) (h' : Path next a l' b) :
    ∃ rest, l = l' ++ rest ∧ Path next b rest 0 := by
  induction l' generalizing a l with
  | nil => exact ⟨l, rfl, h' ▸ h⟩
  | cons x xs ih =>
    obtain ⟨hax, hx, hrest⟩ := h'
    cases l with
    | nil => exact absurd (hax.symm.trans h) hx
    | cons y ys =>
      obtain ⟨hay, hy, hys⟩ := h
      obtain rfl : x = y := hax.symm.trans hay
      obtain ⟨rest, rfl, hend⟩ := ih hys hrest
      exact ⟨rest, rfl, hend⟩

theorem Path.unique (h : Path next a l 0) (h' : Path next a l' 0) : l = l' := by
  obtain ⟨rest, rfl, hrest⟩ := h.split h'
  cases rest with
  | nil => exact List.append_nil l'
  | cons x xs => exact absurd hrest.1.symm hrest.2.1

theorem Path.no_return (h : Path next a l 0) (hto : Path next a l' b) {loop : List ℕ}
    (hloop : Path next b loop b) : loop = [] := by
  obtain ⟨rest, -, hrest⟩ := h.split hto
  obtain ⟨rest', hsplit, hrest'⟩ := hrest.split hloop
  rw [hrest.unique hrest'] at hsplit
  exact List.append_left_eq_self.mp hsplit.symm

theorem Path.nodup (h : Path next a l 0) : l.Nodup := by
  induction l generalizing a with
  | nil => exact List.nodup_nil
  | cons x xs ih =>
    obtain ⟨hax, hx, hxs⟩ := h
    refine List.nodup_cons.mpr ⟨fun hmem => ?_, ih hxs⟩
    obtain ⟨before, after, rfl⟩ := List.append_of_mem hmem
    obtain ⟨b, hbefore, hbx, -, -⟩ := path_append.mp hxs
    have hloop : Path next x (x :: before) x := ⟨rfl, hx, hbx ▸ hbefore⟩
    have hchain : Path next x (x :: (before ++ x :: after)) 0 := ⟨rfl, hx, hxs⟩
    have hhere : Path next x [] x := rfl
    exact List.cons_ne_nil x before (hchain.no_return hhere hloop)

end Lib.Chains
