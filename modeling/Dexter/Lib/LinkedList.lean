import Mathlib

/-!
# Doubly linked lists

`node x` is the pair of links (next, previous) of the node at `x`, or `none` where
there is no node; `0` is no node's address. `Segment node p a l e` reads: from `a`
on the `next` links visit the nodes of `l` in this order and then come to `e`,
the previous link of the first of them is `p` and that of each later one is the
node before it.
-/

namespace Lib.LinkedList

variable {node node' : ℕ → Option (ℕ × ℕ)}

def Segment (node : ℕ → Option (ℕ × ℕ)) : ℕ → ℕ → List ℕ → ℕ → Prop
  | _, a, [], e => a = e
  | p, a, x :: xs, e => a = x ∧ x ≠ 0 ∧ ∃ n, node x = some (n, p) ∧ Segment node x n xs e

structure Linked (node : ℕ → Option (ℕ × ℕ)) (head tail : ℕ) (l : List ℕ) : Prop where
  walk : Segment node 0 head l 0
  last : tail = l.getLastD 0

theorem Segment.congr {l : List ℕ} {p a e : ℕ} (h : Segment node p a l e)
    (hsame : ∀ x ∈ l, node' x = node x) : Segment node' p a l e := by
  induction l generalizing p a with
  | nil => exact h
  | cons x xs ih =>
    obtain ⟨hax, hx, n, hn, hrest⟩ := h
    refine ⟨hax, hx, n, (hsame x List.mem_cons_self).trans hn, ?_⟩
    exact ih hrest fun y hy => hsame y (List.mem_cons_of_mem x hy)

theorem segment_append {l₁ l₂ : List ℕ} {p a e : ℕ} :
    Segment node p a (l₁ ++ l₂) e ↔
      ∃ m, Segment node p a l₁ m ∧ Segment node (l₁.getLastD p) m l₂ e := by
  induction l₁ generalizing p a with
  | nil => simp [Segment]
  | cons x xs ih =>
    have hlast : (x :: xs).getLastD p = xs.getLastD x := by cases xs <;> rfl
    simp only [List.cons_append, Segment, ih, hlast]
    constructor
    · intro ⟨hax, hx, n, hn, m, hm, hrest⟩
      exact ⟨m, ⟨hax, hx, n, hn, hm⟩, hrest⟩
    · intro ⟨m, ⟨hax, hx, n, hn, hm⟩, hrest⟩
      exact ⟨hax, hx, n, hn, m, hm, hrest⟩

theorem segment_snoc {l : List ℕ} {x p a e : ℕ} :
    Segment node p a (l ++ [x]) e ↔
      Segment node p a l x ∧ x ≠ 0 ∧ node x = some (e, l.getLastD p) := by
  rw [segment_append]
  constructor
  · intro ⟨m, hm, hmx, hx, n, hn, hne⟩
    subst hmx hne
    exact ⟨hm, hx, hn⟩
  · intro ⟨hl, hx, hn⟩
    exact ⟨x, hl, rfl, hx, e, hn, rfl⟩

theorem Segment.prev {l₁ l₂ : List ℕ} {x p a e : ℕ} (h : Segment node p a (l₁ ++ x :: l₂) e) :
    ∃ n, node x = some (n, l₁.getLastD p) := by
  obtain ⟨m, -, hmx, -, n, hn, -⟩ := segment_append.mp h
  exact ⟨n, hn⟩

theorem Segment.next {l₁ l₂ : List ℕ} {x p a e : ℕ} (h : Segment node p a (l₁ ++ x :: l₂) e) :
    ∃ q, node x = some (l₂.headD e, q) := by
  obtain ⟨m, -, hmx, -, n, hn, hrest⟩ := segment_append.mp h
  cases l₂ with
  | nil =>
    obtain rfl : n = e := hrest
    exact ⟨_, hn⟩
  | cons y l₂ =>
    obtain ⟨rfl, -⟩ := hrest
    exact ⟨_, hn⟩

theorem Segment.node_ne {l : List ℕ} {p a e : ℕ} (h : Segment node p a l e) {x : ℕ}
    (hx : x ∈ l) : x ≠ 0 ∧ ∃ n q, node x = some (n, q) := by
  obtain ⟨l₁, l₂, rfl⟩ := List.append_of_mem hx
  obtain ⟨m, -, hmx, hx0, n, hn, -⟩ := segment_append.mp h
  exact ⟨hx0, n, _, hn⟩

theorem Linked.congr {head tail : ℕ} {l : List ℕ} (h : Linked node head tail l)
    (hsame : ∀ x ∈ l, node' x = node x) : Linked node' head tail l :=
  ⟨h.walk.congr hsame, h.last⟩

theorem Linked.tail_mem {head tail : ℕ} {l : List ℕ} (h : Linked node head tail l)
    (hl : l ≠ []) : tail ∈ l := by
  obtain ⟨ys, y, rfl⟩ := (List.eq_nil_or_concat' l).resolve_left hl
  simp [h.last]

theorem Linked.head_mem {head tail : ℕ} {l : List ℕ} (h : Linked node head tail l)
    (hl : l ≠ []) : head ∈ l := by
  cases l with
  | nil => exact absurd rfl hl
  | cons x xs => exact h.walk.1 ▸ List.mem_cons_self

theorem Linked.head_eq_zero {head tail : ℕ} {l : List ℕ} (h : Linked node head tail l) :
    head = 0 ↔ l = [] := by
  cases l with
  | nil => exact ⟨fun _ => rfl, fun _ => h.walk⟩
  | cons x xs =>
    obtain ⟨hx, hne, -⟩ := h.walk
    simp only [hx, hne, List.cons_ne_nil]

theorem nodup_snoc {l : List ℕ} {x : ℕ} (h : (l ++ [x]).Nodup) : l.Nodup ∧ x ∉ l := by
  obtain ⟨hl, -, hne⟩ := List.nodup_append.mp h
  exact ⟨hl, fun hx => hne x hx x List.mem_cons_self rfl⟩

theorem Linked.snoc {head tail x : ℕ} {l : List ℕ} (h : Linked node head tail l) (hx : x ≠ 0)
    (hnodup : (l ++ [x]).Nodup)
    (hnew : node' x = some (0, tail)) (htail : ∀ q, node tail = some (0, q) → tail ∈ l →
      node' tail = some (x, q)) (hsame : ∀ y ∈ l, y ≠ tail → node' y = node y) :
    Linked node' (if head = 0 then x else head) x (l ++ [x]) := by
  have hlast : x = (l ++ [x]).getLastD 0 := by simp
  refine ⟨?_, hlast⟩
  rcases List.eq_nil_or_concat' l with rfl | ⟨ys, y, rfl⟩
  · rw [if_pos (h.head_eq_zero.mpr rfl)]
    have ht : tail = 0 := h.last
    exact ⟨rfl, hx, 0, ht ▸ hnew, rfl⟩
  · have hh : head ≠ 0 := fun h0 => by simpa using h.head_eq_zero.mp h0
    have ht : tail = y := by simpa using h.last
    subst ht
    rw [if_neg hh, segment_snoc]
    obtain ⟨hwalk, hy, hny⟩ := segment_snoc.mp h.walk
    have hmem : tail ∈ ys ++ [tail] := by simp
    have hynot : tail ∉ ys := (nodup_snoc (nodup_snoc hnodup).1).2
    refine ⟨segment_snoc.mpr ⟨hwalk.congr fun z hz => ?_, hy, htail _ hny hmem⟩, hx, ?_⟩
    · exact hsame z (by simp [hz]) fun hzy => hynot (hzy ▸ hz)
    · simpa using hnew

theorem Linked.dropLast {head tail : ℕ} {l : List ℕ} (h : Linked node head tail (l ++ [tail]))
    (hnodup : (l ++ [tail]).Nodup) {q : ℕ} (hq : node tail = some (0, q))
    (hprev : ∀ n r, q ∈ l → node q = some (n, r) → node' q = some (0, r))
    (hsame : ∀ y ∈ l, y ≠ q → node' y = node y) :
    Linked node' (if tail = head then 0 else head) q l := by
  obtain ⟨hwalk, ht, hnt⟩ := segment_snoc.mp h.walk
  have hql : q = l.getLastD 0 := by
    rw [hnt] at hq
    exact (Prod.mk.inj (Option.some.inj hq)).2.symm
  refine ⟨?_, hql⟩
  rcases List.eq_nil_or_concat' l with rfl | ⟨ys, y, rfl⟩
  · rw [if_pos hwalk.symm]
    rfl
  · obtain rfl : q = y := by simpa using hql
    obtain ⟨hys, hy, hny⟩ := segment_snoc.mp hwalk
    have hqys : q ∉ ys := (nodup_snoc (nodup_snoc hnodup).1).2
    have hne : tail ≠ head := by
      intro heq
      -- the head is a node before the tail
      have hmem : head ∈ ys ++ [q] := by
        cases ys with
        | nil => exact hys ▸ List.mem_cons_self
        | cons z zs => exact hys.1 ▸ List.mem_cons_self
      exact (nodup_snoc hnodup).2 (heq ▸ hmem)
    rw [if_neg hne]
    refine segment_snoc.mpr ⟨hys.congr fun z hz => ?_, hy, hprev _ _ (by simp) hny⟩
    exact hsame z (by simp [hz]) fun hzq => hqys (hzq ▸ hz)

end Lib.LinkedList
