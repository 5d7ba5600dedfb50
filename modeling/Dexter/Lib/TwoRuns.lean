import Dexter.Lib.Programs

/-!
# Two programs side by side

`Alike` compares two programs from any two states: they end in the same way, with
related results, and add the same entries to a log that is a part of the state. What
the states hold beside the log does not matter, so a program that is alike to itself
shows nothing of the state it starts in.

`Yields` says what a program returns whatever state it starts in, and `Erases` that a
program is another one once a part of its state is dropped.
-/

namespace Lib.TwoRuns
open Lib.Programs

universe u
variable {ε σ τ ω : Type*} {α β γ δ : Type u}

inductive ShowSame (log : σ → List ω) (R : α → β → Prop) (s t : σ) :
    Except ε (α × σ) → Except ε (β × σ) → Prop
  | fails (e : ε) : ShowSame log R s t (.error e) (.error e)
  | returns {a : α} {b : β} {s' t' : σ} (entries : List ω) (value : R a b)
      (left : log s' = log s ++ entries) (right : log t' = log t ++ entries) :
      ShowSame log R s t (.ok (a, s')) (.ok (b, t'))

def Alike (log : σ → List ω) (R : α → β → Prop) (m : Prog ε σ α) (m' : Prog ε σ β) : Prop :=
  ∀ s t, ShowSame log R s t (m s) (m' t)

namespace Alike
variable {log : σ → List ω} {R : α → β → Prop} {S : γ → δ → Prop}

theorem pure {a : α} {b : β} (h : R a b) :
    Alike log R (Pure.pure a : Prog ε σ α) (Pure.pure b : Prog ε σ β) :=
  fun _ _ => .returns [] h (List.append_nil _).symm (List.append_nil _).symm

theorem abort (e : ε) : Alike log R (abort e : Prog ε σ α) (abort e : Prog ε σ β) :=
  fun _ _ => .fails e

theorem bind {m : Prog ε σ α} {m' : Prog ε σ β} {f : α → Prog ε σ γ} {f' : β → Prog ε σ δ}
    (hm : Alike log R m m') (hf : ∀ a b, R a b → Alike log S (f a) (f' b)) :
    Alike log S (m >>= f) (m' >>= f') := by
  intro s t
  have hst := hm s t
  generalize hx : m s = x at hst
  generalize hy : m' t = y at hst
  cases hst with
  | fails e =>
    rw [bind_of_error hx, bind_of_error hy]
    exact .fails e
  | @returns a b s' t' entries value left right =>
    rw [bind_of_ok hx, bind_of_ok hy]
    have hrest := hf a b value s' t'
    generalize f a s' = z at hrest
    generalize f' b t' = w at hrest
    cases hrest with
    | fails e => exact .fails e
    | returns entries' value' left' right' =>
      refine .returns (entries ++ entries') value' ?_ ?_
      · rw [left', left, List.append_assoc]
      · rw [right', right, List.append_assoc]

theorem ite {c : Prop} [Decidable c] {x y : Prog ε σ α} {x' y' : Prog ε σ β}
    (hx : c → Alike log R x x') (hy : ¬c → Alike log R y y') :
    Alike log R (if c then x else y) (if c then x' else y') := by
  split_ifs with hc
  · exact hx hc
  · exact hy hc

theorem ofExcept {R : α → α → Prop} (x : Except ε α) (h : ∀ a, R a a) :
    Alike log R (Programs.ofExcept x : Prog ε σ α) (Programs.ofExcept x) := by
  intro s t
  cases x with
  | error e => exact .fails e
  | ok a => exact .returns [] (h a) (List.append_nil _).symm (List.append_nil _).symm

end Alike

def Yields (m : Prog ε σ α) (x : Except ε α) : Prop := ∀ s, (m s).map Prod.fst = x

namespace Yields

theorem pure (a : α) : Yields (pure a : Prog ε σ α) (.ok a) := fun _ => rfl

theorem abort (e : ε) : Yields (abort e : Prog ε σ α) (.error e) := fun _ => rfl

theorem ofExcept (x : Except ε α) : Yields (Programs.ofExcept x : Prog ε σ α) x := by
  intro s
  cases x with
  | error e => rfl
  | ok a => rfl

theorem bind {m : Prog ε σ α} {x : Except ε α} {f : α → Prog ε σ β} {g : α → Except ε β}
    (hm : Yields m x) (hf : ∀ a, Yields (f a) (g a)) : Yields (m >>= f) (x >>= g) := by
  intro s
  have hs := hm s
  cases h : m s with
  | error e =>
    rw [h] at hs
    rw [bind_of_error h, ← hs]
    rfl
  | ok p =>
    rw [h] at hs
    rw [bind_of_ok h, ← hs]
    exact hf p.1 p.2

theorem ite {c : Prop} [Decidable c] {m m' : Prog ε σ α} {x x' : Except ε α}
    (h : Yields m x) (h' : Yields m' x') :
    Yields (if c then m else m') (if c then x else x') := by
  split_ifs
  · exact h
  · exact h'

end Yields

def Erases (m : Prog ε (σ × τ) α) (m₀ : Prog ε σ α) : Prop :=
  ∀ s t, (m (s, t)).map (fun r => (r.1, r.2.1)) = m₀ s

namespace Erases

theorem pure (a : α) : Erases (pure a : Prog ε (σ × τ) α) (pure a : Prog ε σ α) := fun _ _ => rfl

theorem abort (e : ε) : Erases (abort e : Prog ε (σ × τ) α) (abort e : Prog ε σ α) :=
  fun _ _ => rfl

theorem first (m : Prog ε σ α) : Erases (zoom Prod.fst (fun s c => (s, c.2)) m : Prog ε (σ × τ) α) m := by
  intro s t
  simp only [zoom]
  cases m s with
  | error e => rfl
  | ok p => rfl

theorem second {m : Prog ε τ α} {x : Except ε α} (h : Yields m x) :
    Erases (zoom Prod.snd (fun t c => (c.1, t)) m : Prog ε (σ × τ) α) (Programs.ofExcept x) := by
  intro s t
  have ht := h t
  simp only [zoom, Programs.ofExcept]
  cases hm : m t with
  | error e =>
    rw [hm] at ht
    rw [← ht]
    rfl
  | ok p =>
    rw [hm] at ht
    rw [← ht]
    rfl

theorem part {υ : Type*} {view : σ → υ} {put : υ → σ → σ} {m : Prog ε (υ × τ) α} {m₀ : Prog ε υ α}
    (h : Erases m m₀) :
    Erases (zoom (fun c => (view c.1, c.2)) (fun p c => (put p.1 c.1, p.2)) m) (zoom view put m₀) := by
  intro s t
  have hst := h (view s) t
  simp only [zoom]
  cases hm : m (view s, t) with
  | error e =>
    rw [hm] at hst
    rw [← hst]
    rfl
  | ok p =>
    rw [hm] at hst
    rw [← hst]
    rfl

theorem bind {m : Prog ε (σ × τ) α} {m₀ : Prog ε σ α} {f : α → Prog ε (σ × τ) β}
    {f₀ : α → Prog ε σ β} (hm : Erases m m₀) (hf : ∀ a, Erases (f a) (f₀ a)) :
    Erases (m >>= f) (m₀ >>= f₀) := by
  intro s t
  have hst := hm s t
  cases h : m (s, t) with
  | error e =>
    rw [h] at hst
    rw [bind_of_error h, bind_of_error hst.symm]
    rfl
  | ok p =>
    rw [h] at hst
    rw [bind_of_ok h, bind_of_ok hst.symm]
    exact hf p.1 p.2.1 p.2.2

theorem ite {c : Prop} [Decidable c] {m m' : Prog ε (σ × τ) α} {m₀ m₀' : Prog ε σ α}
    (h : Erases m m₀) (h' : Erases m' m₀') :
    Erases (if c then m else m') (if c then m₀ else m₀') := by
  split_ifs
  · exact h
  · exact h'

theorem countUp {body : ℕ → α → Prog ε (σ × τ) α} {body₀ : ℕ → α → Prog ε σ α}
    (h : ∀ i a, Erases (body i a) (body₀ i a)) (n : ℕ) (a : α) :
    Erases (countUp body n a) (countUp body₀ n a) := by
  induction n with
  | zero => exact pure a
  | succ n ih => exact bind ih fun b => h n b

theorem run {m : Prog ε (σ × τ) α} {m₀ : Prog ε σ α} (h : Erases m m₀) {s s' : σ} {t t' : τ} {a : α}
    (hm : m (s, t) = .ok (a, (s', t'))) : m₀ s = .ok (a, s') := by
  rw [← h s t, hm]
  rfl

end Erases

end Lib.TwoRuns
