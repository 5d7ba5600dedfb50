import Dexter.Lib.Programs

/-!
# Two programs over two states

`Corres P m m' Q`: from states that `P` relates, `m` and `m'` both return, with results and states
that `Q` relates, or both end with the same error. The rules follow the statements of the two
programs; a statement that only one of them has is taken alone.
-/

namespace Lib.Refinement
open Lib.Programs

universe u
variable {ε σ τ : Type*} {α β γ δ : Type u}

inductive Agree (Q : α → β → σ → τ → Prop) : Except ε (α × σ) → Except ε (β × τ) → Prop
  | fails (e : ε) : Agree Q (.error e) (.error e)
  | returns {a : α} {b : β} {s : σ} {t : τ} (related : Q a b s t) :
      Agree Q (.ok (a, s)) (.ok (b, t))

def Corres (P : σ → τ → Prop) (m : Prog ε σ α) (m' : Prog ε τ β) (Q : α → β → σ → τ → Prop) :
    Prop :=
  ∀ s t, P s t → Agree Q (m s) (m' t)

namespace Corres
variable {P : σ → τ → Prop} {Q : α → β → σ → τ → Prop} {R : γ → δ → σ → τ → Prop}
  {m : Prog ε σ α} {m' : Prog ε τ β}

theorem conseq {P' : σ → τ → Prop} {Q' : α → β → σ → τ → Prop} (h : Corres P m m' Q)
    (hP : ∀ s t, P' s t → P s t) (hQ : ∀ a b s t, Q a b s t → Q' a b s t) : Corres P' m m' Q' := by
  intro s t hst
  have hruns := h s t (hP s t hst)
  generalize m s = x at hruns
  generalize m' t = y at hruns
  cases hruns with
  | fails e => exact .fails e
  | returns related => exact .returns (hQ _ _ _ _ related)

theorem pure {a : α} {b : β} (h : ∀ s t, P s t → Q a b s t) :
    Corres P (Pure.pure a : Prog ε σ α) (Pure.pure b : Prog ε τ β) Q :=
  fun s t hst => .returns (h s t hst)

theorem abort (e : ε) : Corres P (abort e : Prog ε σ α) (abort e : Prog ε τ β) Q :=
  fun _ _ _ => .fails e

theorem bind {f : α → Prog ε σ γ} {f' : β → Prog ε τ δ} (hm : Corres P m m' Q)
    (hf : ∀ a b, Corres (Q a b) (f a) (f' b) R) : Corres P (m >>= f) (m' >>= f') R := by
  intro s t hst
  have hruns := hm s t hst
  generalize hx : m s = x at hruns
  generalize hy : m' t = y at hruns
  cases hruns with
  | fails e =>
    rw [bind_of_error hx, bind_of_error hy]
    exact .fails e
  | returns related =>
    rw [bind_of_ok hx, bind_of_ok hy]
    exact hf _ _ _ _ related

theorem left {x : Prog ε σ α} {f : σ → α × σ} {g : α → Prog ε σ γ} {n : Prog ε τ δ}
    {S : α → σ → τ → Prop} (hx : ∀ s, x s = .ok (f s)) (hstep : ∀ s t, P s t → S (f s).1 (f s).2 t)
    (hg : ∀ a, Corres (S a) (g a) n R) : Corres P (x >>= g) n R := by
  intro s t hst
  rw [bind_of_ok (hx s)]
  exact hg _ _ _ (hstep s t hst)

theorem left_last {g : α → Prog ε σ γ} {f : α → σ → γ × σ} {S : γ → β → σ → τ → Prop}
    (hm : Corres P m m' Q) (hg : ∀ a s, g a s = .ok (f a s))
    (h : ∀ a b s t, Q a b s t → S (f a s).1 b (f a s).2 t) : Corres P (m >>= g) m' S := by
  intro s t hst
  have hruns := hm s t hst
  generalize hx : m s = x at hruns
  generalize m' t = y at hruns
  cases hruns with
  | fails e =>
    rw [bind_of_error hx]
    exact .fails e
  | returns related =>
    rw [bind_of_ok hx, hg]
    exact .returns (h _ _ _ _ related)

theorem both {x : Prog ε σ α} {y : Prog ε τ β} {f : σ → α × σ} {f' : τ → β × τ}
    (hx : ∀ s, x s = .ok (f s)) (hy : ∀ t, y t = .ok (f' t))
    (h : ∀ s t, P s t → Q (f s).1 (f' t).1 (f s).2 (f' t).2) : Corres P x y Q := by
  intro s t hst
  rw [hx, hy]
  exact .returns (h s t hst)

theorem ite {c c' : Prop} [Decidable c] [Decidable c'] {x y : Prog ε σ α} {x' y' : Prog ε τ β}
    (hc : c ↔ c') (hx : c → Corres P x x' Q) (hy : ¬c → Corres P y y' Q) :
    Corres P (if c then x else y) (if c' then x' else y') Q := by
  by_cases h : c
  · rw [if_pos h, if_pos (hc.mp h)]
    exact hx h
  · rw [if_neg h, if_neg (mt hc.mpr h)]
    exact hy h

theorem countUp {body : ℕ → α → Prog ε σ α} {body' : ℕ → β → Prog ε τ β}
    {I : ℕ → α → β → σ → τ → Prop} {n : ℕ}
    (h : ∀ i < n, ∀ a b, Corres (I i a b) (body i a) (body' i b) (I (i + 1))) (a : α) (b : β) :
    Corres (I 0 a b) (countUp body n a) (countUp body' n b) (I n) := by
  induction n with
  | zero => exact pure fun _ _ hst => hst
  | succ n ih => exact bind (ih fun i hi => h i (by omega)) fun a b => h n (by omega) a b

end Corres

theorem countUp_succ (body : ℕ → α → Prog ε σ α) (n : ℕ) (a : α) :
    countUp body (n + 1) a = body 0 a >>= countUp (fun i => body (i + 1)) n := by
  induction n generalizing a with
  | zero =>
    funext s
    rw [countUp, countUp, bind_of_ok (pure_apply a s)]
    cases h : body 0 a s with
    | error e => rw [bind_of_error h]
    | ok p =>
      rw [bind_of_ok h]
      rfl
  | succ n ih =>
    rw [countUp, ih, prog_bind_assoc]
    rfl

end Lib.Refinement
