import Mathlib

/-!
# Sequential programs over a state, with abnormal ends

`Prog ε σ α` is a program that reads and writes a state of type `σ` and either
returns a value of type `α` or ends abnormally with an `ε`. The statements a
program is taken apart with (`bind_ok`, `zoom_ok`) speak about runs that return;
a `Triple` is a partial-correctness statement about those runs.

A program over a part of the state is run on the whole state through `zoom`:
what lies outside the part is then unchanged by construction.
-/

namespace Lib.Programs

def Prog (ε σ α : Type*) := σ → Except ε (α × σ)

universe u
variable {ε σ τ : Type*} {α β : Type u}

instance : Monad (Prog ε σ) where
  pure a := fun s => .ok (a, s)
  bind x f := fun s =>
    match x s with
    | .ok (a, s') => f a s'
    | .error e => .error e

def abort (e : ε) : Prog ε σ α := fun _ => .error e

def get : Prog ε σ σ := fun s => .ok (s, s)

def modify (f : σ → σ) : Prog ε σ Unit := fun s => .ok ((), f s)

def step (f : σ → α × σ) : Prog ε σ α := fun s => .ok (f s)

def ofExcept (x : Except ε α) : Prog ε σ α := fun s => x.map fun a => (a, s)

def zoom (view : σ → τ) (put : τ → σ → σ) (m : Prog ε τ α) : Prog ε σ α := fun s =>
  match m (view s) with
  | .ok (a, t) => .ok (a, put t s)
  | .error e => .error e

def onlyIf (c : Prop) [Decidable c] (m : Prog ε σ Unit) : Prog ε σ Unit :=
  if c then m else pure ()

/-- The body of a counted loop, run for the indices `0 .. n-1` in this order. -/
def countUp (body : ℕ → α → Prog ε σ α) : ℕ → α → Prog ε σ α
  | 0, a => pure a
  | n + 1, a => do
    let b ← countUp body n a
    body n b

@[simp] theorem pure_apply (a : α) (s : σ) : (pure a : Prog ε σ α) s = .ok (a, s) := rfl
@[simp] theorem abort_apply (e : ε) (s : σ) : (abort e : Prog ε σ α) s = .error e := rfl
@[simp] theorem get_apply (s : σ) : (get : Prog ε σ σ) s = .ok (s, s) := rfl
@[simp] theorem modify_apply (f : σ → σ) (s : σ) :
    (modify f : Prog ε σ Unit) s = .ok ((), f s) := rfl
@[simp] theorem step_apply (f : σ → α × σ) (s : σ) : (step f : Prog ε σ α) s = .ok (f s) := rfl

theorem ite_apply (c : Prop) [Decidable c] (x y : Prog ε σ α) (s : σ) :
    (if c then x else y) s = if c then x s else y s := by
  split_ifs <;> rfl

theorem ofExcept_ok {x : Except ε α} {s s' : σ} {a : α} :
    (ofExcept x : Prog ε σ α) s = .ok (a, s') ↔ x = .ok a ∧ s' = s := by
  cases x with
  | error e => simp [ofExcept, Except.map]
  | ok b =>
    simp only [ofExcept, Except.map, Except.ok.injEq, Prod.mk.injEq]
    exact and_congr_right fun _ => eq_comm

theorem onlyIf_of_ok {c : Prop} [Decidable c] {m : Prog ε σ Unit} {s s' : σ}
    (h : c → m s = .ok ((), s')) : onlyIf c m s = .ok ((), if c then s' else s) := by
  unfold onlyIf
  split_ifs with hc
  · exact h hc
  · rfl

theorem bind_eq_ok {x : Except ε α} {f : α → Except ε β} {b : β} :
    (x >>= f) = .ok b ↔ ∃ a, x = .ok a ∧ f a = .ok b := by
  cases x with
  | error e => simp [Bind.bind, Except.bind]
  | ok a => simp [Bind.bind, Except.bind]

theorem bind_ne_error {x : Except ε α} {f : α → Except ε β} {e : ε}
    (hx : x ≠ .error e) (hf : ∀ a, f a ≠ .error e) : (x >>= f) ≠ .error e := by
  cases x with
  | error e' => exact fun h => hx (congrArg _ (Except.error.inj h))
  | ok a => exact hf a

theorem ok_inj {a b : α} {s t : σ} (h : (.ok (a, s) : Except ε (α × σ)) = .ok (b, t)) :
    a = b ∧ s = t := Prod.mk.inj (Except.ok.inj h)

theorem bind_of_ok {x : Prog ε σ α} {s s' : σ} {a : α} (h : x s = .ok (a, s'))
    (f : α → Prog ε σ β) : (x >>= f) s = f a s' := by
  show (match x s with | .ok (a, s') => f a s' | .error e => .error e) = _
  rw [h]

theorem bind_of_error {x : Prog ε σ α} {s : σ} {e : ε} (h : x s = .error e)
    (f : α → Prog ε σ β) : (x >>= f) s = .error e := by
  show (match x s with | .ok (a, s') => f a s' | .error e => .error e) = _
  rw [h]

theorem prog_pure_bind (a : α) (f : α → Prog ε σ β) : (pure a >>= f : Prog ε σ β) = f a := rfl

theorem prog_bind_pure (x : Prog ε σ α) : x >>= pure = x := by
  funext s
  cases h : x s with
  | error e => exact bind_of_error h pure
  | ok p => exact bind_of_ok h pure

theorem prog_bind_assoc {γ : Type u} (x : Prog ε σ α) (f : α → Prog ε σ β) (g : β → Prog ε σ γ) :
    (x >>= f) >>= g = x >>= fun a => f a >>= g := by
  funext s
  cases h : x s with
  | error e => rw [bind_of_error h, bind_of_error (bind_of_error h f)]
  | ok p =>
    rw [bind_of_ok h]
    cases h' : f p.1 p.2 with
    | error e => rw [bind_of_error h', bind_of_error ((bind_of_ok h f).trans h')]
    | ok q => rw [bind_of_ok h', bind_of_ok ((bind_of_ok h f).trans h')]

theorem bind_ok {x : Prog ε σ α} {f : α → Prog ε σ β} {s s' : σ} {b : β} :
    (x >>= f) s = .ok (b, s') ↔ ∃ a t, x s = .ok (a, t) ∧ f a t = .ok (b, s') := by
  cases h : x s with
  | error e => simp [bind_of_error h]
  | ok p =>
    obtain ⟨a, t⟩ := p
    simp [bind_of_ok h]

theorem toOption_bind {γ : Type*} {x : Except ε α} {a : α} {f : α → Option γ} {c : γ}
    (hx : x = .ok a) (hf : f a = some c) : x.toOption.bind f = some c := by
  subst hx
  exact hf

def leaves (m : Prog ε σ α) (s : σ) : Option σ := (m s).toOption.map Prod.snd

theorem leaves_of_ok {m : Prog ε σ α} {s s' : σ} {a : α} (h : m s = .ok (a, s')) :
    leaves m s = some s' := by
  rw [leaves, h]
  rfl

theorem leaves_eq_some {m : Prog ε σ α} {s s' : σ} :
    leaves m s = some s' ↔ ∃ a, m s = .ok (a, s') := by
  constructor
  · intro h
    cases hm : m s with
    | error e =>
      rw [leaves, hm] at h
      cases h
    | ok p =>
      rw [leaves_of_ok hm] at h
      exact ⟨p.1, Option.some.inj h ▸ rfl⟩
  · exact fun ⟨_, h⟩ => leaves_of_ok h

theorem leaves_bind {x : Prog ε σ α} {s s' : σ} {a : α} (h : x s = .ok (a, s'))
    (f : α → Prog ε σ β) : leaves (x >>= f) s = leaves (f a) s' := by
  rw [leaves, bind_of_ok h]
  rfl

theorem leaves_bind_ofExcept (x : Except ε α) (f : α → Prog ε σ β) (s : σ) :
    leaves (ofExcept x >>= f) s = x.toOption.bind fun a => leaves (f a) s := by
  cases x with
  | error e => rfl
  | ok a => rfl

theorem leaves_ite (c : Prop) [Decidable c] (m m' : Prog ε σ α) (s : σ) :
    leaves (if c then m else m') s = if c then leaves m s else leaves m' s := by
  split_ifs <;> rfl

theorem countUp_of_error {body : ℕ → α → Prog ε σ α} {s : σ} {a : α} {e : ε}
    (h : body 0 a s = .error e) (n : ℕ) : countUp body (n + 1) a s = .error e := by
  induction n with
  | zero =>
    rw [countUp, countUp, bind_of_ok (pure_apply a s)]
    exact h
  | succ n ih => rw [countUp, bind_of_error ih]

theorem zoom_of_ok {view : σ → τ} {put : τ → σ → σ} {m : Prog ε τ α} {s : σ} {t : τ} {a : α}
    (h : m (view s) = .ok (a, t)) : zoom view put m s = .ok (a, put t s) := by
  simp only [zoom, h]

theorem zoom_ok {view : σ → τ} {put : τ → σ → σ} {m : Prog ε τ α} {s s' : σ} {a : α} :
    zoom view put m s = .ok (a, s') ↔ ∃ t, m (view s) = .ok (a, t) ∧ s' = put t s := by
  cases h : m (view s) with
  | error e => simp [zoom, h]
  | ok p =>
    obtain ⟨b, t⟩ := p
    simp only [zoom, h, Except.ok.injEq, Prod.mk.injEq]
    constructor
    · rintro ⟨rfl, rfl⟩
      exact ⟨t, ⟨rfl, rfl⟩, rfl⟩
    · rintro ⟨t, ⟨rfl, rfl⟩, rfl⟩
      exact ⟨rfl, rfl⟩

/-- Every run of `m` from a state with `P` that returns, returns with `Q`. -/
def Triple (P : σ → Prop) (m : Prog ε σ α) (Q : α → σ → Prop) : Prop :=
  ∀ ⦃s a s'⦄, P s → m s = .ok (a, s') → Q a s'

namespace Triple
variable {P P' : σ → Prop} {Q Q' : α → σ → Prop}

theorem run {m : Prog ε σ α} {s s' : σ} {a : α} (hs : P s) (hm : m s = .ok (a, s'))
    (h : Triple P m Q) : Q a s' := h hs hm

theorem conseq {m : Prog ε σ α} (h : Triple P m Q) (hP : ∀ s, P' s → P s)
    (hQ : ∀ a s, Q a s → Q' a s) : Triple P' m Q' :=
  fun _ _ _ hs hm => hQ _ _ (h (hP _ hs) hm)

theorem pure {a : α} (h : ∀ s, P s → Q a s) : Triple P (pure a : Prog ε σ α) Q := by
  intro s b s' hs hm
  simp only [pure_apply, Except.ok.injEq, Prod.mk.injEq] at hm
  obtain ⟨rfl, rfl⟩ := hm
  exact h _ hs

theorem abort {e : ε} : Triple P (abort e : Prog ε σ α) Q := by
  intro s a s' _ hm
  cases hm

theorem ofExcept {x : Except ε α} (h : ∀ a s, x = .ok a → P s → Q a s) :
    Triple P (ofExcept x : Prog ε σ α) Q := by
  intro s a s' hs hm
  obtain ⟨hx, rfl⟩ := ofExcept_ok.mp hm
  exact h a _ hx hs

theorem step {f : σ → α × σ} (h : ∀ s, P s → Q (f s).1 (f s).2) :
    Triple P (step f : Prog ε σ α) Q := by
  intro s a s' hs hm
  simp only [step_apply, Except.ok.injEq] at hm
  have := h s hs
  rwa [hm] at this

theorem modify {f : σ → σ} {R : Unit → σ → Prop} (h : ∀ s, P s → R () (f s)) :
    Triple P (modify f : Prog ε σ Unit) R :=
  fun s _ _ hs hm => by cases hm; exact h s hs

theorem bind {x : Prog ε σ α} {f : α → Prog ε σ β} {R : β → σ → Prop}
    (hx : Triple P x Q) (hf : ∀ a, Triple (Q a) (f a) R) : Triple P (x >>= f) R := by
  intro s b s' hs hm
  obtain ⟨a, t, h₁, h₂⟩ := bind_ok.mp hm
  exact hf a (hx hs h₁) h₂

theorem ite {c : Prop} [Decidable c] {x y : Prog ε σ α}
    (hx : c → Triple P x Q) (hy : ¬c → Triple P y Q) : Triple P (if c then x else y) Q := by
  split_ifs with hc
  · exact hx hc
  · exact hy hc

/-- The loop rule: an invariant indexed by the number of iterations done. -/
theorem countUp {body : ℕ → α → Prog ε σ α} {I : ℕ → α → σ → Prop} {n : ℕ}
    (h : ∀ i < n, ∀ a, Triple (I i a) (body i a) (I (i + 1))) (a : α) :
    Triple (I 0 a) (countUp body n a) (I n) := by
  induction n with
  | zero => exact pure fun _ hs => hs
  | succ n ih =>
    exact bind (ih fun i hi => h i (by omega)) fun b => h n (by omega) b

end Triple

def Returns (P : σ → Prop) (m : Prog ε σ α) (Q : α → σ → Prop) : Prop :=
  ∀ ⦃s⦄, P s → ∃ a s', m s = .ok (a, s') ∧ Q a s'

namespace Returns
variable {P P' : σ → Prop} {Q Q' : α → σ → Prop}

theorem pure {a : α} (h : ∀ s, P s → Q a s) : Returns P (pure a : Prog ε σ α) Q :=
  fun s hs => ⟨a, s, rfl, h s hs⟩

theorem bind {x : Prog ε σ α} {f : α → Prog ε σ β} {R : β → σ → Prop}
    (hx : Returns P x Q) (hf : ∀ a, Returns (Q a) (f a) R) : Returns P (x >>= f) R := by
  intro s hs
  obtain ⟨a, s₁, hrun, hq⟩ := hx hs
  obtain ⟨b, s₂, hrun₂, hr⟩ := hf a hq
  exact ⟨b, s₂, (bind_of_ok hrun f).trans hrun₂, hr⟩

theorem bind_ofExcept {x : Except ε α} {a : α} {f : α → Prog ε σ β} {R : β → σ → Prop}
    (hx : x = .ok a) (hf : Returns P (f a) R) : Returns P (Programs.ofExcept x >>= f) R := by
  subst hx
  exact hf

theorem and_triple {m : Prog ε σ α} (hm : Returns P m Q) (h : Triple P' m Q') :
    Returns (fun s => P s ∧ P' s) m fun a s => Q a s ∧ Q' a s := by
  intro s hs
  obtain ⟨a, s', hrun, hq⟩ := hm hs.1
  exact ⟨a, s', hrun, hq, h hs.2 hrun⟩

theorem fact {φ : Prop} {m : Prog ε σ α} (h : φ → Returns P m Q) :
    Returns (fun s => φ ∧ P s) m Q := fun _ hs => h hs.1 hs.2

theorem ite_neg {c : Prop} [Decidable c] {x y : Prog ε σ α} (hc : ¬c) (hy : Returns P y Q) :
    Returns P (if c then x else y) Q := by
  rwa [if_neg hc]

theorem zoom {view : σ → τ} {put : τ → σ → σ} {m : Prog ε τ α} {P₀ : τ → Prop}
    {Q₀ : α → τ → Prop} (hm : Returns P₀ m Q₀) (hP : ∀ s, P s → P₀ (view s))
    (hQ : ∀ s a t, P s → Q₀ a t → Q a (put t s)) : Returns P (zoom view put m) Q := by
  intro s hs
  obtain ⟨a, t, hrun, hq⟩ := hm (hP s hs)
  exact ⟨a, put t s, zoom_of_ok hrun, hQ s a t hs hq⟩

theorem countUp {body : ℕ → α → Prog ε σ α} {I : ℕ → α → σ → Prop} {n : ℕ}
    (h : ∀ i < n, ∀ a, Returns (I i a) (body i a) (I (i + 1))) (a : α) :
    Returns (I 0 a) (countUp body n a) (I n) := by
  induction n with
  | zero => exact pure fun _ hs => hs
  | succ n ih => exact bind (ih fun i hi => h i (by omega)) fun b => h n (by omega) b

end Returns

/-- No run of `m` ends with `e`. -/
def Avoids (e : ε) (m : Prog ε σ α) : Prop := ∀ s, m s ≠ .error e

namespace Avoids
variable {e : ε}

theorem of_ok {m : Prog ε σ α} (h : ∀ s, ∃ r, m s = .ok r) : Avoids e m := by
  intro s hs
  obtain ⟨r, hr⟩ := h s
  rw [hr] at hs
  cases hs

theorem pure (a : α) : Avoids e (pure a : Prog ε σ α) := of_ok fun s => ⟨(a, s), rfl⟩

theorem abort {e' : ε} (h : e' ≠ e) : Avoids e (abort e' : Prog ε σ α) :=
  fun _ hs => h (Except.error.inj hs)

theorem bind {x : Prog ε σ α} {f : α → Prog ε σ β} (hx : Avoids e x) (hf : ∀ a, Avoids e (f a)) :
    Avoids e (x >>= f) := by
  intro s hs
  cases h : x s with
  | error e' =>
    rw [bind_of_error h] at hs
    exact hx s (h.trans (congrArg _ (Except.error.inj hs)))
  | ok p =>
    rw [bind_of_ok h] at hs
    exact hf p.1 p.2 hs

theorem ite {c : Prop} [Decidable c] {x y : Prog ε σ α} (hx : Avoids e x) (hy : Avoids e y) :
    Avoids e (if c then x else y) := by
  split_ifs
  · exact hx
  · exact hy

theorem zoom {view : σ → τ} {put : τ → σ → σ} {m : Prog ε τ α} (hm : Avoids e m) :
    Avoids e (zoom view put m) := by
  intro s hs
  cases h : m (view s) with
  | error e' =>
    simp only [Programs.zoom, h] at hs
    exact hm _ (h.trans (congrArg _ (Except.error.inj hs)))
  | ok p => simp [Programs.zoom, h] at hs

theorem countUp {body : ℕ → α → Prog ε σ α} (h : ∀ i a, Avoids e (body i a)) (n : ℕ) (a : α) :
    Avoids e (countUp body n a) := by
  induction n with
  | zero => exact pure a
  | succ n ih => exact bind ih fun b => h n b

end Avoids

end Lib.Programs
