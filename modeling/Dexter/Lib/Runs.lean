import Mathlib

/-!
# Runs of a deterministic labelled system

`step s a` is the state after the operation `a`, or `none` where the operation
does not apply or does not come back. A run is a list of operations. `Throughout`
says that a property holds in every state a run visits, and `Along` that every
step the run takes meets a condition on the state before it.
-/

namespace Lib.Runs

variable {σ α : Type*} (step : σ → α → Option σ)

def exec : σ → List α → Option σ
  | s, [] => some s
  | s, a :: as => (step s a).bind fun s' => exec s' as

def Throughout (P : σ → Prop) : σ → List α → Prop
  | s, [] => P s
  | s, a :: as => P s ∧ ∀ s', step s a = some s' → Throughout P s' as

def Along (Q : σ → α → Prop) : σ → List α → Prop
  | _, [] => True
  | s, a :: as => ∀ s', step s a = some s' → Q s a ∧ Along Q s' as

/-- Every operation that is tried meets the condition, also one that does not come back. -/
def Each (Q : σ → α → Prop) : σ → List α → Prop
  | _, [] => True
  | s, a :: as => Q s a ∧ ∀ s', step s a = some s' → Each Q s' as

variable {step} {P I : σ → Prop} {Q : σ → α → Prop}

theorem exec_cons_some {s t : σ} {a : α} {as : List α} :
    exec step s (a :: as) = some t ↔ ∃ s', step s a = some s' ∧ exec step s' as = some t := by
  simp [exec, Option.bind_eq_some_iff]

theorem exec_invariant (hstep : ∀ s a s', I s → step s a = some s' → I s')
    {s t : σ} {as : List α} (h0 : I s) (h : exec step s as = some t) : I t := by
  induction as generalizing s with
  | nil =>
    cases h
    exact h0
  | cons a as ih =>
    obtain ⟨s', ha, hrest⟩ := exec_cons_some.mp h
    exact ih (hstep s a s' h0 ha) hrest

theorem Throughout.head {s : σ} {as : List α} (h : Throughout step P s as) : P s := by
  cases as with
  | nil => exact h
  | cons a as => exact h.1

theorem Throughout.last {s t : σ} {as : List α} (h : Throughout step P s as)
    (ht : exec step s as = some t) : P t := by
  induction as generalizing s with
  | nil =>
    cases ht
    exact h
  | cons a as ih =>
    obtain ⟨s', ha, hrest⟩ := exec_cons_some.mp ht
    exact ih (h.2 s' ha) hrest

/-- The run rule for a property that only some steps keep. `I` collects what the steps
preserve as long as the property holds. -/
theorem throughout_of_along
    (hstep : ∀ s a s', I s → P s → step s a = some s' → Q s a → P s' ∧ I s')
    {s : σ} {as : List α} (hI : I s) (hP : P s) (h : Along step Q s as) :
    Throughout step P s as := by
  induction as generalizing s with
  | nil => exact hP
  | cons a as ih =>
    refine ⟨hP, fun s' hs' => ?_⟩
    obtain ⟨hP', hI'⟩ := hstep s a s' hI hP hs' (h s' hs').1
    exact ih hI' hP' (h s' hs').2

theorem along_of_forall {s : σ} {as : List α} (h : ∀ a ∈ as, ∀ s, Q s a) : Along step Q s as := by
  induction as generalizing s with
  | nil => trivial
  | cons a as ih =>
    exact fun s' _ => ⟨h a List.mem_cons_self s, ih fun b hb => h b (List.mem_cons_of_mem a hb)⟩

theorem Throughout.mono (hPI : ∀ s, P s → I s) {s : σ} {as : List α}
    (h : Throughout step P s as) : Throughout step I s as := by
  induction as generalizing s with
  | nil => exact hPI s h
  | cons a as ih => exact ⟨hPI s h.1, fun s' hs' => ih (h.2 s' hs')⟩

theorem Throughout.along {D : σ → α → Prop} (himp : ∀ s a, P s → D s a → Q s a) {s : σ} {as : List α}
    (h : Throughout step P s as) (hD : Along step D s as) : Along step Q s as := by
  induction as generalizing s with
  | nil => trivial
  | cons a as ih =>
    exact fun s' hs' => ⟨himp s a h.1 (hD s' hs').1, ih (h.2 s' hs') (hD s' hs').2⟩

theorem exec_of_along (hstep : ∀ s a, I s → ∃ s', step s a = some s' ∧ (Q s a → I s'))
    {s : σ} {as : List α} (hI : I s) (h : Along step Q s as) :
    ∃ t, exec step s as = some t ∧ I t := by
  induction as generalizing s with
  | nil => exact ⟨s, rfl, hI⟩
  | cons a as ih =>
    obtain ⟨s', hs', hI'⟩ := hstep s a hI
    obtain ⟨t, ht, hIt⟩ := ih (hI' (h s' hs').1) (h s' hs').2
    exact ⟨t, exec_cons_some.mpr ⟨s', hs', ht⟩, hIt⟩

/-- Among the runs whose steps all meet `D`: when a step keeps the property exactly if it meets
the condition, a run keeps the property throughout exactly if all its steps meet the condition. -/
theorem throughout_iff_along_within {D : σ → α → Prop}
    (hiff : ∀ s a s', I s → P s → D s a → step s a = some s' → (P s' ↔ Q s a))
    (hI' : ∀ s a s', I s → P s → D s a → step s a = some s' → P s' → I s')
    {s : σ} {as : List α} (hI : I s) (hP : P s) (hD : Along step D s as) :
    Throughout step P s as ↔ Along step Q s as := by
  induction as generalizing s with
  | nil => exact iff_of_true hP trivial
  | cons a as ih =>
    have hnext : ∀ s', step s a = some s' → P s' →
        (Throughout step P s' as ↔ Along step Q s' as) := fun s' hs' hP' =>
      ih (hI' s a s' hI hP (hD s' hs').1 hs' hP') hP' (hD s' hs').2
    constructor
    · intro h s' hs'
      have hrest := h.2 s' hs'
      exact ⟨(hiff s a s' hI hP (hD s' hs').1 hs').mp hrest.head,
        (hnext s' hs' hrest.head).mp hrest⟩
    · refine fun h => ⟨hP, fun s' hs' => ?_⟩
      have hP' := (hiff s a s' hI hP (hD s' hs').1 hs').mpr (h s' hs').1
      exact (hnext s' hs' hP').mpr (h s' hs').2

theorem throughout_iff_along
    (hiff : ∀ s a s', I s → P s → step s a = some s' → (P s' ↔ Q s a))
    (hI' : ∀ s a s', I s → P s → step s a = some s' → P s' → I s')
    {s : σ} {as : List α} (hI : I s) (hP : P s) :
    Throughout step P s as ↔ Along step Q s as := by
  have hall : Along step (fun _ _ => True) s as := along_of_forall fun _ _ _ => trivial
  exact throughout_iff_along_within (fun s a s' hI hP _ => hiff s a s' hI hP)
    (fun s a s' hI hP _ => hI' s a s' hI hP) hI hP hall

theorem each_iff_each {D : σ → α → Prop} (hiff : ∀ s a, I s → (D s a ↔ Q s a))
    (hI' : ∀ s a s', I s → Q s a → step s a = some s' → I s') {s : σ} {as : List α} (hI : I s) :
    Each step D s as ↔ Each step Q s as := by
  induction as generalizing s with
  | nil => exact Iff.rfl
  | cons a as ih =>
    rw [Each, Each, hiff s a hI]
    exact and_congr_right fun hq => forall₂_congr fun s' hs' => ih (hI' s a s' hI hq hs')

end Lib.Runs
