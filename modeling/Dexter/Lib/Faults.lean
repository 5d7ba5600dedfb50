import Dexter.Lib.Programs

/-!
# Requests that may fail

A program that asks a store for blocks can be run over any store (`Requests`). `Faulty` is a store
whose requests are answered with 0 where a pattern says so, whatever the store behind it holds;
request `i` is the one with `i` answers before it on record.
-/

namespace Lib.Faults

/-- A store of blocks: it answers a request for so many bytes with an address, or with 0, and takes
blocks back. -/
class Requests (σ : Type*) where
  ask : ℕ → σ → ℕ × σ
  release : ℕ → σ → σ

structure Faulty (fails : ℕ → Bool) (σ : Type*) where
  store : σ
  given : List ℕ

variable {σ : Type*} [Requests σ] {fails : ℕ → Bool}

instance : Requests (Faulty fails σ) where
  ask size c :=
    let r := if fails c.given.length then (0, c.store) else Requests.ask size c.store
    (r.1, ⟨r.2, c.given ++ [r.1]⟩)
  release ptr c := ⟨Requests.release ptr c.store, c.given⟩

variable {c : Faulty fails σ} {size : ℕ}

theorem Faulty.ask_fails (h : fails c.given.length = true) :
    Requests.ask size c = (0, ⟨c.store, c.given ++ [0]⟩) := by
  show (_, _) = _
  rw [if_pos h]

theorem Faulty.ask_passes (h : fails c.given.length = false) :
    Requests.ask size c = ((Requests.ask size c.store).1,
      ⟨(Requests.ask size c.store).2, c.given ++ [(Requests.ask size c.store).1]⟩) := by
  show (_, _) = _
  rw [if_neg (Bool.eq_false_iff.mp h)]

end Lib.Faults
