import Mathlib

/-!
# Numbers in byte memory, least significant byte first

`load m n p` is the number of `n` bytes at `p`, `store m n p w` the memory after the last `n` bytes
of `w` have been written there. `Words m p ws` says that the 32-bit words `ws` lie from `p` on.
-/

namespace Lib.LittleEndian

def load (m : ℕ → UInt8) : ℕ → ℕ → ℕ
  | 0, _ => 0
  | n + 1, p => (m p).toNat + 256 * load m n (p + 1)

def store (m : ℕ → UInt8) : ℕ → ℕ → ℕ → ℕ → UInt8
  | 0, _, _ => m
  | n + 1, p, w => Function.update (store m n (p + 1) (w / 256)) p (UInt8.ofNat w)

variable {m m' : ℕ → UInt8} {n k p q w v : ℕ} {ws vs : List ℕ}

theorem load_lt (m : ℕ → UInt8) (n p : ℕ) : load m n p < 256 ^ n := by
  induction n generalizing p with
  | zero => exact Nat.one_pos
  | succ n ih =>
    have hbyte := (m p).toNat_lt
    have hrest := ih (p + 1)
    rw [load, pow_succ]
    omega

theorem load_congr (h : ∀ q, p ≤ q → q < p + n → m' q = m q) : load m' n p = load m n p := by
  induction n generalizing p with
  | zero => rfl
  | succ n ih =>
    rw [load, load, h p le_rfl (by omega), ih fun q hq hlt => h q (by omega) (by omega)]

theorem load_mod (m : ℕ → UInt8) (hk : k ≤ n) (p : ℕ) : load m k p = load m n p % 256 ^ k := by
  induction k generalizing n p with
  | zero => rw [pow_zero, Nat.mod_one, load]
  | succ k ih =>
    obtain ⟨n, rfl⟩ := Nat.exists_eq_add_of_le' (Nat.one_le_of_lt hk)
    have hbyte := (m p).toNat_lt
    have hfirst : ((m p).toNat + 256 * load m n (p + 1)) % 256 = (m p).toNat := by omega
    have hrest : ((m p).toNat + 256 * load m n (p + 1)) / 256 = load m n (p + 1) := by omega
    rw [load, load, ih (by omega : k ≤ n), pow_succ', Nat.mod_mul, hfirst, hrest]

theorem store_frame (h : q < p ∨ p + n ≤ q) : store m n p w q = m q := by
  induction n generalizing p w with
  | zero => rfl
  | succ n ih =>
    rw [store, Function.update_of_ne (by omega)]
    exact ih (by omega)

theorem store_congr (h : m' q = m q) : store m' n p w q = store m n p w q := by
  induction n generalizing p w with
  | zero => exact h
  | succ n ih =>
    rw [store, store]
    by_cases hq : q = p
    · rw [hq, Function.update_self, Function.update_self]
    · rw [Function.update_of_ne hq, Function.update_of_ne hq, ih]

theorem store_succ (m : ℕ → UInt8) (n p : ℕ) (b : UInt8) (w : ℕ) :
    store m (n + 1) p (b.toNat + 256 * w) = Function.update (store m n (p + 1) w) p b := by
  have hlt := b.toNat_lt
  have hrest : (b.toNat + 256 * w) / 256 = w := by omega
  have hfirst : UInt8.ofNat (b.toNat + 256 * w) = b := by
    rw [← UInt8.toNat_inj, UInt8.toNat_ofNat']
    omega
  rw [store, hrest, hfirst]

theorem load_store_self (m : ℕ → UInt8) (n p w : ℕ) : load (store m n p w) n p = w % 256 ^ n := by
  induction n generalizing p w with
  | zero => rw [load, pow_zero, Nat.mod_one]
  | succ n ih =>
    have hrest : load (store m (n + 1) p w) n (p + 1) =
        load (store m n (p + 1) (w / 256)) n (p + 1) :=
      load_congr fun q hq hlt => Function.update_of_ne (by omega) _ _
    have hbyte : (store m (n + 1) p w p).toNat = w % 256 := by
      rw [store, Function.update_self, UInt8.toNat_ofNat']
    rw [load, hrest, ih, hbyte, pow_succ', Nat.mod_mul]

theorem load_store_of_disjoint (h : p + n ≤ q ∨ q + k ≤ p) :
    load (store m k q w) n p = load m n p :=
  load_congr fun _ _ _ => store_frame (by omega)

def Words (m : ℕ → UInt8) : ℕ → List ℕ → Prop
  | _, [] => True
  | p, w :: ws => load m 4 p = w ∧ Words m (p + 4) ws

theorem Words.load_eq (h : Words m p ws) (i : ℕ) (hw : ws[i]? = some w) :
    load m 4 (p + 4 * i) = w := by
  induction i generalizing p ws with
  | zero =>
    cases ws with
    | nil => cases hw
    | cons v vs => exact h.1.trans (Option.some.inj hw)
  | succ i ih =>
    cases ws with
    | nil => cases hw
    | cons v vs =>
      have hat : p + 4 * (i + 1) = p + 4 + 4 * i := by omega
      rw [hat]
      exact ih h.2 hw

theorem Words.lt (h : Words m p ws) (hw : w ∈ ws) : w < 4294967296 := by
  obtain ⟨i, hi⟩ := List.getElem?_of_mem hw
  exact (h.load_eq i hi) ▸ load_lt m 4 _

theorem Words.congr (h : Words m p ws) (hm : ∀ q, p ≤ q → q < p + 4 * ws.length → m' q = m q) :
    Words m' p ws := by
  induction ws generalizing p with
  | nil => trivial
  | cons w ws ih =>
    rw [List.length_cons] at hm
    have hword : load m' 4 p = load m 4 p :=
      load_congr fun q hq hlt => hm q hq (by omega)
    exact ⟨hword.trans h.1, ih h.2 fun q hq hlt => hm q (by omega) (by omega)⟩

theorem Words.store_of_disjoint (h : Words m p ws) (hq : q + n ≤ p ∨ p + 4 * ws.length ≤ q) :
    Words (store m n q v) p ws :=
  h.congr fun _ _ _ => store_frame (by omega)

theorem Words.cons (h : Words m (p + 4) ws) (hw : w < 4294967296) :
    Words (store m 4 p w) p (w :: ws) :=
  ⟨(load_store_self m 4 p w).trans (Nat.mod_eq_of_lt hw), h.store_of_disjoint (Or.inl le_rfl)⟩

def storeWords (m : ℕ → UInt8) : ℕ → List ℕ → ℕ → UInt8
  | _, [] => m
  | p, w :: ws => store (storeWords m (p + 4) ws) 4 p w

theorem words_storeWords (hws : ∀ w ∈ ws, w < 4294967296) : Words (storeWords m p ws) p ws := by
  induction ws generalizing p with
  | nil => trivial
  | cons w ws ih =>
    exact (ih fun v hv => hws v (List.mem_cons_of_mem w hv)).cons (hws w List.mem_cons_self)

theorem Words.storeWords_of_disjoint (h : Words m p ws)
    (hq : q + 4 * vs.length ≤ p ∨ p + 4 * ws.length ≤ q) : Words (storeWords m q vs) p ws := by
  induction vs generalizing q with
  | nil => exact h
  | cons v vs ih =>
    rw [List.length_cons] at hq
    exact (ih (by omega)).store_of_disjoint (by omega)

end Lib.LittleEndian
