import Dexter.Sys.Gdt
import Dexter.Proc.Task

/-!
# The interrupt descriptor table (`sys/idt.c`)

`idt_set` writes a gate of eight bytes, the address of the handler in two halves with the selector
and the type between them. `idt_init` fills the table twice over: every gate with its stub, and then
the two that are not left to a stub. The processor reads the gates of the first 256 numbers.
-/

namespace Dexter
open Lib.LittleEndian

structure Gate where
  offset : ℕ
  selector : ℕ
  typeAttr : ℕ
  deriving DecidableEq, Repr

def gateAt (m : Ram) (p : ℕ) : Gate where
  offset := load m 2 p + 65536 * load m 2 (p + 6)
  selector := load m 2 (p + 2)
  typeAttr := load m 1 (p + 5)

abbrev kernelCodeSelector : ℕ := 0x08

def idtSet (idtDescriptors interruptNo : ℕ) (address : UInt32) (m : Ram) : Ram :=
  let desc := idtDescriptors + 8 * interruptNo
  let m := store m 2 desc (address &&& 0x0000ffff).toNat
  let m := store m 2 (desc + 2) kernelCodeSelector
  let m := store m 1 (desc + 4) 0x00
  let m := store m 1 (desc + 5) 0xEE
  store m 2 (desc + 6) (address >>> 16).toNat

structure Handlers where
  interruptPointerTable : ℕ → UInt32
  idtZero : UInt32
  isr80hWrapper : UInt32

structure Idtr where
  limit : ℕ
  base : ℕ
  deriving DecidableEq, Repr

structure IdtObjects where
  idtDescriptors : ℕ
  idtrDescriptor : ℕ
  below : idtDescriptors < 4294967296
  apart : idtrDescriptor + 6 ≤ idtDescriptors ∨
    idtDescriptors + 8 * dexterTotalInterrupts ≤ idtrDescriptor

def idtLoad (ptr : ℕ) (m : Ram) : Idtr := ⟨load m 2 ptr, load m 4 (ptr + 2)⟩

def idtSetAll (h : Handlers) (idtDescriptors : ℕ) (m : Ram) : Ram :=
  let m := (List.range dexterTotalInterrupts).foldl
    (fun m i => idtSet idtDescriptors i (h.interruptPointerTable i) m) m
  let m := idtSet idtDescriptors 0 h.idtZero m
  idtSet idtDescriptors 0x80 h.isr80hWrapper m

def idtInit (h : Handlers) (o : IdtObjects) (m : Ram) : Idtr × Ram :=
  let m := TaskLayer.cleared o.idtDescriptors (8 * dexterTotalInterrupts) m
  let m := store m 2 o.idtrDescriptor (8 * dexterTotalInterrupts - 1)
  let m := store m 4 (o.idtrDescriptor + 2) o.idtDescriptors
  let m := idtSetAll h o.idtDescriptors m
  (idtLoad o.idtrDescriptor m, m)

def Handlers.address (h : Handlers) (n : ℕ) : UInt32 :=
  if n = 0x80 then h.isr80hWrapper else if n = 0 then h.idtZero else h.interruptPointerTable n

section Gates
variable {m m' : Ram} {p q n i idtDescriptors : ℕ} {address : UInt32} {h : Handlers}

theorem gateAt_congr (hm : ∀ a, p ≤ a → a < p + 8 → m' a = m a) : gateAt m' p = gateAt m p := by
  unfold gateAt
  rw [load_congr fun a ha hlt => hm a (by omega) (by omega),
    load_congr fun a ha hlt => hm a (by omega) (by omega),
    load_congr fun a ha hlt => hm a (by omega) (by omega),
    load_congr fun a ha hlt => hm a (by omega) (by omega)]

theorem idtSet_frame (a : ℕ) (ha : a < idtDescriptors + 8 * i ∨ idtDescriptors + 8 * i + 8 ≤ a) :
    idtSet idtDescriptors i address m a = m a := by
  unfold idtSet
  rw [store_frame (by omega), store_frame (by omega), store_frame (by omega),
    store_frame (by omega), store_frame (by omega)]

theorem gateAt_idtSet : gateAt (idtSet idtDescriptors i address m) (idtDescriptors + 8 * i) =
    ⟨address.toNat, kernelCodeSelector, 0xEE⟩ := by
  have hlow : (address &&& 0x0000ffff).toNat = address.toNat % 65536 := by
    rw [UInt32.toNat_and]
    exact Nat.and_two_pow_sub_one_eq_mod address.toNat 16
  have hhigh : (address >>> 16).toNat = address.toNat / 65536 := by
    rw [UInt32.toNat_shiftRight, Nat.shiftRight_eq_div_pow]
    rfl
  have hlt := address.toNat_lt
  unfold gateAt idtSet
  simp (disch := omega) only [load_store_self, load_store_of_disjoint, hlow, hhigh, Gate.mk.injEq]
  refine ⟨?_, rfl, rfl⟩
  omega

theorem gateAt_idtSet_of_ne (hn : n ≠ i) : gateAt (idtSet idtDescriptors i address m)
    (idtDescriptors + 8 * n) = gateAt m (idtDescriptors + 8 * n) :=
  gateAt_congr fun a _ _ => idtSet_frame a (by omega)

/-- The loop has filled the gates below `k`. -/
theorem gateAt_filled (table : ℕ → UInt32) (k : ℕ) (hn : n < k) :
    gateAt ((List.range k).foldl (fun m i => idtSet idtDescriptors i (table i) m) m)
      (idtDescriptors + 8 * n) = ⟨(table n).toNat, kernelCodeSelector, 0xEE⟩ := by
  induction k with
  | zero => exact absurd hn (Nat.not_lt_zero n)
  | succ k ih =>
    rw [List.range_succ, List.foldl_concat]
    rcases (Nat.lt_succ_iff.mp hn).eq_or_lt with rfl | hlt
    · exact gateAt_idtSet
    · rw [gateAt_idtSet_of_ne hlt.ne, ih hlt]

theorem filled_frame (table : ℕ → UInt32) (k a : ℕ)
    (ha : a < idtDescriptors ∨ idtDescriptors + 8 * k ≤ a) :
    (List.range k).foldl (fun m i => idtSet idtDescriptors i (table i) m) m a = m a := by
  induction k with
  | zero => rfl
  | succ k ih =>
    rw [List.range_succ, List.foldl_concat, idtSet_frame a (by omega), ih (by omega)]

end Gates

section Init
variable {a n idtDescriptors : ℕ} {o : IdtObjects} {h : Handlers} {m : Ram}

theorem gateAt_idtSetAll (hn : n < dexterTotalInterrupts) :
    gateAt (idtSetAll h idtDescriptors m) (idtDescriptors + 8 * n) =
      ⟨(h.address n).toNat, kernelCodeSelector, 0xEE⟩ := by
  dsimp only [idtSetAll]
  unfold Handlers.address
  split_ifs with h128 h0
  · rw [h128]
    exact gateAt_idtSet
  · rw [gateAt_idtSet_of_ne h128, h0]
    exact gateAt_idtSet
  · rw [gateAt_idtSet_of_ne h128, gateAt_idtSet_of_ne h0, gateAt_filled _ _ hn]

theorem idtSetAll_frame
    (ha : a < idtDescriptors ∨ idtDescriptors + 8 * dexterTotalInterrupts ≤ a) :
    idtSetAll h idtDescriptors m a = m a := by
  dsimp only [idtSetAll, dexterTotalInterrupts] at ha ⊢
  rw [idtSet_frame a (by omega), idtSet_frame a (by omega), filled_frame _ _ a ha]

theorem gateAt_idtInit (h : Handlers) (o : IdtObjects) (m : Ram) (hn : n < dexterTotalInterrupts) :
    gateAt (idtInit h o m).2 (o.idtDescriptors + 8 * n) =
      ⟨(h.address n).toNat, kernelCodeSelector, 0xEE⟩ := gateAt_idtSetAll hn

theorem idtInit_frame (h : Handlers) (o : IdtObjects) (m : Ram)
    (ha : a < o.idtDescriptors ∨ o.idtDescriptors + 8 * dexterTotalInterrupts ≤ a)
    (ha' : a < o.idtrDescriptor ∨ o.idtrDescriptor + 6 ≤ a) : (idtInit h o m).2 a = m a := by
  dsimp only [idtInit]
  rw [idtSetAll_frame ha, store_frame (by omega), store_frame (by omega)]
  exact TaskLayer.cleared_of_not_mem (by omega) m

theorem idtInit_loads (h : Handlers) (o : IdtObjects) (m : Ram) :
    (idtInit h o m).1 = ⟨8 * dexterTotalInterrupts - 1, o.idtDescriptors⟩ := by
  have hapart := o.apart
  have hbelow := o.below
  dsimp only [idtInit, idtLoad]
  have hframe : ∀ k p, o.idtrDescriptor ≤ p → p + k ≤ o.idtrDescriptor + 6 → ∀ m : Ram,
      load (idtSetAll h o.idtDescriptors m) k p = load m k p := fun k p hp hk m =>
    load_congr fun q hq hlt => idtSetAll_frame (by omega)
  rw [hframe 2 _ le_rfl (by omega), hframe 4 _ (by omega) (by omega),
    load_store_of_disjoint (by omega), load_store_self, load_store_self]
  exact congrArg₂ Idtr.mk (by decide) (Nat.mod_eq_of_lt hbelow)

end Init

/-- After `idt_init` the processor uses the table, every number leads to its handler through a gate
that programs may use, and nothing but the table and its descriptor has been written. -/
theorem idtInit_gates (h : Handlers) (o : IdtObjects) (m : Ram) :
    (idtInit h o m).1 = ⟨8 * dexterTotalInterrupts - 1, o.idtDescriptors⟩ ∧
    (∀ n < dexterTotalInterrupts, gateAt (idtInit h o m).2 (o.idtDescriptors + 8 * n) =
      ⟨(h.address n).toNat, kernelCodeSelector, 0xEE⟩) ∧
    ∀ a, a < o.idtDescriptors ∨ o.idtDescriptors + 8 * dexterTotalInterrupts ≤ a →
      a < o.idtrDescriptor ∨ o.idtrDescriptor + 6 ≤ a → (idtInit h o m).2 a = m a :=
  ⟨idtInit_loads h o m, fun _ hn => gateAt_idtInit h o m hn,
    fun _ ha ha' => idtInit_frame h o m ha ha'⟩

end Dexter
