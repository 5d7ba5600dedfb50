import Dexter.X86.Processor

/-!
# The global descriptor table (`sys/gdt.c`)

A descriptor takes eight bytes, with the base and the limit in pieces between the type and the
flags. Limits above 64 KiB are kept in pages; one that is no whole number of pages is not accepted,
so that nothing is lost on the way into the bytes.
-/

namespace Dexter
open Lib.Programs

@[ext] structure GdtStructured where
  base : UInt32
  limit : UInt32
  type : UInt8
  deriving DecidableEq, Repr

abbrev Ram := ℕ → UInt8

def writeTarget (p : ℕ) (c : UInt8) : Prog Crash Ram Unit :=
  modify fun ram => Function.update ram p c

def encodeGdtEntry (target : ℕ) (source : GdtStructured) : Prog Crash Ram Unit :=
  -- `panic` does not come back
  if source.limit > 65536 ∧ source.limit &&& 0xfff ≠ 0xfff then abort .hang
  else do
    writeTarget (target + 6) 0x40
    onlyIf (source.limit > 65536) (writeTarget (target + 6) 0xc0)
    let limit := if source.limit > 65536 then source.limit >>> 12 else source.limit
    writeTarget target (limit &&& 0xff).toUInt8
    writeTarget (target + 1) (limit >>> 8 &&& 0xff).toUInt8
    modify fun ram => Function.update ram (target + 6)
      (ram (target + 6) ||| (limit >>> 16 &&& 0x0f).toUInt8)
    writeTarget (target + 2) (source.base &&& 0xff).toUInt8
    writeTarget (target + 3) (source.base >>> 8 &&& 0xff).toUInt8
    writeTarget (target + 4) (source.base >>> 16 &&& 0xff).toUInt8
    writeTarget (target + 7) (source.base >>> 24 &&& 0xff).toUInt8
    writeTarget (target + 5) source.type

def gdtStructuredToGdt (gdt : ℕ) (structuredGdt : ℕ → GdtStructured) (totalEntries : ℤ) :
    Prog Crash Ram Unit :=
  countUp (fun i _ => encodeGdtEntry (gdt + 8 * i) (structuredGdt i)) totalEntries.toNat ()

/-- `gdt_structured` of the kernel, with its task state segment at `tss`. -/
def kernelSegments (tss : UInt32) : List GdtStructured :=
  [⟨0, 0, 0x00⟩, ⟨0, 0xffffffff, 0x9a⟩, ⟨0, 0xffffffff, 0x92⟩, ⟨0, 0xffffffff, 0xf8⟩,
    ⟨0, 0xffffffff, 0xf2⟩, ⟨tss, 100, 0xe9⟩]

def descriptorAt (ram : Ram) (p : ℕ) : GdtStructured where
  base := UInt32.ofNat ((ram (p + 2)).toNat + 256 * (ram (p + 3)).toNat +
    65536 * (ram (p + 4)).toNat + 16777216 * (ram (p + 7)).toNat)
  limit :=
    let limit := (ram p).toNat + 256 * (ram (p + 1)).toNat + 65536 * ((ram (p + 6)).toNat % 16)
    UInt32.ofNat (if (ram (p + 6)).toNat.testBit 7 then limit * 4096 + 4095 else limit)
  type := ram (p + 5)

def Accepted (source : GdtStructured) : Prop :=
  ∀ target ram, encodeGdtEntry target source ram ≠ .error .hang

section Encode
variable {gdt target : ℕ} {source : GdtStructured} {ram ram' : Ram}

theorem descriptorAt_congr (h : ∀ a, target ≤ a → a < target + 8 → ram' a = ram a) :
    descriptorAt ram' target = descriptorAt ram target := by
  unfold descriptorAt
  rw [h target (by omega) (by omega), h (target + 1) (by omega) (by omega),
    h (target + 2) (by omega) (by omega), h (target + 3) (by omega) (by omega),
    h (target + 4) (by omega) (by omega), h (target + 5) (by omega) (by omega),
    h (target + 6) (by omega) (by omega), h (target + 7) (by omega) (by omega)]

def Panics (source : GdtStructured) : Prop := source.limit > 65536 ∧ source.limit &&& 0xfff ≠ 0xfff

def keptLimit (source : GdtStructured) : UInt32 :=
  if source.limit > 65536 then source.limit >>> 12 else source.limit

def flags (source : GdtStructured) : UInt8 := if source.limit > 65536 then 0xc0 else 0x40

def entryByte (source : GdtStructured) : ℕ → UInt8
  | 0 => (keptLimit source &&& 0xff).toUInt8
  | 1 => (keptLimit source >>> 8 &&& 0xff).toUInt8
  | 2 => (source.base &&& 0xff).toUInt8
  | 3 => (source.base >>> 8 &&& 0xff).toUInt8
  | 4 => (source.base >>> 16 &&& 0xff).toUInt8
  | 5 => source.type
  | 6 => flags source ||| (keptLimit source >>> 16 &&& 0x0f).toUInt8
  | _ => (source.base >>> 24 &&& 0xff).toUInt8

theorem encodeGdtEntry_ok (h : ¬Panics source) :
    ∃ ram', encodeGdtEntry target source ram = .ok ((), ram') ∧
      (∀ a, a < target ∨ target + 8 ≤ a → ram' a = ram a) ∧
      ∀ k < 8, ram' (target + k) = entryByte source k := by
  have hgoes : ¬(source.limit > 65536 ∧ source.limit &&& 0xfff ≠ 0xfff) := h
  rw [encodeGdtEntry, if_neg hgoes]
  by_cases hbig : source.limit > 65536
  · have hlimit : keptLimit source = source.limit >>> 12 := if_pos hbig
    have hflags : flags source = 0xc0 := if_pos hbig
    rw [onlyIf, if_pos hbig, if_pos hbig]
    refine ⟨_, rfl, fun a ha => ?_, fun k hk => ?_⟩
    · dsimp only
      simp (disch := omega) only [Function.update_of_ne]
    · interval_cases k <;> simp [entryByte, hlimit, hflags]
  · have hlimit : keptLimit source = source.limit := if_neg hbig
    have hflags : flags source = 0x40 := if_neg hbig
    rw [onlyIf, if_neg hbig, if_neg hbig]
    refine ⟨_, rfl, fun a ha => ?_, fun k hk => ?_⟩
    · dsimp only
      simp (disch := omega) only [Function.update_of_ne]
    · interval_cases k <;> simp [entryByte, hlimit, hflags]

theorem accepted_iff : Accepted source ↔ ¬Panics source := by
  constructor
  · intro h hpanics
    have hstops : source.limit > 65536 ∧ source.limit &&& 0xfff ≠ 0xfff := hpanics
    exact h 0 (fun _ => 0) (by rw [encodeGdtEntry, if_pos hstops, abort_apply])
  · intro h target ram herror
    obtain ⟨ram', hrun, -⟩ := @encodeGdtEntry_ok target source ram h
    rw [hrun] at herror
    cases herror

theorem toNat_mask {x mask : UInt32} {k : ℕ} (hmask : mask.toNat = 2 ^ k - 1) (hk : k ≤ 8) :
    (x &&& mask).toUInt8.toNat = x.toNat % 2 ^ k := by
  have hle : 2 ^ k ≤ 2 ^ 8 := Nat.pow_le_pow_right (by decide) hk
  have hlt := Nat.mod_lt x.toNat (Nat.two_pow_pos k)
  rw [UInt32.toNat_toUInt8, UInt32.toNat_and, hmask, Nat.and_two_pow_sub_one_eq_mod]
  exact Nat.mod_eq_of_lt (by omega)

theorem toNat_low (x : UInt32) : (x &&& 0xff).toUInt8.toNat = x.toNat % 256 :=
  toNat_mask (k := 8) rfl le_rfl

theorem toNat_shift {x k : UInt32} (hk : k.toNat < 32) :
    (x >>> k).toNat = x.toNat / 2 ^ k.toNat := by
  rw [UInt32.toNat_shiftRight, Nat.shiftRight_eq_div_pow, Nat.mod_eq_of_lt hk]

theorem toNat_byte {x k : UInt32} (hk : k.toNat < 32) :
    (x >>> k &&& 0xff).toUInt8.toNat = x.toNat / 2 ^ k.toNat % 256 := by
  rw [toNat_low, toNat_shift hk]

theorem limit_pieces (h : ¬Panics source) :
    (keptLimit source).toNat < 1048576 ∧
      (if source.limit > 65536 then (keptLimit source).toNat * 4096 + 4095
        else (keptLimit source).toNat) = source.limit.toNat := by
  have hlt := source.limit.toNat_lt
  by_cases hbig : source.limit > 65536
  · have hmask : source.limit &&& 0xfff = 0xfff := by_contra fun hne => h ⟨hbig, hne⟩
    have hlow : source.limit.toNat % 4096 = 4095 := by
      have hval := congrArg UInt32.toNat hmask
      rw [UInt32.toNat_and] at hval
      rw [← Nat.and_two_pow_sub_one_eq_mod source.limit.toNat 12]
      exact hval
    have hkept : (keptLimit source).toNat = source.limit.toNat / 4096 := by
      rw [keptLimit, if_pos hbig]
      exact toNat_shift (by decide)
    rw [if_pos hbig, hkept]
    omega
  · have hkept : keptLimit source = source.limit := if_neg hbig
    have hle : ¬65536 < source.limit.toNat := hbig
    rw [if_neg hbig, hkept]
    omega

theorem toNat_flags (source : GdtStructured) : (entryByte source 6).toNat =
    (flags source).toNat + (keptLimit source).toNat / 65536 % 16 := by
  have hnibble : (keptLimit source >>> 16 &&& 0x0f).toUInt8.toNat =
      (keptLimit source).toNat / 65536 % 16 := by
    rw [toNat_mask (k := 4) rfl (by decide), toNat_shift (by decide)]
    rfl
  have hlt := Nat.mod_lt ((keptLimit source).toNat / 65536) (by decide : 0 < 16)
  have hor := Nat.two_pow_add_eq_or_of_lt (i := 4) hlt
  rw [entryByte, UInt8.toNat_or, hnibble, flags]
  split_ifs
  · exact (hor 12).symm
  · exact (hor 4).symm

theorem descriptorAt_entry (h : ¬Panics source)
    (hbytes : ∀ k < 8, ram (target + k) = entryByte source k) :
    descriptorAt ram target = source := by
  ext
  · have hlt := source.base.toNat_lt
    have h2 : (ram (target + 2)).toNat = source.base.toNat % 256 := by
      rw [hbytes 2 (by decide)]
      exact toNat_low _
    have h3 : (ram (target + 3)).toNat = source.base.toNat / 256 % 256 := by
      rw [hbytes 3 (by decide)]
      exact toNat_byte (by decide)
    have h4 : (ram (target + 4)).toNat = source.base.toNat / 65536 % 256 := by
      rw [hbytes 4 (by decide)]
      exact toNat_byte (by decide)
    have h7 : (ram (target + 7)).toNat = source.base.toNat / 16777216 % 256 := by
      rw [hbytes 7 (by decide)]
      exact toNat_byte (by decide)
    rw [descriptorAt, h2, h3, h4, h7, UInt32.toNat_ofNat']
    omega
  · have hlt := source.limit.toNat_lt
    obtain ⟨hsmall, hlimit⟩ := limit_pieces h
    have h0 : (ram target).toNat = (keptLimit source).toNat % 256 := by
      rw [← Nat.add_zero target, hbytes 0 (by decide)]
      exact toNat_low _
    have h1 : (ram (target + 1)).toNat = (keptLimit source).toNat / 256 % 256 := by
      rw [hbytes 1 (by decide)]
      exact toNat_byte (by decide)
    have h6 : (ram (target + 6)).toNat =
        (flags source).toNat + (keptLimit source).toNat / 65536 % 16 := by
      rw [hbytes 6 (by decide), toNat_flags]
    rw [descriptorAt, h0, h1, h6, UInt32.toNat_ofNat', Nat.testBit_eq_decide_div_mod_eq]
    by_cases hbig : source.limit > 65536
    · have hflags : (flags source).toNat = 192 := congrArg UInt8.toNat (if_pos hbig)
      rw [if_pos hbig] at hlimit
      rw [hflags, if_pos (decide_eq_true (by omega))]
      omega
    · have hflags : (flags source).toNat = 64 := congrArg UInt8.toNat (if_neg hbig)
      rw [if_neg hbig] at hlimit
      rw [hflags, if_neg (by rw [decide_eq_true_iff]; omega)]
      omega
  · exact congrArg UInt8.toNat (hbytes 5 (by decide))

theorem gdtStructuredToGdt_returns (gdt : ℕ) (structuredGdt : ℕ → GdtStructured) (n : ℕ)
    (h : ∀ i < n, ¬Panics (structuredGdt i)) (ram : Ram) :
    ∃ ram', countUp (fun i _ => encodeGdtEntry (gdt + 8 * i) (structuredGdt i)) n () ram =
        .ok ((), ram') ∧
      ∀ i < n, descriptorAt ram' (gdt + 8 * i) = structuredGdt i := by
  have hloop := @Returns.countUp Crash _ _
    (fun i _ => encodeGdtEntry (gdt + 8 * i) (structuredGdt i))
    (fun i _ ram' => ∀ j < i, descriptorAt ram' (gdt + 8 * j) = structuredGdt j) n ?_ ()
  · obtain ⟨u, ram', hrun, hall⟩ := hloop (s := ram) fun j hj => absurd hj (Nat.not_lt_zero j)
    exact ⟨ram', hrun, hall⟩
  · intro i hi u ram₁ hbefore
    obtain ⟨ram₂, hrun, hframe, hbytes⟩ :=
      @encodeGdtEntry_ok (gdt + 8 * i) (structuredGdt i) ram₁ (h i hi)
    refine ⟨(), ram₂, hrun, fun j hj => ?_⟩
    rcases (Nat.lt_succ_iff.mp hj).eq_or_lt with rfl | hlt
    · exact descriptorAt_entry (h j hi) hbytes
    · rw [descriptorAt_congr fun a _ _ => hframe a (Or.inl (by omega)), hbefore j hlt]

end Encode

/-- What is accepted comes back from the table as it was. -/
theorem gdt_encoding_lossless (gdt : ℕ) (structuredGdt : ℕ → GdtStructured) (totalEntries : ℤ)
    (ram : Ram) (h : ∀ i : ℕ, i < totalEntries → Accepted (structuredGdt i)) :
    ∃ ram', gdtStructuredToGdt gdt structuredGdt totalEntries ram = .ok ((), ram') ∧
      ∀ i : ℕ, i < totalEntries → descriptorAt ram' (gdt + 8 * i) = structuredGdt i := by
  obtain ⟨ram', hrun, hall⟩ := gdtStructuredToGdt_returns gdt structuredGdt
    totalEntries.toNat (fun i hi => accepted_iff.mp (h i (by omega))) ram
  exact ⟨ram', hrun, fun i hi => hall i (by omega)⟩

theorem kernelSegments_accepted (tss : UInt32) (i : ℕ) :
    Accepted ((kernelSegments tss).getD i ⟨0, 0, 0⟩) := by
  have hempty : ∀ base type, ¬Panics ⟨base, 0, type⟩ := fun _ _ h =>
    absurd h.1 (show ¬(0 : UInt32) > 65536 by decide)
  have hwhole : ∀ base type, ¬Panics ⟨base, 0xffffffff, type⟩ := fun _ _ h =>
    h.2 (show (0xffffffff : UInt32) &&& 0xfff = 0xfff by decide)
  have hsmall : ∀ base type, ¬Panics ⟨base, 100, type⟩ := fun _ _ h =>
    absurd h.1 (show ¬(100 : UInt32) > 65536 by decide)
  have hall : ∀ segment ∈ kernelSegments tss, ¬Panics segment := by
    intro segment hsegment
    simp only [kernelSegments, List.mem_cons, List.not_mem_nil, or_false] at hsegment
    rcases hsegment with rfl | rfl | rfl | rfl | rfl | rfl
    · exact hempty _ _
    · exact hwhole _ _
    · exact hwhole _ _
    · exact hwhole _ _
    · exact hwhole _ _
    · exact hsmall _ _
  rw [accepted_iff]
  by_cases hi : i < (kernelSegments tss).length
  · rw [List.getD_eq_getElem _ _ hi]
    exact hall _ (List.getElem_mem hi)
  · rw [List.getD_eq_default _ _ (not_lt.mp hi)]
    exact hempty _ _

theorem gdt_encoding_lossless_kernel : ∃ ram',
    gdtStructuredToGdt 0x9000 (fun i => (kernelSegments 0x8000).getD i ⟨0, 0, 0⟩) 6 (fun _ => 0) =
        .ok ((), ram') ∧
      ∀ i : ℕ, (i : ℤ) < 6 →
        descriptorAt ram' (0x9000 + 8 * i) = (kernelSegments 0x8000).getD i ⟨0, 0, 0⟩ :=
  gdt_encoding_lossless _ _ _ _ fun i _ => kernelSegments_accepted 0x8000 i

end Dexter
