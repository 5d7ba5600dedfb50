import Dexter.Fs.Directory
import Dexter.Fs.File
import Dexter.Lib.Loops

/-!
# Comparisons (`libc/string.c`, `memcmp` of `libc/stdlib.c`)

A pointer is the bytes from it on. `istrncmp` does not look for the end of its strings, and its
counter begins at 0 only to wrap; `memcmp` compares characters with their signs, the others without.
-/

namespace Dexter
open Lib.Loops

/-- A string in memory, with the bytes behind its end. None begins at the null pointer, so its end
is not the last byte there is. -/
structure CStr where
  bytes : ℕ → UInt8
  length : ℕ
  terminator : bytes length = 0
  inside : ∀ i < length, bytes i ≠ 0
  short : length + 1 < 4294967296

namespace CStr

instance : CoeFun CStr fun _ => ℕ → UInt8 := ⟨CStr.bytes⟩

def text (s : CStr) : CString := (List.range s.length).map s

def behind (s : CStr) (b : UInt8) : CStr where
  bytes i := if i ≤ s.length then s i else b
  length := s.length
  terminator := by rw [if_pos le_rfl, s.terminator]
  inside i hi := by rw [if_pos hi.le]; exact s.inside i hi
  short := s.short

def ofText (t : CString) (h : ∀ c ∈ t, c ≠ 0) (hshort : t.length + 1 < 4294967296) : CStr where
  bytes i := t.getD i 0
  length := t.length
  terminator := List.getD_eq_default _ _ le_rfl
  inside i hi := by rw [List.getD_eq_getElem _ _ hi]; exact h _ (List.getElem_mem hi)
  short := hshort

/-- The counter is taken down behind the first comparison, from 0 to the last number there is. -/
def istrncmp (s1 s2 : ℕ → UInt8) (n : UInt32) : ℤ :=
  let i := leave (fun i => toupper (s1 i) = toupper (s2 i)) (n - 1).toNat 0
  let f := schar (toupper (s1 i))
  let l := schar (toupper (s2 i))
  f - l

def strcmp (s1 s2 : CStr) : ℤ :=
  let i := leave (fun i => s1 i ≠ 0 ∧ s1 i = s2 i) s1.length 0
  (s1 i).toNat - (s2 i).toNat

def strncmp (s1 s2 : ℕ → UInt8) (n : ℕ) : ℤ :=
  let i := leave (fun i => s1 i ≠ 0 ∧ s1 i = s2 i) n 0
  if n - i = 0 then 0 else (s1 i).toNat - (s2 i).toNat

def memcmp (s1 s2 : ℕ → UInt8) (count : ℤ) : ℤ :=
  let i := leave (fun i => s1 i = s2 i) count.toNat 0
  if i < count then
    if schar (s1 i) < schar (s2 i) then -1 else 1
  else 0

variable {s s' s1 s2 s1' s2' : CStr} {n : UInt32} {k : ℕ}

@[simp] theorem length_text (s : CStr) : s.text.length = s.length := by simp [text]

@[simp] theorem length_behind (s : CStr) (b : UInt8) : (s.behind b).length = s.length := rfl

theorem text_getElem? (s : CStr) (i : ℕ) :
    s.text[i]? = if i < s.length then some (s i) else none := by
  rw [text, List.getElem?_map]
  by_cases hi : i < s.length
  · simp [hi]
  · simp [hi]

theorem behind_inside (b : UInt8) {i : ℕ} (hi : i ≤ s.length) : (s.behind b) i = s i := if_pos hi

theorem behind_outside (b : UInt8) {i : ℕ} (hi : s.length < i) : (s.behind b) i = b :=
  if_neg (not_le.mpr hi)

theorem text_behind (s : CStr) (b : UInt8) : (s.behind b).text = s.text :=
  List.map_congr_left fun _ hi => behind_inside b (List.mem_range.mp hi).le

theorem same_of_text (h : s'.text = s.text) : s'.length = s.length ∧ ∀ i ≤ s.length, s' i = s i := by
  have hlength : s'.length = s.length := by
    rw [← length_text, h, length_text]
  refine ⟨hlength, fun i hi => ?_⟩
  rcases hi.lt_or_eq with hlt | rfl
  · have hbyte := congrArg (fun t => t[i]?) h
    rw [text_getElem?, text_getElem?, hlength, if_pos hlt, if_pos hlt] at hbyte
    exact Option.some.inj hbyte
  · rw [s.terminator, ← hlength, s'.terminator]

def upper (t : CString) : CString := t.map toupper

theorem toupper_eq_zero {c : UInt8} : toupper c = 0 ↔ c = 0 :=
  ⟨fun h => by_contra fun hc => toupper_ne_zero hc h, by rintro rfl; rfl⟩

theorem ends_together (hle : s1.length ≤ s2.length)
    (h : toupper (s1 s1.length) = toupper (s2 s1.length)) : s1.length = s2.length := by
  rw [s1.terminator] at h
  have hzero : s2 s1.length = 0 := toupper_eq_zero.mp (h ▸ rfl)
  exact hle.eq_or_lt.resolve_right fun hlt => s2.inside _ hlt hzero

theorem upper_take_eq_iff (m : ℕ) : upper (s1.text.take m) = upper (s2.text.take m) ↔
    ∀ i < m, i ≤ s1.length → i ≤ s2.length → toupper (s1 i) = toupper (s2 i) := by
  have hentry : ∀ (s : CStr) i, (upper (s.text.take m))[i]? =
      if i < m ∧ i < s.length then some (toupper (s i)) else none := by
    intro s i
    rw [upper, List.getElem?_map, List.getElem?_take]
    rw [text_getElem?]
    by_cases hm : i < m
    · by_cases hi : i < s.length
      · rw [if_pos hm, if_pos hi, if_pos ⟨hm, hi⟩, Option.map_some]
      · rw [if_pos hm, if_neg hi, if_neg fun hin => hi hin.2, Option.map_none]
    · rw [if_neg hm, if_neg fun hin => hm hin.1, Option.map_none]
  constructor
  · intro h i hm h1 h2
    have hi := congrArg (fun t => t[i]?) h
    rw [hentry, hentry] at hi
    split_ifs at hi with hin1 hin2 hin2
    · exact Option.some.inj hi
    · have heq1 : i = s1.length := by omega
      have heq2 : i = s2.length := by omega
      rw [heq1, s1.terminator, ← heq1, heq2, s2.terminator]
  · intro h
    refine List.ext_getElem? fun i => ?_
    rw [hentry, hentry]
    by_cases hm : i < m
    · have hends : s1.length ≤ i ↔ s2.length ≤ i := by
        constructor
        · intro hi
          by_contra hlt
          have hle : s1.length ≤ s2.length := by omega
          have heq := ends_together hle (h s1.length (by omega) le_rfl hle)
          omega
        · intro hi
          by_contra hlt
          have hle : s2.length ≤ s1.length := by omega
          have heq := ends_together hle (h s2.length (by omega) hle le_rfl).symm
          omega
      by_cases hi : s1.length ≤ i
      · rw [if_neg (by omega), if_neg (by omega)]
      · rw [if_pos ⟨hm, by omega⟩, if_pos ⟨hm, by omega⟩, h i hm (by omega) (by omega)]
    · rw [if_neg fun hin => hm hin.1, if_neg fun hin => hm hin.1]

theorem upper_eq_iff : upper s1.text = upper s2.text ↔
    ∀ i, i ≤ s1.length → i ≤ s2.length → toupper (s1 i) = toupper (s2 i) := by
  have htake := @upper_take_eq_iff s1 s2 (s1.length + s2.length + 1)
  rw [List.take_of_length_le (by rw [length_text]; omega),
    List.take_of_length_le (by rw [length_text]; omega)] at htake
  rw [htake]
  constructor
  · exact fun h i h1 h2 => h i (by omega) h1 h2
  · exact fun h i _ h1 h2 => h i h1 h2

theorem length_of_upper (h : upper s1.text = upper s2.text) : s1.length = s2.length := by
  simpa [upper] using congrArg List.length h

/-- Zero stands for strings that are the same up to their ends and `n`, and no byte behind an end
has a say in the result. -/
structure RespectsEnds (s1 s2 : CStr) (n : UInt32) : Prop where
  zero : istrncmp s1 s2 n = 0 ↔
    upper (s1.text.take n.toNat) = upper (s2.text.take n.toNat)
  behind : ∀ s1' s2' : CStr, s1'.text = s1.text → s2'.text = s2.text →
    istrncmp s1' s2' n = istrncmp s1 s2 n

def Stops (s1 s2 : CStr) (n : UInt32) : Prop :=
  n ≠ 0 ∧ (upper s1.text ≠ upper s2.text ∨ n.toNat ≤ s1.length + 1)

theorem istrncmp_eq_zero_iff (f g : ℕ → UInt8) (n : UInt32) :
    istrncmp f g n = 0 ↔ ∀ j ≤ (n - 1).toNat, toupper (f j) = toupper (g j) := by
  have hlast := go_leave_iff (fun i => toupper (f i) = toupper (g i)) (n - 1).toNat 0
  rw [istrncmp, Int.sub_eq_zero]
  constructor
  · intro h j hj
    exact hlast.mp (schar_injective h) j (Nat.zero_le j) (by omega)
  · intro h
    exact congrArg schar (hlast.mpr fun j _ hj => h j (by omega))

theorem rounds_succ (hn : n ≠ 0) : (n - 1).toNat + 1 = n.toNat := by
  have hpos : 1 ≤ n.toNat := Nat.one_le_iff_ne_zero.mpr fun h0 => hn (UInt32.toNat_inj.mp h0)
  have hsub : (n - 1).toNat = n.toNat - 1 := UInt32.toNat_sub_of_le n 1 hpos
  omega

theorem Stops.inside (h : Stops s1 s2 n) {j : ℕ} (hj : j < n.toNat)
    (hgo : ∀ i < j, toupper (s1 i) = toupper (s2 i)) : j ≤ s1.length ∧ j ≤ s2.length := by
  by_contra hout
  have hsame : upper s1.text = upper s2.text :=
    upper_eq_iff.mpr fun i h1 h2 => hgo i (by omega)
  have hlength := length_of_upper hsame
  have hshort : n.toNat ≤ s1.length + 1 := h.2.resolve_left (not_not.mpr hsame)
  omega

theorem Stops.respectsEnds (h : Stops s1 s2 n) : RespectsEnds s1 s2 n := by
  have hrounds := rounds_succ h.1
  constructor
  · rw [istrncmp_eq_zero_iff, upper_take_eq_iff]
    constructor
    · exact fun hall i hi _ _ => hall i (by omega)
    · intro hinside i hi
      -- up to `i` everything is the same, so `i` is not behind the ends
      induction i using Nat.strong_induction_on with
      | _ i ih =>
        obtain ⟨h1, h2⟩ := h.inside (by omega) fun j hj => ih j hj (by omega)
        exact hinside i (by omega) h1 h2
  · intro s1' s2' h1 h2
    obtain ⟨hlength1, hbytes1⟩ := same_of_text h1
    obtain ⟨hlength2, hbytes2⟩ := same_of_text h2
    have hleaves := leaves_leave (fun i => toupper (s1 i) = toupper (s2 i)) (n - 1).toNat 0
    set k := leave (fun i => toupper (s1 i) = toupper (s2 i)) (n - 1).toNat 0 with hk
    have hupper := hleaves.upper
    obtain ⟨hk1, hk2⟩ := h.inside (j := k) (by omega) fun i hi => hleaves.before i (Nat.zero_le i) hi
    have hleave : leave (fun i => toupper (s1' i) = toupper (s2' i)) (n - 1).toNat 0 = k := by
      refine leave_eq (hleaves.congr fun i _ hi => ?_)
      rw [hbytes1 i (hi.trans hk1), hbytes2 i (hi.trans hk2)]
    rw [istrncmp, istrncmp, hleave, ← hk, hbytes1 k hk1, hbytes2 k hk2]

theorem behind_decides (hsame : upper s1.text = upper s2.text)
    (hfar : s1.length + 1 ≤ (n - 1).toNat) :
    istrncmp (s1.behind 0) (s2.behind 0) n = 0 ∧ istrncmp (s1.behind 0) (s2.behind 1) n ≠ 0 := by
  have hlength := length_of_upper hsame
  have hgo := upper_eq_iff.mp hsame
  constructor
  · rw [istrncmp_eq_zero_iff]
    intro i _
    by_cases hi : i ≤ s1.length
    · rw [behind_inside 0 hi, behind_inside 0 (hlength ▸ hi)]
      exact hgo i hi (hlength ▸ hi)
    · rw [behind_outside 0 (by omega), behind_outside 0 (by omega)]
  · rw [Ne, istrncmp_eq_zero_iff]
    intro hall
    have hnext := hall (s1.length + 1) hfar
    rw [behind_outside 0 (by omega), behind_outside 1 (by omega)] at hnext
    exact absurd hnext (by decide)

/-- The comparison respects the ends of its strings exactly if `n` is not 0, and the strings differ
or `n` does not lead behind their ends. -/
theorem istrncmp_respects_ends_iff (s1 s2 : CStr) (n : UInt32) :
    RespectsEnds s1 s2 n ↔ Stops s1 s2 n := by
  refine ⟨fun h => ?_, Stops.respectsEnds⟩
  have hzero : (0 - 1 : UInt32).toNat = 4294967295 := rfl
  have hindependent : ∀ b, istrncmp (s1.behind 0) (s2.behind b) n = istrncmp s1 s2 n := fun b =>
    h.behind _ _ (text_behind s1 0) (text_behind s2 b)
  have hnear : upper s1.text = upper s2.text → (n - 1).toNat < s1.length + 1 := by
    intro hsame
    by_contra hfar
    obtain ⟨hequal, hother⟩ := behind_decides hsame (not_lt.mp hfar)
    rw [hindependent] at hequal hother
    exact hother hequal
  have hshort := s1.short
  have hn : n ≠ 0 := by
    rintro rfl
    have hall := (istrncmp_eq_zero_iff s1 s2 0).mp (h.zero.mpr rfl)
    have hsame : upper s1.text = upper s2.text :=
      upper_eq_iff.mpr fun i h1 _ => hall i (by omega)
    have hlt := hnear hsame
    omega
  refine ⟨hn, or_iff_not_imp_left.mpr fun hsame => ?_⟩
  have hrounds := rounds_succ hn
  have hlt := hnear (not_not.mp hsame)
  omega

theorem byte_behind_compared : ¬∀ (s1 s2 : CStr) (n : UInt32), RespectsEnds s1 s2 n := by
  intro h
  let s := ofText [0x61] (by simp) (by simp)
  exact absurd (h (s.behind 0) (s.behind 1) 3).zero (by decide)

structure FirstDifference (s1 s2 : CStr) (k : ℕ) : Prop where
  inside : k < s1.length
  before : ∀ j < k, s1 j = s2 j
  differ : s1 k ≠ s2 k

def comparisons (s1 s2 : CStr) : List ℤ :=
  [memcmp s1 s2 s1.length, strcmp s1 s2, strncmp s1 s2 s1.length]

/-- The sign is that of the first bytes that differ, and none but equal strings give 0. -/
structure SameOrder (s1 s2 : CStr) : Prop where
  sign : ∀ r ∈ comparisons s1 s2, ∀ k, FirstDifference s1 s2 k →
    r.sign = ((s1 k).toNat - (s2 k).toNat : ℤ).sign
  zero : ∀ r ∈ comparisons s1 s2, r = 0 ↔ s1.text = s2.text

theorem text_eq_iff (hlength : s1.length = s2.length) :
    s1.text = s2.text ↔ ∀ i < s1.length, s1 i = s2 i := by
  rw [text, text, ← hlength, List.map_inj_left]
  simp only [List.mem_range]

theorem firstDifference_or (s1 s2 : CStr) :
    (∃ k, FirstDifference s1 s2 k) ∨ ∀ i < s1.length, s1 i = s2 i := by
  have h := leaves_leave (fun i => s1 i = s2 i) s1.length 0
  by_cases hlt : leave (fun i => s1 i = s2 i) s1.length 0 < s1.length
  · exact Or.inl ⟨_, hlt, fun j hj => h.before j (Nat.zero_le j) hj, h.stops (by omega)⟩
  · exact Or.inr fun i hi => h.before i (Nat.zero_le i) (by omega)

theorem FirstDifference.leaves (h : FirstDifference s1 s2 k) :
    Leaves (fun i => s1 i = s2 i) s1.length 0 k where
  lower := Nat.zero_le k
  upper := by have := h.inside; omega
  before j _ hj := h.before j hj
  stops _ := h.differ

theorem FirstDifference.leaves_text (h : FirstDifference s1 s2 k) :
    Leaves (fun i => s1 i ≠ 0 ∧ s1 i = s2 i) s1.length 0 k where
  lower := Nat.zero_le k
  upper := by have := h.inside; omega
  before j _ hj := ⟨s1.inside j (hj.trans h.inside), h.before j hj⟩
  stops _ := fun hgo => h.differ hgo.2

theorem FirstDifference.results (h : FirstDifference s1 s2 k) :
    comparisons s1 s2 = [if schar (s1 k) < schar (s2 k) then (-1 : ℤ) else 1,
      ((s1 k).toNat - (s2 k).toNat : ℤ), ((s1 k).toNat - (s2 k).toNat : ℤ)] := by
  have hinside := h.inside
  have hcount : ((s1.length : ℤ)).toNat = s1.length := rfl
  rw [comparisons, memcmp, strcmp, strncmp, hcount, leave_eq h.leaves, leave_eq h.leaves_text,
    if_pos (Int.ofNat_lt.mpr hinside), if_neg (Nat.sub_ne_zero_of_lt hinside)]

theorem FirstDifference.mem_iff (h : FirstDifference s1 s2 k) {r : ℤ} : r ∈ comparisons s1 s2 ↔
    r = (if schar (s1 k) < schar (s2 k) then (-1 : ℤ) else 1) ∨
      r = ((s1 k).toNat - (s2 k).toNat : ℤ) := by
  rw [h.results]
  simp

theorem results_of_equal (hlength : s1.length = s2.length) (h : ∀ i < s1.length, s1 i = s2 i) :
    comparisons s1 s2 = [0, 0, 0] := by
  have hall : Leaves (fun i => s1 i = s2 i) s1.length 0 s1.length :=
    ⟨Nat.zero_le _, by omega, fun j _ hj => h j hj, fun hlt => absurd hlt (by omega)⟩
  have hwords : Leaves (fun i => s1 i ≠ 0 ∧ s1 i = s2 i) s1.length 0 s1.length :=
    ⟨Nat.zero_le _, by omega, fun j _ hj => ⟨s1.inside j hj, h j hj⟩,
      fun hlt => absurd hlt (by omega)⟩
  have hcount : ((s1.length : ℤ)).toNat = s1.length := rfl
  have hend : s2 s1.length = 0 := hlength ▸ s2.terminator
  rw [comparisons, memcmp, strcmp, strncmp, hcount, leave_eq hall, leave_eq hwords,
    if_neg (lt_irrefl _), if_pos (Nat.sub_self _), s1.terminator, hend]
  rfl

theorem schar_lt_iff {x y : UInt8} (hne : x ≠ y) :
    (schar x < schar y ↔ x.toNat < y.toNat) ↔ (x.toNat < 128 ↔ y.toNat < 128) := by
  have hval : x.toNat ≠ y.toNat := fun h => hne (UInt8.toNat_inj.mp h)
  have hx := x.toNat_lt
  have hy := y.toNat_lt
  unfold schar
  by_cases hx128 : x.toNat < 128
  · by_cases hy128 : y.toNat < 128
    · rw [if_pos hx128, if_pos hy128]
      exact iff_of_true (by omega) (iff_of_true hx128 hy128)
    · rw [if_pos hx128, if_neg hy128]
      exact iff_of_false (by omega) fun hiff => hy128 (hiff.mp hx128)
  · by_cases hy128 : y.toNat < 128
    · rw [if_neg hx128, if_pos hy128]
      exact iff_of_false (by omega) fun hiff => hx128 (hiff.mpr hy128)
    · rw [if_neg hx128, if_neg hy128]
      exact iff_of_true (by omega) (iff_of_false hx128 hy128)

theorem sign_signed_iff {x y : UInt8} (hne : x ≠ y) :
    (if schar x < schar y then -1 else 1 : ℤ).sign = (x.toNat - y.toNat : ℤ).sign ↔
      (x.toNat < 128 ↔ y.toNat < 128) := by
  have hval : x.toNat ≠ y.toNat := fun h => hne (UInt8.toNat_inj.mp h)
  rw [← schar_lt_iff hne]
  rcases hval.lt_or_gt with hlt | hgt
  · rw [Int.sign_eq_neg_one_of_neg (by omega : (x.toNat - y.toNat : ℤ) < 0)]
    split_ifs with h
    · exact iff_of_true rfl (iff_of_true h hlt)
    · exact iff_of_false (by decide) fun hiff => h (hiff.mpr hlt)
  · rw [Int.sign_eq_one_of_pos (by omega : (0 : ℤ) < x.toNat - y.toNat)]
    split_ifs with h
    · exact iff_of_false (by decide) fun hiff => absurd (hiff.mp h) (by omega)
    · exact iff_of_true rfl (iff_of_false h (by omega))

/-- The three functions agree on the order exactly if the first bytes that differ are both below
128 or both not. -/
theorem comparisons_agree_iff (hlength : s1.length = s2.length) : SameOrder s1 s2 ↔
    ∀ k, FirstDifference s1 s2 k → ((s1 k).toNat < 128 ↔ (s2 k).toNat < 128) := by
  constructor
  · intro h k hk
    exact (sign_signed_iff hk.differ).mp (h.sign _ (hk.mem_iff.mpr (Or.inl rfl)) k hk)
  · intro h
    refine ⟨fun r hr k hk => ?_, fun r hr => ?_⟩
    · rcases hk.mem_iff.mp hr with rfl | rfl
      · exact (sign_signed_iff hk.differ).mpr (h k hk)
      · rfl
    · rw [text_eq_iff hlength]
      rcases firstDifference_or s1 s2 with ⟨k, hk⟩ | hequal
      · have hval : (s1 k).toNat ≠ (s2 k).toNat := fun h => hk.differ (UInt8.toNat_inj.mp h)
        refine iff_of_false ?_ fun hall => hk.differ (hall k hk.inside)
        rcases hk.mem_iff.mp hr with rfl | rfl
        · split_ifs <;> decide
        · omega
      · rw [results_of_equal hlength hequal] at hr
        exact iff_of_true (by simpa using hr) hequal

theorem comparisons_agree_words : SameOrder (ofText [0x61, 0x62] (by simp) (by simp))
    (ofText [0x61, 0x63] (by simp) (by simp)) ↔
    ∀ k, FirstDifference (ofText [0x61, 0x62] (by simp) (by simp))
      (ofText [0x61, 0x63] (by simp) (by simp)) k →
      ((ofText [0x61, 0x62] (by simp) (by simp) k).toNat < 128 ↔
        (ofText [0x61, 0x63] (by simp) (by simp) k).toNat < 128) :=
  comparisons_agree_iff rfl

/-- `memcmp` puts the byte 128 before the letter `a`, `strcmp` behind it. -/
theorem signed_order_differs : ¬∀ s1 s2 : CStr, s1.length = s2.length → SameOrder s1 s2 := by
  intro h
  let s1 := ofText [0x80] (by simp) (by simp)
  let s2 := ofText [0x61] (by simp) (by simp)
  have hfirst : FirstDifference s1 s2 0 := ⟨by decide, fun j hj => absurd hj (by omega), by decide⟩
  exact absurd ((h s1 s2 rfl).sign _ List.mem_cons_self 0 hfirst) (by decide)

theorem istrncmp_cons (a b : CString) (c c' : UInt8) (h : a.length = b.length) :
    Dexter.istrncmp (c :: a) (c' :: b) =
      let i := leave (fun i => toupper ((c :: a).getD i 0) = toupper ((c' :: b).getD i 0))
        a.length 0
      schar (toupper ((c :: a).getD i 0)) - schar (toupper ((c' :: b).getD i 0)) := by
  induction a generalizing b c c' with
  | nil => simp [Dexter.istrncmp, leave]
  | cons x a ih =>
    obtain ⟨y, b, rfl⟩ := List.exists_cons_of_length_eq_add_one h.symm
    have hrest := ih b x y (Nat.succ.inj h)
    rw [Dexter.istrncmp, List.length_cons, leave]
    by_cases heq : toupper c = toupper c'
    · have hgo : toupper ((c :: x :: a).getD 0 0) = toupper ((c' :: y :: b).getD 0 0) := heq
      rw [if_pos ⟨heq, List.cons_ne_nil x a⟩, if_pos hgo, leave_succ, hrest]
      rfl
    · have hgo : ¬toupper ((c :: x :: a).getD 0 0) = toupper ((c' :: y :: b).getD 0 0) := heq
      rw [if_neg fun hboth => heq hboth.1, if_neg hgo]
      rfl

/-- The lookup of a name compares two buffers of one length. -/
theorem istrncmp_buffers {a b : CString} (hlength : a.length = b.length)
    (hn : n.toNat = a.length) (hne : n ≠ 0) :
    Dexter.istrncmp a b = istrncmp (fun i => a.getD i 0) (fun i => b.getD i 0) n := by
  have hrounds := rounds_succ hne
  obtain ⟨c, a, rfl⟩ := List.exists_cons_of_length_eq_add_one (hn.symm.trans hrounds.symm)
  obtain ⟨c', b, rfl⟩ := List.exists_cons_of_length_eq_add_one hlength.symm
  have hlast : (n - 1).toNat = a.length := by
    rw [List.length_cons] at hn
    omega
  rw [istrncmp_cons a b c c' (Nat.succ.inj hlength), istrncmp, hlast]

theorem strncmp_cons {f g : ℕ → UInt8} (m : ℕ) : strncmp f g (m + 1) =
    if f 0 ≠ 0 ∧ f 0 = g 0 then strncmp (fun i => f (i + 1)) (fun i => g (i + 1)) m
    else (f 0).toNat - (g 0).toNat := by
  by_cases hgo : f 0 ≠ 0 ∧ f 0 = g 0
  · rw [if_pos hgo, strncmp, leave, if_pos hgo, leave_succ, strncmp, Nat.add_sub_add_right]
  · rw [if_neg hgo, strncmp, leave, if_neg hgo, Nat.sub_zero, if_neg (Nat.succ_ne_zero m)]

theorem strncmp_text (s1 s2 : CStr) (m : ℕ) :
    Dexter.strncmp s1.text s2.text m = strncmp s1 s2 m := by
  have hlists : ∀ (m : ℕ) (a b : CString) (f g : ℕ → UInt8), (∀ i ≤ a.length, f i = a.getD i 0) →
      (∀ i ≤ b.length, g i = b.getD i 0) → (∀ c ∈ a, c ≠ 0) →
      Dexter.strncmp a b m = strncmp f g m := by
    intro m
    induction m with
    | zero =>
      intro a b f g _ _ _
      simp [Dexter.strncmp, strncmp, leave]
    | succ m ih =>
      intro a b f g hf hg ha
      have hg0 : g 0 = b.headD 0 := by
        rw [hg 0 (Nat.zero_le _)]
        cases b <;> rfl
      rw [strncmp_cons, hg0]
      cases a with
      | nil =>
        have hf0 : f 0 = 0 := hf 0 le_rfl
        rw [if_neg fun hgo => hgo.1 hf0, hf0]
        rfl
      | cons c a =>
        have hf0 : f 0 = c := hf 0 (Nat.zero_le _)
        obtain ⟨hc, ha⟩ := List.forall_mem_cons.mp ha
        rw [Dexter.strncmp, hf0]
        by_cases heq : c = b.headD 0
        · cases b with
          | nil => exact absurd heq hc
          | cons c' b =>
            rw [if_pos heq, if_pos ⟨hc, heq⟩, List.tail_cons]
            exact ih a b _ _ (fun i hi => hf (i + 1) (Nat.succ_le_succ hi))
              (fun i hi => hg (i + 1) (Nat.succ_le_succ hi)) ha
        · rw [if_neg heq, if_neg fun hgo => heq hgo.2]
  have hbytes : ∀ s : CStr, ∀ i ≤ s.text.length, s i = s.text.getD i 0 := by
    intro s i hi
    rw [length_text] at hi
    rw [List.getD_eq_getElem?_getD, text_getElem?]
    split_ifs with hlt
    · rfl
    · rw [le_antisymm hi (not_lt.mp hlt), s.terminator]
      rfl
  refine hlists m _ _ _ _ (hbytes s1) (hbytes s2) fun c hc => ?_
  obtain ⟨i, hi, rfl⟩ := List.mem_map.mp hc
  exact s1.inside i (List.mem_range.mp hi)

end CStr

end Dexter
