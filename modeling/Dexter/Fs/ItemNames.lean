import Dexter.Fs.Fat16

/-!
# Names of directory items

`fat16_to_proper_string` copies to the first blank or NUL and counts nothing, so a name of
eight characters runs on into the extension, and an extension of three into the attributes.
-/

namespace Dexter

def Stops (c : UInt8) : Prop := c = 0x00 ∨ c = 0x20

instance : DecidablePred Stops := fun _ => inferInstanceAs (Decidable (_ ∨ _))

def EndsAfter (mem : ℕ → UInt8) (i n : ℕ) : Prop :=
  (∀ j < n, ¬Stops (mem (i + j))) ∧ Stops (mem (i + n))

def chars (mem : ℕ → UInt8) (i n : ℕ) : CString := (List.range n).map fun j => mem (i + j)

def written (n : ℕ) (stop : UInt8) : ℕ := n + if stop = 0x20 then 1 else 0

section Copying
variable {mem mem' : ℕ → UInt8} {i n m room : ℕ}

@[simp] theorem chars_length (mem : ℕ → UInt8) (i n : ℕ) : (chars mem i n).length = n := by
  simp [chars]

theorem chars_succ : chars mem i (n + 1) = mem i :: chars mem (i + 1) n := by
  simp [chars, List.range_succ_eq_map, Nat.add_assoc, Nat.add_comm 1]

theorem chars_congr (h : ∀ j < n, mem' (i + j) = mem (i + j)) : chars mem' i n = chars mem i n :=
  List.map_congr_left fun j hj => h j (List.mem_range.mp hj)

theorem endsAfter_zero : EndsAfter mem i 0 ↔ Stops (mem i) := by
  simp [EndsAfter]

theorem endsAfter_succ : EndsAfter mem i (n + 1) ↔ ¬Stops (mem i) ∧ EndsAfter mem (i + 1) n := by
  rw [EndsAfter, Nat.forall_lt_succ_left, and_assoc]
  simp [EndsAfter, Nat.add_assoc, Nat.add_comm 1]

theorem EndsAfter.congr (h : EndsAfter mem i n) (hsame : ∀ j ≤ n, mem' (i + j) = mem (i + j)) :
    EndsAfter mem' i n :=
  ⟨fun j hj => by rw [hsame j hj.le]; exact h.1 j hj, by rw [hsame n le_rfl]; exact h.2⟩

theorem EndsAfter.le (h : EndsAfter mem i n) (hstop : Stops (mem (i + m))) : n ≤ m :=
  Nat.le_of_not_lt fun hlt => h.1 m hlt hstop

theorem EndsAfter.unique (h : EndsAfter mem i n) (h' : EndsAfter mem i m) : n = m :=
  Nat.le_antisymm (h.le h'.2) (h'.le h.2)

theorem written_succ (n : ℕ) (stop : UInt8) : written (n + 1) stop = written n stop + 1 := by
  simp [written, Nat.add_right_comm]

def Copies (mem : ℕ → UInt8) (room i : ℕ) (l : CString) : Prop :=
  ∃ n, EndsAfter mem i n ∧ l = chars mem i n ∧ written n (mem (i + n)) ≤ room

theorem copies_stop {l : CString} (h : Stops (mem i)) :
    Copies mem room i l ↔ l = [] ∧ written 0 (mem i) ≤ room := by
  constructor
  · intro ⟨n, hends, hl, hroom⟩
    have h0 : n = 0 := hends.unique (endsAfter_zero.mpr h)
    subst h0
    exact ⟨hl, hroom⟩
  · intro ⟨hl, hroom⟩
    exact ⟨0, endsAfter_zero.mpr h, hl, hroom⟩

theorem copies_next {l : CString} (h : ¬Stops (mem i)) : Copies mem (room + 1) i l ↔
    ∃ rest, Copies mem room (i + 1) rest ∧ l = mem i :: rest := by
  constructor
  · intro ⟨n, hends, hl, hroom⟩
    cases n with
    | zero => exact absurd (endsAfter_zero.mp hends) h
    | succ n =>
      rw [chars_succ] at hl
      rw [written_succ, Nat.add_comm n 1, ← Nat.add_assoc] at hroom
      exact ⟨_, ⟨n, (endsAfter_succ.mp hends).2, rfl, Nat.le_of_succ_le_succ hroom⟩, hl⟩
  · intro ⟨rest, ⟨n, hends, hrest, hroom⟩, hl⟩
    refine ⟨n + 1, endsAfter_succ.mpr ⟨h, hends⟩, by rw [chars_succ, hl, hrest], ?_⟩
    rw [written_succ, Nat.add_comm n 1, ← Nat.add_assoc]
    exact Nat.succ_le_succ hroom

theorem not_copies_zero {l : CString} (h : ¬Stops (mem i)) : ¬Copies mem 0 i l := by
  intro ⟨n, hends, hl, hroom⟩
  cases n with
  | zero => exact h (endsAfter_zero.mp hends)
  | succ n =>
    rw [written_succ] at hroom
    exact absurd hroom (Nat.not_succ_le_zero _)

theorem fat16ToProperString_stop {l : CString} (h : Stops (mem i)) :
    fat16ToProperString mem room i = .ok l ↔ Copies mem room i l := by
  rw [copies_stop h, fat16ToProperString.eq_def]
  cases h with
  | inl h0 => simp [h0, written, eq_comm]
  | inr hblank => cases room <;> simp [hblank, written, eq_comm]

/-- The copy ends where the string does, however far that is. -/
theorem fat16ToProperString_ok_iff {l : CString} :
    fat16ToProperString mem room i = .ok l ↔ Copies mem room i l := by
  induction room generalizing i l with
  | zero =>
    by_cases h : Stops (mem i)
    · exact fat16ToProperString_stop h
    · obtain ⟨h0, hblank⟩ := not_or.mp h
      simp [fat16ToProperString, h0, hblank, not_copies_zero h]
  | succ room ih =>
    by_cases h : Stops (mem i)
    · exact fat16ToProperString_stop h
    · obtain ⟨h0, hblank⟩ := not_or.mp h
      rw [copies_next h, fat16ToProperString, if_neg h0, if_neg hblank]
      simp only [← ih]
      cases fat16ToProperString mem room (i + 1) with
      | error e => simp [bind, Except.bind]
      | ok rest => simp [bind, Except.bind, pure, Except.pure, eq_comm]

theorem exists_endsAfter (h : Stops (mem (i + m))) : ∃ n ≤ m, EndsAfter mem i n := by
  have hex : ∃ n, Stops (mem (i + n)) := ⟨m, h⟩
  exact ⟨Nat.find hex, Nat.find_min' hex h, fun j hj => Nat.find_min hex hj, Nat.find_spec hex⟩

def field (mem : ℕ → UInt8) (i width : ℕ) : CString :=
  (chars mem i width).takeWhile fun c => ¬Stops c

theorem field_eq (h : EndsAfter mem i n) (width : ℕ) :
    field mem i width = chars mem i (min n width) := by
  induction width generalizing i n with
  | zero => simp [field, chars]
  | succ width ih =>
    cases n with
    | zero =>
      have hstop := endsAfter_zero.mp h
      simp [field, hstop, chars]
    | succ n =>
      obtain ⟨hgoes, hrest⟩ := endsAfter_succ.mp h
      have hfield := ih hrest
      rw [Nat.succ_min_succ, chars_succ, ← hfield]
      simp [field, chars_succ, hgoes]

end Copying

/-- `fat16_get_full_relative_filename` for a buffer of `maxLen` bytes. -/
def fullRelativeFilename (maxLen : ℕ) (item : FatDirectoryItem) : Except Crash CString := do
  let name ← fat16ToProperString item.bytes maxLen 0
  if item.bytes 8 ≠ 0x00 ∧ item.bytes 8 ≠ 0x20 then
    if name.length = maxLen then .error .overrun
    else do
      let ext ← fat16ToProperString item.bytes (maxLen - name.length - 1) 8
      pure (name ++ 0x2e :: ext)
  else pure name

theorem fat16GetFullRelativeFilename_eq (item : FatDirectoryItem) :
    fat16GetFullRelativeFilename item = fullRelativeFilename dexterMaxPath item := rfl

namespace FatDirectoryItem

def baseName (item : FatDirectoryItem) : CString := field item.bytes 0 8

def extension (item : FatDirectoryItem) : CString := field item.bytes 8 3

def properName (item : FatDirectoryItem) : CString :=
  item.baseName ++ if item.extension = [] then [] else 0x2e :: item.extension

def stored (item : FatDirectoryItem) : ℕ :=
  if item.extension = [] then written item.baseName.length (item.bytes item.baseName.length)
  else item.baseName.length + 1 +
    written item.extension.length (item.bytes (8 + item.extension.length))

end FatDirectoryItem

/-- The 8.3 name is written, whatever follows the eleven bytes of the name. -/
def RendersExactly (maxLen : ℕ) (item : FatDirectoryItem) : Prop :=
  ∀ item' : FatDirectoryItem, (∀ i < 11, item'.bytes i = item.bytes i) →
    fullRelativeFilename maxLen item' = .ok item.properName

section Names
variable {maxLen : ℕ} {item : FatDirectoryItem} {n m : ℕ}

theorem fullRelativeFilename_noExt {s : CString} (h8 : Stops (item.bytes 8)) :
    fullRelativeFilename maxLen item = .ok s ↔ Copies item.bytes maxLen 0 s := by
  have hext : ¬(item.bytes 8 ≠ 0x00 ∧ item.bytes 8 ≠ 0x20) := fun h => h8.elim h.1 h.2
  rw [← fat16ToProperString_ok_iff, fullRelativeFilename]
  cases fat16ToProperString item.bytes maxLen 0 with
  | error e => simp [bind, Except.bind]
  | ok name => simp [bind, Except.bind, hext, pure, Except.pure]

theorem fullRelativeFilename_ext {s : CString} (h8 : ¬Stops (item.bytes 8)) :
    fullRelativeFilename maxLen item = .ok s ↔ ∃ name ext, Copies item.bytes maxLen 0 name ∧
      name.length ≠ maxLen ∧ Copies item.bytes (maxLen - name.length - 1) 8 ext ∧
      s = name ++ 0x2e :: ext := by
  have hext : item.bytes 8 ≠ 0x00 ∧ item.bytes 8 ≠ 0x20 := not_or.mp h8
  simp only [← fat16ToProperString_ok_iff, fullRelativeFilename]
  cases fat16ToProperString item.bytes maxLen 0 with
  | error e => simp [bind, Except.bind]
  | ok name =>
    by_cases hlen : name.length = maxLen
    · simp [bind, Except.bind, hext, hlen]
    · cases hstring : fat16ToProperString item.bytes (maxLen - name.length - 1) 8 with
      | error e => simp [bind, Except.bind, hext, hlen, hstring]
      | ok ext =>
        have hne : maxLen ≠ name.length := Ne.symm hlen
        simp [bind, Except.bind, hext, hlen, hne, hstring, pure, Except.pure, eq_comm]

theorem properName_noExt (hends : EndsAfter item.bytes 0 n) (h8 : Stops (item.bytes 8)) :
    item.properName = chars item.bytes 0 n ∧ item.stored = written n (item.bytes n) := by
  have hle : n ≤ 8 := hends.le (m := 8) h8
  have hbase : item.baseName = chars item.bytes 0 n := by
    rw [FatDirectoryItem.baseName, field_eq hends, Nat.min_eq_left hle]
  have hnone : item.extension = [] := by
    rw [FatDirectoryItem.extension, field_eq (endsAfter_zero.mpr h8)]
    rfl
  simp [FatDirectoryItem.properName, FatDirectoryItem.stored, hbase, hnone]

theorem properName_ext (hends : EndsAfter item.bytes 0 n) (hext : EndsAfter item.bytes 8 m)
    (h8 : ¬Stops (item.bytes 8)) :
    item.properName = chars item.bytes 0 (min n 8) ++ 0x2e :: chars item.bytes 8 (min m 3) ∧
      item.stored = min n 8 + 1 + written (min m 3) (item.bytes (8 + min m 3)) := by
  have hbase : item.baseName = chars item.bytes 0 (min n 8) := field_eq hends 8
  have hfield : item.extension = chars item.bytes 8 (min m 3) := field_eq hext 3
  have hsome : chars item.bytes 8 (min m 3) ≠ [] := by
    cases m with
    | zero => exact absurd (endsAfter_zero.mp hext) h8
    | succ m => simp [Nat.succ_min_succ, chars_succ]
  simp [FatDirectoryItem.properName, FatDirectoryItem.stored, hbase, hfield, hsome]

theorem EndsAfter.of_same {item' : FatDirectoryItem} (hsame : ∀ i < 11, item'.bytes i = item.bytes i)
    {i : ℕ} (h : EndsAfter item.bytes i n) (hin : i + n < 11) : EndsAfter item'.bytes i n :=
  h.congr fun j hj => hsame (i + j) (by omega)

theorem chars_of_same {item' : FatDirectoryItem} (hsame : ∀ i < 11, item'.bytes i = item.bytes i)
    {i : ℕ} (hin : i + n ≤ 11) : chars item'.bytes i n = chars item.bytes i n :=
  chars_congr fun j hj => hsame (i + j) (by omega)

theorem written_le {n room : ℕ} {stop : UInt8} (h : written n stop ≤ room) : n ≤ room :=
  (Nat.le_add_right _ _).trans h

/-- With another byte behind them, three characters of an extension would be followed by more. -/
theorem RendersExactly.short (h : RendersExactly maxLen item) (h8 : ¬Stops (item.bytes 8)) :
    ∃ n < 8, ∃ m < 3, EndsAfter item.bytes 0 n ∧ EndsAfter item.bytes 8 m ∧
      item.stored ≤ maxLen := by
  obtain ⟨name, ext, ⟨n, hends, rfl, hroom⟩, hne, ⟨m, hext, rfl, hextRoom⟩, hname⟩ :=
    (fullRelativeFilename_ext h8).mp (h item fun _ _ => rfl)
  obtain ⟨hproper, hstored⟩ := properName_ext hends hext h8
  have hlength := congrArg List.length (hproper.symm.trans hname)
  simp only [List.length_append, List.length_cons, chars_length] at hlength hne hextRoom
  have hn8 : n ≠ 8 := fun h0 => h8 (by simpa [h0] using hends.2)
  have hm3 : m ≠ 3 := by
    intro h3
    have hsame : ∀ i < 11, Function.update item.bytes 11 0x41 i = item.bytes i := fun i hi =>
      Function.update_of_ne (by omega) _ _
    have h8' : ¬Stops (Function.update item.bytes 11 0x41 8) := by rwa [hsame 8 (by decide)]
    obtain ⟨name', ext', ⟨n', hends', rfl, -⟩, -, ⟨m', hext', rfl, -⟩, hname'⟩ :=
      (@fullRelativeFilename_ext maxLen ⟨Function.update item.bytes 11 0x41⟩ _ h8').mp
        (h ⟨Function.update item.bytes 11 0x41⟩ hsame)
    have hsameName : n = n' :=
      (@EndsAfter.of_same item n ⟨Function.update item.bytes 11 0x41⟩ hsame _ hends
        (by omega)).unique hends'
    have hlength' := congrArg List.length (hproper.symm.trans hname')
    simp only [List.length_append, List.length_cons, chars_length] at hlength'
    have hm' : m' = 3 := by omega
    have hstop := hext'.2
    rw [hm'] at hstop
    exact absurd hstop (by simp [Stops])
  have hroom' := written_le hroom
  refine ⟨n, by omega, m, by omega, hends, hext, ?_⟩
  rw [hstored, Nat.min_eq_left (by omega), Nat.min_eq_left (by omega)]
  omega

theorem rendersExactly_of_short (h8 : ¬Stops (item.bytes 8)) (hn : n < 8) (hm : m < 3)
    (hends : EndsAfter item.bytes 0 n) (hext : EndsAfter item.bytes 8 m)
    (hroom : item.stored ≤ maxLen) : RendersExactly maxLen item := by
  intro item' hsame
  obtain ⟨hproper, hstored⟩ := properName_ext hends hext h8
  rw [Nat.min_eq_left hn.le, Nat.min_eq_left hm.le] at hproper hstored
  rw [hstored] at hroom
  have hends' := hends.of_same hsame (by omega)
  have hext' := hext.of_same hsame (by omega)
  have hstop : written n (item'.bytes (0 + n)) ≤ n + 1 := by
    unfold written
    split_ifs <;> omega
  rw [fullRelativeFilename_ext (by rwa [hsame 8 (by decide)]), hproper]
  refine ⟨_, _, ⟨n, hends', rfl, by omega⟩, ?_, ⟨m, hext', rfl, ?_⟩, ?_⟩
  · rw [chars_length]
    omega
  · rw [chars_length, hsame (8 + m) (by omega)]
    omega
  · rw [chars_of_same hsame (by omega), chars_of_same hsame (by omega)]

/-- The 8.3 name is what is written if and only if the extension is empty, or the name is shorter
than eight and the extension shorter than three characters, and the buffer holds it. -/
theorem fullRelativeFilename_exact_iff (maxLen : ℕ) (item : FatDirectoryItem) :
    RendersExactly maxLen item ↔
      (Stops (item.bytes 8) ∨
        (∃ i < 8, Stops (item.bytes i)) ∧ (Stops (item.bytes 9) ∨ Stops (item.bytes 10))) ∧
        item.stored ≤ maxLen := by
  by_cases h8 : Stops (item.bytes 8)
  · obtain ⟨n, hle, hends⟩ := @exists_endsAfter item.bytes 0 8 h8
    obtain ⟨hname, hstored⟩ := properName_noExt hends h8
    constructor
    · intro h
      have hitem := h item fun _ _ => rfl
      rw [fullRelativeFilename_noExt h8] at hitem
      obtain ⟨n', hends', -, hroom⟩ := hitem
      rw [hends'.unique hends, Nat.zero_add] at hroom
      exact ⟨Or.inl h8, by rwa [hstored]⟩
    · intro ⟨_, hroom⟩ item' hsame
      rw [fullRelativeFilename_noExt (by rwa [hsame 8 (by decide)]), hname]
      refine ⟨n, hends.of_same hsame (by omega), (chars_of_same hsame (by omega)).symm, ?_⟩
      rwa [Nat.zero_add, hsame n (by omega), ← hstored]
  · constructor
    · intro h
      obtain ⟨n, hn, m, hm, hends, hext, hroom⟩ := h.short h8
      have hstop : Stops (item.bytes n) := by simpa using hends.2
      refine ⟨Or.inr ⟨⟨n, hn, hstop⟩, ?_⟩, hroom⟩
      obtain rfl | rfl | rfl : m = 0 ∨ m = 1 ∨ m = 2 := by omega
      · exact absurd hext.2 h8
      · exact Or.inl hext.2
      · exact Or.inr hext.2
    · intro ⟨hnames, hroom⟩
      obtain ⟨⟨i, hi, hstop⟩, hextStop⟩ := hnames.resolve_left h8
      obtain ⟨n, hn, hends⟩ := @exists_endsAfter item.bytes 0 i (by simpa using hstop)
      obtain ⟨m, hm, hext⟩ : ∃ m < 3, EndsAfter item.bytes 8 m := by
        rcases hextStop with h9 | h10
        · obtain ⟨m, hm, hext⟩ := @exists_endsAfter item.bytes 8 1 h9
          exact ⟨m, by omega, hext⟩
        · obtain ⟨m, hm, hext⟩ := @exists_endsAfter item.bytes 8 2 h10
          exact ⟨m, by omega, hext⟩
      exact rendersExactly_of_short h8 (by omega) hm hends hext hroom

def fullItem : FatDirectoryItem where
  bytes i := "ABCDEFGHTXT ".toUTF8.data.toList.getD i 0

/-- The name runs on into the extension, which is then written once more. -/
theorem full_name_runs_on :
    fat16GetFullRelativeFilename fullItem = .ok "ABCDEFGHTXT.TXT".toUTF8.data.toList ∧
      fullItem.properName = "ABCDEFGH.TXT".toUTF8.data.toList ∧
      ¬RendersExactly dexterMaxPath fullItem := by
  have hcode : fat16GetFullRelativeFilename fullItem =
      .ok "ABCDEFGHTXT.TXT".toUTF8.data.toList := by decide +kernel
  have hname : fullItem.properName = "ABCDEFGH.TXT".toUTF8.data.toList := by decide +kernel
  refine ⟨hcode, hname, ?_⟩
  intro h
  have hsame := Except.ok.inj (hcode.symm.trans (h fullItem fun _ _ => rfl))
  rw [hname] at hsame
  exact absurd hsame (by decide +kernel)

end Names

end Dexter
