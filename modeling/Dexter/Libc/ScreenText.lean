import Dexter.Libc.Stdio

/-!
# Text on the screen (`libc/stdio.c`)

`cprint` writes one cell for each character, in the order of reading. What a cell shows is the
character with its colour in front, unless the character is negative as a `char`: its sign then
covers the colour.
-/

namespace Dexter.Terminal
open Lib.WrappedText

def cellAfter (s : Terminal) (before : CString) : ℕ :=
  (s.terminalRow.toNat + rowsDown vgaWidth newline s.terminalCol.toNat before) * vgaWidth +
    columnAfter vgaWidth newline s.terminalCol.toNat before

def OnRows (s : Terminal) (str : CString) : Prop :=
  ∀ before b after, str = before ++ b :: after → b ≠ newline →
    s.terminalRow.toNat + rowsDown vgaWidth newline s.terminalCol.toNat before < vgaHeight

structure Written (shown : UInt8 → UInt16 → Prop) (s : Terminal) (str : CString) (s' : Terminal) :
    Prop where
  cells : ∀ before b after, str = before ++ b :: after → b ≠ newline →
    shown b (s'.videoMem (cellAfter s before))
  others : ∀ i, (∀ before b after, str = before ++ b :: after → b ≠ newline →
    cellAfter s before ≠ i) → s'.videoMem i = s.videoMem i
  count : s'.written.length = s.written.length + (str.filter (· ≠ newline)).length
  row : s'.terminalRow =
    s.terminalRow + UInt16.ofNat (rowsDown vgaWidth newline s.terminalCol.toNat str)
  col : s'.terminalCol.toNat = columnAfter vgaWidth newline s.terminalCol.toNat str

def Shows (colour : ℤ) (b : UInt8) (cell : UInt16) : Prop :=
  cell.toNat % 256 = b.toNat ∧ (cell.toNat / 256 : ℕ) = colour

section MakeChar
variable {b colour : UInt8}

theorem terminalMakeChar_or (b colour : UInt8) : terminalMakeChar b colour =
    (colour.toInt8.toInt32 <<< 8).toUInt32.toUInt16 ||| b.toInt8.toInt32.toUInt32.toUInt16 := by
  apply UInt16.toBitVec_inj.mp
  simp [terminalMakeChar]

theorem toNat_char : ∀ b : UInt8, b.toInt8.toInt32.toUInt32.toUInt16.toNat =
    if b < 128 then b.toNat else 65280 + b.toNat := by
  decide +kernel

theorem toNat_colour : ∀ colour : UInt8, colour < 128 →
    (colour.toInt8.toInt32 <<< 8).toUInt32.toUInt16.toNat = 256 * colour.toNat := by
  decide +kernel

theorem terminalMakeChar_ascii (hcolour : colour < 128) (hb : b < 128) :
    (terminalMakeChar b colour).toNat = 256 * colour.toNat + b.toNat := by
  rw [terminalMakeChar_or, UInt16.toNat_or, toNat_colour colour hcolour, toNat_char, if_pos hb]
  exact (Nat.two_pow_add_eq_or_of_lt b.toNat_lt colour.toNat).symm

theorem terminalMakeChar_sign (colour : UInt8) (hb : ¬b < 128) :
    65280 ≤ (terminalMakeChar b colour).toNat := by
  rw [terminalMakeChar_or, UInt16.toNat_or, toNat_char, if_neg hb]
  exact le_trans (Nat.le_add_right 65280 _) Nat.right_le_or

theorem shows_iff (hcolour : colour < 128) :
    Shows colour.toNat b (terminalMakeChar b colour) ↔ b.toNat < 128 := by
  have hlt := b.toNat_lt
  have hcolour' : colour.toNat < 128 := UInt8.lt_iff_toNat_lt.mp hcolour
  by_cases hb : b < 128
  · have hcell := terminalMakeChar_ascii hcolour hb
    refine iff_of_true ⟨?_, ?_⟩ (UInt8.lt_iff_toNat_lt.mp hb)
    · omega
    · rw [hcell, Nat.mul_add_div (by decide), Nat.div_eq_of_lt hlt, add_zero]
  · have hcell := terminalMakeChar_sign colour hb
    refine iff_of_false (fun h => ?_) fun h => hb (UInt8.lt_iff_toNat_lt.mpr h)
    have hhigh := Int.natCast_inj.mp h.2
    omega

end MakeChar

section Writing
variable {s s' s₁ : Terminal} {b c colour : UInt8} {str : CString}
  {shown : UInt8 → UInt16 → Prop}

theorem terminalWritechar_moves (c colour : UInt8) (hcol : s.terminalCol.toNat < vgaWidth) :
    (terminalWritechar c colour s).terminalCol.toNat < vgaWidth ∧
    ∃ k, (terminalWritechar c colour s).terminalRow = s.terminalRow + UInt16.ofNat k ∧ ∀ before,
      rowsDown vgaWidth newline s.terminalCol.toNat (c :: before) = k + rowsDown vgaWidth newline
        (terminalWritechar c colour s).terminalCol.toNat before ∧
      columnAfter vgaWidth newline s.terminalCol.toNat (c :: before) = columnAfter vgaWidth newline
        (terminalWritechar c colour s).terminalCol.toNat before := by
  by_cases hc : c = newline
  · subst hc
    rw [terminalWritechar, if_pos rfl]
    refine ⟨?_, 1, rfl, fun before => ⟨rowsDown_newline hcol, columnAfter_newline⟩⟩
    exact (by decide : (0 : UInt16).toNat < vgaWidth)
  · obtain ⟨s₁, hs₁, -, hcases⟩ := terminalWritechar_char colour hc hcol
    rw [hs₁]
    rcases hcases with ⟨hlt, hcol₁, hrow₁⟩ | ⟨hfull, hcol₁, hrow₁⟩
    · refine ⟨by omega, 0, by rw [hrow₁]; exact (UInt16.add_zero _).symm, fun before => ?_⟩
      rw [hcol₁, rowsDown_cons hc, columnAfter_cons hc, zero_add]
      exact ⟨rfl, rfl⟩
    · refine ⟨by rw [hcol₁]; decide, 1, hrow₁, fun before => ?_⟩
      rw [hcol₁, rowsDown_cons hc, columnAfter_cons hc, hfull]
      exact ⟨rowsDown_full (by decide), columnAfter_full⟩

theorem terminalWritechar_videoMem (c colour : UInt8) (s : Terminal) :
    (terminalWritechar c colour s).videoMem = if c = newline then s.videoMem else
      Function.update s.videoMem (s.terminalRow.toNat * vgaWidth + s.terminalCol.toNat)
        (terminalMakeChar c colour) := by
  rw [terminalWritechar]
  split_ifs with hc
  · rfl
  · dsimp only [terminalPutchar]
    split_ifs <;> rfl

theorem terminalWritechar_count (c colour : UInt8) (s : Terminal) :
    (terminalWritechar c colour s).written.length =
      s.written.length + ([c].filter (· ≠ newline)).length := by
  rw [terminalWritechar]
  split_ifs with hc
  · simp [hc]
  · dsimp only [terminalPutchar]
    split_ifs <;> simp [hc]

theorem cellAfter_nil (hcol : s.terminalCol.toNat < vgaWidth) :
    cellAfter s [] = s.terminalRow.toNat * vgaWidth + s.terminalCol.toNat := by
  rw [cellAfter, rowsDown_nil hcol, columnAfter_nil hcol, add_zero]

theorem cellAfter_lt (hcol : s.terminalCol.toNat < vgaWidth) (hc : c ≠ newline)
    (before : CString) : cellAfter s [] < cellAfter s (c :: before) := by
  have hlt := @col_lt_place _ _ vgaWidth newline c _ before hcol hc
  rw [cellAfter_nil hcol, cellAfter, Nat.add_mul]
  omega

/-- Behind the first character the layout is that of the state it leaves. The counter of 16 bits
does not wrap on the way to a character on the screen. -/
theorem row_next (colour : UInt8) (hcol : s.terminalCol.toNat < vgaWidth)
    (hrows : OnRows s (c :: str)) {before after : CString} (hstr : str = before ++ b :: after)
    (hb : b ≠ newline) :
    (terminalWritechar c colour s).terminalRow.toNat + rowsDown vgaWidth newline
        (terminalWritechar c colour s).terminalCol.toNat before =
      s.terminalRow.toNat + rowsDown vgaWidth newline s.terminalCol.toNat (c :: before) := by
  obtain ⟨-, k, hrow, hnext⟩ := terminalWritechar_moves c colour hcol
  have hlt := hrows (c :: before) b after (by rw [hstr]; rfl) hb
  rw [(hnext before).1, vgaHeight] at hlt
  rw [(hnext before).1, hrow, UInt16.toNat_add, UInt16.toNat_ofNat', Nat.add_mod_mod,
    Nat.mod_eq_of_lt (by omega), Nat.add_assoc]

theorem cellAfter_cons (colour : UInt8) (hcol : s.terminalCol.toNat < vgaWidth)
    (hrows : OnRows s (c :: str)) {before after : CString} (hstr : str = before ++ b :: after)
    (hb : b ≠ newline) :
    cellAfter s (c :: before) = cellAfter (terminalWritechar c colour s) before := by
  obtain ⟨-, k, -, hnext⟩ := terminalWritechar_moves c colour hcol
  rw [cellAfter, cellAfter, row_next colour hcol hrows hstr hb, (hnext before).2]

theorem onRows_next (colour : UInt8) (hcol : s.terminalCol.toNat < vgaWidth)
    (hrows : OnRows s (c :: str)) : OnRows (terminalWritechar c colour s) str := by
  intro before b after hstr hb
  rw [row_next colour hcol hrows hstr hb]
  exact hrows (c :: before) b after (by rw [hstr]; rfl) hb

theorem Written.cons (hrest : Written shown (terminalWritechar c colour s) str s')
    (hcol : s.terminalCol.toNat < vgaWidth) (hrows : OnRows s (c :: str))
    (hshown : shown c (terminalMakeChar c colour)) : Written shown s (c :: str) s' := by
  obtain ⟨-, k, hrow, hnext⟩ := terminalWritechar_moves c colour hcol
  have hmem := terminalWritechar_videoMem c colour s
  refine ⟨?_, ?_, ?_, ?_, ?_⟩
  · intro before b after hstr hb
    cases before with
    | nil =>
      obtain ⟨rfl, rfl⟩ := List.cons.inj hstr
      rw [if_neg hb, ← cellAfter_nil hcol] at hmem
      rw [hrest.others _ fun before b' after hstr' hb' hcell => ?_, hmem, Function.update_self]
      · exact hshown
      · rw [← cellAfter_cons colour hcol hrows hstr' hb'] at hcell
        exact (cellAfter_lt hcol hb before).ne hcell.symm
    | cons c' before =>
      obtain ⟨rfl, rfl⟩ := List.cons.inj hstr
      rw [cellAfter_cons colour hcol hrows rfl hb]
      exact hrest.cells before b after rfl hb
  · intro i hi
    rw [hrest.others i fun before b after hstr hb => ?_, hmem]
    · split_ifs with hc
      · rfl
      · rw [← cellAfter_nil hcol, Function.update_of_ne (hi [] c str rfl hc).symm]
    · rw [← cellAfter_cons colour hcol hrows hstr hb]
      exact hi (c :: before) b after (by rw [hstr]; rfl) hb
  · rw [hrest.count, terminalWritechar_count, Nat.add_assoc, ← List.length_append,
      ← List.filter_append]
    rfl
  · rw [hrest.row, hrow, (hnext str).1, UInt16.ofNat_add, UInt16.add_assoc]
  · rw [hrest.col, (hnext str).2]

theorem written_nil (shown : UInt8 → UInt16 → Prop) (hcol : s.terminalCol.toNat < vgaWidth) :
    Written shown s [] s where
  cells before b after h := by simp at h
  others i _ := rfl
  count := rfl
  row := by
    rw [rowsDown_nil hcol]
    exact (UInt16.add_zero _).symm
  col := (columnAfter_nil hcol).symm

theorem cprint_written (str : CString) (c : ℤ) (hcol : s.terminalCol.toNat < vgaWidth)
    (hrows : OnRows s str) :
    Written (fun b cell => cell = terminalMakeChar b (UInt8.ofInt c)) s str (cprint str c s) := by
  induction str generalizing s with
  | nil => exact written_nil _ hcol
  | cons b str ih =>
    have hnext := (terminalWritechar_moves b (UInt8.ofInt c) hcol).1
    exact (ih hnext (onRows_next _ hcol hrows)).cons hcol hrows rfl

theorem Written.congr {shown' : UInt8 → UInt16 → Prop} (h : Written shown s str s')
    (hcells : ∀ before b after, str = before ++ b :: after → b ≠ newline →
      shown' b (s'.videoMem (cellAfter s before))) : Written shown' s str s' :=
  ⟨hcells, h.others, h.count, h.row, h.col⟩

end Writing

theorem ofInt_colour {c : ℤ} (hc : 0 ≤ c ∧ c < 128) :
    UInt8.ofInt c < 128 ∧ ((UInt8.ofInt c).toNat : ℤ) = c := by
  obtain ⟨n, rfl⟩ := Int.eq_ofNat_of_zero_le hc.1
  have hn : n < 128 := Int.ofNat_lt.mp hc.2
  have htoNat : (UInt8.ofInt n).toNat = n := by
    rw [UInt8.ofInt, UInt8.toNat_ofNat']
    omega
  exact ⟨UInt8.lt_iff_toNat_lt.mpr (by rw [htoNat]; exact hn), congrArg Nat.cast htoNat⟩

/-- The text appears as laid out exactly if no character of it is negative. -/
theorem cprint_as_laid_out_iff (str : CString) (c : ℤ) (s : Terminal) (hc : 0 ≤ c ∧ c < 128)
    (hcol : s.terminalCol.toNat < vgaWidth) (hrows : OnRows s str) :
    Written (Shows c) s str (cprint str c s) ↔ ∀ b ∈ str, b.toNat < 128 := by
  have hwritten := cprint_written str c hcol hrows
  have hcolour := ofInt_colour hc
  have hcell : ∀ before b after, str = before ++ b :: after → b ≠ newline →
      (Shows c b ((cprint str c s).videoMem (cellAfter s before)) ↔ b.toNat < 128) := by
    intro before b after hstr hb
    have hshows := @shows_iff b _ hcolour.1
    rw [hcolour.2] at hshows
    rw [hwritten.cells before b after hstr hb, hshows]
  constructor
  · intro h b hb
    obtain ⟨before, after, hstr⟩ := List.append_of_mem hb
    by_cases hnewline : b = newline
    · rw [hnewline]
      decide
    · exact (hcell before b after hstr hnewline).mp (h.cells before b after hstr hnewline)
  · intro h
    refine hwritten.congr fun before b after hstr hb => (hcell before b after hstr hb).mpr ?_
    exact h b (by rw [hstr]; exact List.mem_append_right before List.mem_cons_self)

theorem onRows_of_short {s : Terminal} {str : CString} (hcol : s.terminalCol.toNat < vgaWidth)
    (hrow : s.terminalRow.toNat + str.length ≤ vgaHeight) : OnRows s str := by
  intro before b after hstr _
  have hdown : rowsDown vgaWidth newline s.terminalCol.toNat before ≤ before.length :=
    rowsDown_le_length hcol
  have hlength : before.length < str.length := by
    rw [hstr, List.length_append, List.length_cons]
    omega
  omega

theorem wrapped_as_laid_out :
    Written (Shows 10) ⟨fun _ => 0, 5, 78, []⟩ [0x41, 0x42, newline, 0x43]
      (cprint [0x41, 0x42, newline, 0x43] 10 ⟨fun _ => 0, 5, 78, []⟩) ∧
    (cprint [0x41, 0x42, newline, 0x43] 10 ⟨fun _ => 0, 5, 78, []⟩).terminalRow = 7 ∧
    (cprint [0x41, 0x42, newline, 0x43] 10 ⟨fun _ => 0, 5, 78, []⟩).terminalCol = 1 :=
  ⟨(cprint_as_laid_out_iff [0x41, 0x42, newline, 0x43] 10 ⟨fun _ => 0, 5, 78, []⟩ (by decide)
    (by decide) (onRows_of_short (by decide) (by decide))).mpr (by simp [newline]), by decide, by decide⟩

/-- The byte `0x80` is shown with `0xff` in front of it and not with the colour 10. -/
theorem negative_char_covers_colour : ¬∀ (str : CString) (c : ℤ) (s : Terminal), 0 ≤ c ∧ c < 128 →
    s.terminalCol.toNat < vgaWidth → OnRows s str →
      Written (Shows c) s str (cprint str c s) := by
  intro h
  have hwritten := h [0x80] 10 ⟨fun _ => 0, 0, 0, []⟩ (by decide) (by decide)
    (onRows_of_short (by decide) (by decide))
  have hcolour := (hwritten.cells [] 0x80 [] rfl (by decide)).2
  rw [cellAfter_nil (by decide)] at hcolour
  exact absurd hcolour (by decide +kernel)

end Dexter.Terminal
