import Mathlib

/-!
# Text in rows of a fixed width

A text moves on to the next row after a newline, and where a row is full. Lines are what the
newlines separate, so a line of `n` characters fills `n / width` rows on its way, and the last line
decides on the column behind the text.
-/

namespace Lib.WrappedText
variable {α : Type*} [DecidableEq α] {width : ℕ} {newline c : α} {col : ℕ} {text : List α}

def rowsDown (width : ℕ) (newline : α) (col : ℕ) (text : List α) : ℕ :=
  match text.splitOn newline with
  | [] => 0
  | line :: lines =>
    (col + line.length) / width + (lines.map fun l => 1 + l.length / width).sum

def columnAfter (width : ℕ) (newline : α) (col : ℕ) (text : List α) : ℕ :=
  match text.splitOn newline with
  | [] => col
  | line :: lines =>
    match lines.getLast? with
    | none => (col + line.length) % width
    | some last => last.length % width

theorem splitOn_eq_cons (newline : α) (text : List α) :
    ∃ line lines, text.splitOn newline = line :: lines :=
  List.exists_cons_of_ne_nil (List.splitOnP_ne_nil _ text)

theorem splitOn_newline (newline : α) (text : List α) : ∃ line lines,
    text.splitOn newline = line :: lines ∧
      (newline :: text).splitOn newline = [] :: line :: lines := by
  obtain ⟨line, lines, hsplit⟩ := splitOn_eq_cons newline text
  refine ⟨line, lines, hsplit, ?_⟩
  rw [← hsplit, List.splitOn, List.splitOnP_cons_eq_if_modifyHead, if_pos (by simp), List.splitOn]

theorem splitOn_char (h : c ≠ newline) (text : List α) : ∃ line lines,
    text.splitOn newline = line :: lines ∧
      (c :: text).splitOn newline = (c :: line) :: lines := by
  obtain ⟨line, lines, hsplit⟩ := splitOn_eq_cons newline text
  refine ⟨line, lines, hsplit, ?_⟩
  rw [List.splitOn] at hsplit
  rw [List.splitOn, List.splitOnP_cons_eq_if_modifyHead, if_neg (by simpa using h), hsplit]
  rfl

theorem rowsDown_nil (h : col < width) : rowsDown width newline col [] = 0 := by
  simp [rowsDown, Nat.div_eq_of_lt h]

theorem rowsDown_newline (h : col < width) :
    rowsDown width newline col (newline :: text) = 1 + rowsDown width newline 0 text := by
  obtain ⟨line, lines, hsplit, hnext⟩ := splitOn_newline newline text
  rw [rowsDown, rowsDown, hsplit, hnext]
  simp only [List.length_nil, add_zero, zero_add, Nat.div_eq_of_lt h, List.map_cons, List.sum_cons]
  omega

theorem rowsDown_cons (h : c ≠ newline) :
    rowsDown width newline col (c :: text) = rowsDown width newline (col + 1) text := by
  obtain ⟨line, lines, hsplit, hnext⟩ := splitOn_char h text
  rw [rowsDown, rowsDown, hsplit, hnext]
  simp only [List.length_cons]
  rw [add_assoc, add_comm 1]

theorem rowsDown_full (h : 0 < width) :
    rowsDown width newline width text = 1 + rowsDown width newline 0 text := by
  obtain ⟨line, lines, hsplit⟩ := splitOn_eq_cons newline text
  rw [rowsDown, rowsDown, hsplit]
  simp only [Nat.add_div_left _ h, zero_add]
  omega

theorem rowsDown_le_length (h : col < width) : rowsDown width newline col text ≤ text.length := by
  induction text generalizing col with
  | nil => rw [rowsDown_nil h, List.length_nil]
  | cons c text ih =>
    have hpos : 0 < width := Nat.zero_lt_of_lt h
    rw [List.length_cons]
    by_cases hc : c = newline
    · rw [hc, rowsDown_newline h]
      have hrest := ih hpos
      omega
    · rw [rowsDown_cons hc]
      rcases (show col + 1 ≤ width from h).eq_or_lt with hfull | hlt
      · rw [hfull, rowsDown_full hpos]
        have hrest := ih hpos
        omega
      · exact (ih hlt).trans (Nat.le_succ _)

theorem columnAfter_nil (h : col < width) : columnAfter width newline col [] = col := by
  simp [columnAfter, Nat.mod_eq_of_lt h]

theorem columnAfter_newline :
    columnAfter width newline col (newline :: text) = columnAfter width newline 0 text := by
  obtain ⟨line, lines, hsplit, hnext⟩ := splitOn_newline newline text
  rw [columnAfter, columnAfter, hsplit, hnext]
  rcases List.eq_nil_or_concat' lines with rfl | ⟨lines, last, rfl⟩
  · simp
  · have hlast : (line :: (lines ++ [last])).getLast? = some last := by
      rw [← List.cons_append, List.getLast?_concat]
    simp only [hlast, List.getLast?_concat]

theorem columnAfter_cons (h : c ≠ newline) :
    columnAfter width newline col (c :: text) = columnAfter width newline (col + 1) text := by
  obtain ⟨line, lines, hsplit, hnext⟩ := splitOn_char h text
  rw [columnAfter, columnAfter, hsplit, hnext]
  simp only [List.length_cons]
  rw [add_assoc, add_comm 1]

theorem columnAfter_full :
    columnAfter width newline width text = columnAfter width newline 0 text := by
  rw [columnAfter, columnAfter]
  simp only [Nat.add_mod_left, zero_add]
  obtain ⟨line, lines, hsplit⟩ := splitOn_eq_cons newline text
  rw [hsplit]

theorem col_le_place (hpos : 0 < width) (h : col ≤ width) :
    col ≤ rowsDown width newline col text * width + columnAfter width newline col text := by
  induction text generalizing col with
  | nil =>
    rcases h.eq_or_lt with rfl | hlt
    · rw [rowsDown_full hpos, Nat.add_mul]
      omega
    · rw [columnAfter_nil hlt]
      exact Nat.le_add_left col _
  | cons c text ih =>
    rcases h.eq_or_lt with rfl | hlt
    · rw [rowsDown_full hpos, Nat.add_mul]
      omega
    · by_cases hc : c = newline
      · subst hc
        rw [rowsDown_newline hlt, columnAfter_newline, Nat.add_mul]
        omega
      · rw [rowsDown_cons hc, columnAfter_cons hc]
        exact (Nat.le_succ col).trans (ih hlt)

theorem col_lt_place (h : col < width) (hc : c ≠ newline) :
    col < rowsDown width newline col (c :: text) * width +
      columnAfter width newline col (c :: text) := by
  rw [rowsDown_cons hc, columnAfter_cons hc]
  exact col_le_place (Nat.zero_lt_of_lt h) h

end Lib.WrappedText
