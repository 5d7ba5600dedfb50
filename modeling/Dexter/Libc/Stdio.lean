import Dexter.Fs.PathParser
import Dexter.Lib.WrappedText

/-!
# The console (`libc/stdio.c`)

The screen has 20 rows of 80 cells. `videoMem` is the memory from `0xB8000` on in cells of 16 bits,
those behind the screen included: nothing scrolls, and nothing stops at the last row. `written` is
ghost state: the positions that `terminal_putchar` was called for, the latest first.
-/

namespace Dexter
open Lib.WrappedText

abbrev vgaWidth : ℕ := 80

abbrev vgaHeight : ℕ := 20

def newline : UInt8 := 0x0a

structure Terminal where
  videoMem : ℕ → UInt16
  terminalRow : UInt16
  terminalCol : UInt16
  written : List (ℕ × ℕ)

/-- Both arguments are of the type `char`, which is signed. -/
def terminalMakeChar (c colour : UInt8) : UInt16 :=
  ((colour.toInt8.toInt32 <<< 8) ||| c.toInt8.toInt32).toUInt32.toUInt16

def terminalPutchar (x y : ℕ) (c colour : UInt8) (s : Terminal) : Terminal :=
  { s with
    videoMem := Function.update s.videoMem (y * vgaWidth + x) (terminalMakeChar c colour)
    written := (x, y) :: s.written }

def terminalWritechar (c colour : UInt8) (s : Terminal) : Terminal :=
  if c = newline then { s with terminalRow := s.terminalRow + 1, terminalCol := 0 }
  else
    let s := terminalPutchar s.terminalCol.toNat s.terminalRow.toNat c colour s
    let s := { s with terminalCol := s.terminalCol + 1 }
    if s.terminalCol.toNat ≥ vgaWidth then
      { s with terminalCol := 0, terminalRow := s.terminalRow + 1 }
    else s

def terminalInitialize (s : Terminal) : Terminal :=
  (List.range vgaHeight).foldl (fun s y =>
    (List.range vgaWidth).foldl (fun s x => terminalPutchar x y 0x20 0 s) s)
    { s with terminalRow := 0, terminalCol := 0 }

def cprint (str : CString) (c : ℤ) (s : Terminal) : Terminal :=
  str.foldl (fun s b => terminalWritechar b (UInt8.ofInt c) s) s

def print (str : CString) (s : Terminal) : Terminal := cprint str 15 s

inductive PrintCall
  | print (str : CString)
  | cprint (str : CString) (c : ℤ)
  deriving DecidableEq, Repr

namespace PrintCall

def run : PrintCall → Terminal → Terminal
  | .print str => Dexter.print str
  | .cprint str c => Dexter.cprint str c

def str : PrintCall → CString
  | .print str => str
  | .cprint str _ => str

def colour : PrintCall → UInt8
  | .print _ => 15
  | .cprint _ c => UInt8.ofInt c

def chars (call : PrintCall) : List (UInt8 × UInt8) := call.str.map fun b => (b, call.colour)

def runAll (calls : List PrintCall) (s : Terminal) : Terminal :=
  calls.foldl (fun s call => call.run s) s

def text (calls : List PrintCall) : CString := calls.flatMap str

end PrintCall

namespace Terminal

def OnScreen (cell : ℕ × ℕ) : Prop :=
  cell.1 < vgaWidth ∧ cell.2 < vgaHeight ∧ cell.2 * vgaWidth + cell.1 < vgaWidth * vgaHeight

instance : DecidablePred OnScreen := fun _ => inferInstanceAs (Decidable (_ ∧ _ ∧ _))

/-- Every character that is written has fewer than 20 rows above it, counted as a 16-bit counter
counts. -/
def Fits (row col : ℕ) (text : CString) : Prop :=
  ∀ before c after, text = before ++ c :: after → c ≠ newline →
    (row + rowsDown vgaWidth newline col before) % 65536 < vgaHeight

def writeAll (chars : List (UInt8 × UInt8)) (s : Terminal) : Terminal :=
  chars.foldl (fun s p => terminalWritechar p.1 p.2 s) s

variable {s : Terminal} {row col : ℕ} {c : UInt8} {text : CString}

theorem onScreen_iff {x y : ℕ} (hx : x < vgaWidth) : OnScreen (x, y) ↔ y < vgaHeight := by
  constructor
  · exact fun h => h.2.1
  · intro hy
    refine ⟨hx, hy, ?_⟩
    simp only [vgaWidth, vgaHeight] at hx hy ⊢
    omega

theorem fits_nil : Fits row col [] := fun before c after h => by simp at h

theorem fits_mod : Fits (row % 65536) col text ↔ Fits row col text := by
  unfold Fits
  simp only [Nat.mod_add_mod]

theorem fits_cons (row' col' : ℕ) (hcol : col < vgaWidth)
    (hrest : ∀ before, row + rowsDown vgaWidth newline col (c :: before) =
      row' + rowsDown vgaWidth newline col' before) :
    Fits row col (c :: text) ↔ (c ≠ newline → row % 65536 < vgaHeight) ∧ Fits row' col' text := by
  constructor
  · intro h
    refine ⟨fun hc => ?_, fun before b after htext hb => ?_⟩
    · have hfirst := h [] c text rfl hc
      rwa [rowsDown_nil hcol, add_zero] at hfirst
    · have hlater := h (c :: before) b after (by rw [htext]; rfl) hb
      rwa [hrest] at hlater
  · intro ⟨hfirst, hlater⟩ before b after htext hb
    cases before with
    | nil =>
      obtain ⟨rfl, rfl⟩ := List.cons.inj htext
      rw [rowsDown_nil hcol, add_zero]
      exact hfirst hb
    | cons a before =>
      obtain ⟨rfl, rfl⟩ := List.cons.inj htext
      rw [hrest]
      exact hlater before b after rfl hb

theorem toNat_succ (n : UInt16) : (n + 1).toNat = (n.toNat + 1) % 65536 := UInt16.toNat_add n 1

theorem terminalWritechar_char (colour : UInt8) (hc : c ≠ newline)
    (hcol : s.terminalCol.toNat < vgaWidth) : ∃ s', terminalWritechar c colour s = s' ∧
      s'.written = (s.terminalCol.toNat, s.terminalRow.toNat) :: s.written ∧
      (s.terminalCol.toNat + 1 < vgaWidth ∧ s'.terminalCol.toNat = s.terminalCol.toNat + 1 ∧
          s'.terminalRow = s.terminalRow ∨
        s.terminalCol.toNat + 1 = vgaWidth ∧ s'.terminalCol.toNat = 0 ∧
          s'.terminalRow = s.terminalRow + 1) := by
  have hsucc := toNat_succ s.terminalCol
  simp only [vgaWidth] at hcol ⊢
  rw [Nat.mod_eq_of_lt (by omega)] at hsucc
  rw [terminalWritechar, if_neg hc]
  dsimp only [terminalPutchar]
  rw [vgaWidth, hsucc]
  split_ifs with hfull
  · exact ⟨_, rfl, rfl, Or.inr ⟨by omega, rfl, rfl⟩⟩
  · exact ⟨_, rfl, rfl, Or.inl ⟨by omega, hsucc, rfl⟩⟩

theorem writeAll_onScreen_iff (chars : List (UInt8 × UInt8))
    (hcol : s.terminalCol.toNat < vgaWidth) :
    (∀ cell ∈ (writeAll chars s).written, OnScreen cell) ↔ (∀ cell ∈ s.written, OnScreen cell) ∧
      Fits s.terminalRow.toNat s.terminalCol.toNat (chars.map Prod.fst) := by
  induction chars generalizing s with
  | nil => simp [writeAll, fits_nil]
  | cons p chars ih =>
    obtain ⟨c, colour⟩ := p
    have hstep : writeAll ((c, colour) :: chars) s = writeAll chars (terminalWritechar c colour s) :=
      rfl
    have hzero : (0 : UInt16).toNat = 0 := rfl
    rw [hstep, List.map_cons]
    by_cases hc : c = newline
    · have hnext : terminalWritechar c colour s =
          { s with terminalRow := s.terminalRow + 1, terminalCol := 0 } := if_pos hc
      rw [hnext, ih (by rw [hzero]; decide), hzero, toNat_succ, fits_mod,
        fits_cons (s.terminalRow.toNat + 1) 0 hcol fun before => by
          rw [hc, rowsDown_newline hcol, add_assoc]]
      simp [hc]
    · obtain ⟨s', hs', hwritten, hcases⟩ := terminalWritechar_char colour hc hcol
      have hrow : s.terminalRow.toNat % 65536 = s.terminalRow.toNat :=
        Nat.mod_eq_of_lt s.terminalRow.toNat_lt
      have hmem : (∀ cell ∈ s'.written, OnScreen cell) ↔
          s.terminalRow.toNat < vgaHeight ∧ ∀ cell ∈ s.written, OnScreen cell := by
        rw [hwritten, List.forall_mem_cons, onScreen_iff hcol]
      rw [hs']
      rcases hcases with ⟨hlt, hcol', hrow'⟩ | ⟨hfull, hcol', hrow'⟩
      · rw [ih (by omega), hmem, hcol', hrow',
          fits_cons s.terminalRow.toNat (s.terminalCol.toNat + 1) hcol fun before => by
            rw [rowsDown_cons hc], hrow]
        tauto
      · rw [ih (by rw [hcol']; decide), hmem, hcol', hrow', toNat_succ, fits_mod,
          fits_cons (s.terminalRow.toNat + 1) 0 hcol fun before => by
            rw [rowsDown_cons hc, hfull, rowsDown_full (by decide), add_assoc], hrow]
        tauto

structure Cleared (s : Terminal) : Prop where
  row : s.terminalRow = 0
  col : s.terminalCol = 0
  written : ∀ cell ∈ s.written, OnScreen cell

theorem terminalInitialize_cleared (hs : ∀ cell ∈ s.written, OnScreen cell) :
    Cleared (terminalInitialize s) := by
  refine List.foldlRecOn _ _ ⟨rfl, rfl, hs⟩ fun s₁ h₁ y hy => ?_
  refine List.foldlRecOn _ _ h₁ fun s₂ h₂ x hx => ⟨h₂.row, h₂.col, ?_⟩
  refine List.forall_mem_cons.mpr ⟨?_, h₂.written⟩
  exact (onScreen_iff (List.mem_range.mp hx)).mpr (List.mem_range.mp hy)

theorem runAll_eq (calls : List PrintCall) (s : Terminal) :
    PrintCall.runAll calls s = writeAll (calls.flatMap PrintCall.chars) s := by
  have hcall : ∀ (s : Terminal) (call : PrintCall), call.run s = writeAll call.chars s := by
    intro s call
    cases call with
    | print str =>
      simp only [PrintCall.run, print, cprint, writeAll, PrintCall.chars, PrintCall.str,
        PrintCall.colour, List.foldl_map]
      rfl
    | cprint str c =>
      simp only [PrintCall.run, cprint, writeAll, PrintCall.chars, PrintCall.str,
        PrintCall.colour, List.foldl_map]
  rw [PrintCall.runAll, writeAll, List.foldl_flatMap]
  simp only [hcall]
  rfl

theorem text_eq (calls : List PrintCall) :
    (calls.flatMap PrintCall.chars).map Prod.fst = PrintCall.text calls := by
  simp [List.map_flatMap, PrintCall.chars, PrintCall.text, Function.comp_def]

/-- From the initialisation on, whatever is printed: it all goes to the screen exactly if each
character other than a newline has fewer than 20 rows above it. -/
theorem console_on_screen_iff (videoMem : ℕ → UInt16) (row col : UInt16)
    (calls : List PrintCall) :
    (∀ cell ∈ (PrintCall.runAll calls (terminalInitialize ⟨videoMem, row, col, []⟩)).written,
      OnScreen cell) ↔ Fits 0 0 (PrintCall.text calls) := by
  have hclear := @terminalInitialize_cleared ⟨videoMem, row, col, []⟩ fun cell h => by simp at h
  have hiff := writeAll_onScreen_iff (calls.flatMap PrintCall.chars)
    (s := terminalInitialize ⟨videoMem, row, col, []⟩) (by rw [hclear.col]; decide)
  rw [runAll_eq, hiff, hclear.row, hclear.col, text_eq]
  exact and_iff_right hclear.written

/-- Twenty newlines and a letter, which goes below the last row. -/
theorem console_leaves_screen : ¬∀ cell ∈
    (PrintCall.runAll [.print (List.replicate 20 newline), .cprint [0x41] 10]
      (terminalInitialize ⟨fun _ => 0, 0, 0, []⟩)).written, OnScreen cell := by
  decide +kernel

end Terminal

end Dexter
