import Dexter.Fs.PathContract
import Dexter.Mem.BorrowedBlocks

/-!
# Releasing a parsed path (`fs/pparser.c`)

A parsed path holds a block for its root and two for each part, and nothing else it asked for: the
buffer of an empty component is given back at once. `pathparser_free` releases just these blocks.
-/

namespace Dexter.PathContract
open Lib.Programs KernelHeap

def partAddresses : List PathPart → List ℕ
  | [] => []
  | part :: next => part.partAddr :: part.addr :: partAddresses next

section Release
variable {k₀ : KernelHeap} {ps : List ℕ}

theorem pathparserGetPathPart_borrowed (hk : LiveHeap.Clean k₀) (path : CString) :
    Triple (Borrowed k₀ ps) (pathparserGetPathPart path) fun p => Borrowed k₀ (lend p ps) := by
  unfold pathparserGetPathPart
  refine Triple.bind (kzalloc_borrowed (by decide) (by decide)) fun p => ?_
  apply Triple.ite
  · intro _
    exact Triple.bind (kfree_borrowed hk p) fun _ => Triple.pure fun _ h => h
  · intro _
    exact Triple.ite (fun _ => Triple.abort) fun _ => Triple.pure fun _ h => h

theorem pathparserParseParts_borrowed (hk : LiveHeap.Clean k₀) (fuel : ℕ) (path : CString) :
    Triple (Borrowed k₀ ps) (pathparserParseParts fuel path) fun parts =>
      Borrowed k₀ (partAddresses parts ++ ps) := by
  induction fuel generalizing path ps with
  | zero => exact Triple.abort
  | succ fuel ih =>
    unfold pathparserParseParts
    refine Triple.bind (pathparserGetPathPart_borrowed hk path) fun str => ?_
    apply Triple.ite
    · intro hstr
      rw [lend, if_pos hstr]
      exact Triple.pure fun _ h => h
    · intro hstr
      rw [lend_of_ne hstr]
      refine Triple.bind (kzalloc_borrowed (by decide) (by decide)) fun addr => ?_
      apply Triple.ite
      · exact fun _ => Triple.abort
      · intro haddr
        rw [lend_of_ne haddr]
        refine Triple.bind (ih (nextPart path).2) fun next => Triple.pure fun k h => ?_
        -- the blocks of this part were taken before those of the later ones
        refine h.perm (List.perm_middle.trans ?_)
        exact (List.Perm.cons addr List.perm_middle).trans (List.Perm.swap str addr _)

def addresses : Option PathRoot → List ℕ
  | none => []
  | some root => partAddresses root.first ++ [root.addr]

theorem pathparserCreateRoot_borrowed (driveNumber : ℤ) :
    Triple (Borrowed k₀ []) (pathparserCreateRoot driveNumber) fun root =>
      Borrowed k₀ [root.addr] := by
  unfold pathparserCreateRoot
  refine Triple.bind (kzalloc_borrowed (by decide) (by decide)) fun addr => ?_
  apply Triple.ite
  · exact fun _ => Triple.abort
  · intro haddr
    rw [lend_of_ne haddr]
    exact Triple.pure fun _ h => h

theorem pathparserParse_borrowed (hk : LiveHeap.Clean k₀) (path : CString) :
    Triple (Borrowed k₀ []) (pathparserParse path) fun r => Borrowed k₀ (addresses r) := by
  by_cases haccepted : PathAccepted path
  · rw [pathparserParse_accepted haccepted]
    refine Triple.bind (pathparserCreateRoot_borrowed _) fun root => ?_
    refine Triple.bind (pathparserParseParts_borrowed hk _ _) fun first => ?_
    exact Triple.pure fun _ h => h
  · rw [pathparserParse_rejected haccepted]
    exact Triple.pure fun _ h => h

theorem pathparserFreeParts_borrowed (hk : LiveHeap.Clean k₀) (parts : List PathPart) :
    Returns (Borrowed k₀ (partAddresses parts ++ ps)) (pathparserFreeParts parts) fun _ =>
      Borrowed k₀ ps := by
  induction parts with
  | nil => exact Returns.pure fun _ h => h
  | cons part next ih =>
    intro k h
    have hpart := h.release hk
    have haddr := hpart.release hk
    exact ih haddr

theorem pathparserFree_borrowed (hk : LiveHeap.Clean k₀) (root : PathRoot) :
    Returns (Borrowed k₀ (addresses (some root))) (pathparserFree root) fun _ =>
      Borrowed k₀ [] :=
  Returns.bind (pathparserFreeParts_borrowed hk root.first) fun _ k h =>
    ⟨(), k.free root.addr, modify_apply _ k, h.release hk⟩

/-- Parsing and releasing leave the heap table as it was, for every heap that requests and releases
can make and every path for which the heap has the blocks; a path that is rejected needs none. -/
theorem parse_then_free_is_neutral (k : KernelHeap) (hk : k.Reached) (path : CString)
    (hfree : PathAccepted path → k.FreeBlocks (blocksFor path)) :
    ∃ r k₁, pathparserParse path k = .ok (r, k₁) ∧ match r with
      | none => SameTable k k₁
      | some root => ∃ k₂, pathparserFree root k₁ = .ok ((), k₂) ∧ SameTable k k₂ := by
  by_cases haccepted : PathAccepted path
  · obtain ⟨r, k₁, hrun, ⟨root, rfl, -⟩, hborrowed⟩ := Returns.and_triple
      (pathparserParse_free haccepted) (pathparserParse_borrowed hk.clean path)
      ⟨hfree haccepted, Borrowed.nil k⟩
    obtain ⟨u, k₂, hfreed, hback⟩ := pathparserFree_borrowed hk.clean root hborrowed
    exact ⟨some root, k₁, hrun, k₂, hfreed, hback.sameTable⟩
  · rw [pathparserParse_rejected haccepted]
    exact ⟨none, k, rfl, SameTable.refl k⟩

theorem parse_then_free_is_neutral_empty_part :
    ∃ r k₁, pathparserParse [0x30, colon, slash, 0x61, slash, slash, 0x62] kheapInit = .ok (r, k₁) ∧
      match r with
      | none => SameTable kheapInit k₁
      | some root => ∃ k₂, pathparserFree root k₁ = .ok ((), k₂) ∧ SameTable kheapInit k₂ :=
  parse_then_free_is_neutral kheapInit .new _ fun _ => kheapInit_freeBlocks (by decide)

end Release

end Dexter.PathContract
