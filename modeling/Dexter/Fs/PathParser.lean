import Dexter.Mem.KernelHeap

/-!
# Paths (`fs/pparser.c`)

A C string is the list of its bytes before the terminator. The nodes of a parsed
path carry the addresses they are allocated at; the chain of `struct path_part`
is a list. `pathparser_get_path_part` is called until nothing is left of the
path, which takes at most as many calls as the path has bytes
(`pathparserParseParts_avoids`).
-/

namespace Dexter
open Lib.Programs Lib.Faults KernelHeap

abbrev CString := List UInt8

structure PathPart where
  addr : ℕ
  partAddr : ℕ
  part : CString
  deriving DecidableEq, Repr

structure PathRoot where
  addr : ℕ
  driveNo : ℤ
  first : List PathPart
  deriving DecidableEq, Repr

def slash : UInt8 := 0x2f

def colon : UInt8 := 0x3a

def isdigit (c : UInt8) : Bool := 48 ≤ c && c ≤ 57

def tonumericdigit (c : UInt8) : ℤ := c.toNat - 48

def strnlen (s : CString) (max : ℕ) : ℕ := min s.length max

def pathparserPathValidFormat (filename : CString) : Bool :=
  3 ≤ strnlen filename dexterMaxPath && isdigit (filename.getD 0 0) &&
    (filename.getD 1 0 == colon && filename.getD 2 0 == slash)

def pathparserGetDriveByPath (path : CString) : ℤ × CString :=
  if ¬pathparserPathValidFormat path then (-eBadPath, path)
  else (tonumericdigit (path.getD 0 0), path.drop 3)

section Parsing
variable {σ : Type} [Requests σ]

def pathparserCreateRoot (driveNumber : ℤ) : Prog Crash σ PathRoot := do
  let addr ← kzalloc 8
  if addr = 0 then abort .nullPointer else pure ⟨addr, driveNumber, []⟩

def nextPart (path : CString) : CString × CString :=
  let part := path.takeWhile (· ≠ slash)
  (part, (path.drop part.length).drop 1)

def pathparserGetPathPart (path : CString) : Prog Crash σ ℕ := do
  let resultPathPart ← kzalloc dexterMaxPath
  if (nextPart path).1 = [] then do
    kfree resultPathPart
    pure 0
  else if resultPathPart = 0 then abort .nullPointer
  else pure resultPathPart

/-- `pathparser_parse_path_part` until it returns null, with fuel for the calls. -/
def pathparserParseParts : ℕ → CString → Prog Crash σ (List PathPart)
  | 0, _ => abort .hang
  | fuel + 1, path => do
    let pathPartStr ← pathparserGetPathPart path
    if pathPartStr = 0 then pure []
    else do
      let addr ← kzalloc 8
      if addr = 0 then abort .nullPointer
      else do
        let next ← pathparserParseParts fuel (nextPart path).2
        pure (⟨addr, pathPartStr, (nextPart path).1⟩ :: next)

def pathparserParse (path : CString) : Prog Crash σ (Option PathRoot) :=
  if path.length > dexterMaxPath then pure none
  else
    let drive := pathparserGetDriveByPath path
    if drive.1 < 0 then pure none
    else do
      let root ← pathparserCreateRoot drive.1
      let first ← pathparserParseParts (drive.2.length + 1) drive.2
      pure (some { root with first := first })

def pathparserFreeParts : List PathPart → Prog Crash σ Unit
  | [] => pure ()
  | part :: next => do
    kfree part.partAddr
    kfree part.addr
    pathparserFreeParts next

def pathparserFree (root : PathRoot) : Prog Crash σ Unit := do
  pathparserFreeParts root.first
  kfree root.addr

/-- The paths for which `pathparser_parse` does not return null. -/
def PathAccepted (path : CString) : Prop :=
  path.length ≤ dexterMaxPath ∧ pathparserPathValidFormat path = true

instance (path : CString) : Decidable (PathAccepted path) :=
  inferInstanceAs (Decidable (_ ∧ _))

theorem tonumericdigit_nonneg {c : UInt8} (h : isdigit c = true) : 0 ≤ tonumericdigit c := by
  unfold isdigit at h
  have h48 : (48 : UInt8) ≤ c := by
    simp only [Bool.and_eq_true, decide_eq_true_eq] at h
    exact h.1
  have := UInt8.le_iff_toNat_le.mp h48
  unfold tonumericdigit
  have h' : (48 : UInt8).toNat = 48 := rfl
  omega

theorem drive_of_accepted {path : CString} (h : PathAccepted path) :
    pathparserGetDriveByPath path = (tonumericdigit (path.getD 0 0), path.drop 3) ∧
      0 ≤ tonumericdigit (path.getD 0 0) := by
  have hformat := h.2
  refine ⟨by rw [pathparserGetDriveByPath, if_neg (by simp [hformat])], ?_⟩
  apply tonumericdigit_nonneg
  simp only [pathparserPathValidFormat, Bool.and_eq_true] at hformat
  exact hformat.1.2

theorem drive_of_rejected {path : CString} (hlen : path.length ≤ dexterMaxPath)
    (h : ¬PathAccepted path) : (pathparserGetDriveByPath path).1 < 0 := by
  have hformat : ¬pathparserPathValidFormat path = true := fun hf => h ⟨hlen, hf⟩
  have hnegative : -eBadPath < 0 := by decide
  rw [pathparserGetDriveByPath, if_pos hformat]
  exact hnegative

theorem pathparserParse_rejected {path : CString} (h : ¬PathAccepted path) :
    (pathparserParse path : Prog Crash σ _) = pure none := by
  unfold pathparserParse
  split_ifs with hlen
  · rfl
  · dsimp only
    rw [if_pos (drive_of_rejected (not_lt.mp hlen) h)]

theorem pathparserParse_accepted {path : CString} (h : PathAccepted path) :
    (pathparserParse path : Prog Crash σ _) = (do
      let root ← pathparserCreateRoot (tonumericdigit (path.getD 0 0))
      let first ← pathparserParseParts ((path.drop 3).length + 1) (path.drop 3)
      pure (some { root with first := first })) := by
  obtain ⟨hdrive, hnonneg⟩ := drive_of_accepted h
  rw [pathparserParse, if_neg h.1.not_gt, hdrive]
  dsimp only
  rw [if_neg hnonneg.not_gt]

theorem nextPart_length {path : CString} (h : (nextPart path).1 ≠ []) :
    (nextPart path).2.length < path.length := by
  unfold nextPart at h ⊢
  have hpos := List.length_pos_of_ne_nil h
  have hle := (List.takeWhile_prefix (p := fun c => decide (c ≠ slash)) (l := path)).length_le
  simp only [List.length_drop]
  dsimp only at hpos
  omega

theorem kzalloc_avoids (e : Crash) (size : ℕ) : Avoids e (kzalloc size : Prog Crash σ ℕ) :=
  Avoids.of_ok fun k => ⟨_, step_apply _ k⟩

theorem pathparserGetPathPart_ne {path : CString} {k k' : σ} {p : ℕ}
    (h : pathparserGetPathPart path k = .ok (p, k')) (hp : p ≠ 0) : (nextPart path).1 ≠ [] := by
  obtain ⟨addr, k₁, -, hrest⟩ := bind_ok.mp h
  split_ifs at hrest with hnil h0
  · obtain ⟨u, k₂, -, hpure⟩ := bind_ok.mp hrest
    exact absurd (ok_inj hpure).1.symm hp
  · cases hrest
  · exact hnil

theorem pathparserGetPathPart_avoids (path : CString) :
    Avoids .hang (pathparserGetPathPart path : Prog Crash σ ℕ) := by
  unfold pathparserGetPathPart
  refine Avoids.bind (kzalloc_avoids _ _) fun p => ?_
  apply Avoids.ite
  · exact Avoids.bind (Avoids.of_ok fun k => ⟨_, modify_apply _ k⟩) fun _ => Avoids.pure 0
  · exact Avoids.ite (Avoids.abort (by decide)) (Avoids.pure p)

theorem pathparserParseParts_avoids {fuel : ℕ} {path : CString} (h : path.length < fuel) :
    Avoids .hang (pathparserParseParts fuel path : Prog Crash σ _) := by
  induction fuel generalizing path with
  | zero => exact absurd h (Nat.not_lt_zero _)
  | succ fuel ih =>
    intro k
    rw [pathparserParseParts]
    cases hstr : pathparserGetPathPart path k with
    | error e =>
      rw [bind_of_error hstr]
      exact fun he => pathparserGetPathPart_avoids path k
        (hstr.trans (congrArg _ (Except.error.inj he)))
    | ok r =>
      rw [bind_of_ok hstr]
      split_ifs with h0
      · simp
      · have hlt := nextPart_length (pathparserGetPathPart_ne hstr h0)
        have hrest : Avoids .hang (pathparserParseParts fuel (nextPart path).2 : Prog Crash σ _) :=
          ih (by omega)
        apply Avoids.bind (kzalloc_avoids _ _)
        exact fun addr => Avoids.ite (Avoids.abort (by decide))
          (Avoids.bind hrest fun _ => Avoids.pure _)

end Parsing

section Kept
variable {A : Set ℕ} {c : Prop}

theorem pathparserGetPathPart_kept (path : CString) :
    Triple (Kept A c) (pathparserGetPathPart path) fun _ => Kept A c := by
  unfold pathparserGetPathPart
  refine Triple.bind (kzalloc_kept (by decide)) fun addr => ?_
  apply Triple.ite
  · intro _ k r k' hk hrun
    obtain ⟨u, k₁, hfree, hpure⟩ := bind_ok.mp hrun
    obtain ⟨rfl, rfl⟩ := ok_inj hpure
    exact kfree_kept hk.aligned hk.lt hk.fresh hk.kept hfree
  · intro _
    exact Triple.ite (fun _ => Triple.abort) fun _ => Triple.pure fun _ hk => hk.kept

theorem pathparserParseParts_kept (fuel : ℕ) (path : CString) :
    Triple (Kept A c) (pathparserParseParts fuel path) fun _ => Kept A c := by
  induction fuel generalizing path with
  | zero => exact Triple.abort
  | succ fuel ih =>
    unfold pathparserParseParts
    refine Triple.bind (pathparserGetPathPart_kept path) fun str => ?_
    apply Triple.ite
    · exact fun _ => Triple.pure fun _ hk => hk
    · intro _
      refine Triple.bind (kzalloc_kept (by decide)) fun addr => ?_
      apply Triple.ite
      · exact fun _ => Triple.abort
      · intro _
        have hnext := @Triple.conseq _ _ _ _ (Handed A c 8 addr) _ _ _ (ih (nextPart path).2)
          (fun _ hk => hk.kept) fun _ _ h => h
        exact Triple.bind hnext fun next => Triple.pure fun _ hk => hk

theorem pathparserCreateRoot_kept (driveNumber : ℤ) :
    Triple (Kept A c) (pathparserCreateRoot driveNumber) fun root k =>
      root.addr ∉ A ∧ root.addr ≠ 0 ∧ Kept (A ∪ {root.addr}) c k := by
  unfold pathparserCreateRoot
  refine Triple.bind (kzalloc_kept (by decide)) fun addr => ?_
  apply Triple.ite
  · exact fun _ => Triple.abort
  · intro h0
    exact Triple.pure fun k hk => ⟨hk.fresh, h0, hk.first h0 (by decide) (by decide)⟩

theorem pathparserParse_kept (path : CString) :
    Triple (Kept A c) (pathparserParse path) fun r k => Kept A c k ∧
      ∀ root, r = some root → root.addr ∉ A ∧ root.addr ≠ 0 ∧ Kept (A ∪ {root.addr}) c k := by
  by_cases h : PathAccepted path
  · rw [pathparserParse_accepted h]
    refine Triple.bind (pathparserCreateRoot_kept _) fun root => ?_
    intro k r k' hk hrun
    obtain ⟨first, k₁, hparts, hpure⟩ := bind_ok.mp hrun
    obtain ⟨rfl, rfl⟩ := ok_inj hpure
    have hkept := pathparserParseParts_kept _ _ hk.2.2 hparts
    refine ⟨hkept.mono Set.subset_union_left, fun root' hroot => ?_⟩
    obtain rfl := Option.some.inj hroot
    exact ⟨hk.1, hk.2.1, hkept⟩
  · rw [pathparserParse_rejected h]
    exact Triple.pure fun k hk => ⟨hk, fun root hr => by cases hr⟩

end Kept

end Dexter
