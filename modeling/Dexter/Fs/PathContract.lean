import Dexter.Fs.PathParser

/-!
# What parsing a path returns (`fs/pparser.c`)

The text behind the drive is split at the slashes. The parts of a parsed path are
the components before the first empty one: an empty component and the end of the
path are the same null pointer to `pathparser_parse`. Rendering a list of parts and
parsing it is the identity, since a rendering has no empty component but a last one.
-/

namespace Dexter.PathContract
open Lib.Programs Lib.Faults KernelHeap

/-- The components of the text behind the drive, empty ones included. -/
def components (path : CString) : List CString := (path.drop 3).splitOn slash

def partsOf (root : PathRoot) : List CString := root.first.map PathPart.part

def render (d : ℕ) (parts : List CString) : CString :=
  UInt8.ofNat (48 + d) :: colon :: slash :: [slash].intercalate parts

def NonEmpty (part : CString) : Bool := part ≠ []

/-- The blocks that parsing asks for: the root, two for each part, and the buffer that is
released at the end. -/
def blocksFor (path : CString) : ℕ := 2 * ((components path).takeWhile NonEmpty).length + 2

theorem nextPart_cases (path : CString) :
    (slash ∉ path ∧ nextPart path = (path, [])) ∨
    ∃ part rest, slash ∉ part ∧ path = part ++ slash :: rest ∧ nextPart path = (part, rest) := by
  by_cases h : slash ∈ path
  · right
    obtain ⟨part, rest, rfl, hpart⟩ := List.eq_append_cons_of_mem h
    have hall : ∀ c ∈ part, decide (c ≠ slash) = true := fun c hc =>
      decide_eq_true fun heq => hpart (heq ▸ hc)
    have htake : (part ++ slash :: rest).takeWhile (· ≠ slash) = part := by
      rw [List.takeWhile_append_of_pos hall]
      simp
    refine ⟨part, rest, hpart, rfl, ?_⟩
    simp only [nextPart, htake, List.drop_left, List.drop_succ_cons, List.drop_zero]
  · left
    have hall : path.takeWhile (· ≠ slash) = path := by
      rw [List.takeWhile_eq_self_iff]
      intro c hc
      exact decide_eq_true fun heq => h (heq ▸ hc)
    refine ⟨h, ?_⟩
    simp only [nextPart, hall, List.drop_length, List.drop_nil]

theorem splitOn_nextPart (path : CString) :
    path.splitOn slash = [(nextPart path).1] ∧ (nextPart path).2 = [] ∨
    path.splitOn slash = (nextPart path).1 :: (nextPart path).2.splitOn slash := by
  rcases nextPart_cases path with ⟨hno, heq⟩ | ⟨part, rest, hpart, rfl, heq⟩
  · rw [heq, List.splitOn_eq_singleton hno]
    exact Or.inl ⟨rfl, rfl⟩
  · rw [heq, List.splitOn_append_cons_self_of_not_mem hpart]
    exact Or.inr rfl

theorem takeWhile_nextPart (path : CString) (h : (nextPart path).1 ≠ []) :
    (path.splitOn slash).takeWhile NonEmpty =
      (nextPart path).1 :: ((nextPart path).2.splitOn slash).takeWhile NonEmpty := by
  have hne : NonEmpty (nextPart path).1 = true := decide_eq_true h
  rcases splitOn_nextPart path with ⟨heq, hnil⟩ | heq
  · rw [heq, hnil, List.takeWhile_cons, if_pos hne]
    rfl
  · rw [heq, List.takeWhile_cons, if_pos hne]

theorem takeWhile_nextPart_nil (path : CString) (h : (nextPart path).1 = []) :
    (path.splitOn slash).takeWhile NonEmpty = [] := by
  rcases splitOn_nextPart path with ⟨heq, -⟩ | heq
  · rw [heq, h]
    rfl
  · rw [heq, h]
    rfl

theorem pathparserGetPathPart_free (path : CString) (n : ℕ) :
    Returns (FreeBlocks (n + 1)) (pathparserGetPathPart path) fun p k =>
      (p = 0 ↔ (nextPart path).1 = []) ∧ FreeBlocks n k := by
  refine Returns.bind (kzalloc_freeBlocks (by decide) (by decide)) fun p => Returns.fact fun hp => ?_
  by_cases hnil : (nextPart path).1 = []
  · rw [if_pos hnil]
    exact Returns.bind (kfree_freeBlocks p) fun _ => Returns.pure fun _ hk => ⟨by simp [hnil], hk⟩
  · rw [if_neg hnil, if_neg hp]
    exact Returns.pure fun _ hk => ⟨by simp [hnil, hp], hk⟩

theorem pathparserParseParts_free {fuel : ℕ} {path : CString} (hfuel : path.length < fuel) :
    Returns (FreeBlocks (2 * ((path.splitOn slash).takeWhile NonEmpty).length + 1))
      (pathparserParseParts fuel path) fun parts _ =>
        parts.map PathPart.part = (path.splitOn slash).takeWhile NonEmpty := by
  induction fuel generalizing path with
  | zero => exact absurd hfuel (Nat.not_lt_zero _)
  | succ fuel ih =>
    rw [pathparserParseParts]
    refine Returns.bind (pathparserGetPathPart_free path _) fun str => Returns.fact fun hstr => ?_
    by_cases hnil : (nextPart path).1 = []
    · rw [if_pos (hstr.mpr hnil), takeWhile_nextPart_nil path hnil]
      exact Returns.pure fun _ _ => rfl
    · have hne : ¬str = 0 := fun h0 => hnil (hstr.mp h0)
      have hlt := nextPart_length hnil
      rw [if_neg hne, takeWhile_nextPart path hnil]
      refine Returns.bind (kzalloc_freeBlocks (by decide) (by decide)) fun addr =>
        Returns.fact fun haddr => Returns.ite_neg haddr ?_
      refine Returns.bind (ih (by omega)) fun rest => Returns.pure fun _ hrest => ?_
      rw [List.map_cons, hrest]

theorem pathparserParse_free {path : CString} (h : PathAccepted path) :
    Returns (FreeBlocks (blocksFor path)) (pathparserParse path) fun r _ =>
      ∃ root, r = some root ∧ root.driveNo = tonumericdigit (path.getD 0 0) ∧
        partsOf root = (components path).takeWhile NonEmpty := by
  rw [pathparserParse_accepted h]
  have hroot : Returns (FreeBlocks (blocksFor path))
      (pathparserCreateRoot (tonumericdigit (path.getD 0 0))) fun root k =>
        root.driveNo = tonumericdigit (path.getD 0 0) ∧
          FreeBlocks (2 * ((components path).takeWhile NonEmpty).length + 1) k := by
    refine Returns.bind (kzalloc_freeBlocks (by decide) (by decide)) fun p => Returns.fact fun hp => ?_
    exact Returns.ite_neg hp (Returns.pure fun _ hk => ⟨rfl, hk⟩)
  refine Returns.bind hroot fun root => Returns.fact fun hdrive => ?_
  refine Returns.bind (pathparserParseParts_free (Nat.lt_succ_self _)) fun parts =>
    Returns.pure fun _ hparts => ?_
  exact ⟨_, rfl, hdrive, hparts⟩

section Parts
variable {σ : Type} [Requests σ]

theorem pathparserGetPathPart_zero {path : CString} {k k' : σ}
    (h : pathparserGetPathPart path k = .ok (0, k')) : (nextPart path).1 = [] := by
  obtain ⟨addr, k₁, -, h⟩ := bind_ok.mp h
  split_ifs at h with hnil h0
  · exact hnil
  · cases h
  · exact absurd (ok_inj h).1 h0

theorem pathparserParseParts_parts {fuel : ℕ} {path : CString} :
    Triple (fun _ => True) (pathparserParseParts fuel path : Prog Crash σ _) fun parts _ =>
      parts.map PathPart.part = (path.splitOn slash).takeWhile NonEmpty := by
  induction fuel generalizing path with
  | zero => exact Triple.abort
  | succ fuel ih =>
    intro k parts k' _ hrun
    rw [pathparserParseParts] at hrun
    obtain ⟨str, k₁, hstr, hrun⟩ := bind_ok.mp hrun
    split_ifs at hrun with h0
    · obtain ⟨rfl, -⟩ := ok_inj hrun
      rw [takeWhile_nextPart_nil path (pathparserGetPathPart_zero (h0 ▸ hstr))]
      rfl
    · have hne := pathparserGetPathPart_ne hstr h0
      obtain ⟨addr, k₂, -, hrun⟩ := bind_ok.mp hrun
      split_ifs at hrun with haddr
      · cases hrun
      obtain ⟨rest, k₃, hrest, hrun⟩ := bind_ok.mp hrun
      obtain ⟨rfl, -⟩ := ok_inj hrun
      rw [List.map_cons, ih trivial hrest, takeWhile_nextPart path hne]

theorem pathparserParse_parts {path : CString} {k k' : σ} {root : PathRoot}
    (h : pathparserParse path k = .ok (some root, k')) :
    PathAccepted path ∧ partsOf root = (components path).takeWhile NonEmpty := by
  by_cases hacc : PathAccepted path
  · refine ⟨hacc, ?_⟩
    rw [pathparserParse_accepted hacc] at h
    obtain ⟨r, k₁, -, h⟩ := bind_ok.mp h
    obtain ⟨first, k₂, hfirst, h⟩ := bind_ok.mp h
    obtain ⟨heq, -⟩ := ok_inj h
    obtain rfl := Option.some.inj heq
    exact pathparserParseParts_parts trivial hfirst
  · rw [pathparserParse_rejected hacc] at h
    cases h

end Parts

theorem pathAccepted_iff (path : CString) : PathAccepted path ↔
    path.length ≤ dexterMaxPath ∧
      ∃ d rest, path = d :: colon :: slash :: rest ∧ isdigit d = true := by
  apply and_congr_right
  intro hlen
  have hmin : strnlen path dexterMaxPath = path.length := min_eq_left hlen
  rw [pathparserPathValidFormat, hmin]
  constructor
  · intro hvalid
    rcases path with _ | ⟨a, _ | ⟨b, _ | ⟨c, rest⟩⟩⟩
    · simp at hvalid
    · simp at hvalid
    · simp at hvalid
    · simp only [List.length_cons, List.getD_cons_zero, List.getD_cons_succ, Bool.and_eq_true,
        decide_eq_true_eq, beq_iff_eq] at hvalid
      obtain ⟨⟨-, hdigit⟩, rfl, rfl⟩ := hvalid
      exact ⟨a, rest, rfl, hdigit⟩
  · rintro ⟨d, rest, hpath, hdigit⟩
    subst hpath
    simp [hdigit]

theorem digit_render {d : ℕ} (hd : d < 10) : isdigit (UInt8.ofNat (48 + d)) = true ∧
    tonumericdigit (UInt8.ofNat (48 + d)) = d := by
  interval_cases d <;> decide

theorem render_accepted {d : ℕ} (hd : d < 10) {parts : List CString} {path tail : CString}
    (hpath : path = render d parts ++ tail) (hlen : path.length ≤ dexterMaxPath) :
    PathAccepted path ∧ tonumericdigit (path.getD 0 0) = d ∧
      components path = ([slash].intercalate parts ++ tail).splitOn slash := by
  subst hpath
  refine ⟨(pathAccepted_iff _).mpr ⟨hlen, _, _, rfl, (digit_render hd).1⟩, (digit_render hd).2, rfl⟩

theorem takeWhile_nonEmpty {parts : List CString} (h : ∀ p ∈ parts, p ≠ []) (rest : List CString) :
    (parts ++ [] :: rest).takeWhile NonEmpty = parts := by
  have hall : ∀ p ∈ parts, NonEmpty p = true := fun p hp => decide_eq_true (h p hp)
  rw [List.takeWhile_append_of_pos hall, List.takeWhile_cons, if_neg (by decide), List.append_nil]

theorem takeWhile_render {parts : List CString} (h : ∀ p ∈ parts, p ≠ [] ∧ slash ∉ p)
    {tail : CString} (htail : tail = [] ∨ tail = [slash]) :
    (([slash].intercalate parts ++ tail).splitOn slash).takeWhile NonEmpty = parts := by
  have hne : ∀ p ∈ parts, p ≠ [] := fun p hp => (h p hp).1
  have hno : ∀ p ∈ parts, slash ∉ p := fun p hp => (h p hp).2
  by_cases hnil : parts = []
  · subst hnil
    rcases htail with rfl | rfl <;> decide
  have hsplit : ([slash].intercalate parts).splitOn slash = parts :=
    List.splitOn_intercalate slash hno hnil
  rcases htail with rfl | rfl
  · rw [List.append_nil, hsplit, List.takeWhile_eq_self_iff]
    exact fun p hp => decide_eq_true (hne p hp)
  · rw [List.splitOn_append_cons_self, hsplit]
    exact takeWhile_nonEmpty hne []

theorem length_le_of_mem_splitOn {a : UInt8} {text part : CString} (h : part ∈ text.splitOn a) :
    part.length ≤ text.length := by
  induction text generalizing part with
  | nil =>
    rw [List.splitOn_nil, List.mem_singleton] at h
    rw [h]
  | cons x text ih =>
    obtain ⟨first, rest, hsplit⟩ := List.exists_cons_of_ne_nil (List.splitOn_ne_nil a text)
    rw [List.splitOn_cons_eq_if_modifyHead, hsplit] at h
    rw [hsplit] at ih
    rw [List.length_cons]
    split_ifs at h with hx
    · rcases List.mem_cons.mp h with rfl | hmem
      · exact Nat.zero_le _
      · exact Nat.le_succ_of_le (ih hmem)
    · rw [List.modifyHead_cons] at h
      rcases List.mem_cons.mp h with rfl | hmem
      · exact Nat.succ_le_succ (ih List.mem_cons_self)
      · exact Nat.le_succ_of_le (ih (List.mem_cons_of_mem _ hmem))

theorem part_length {path : CString} {k k' : KernelHeap} {root : PathRoot}
    (h : pathparserParse path k = .ok (some root, k')) {part : PathPart} (hp : part ∈ root.first) :
    part.part.length < dexterMaxPath := by
  obtain ⟨⟨hlen, -⟩, hparts⟩ := pathparserParse_parts h
  have hmem : part.part ∈ components path := by
    have htake : part.part ∈ (components path).takeWhile NonEmpty :=
      hparts ▸ List.mem_map.mpr ⟨part, hp, rfl⟩
    exact (List.takeWhile_prefix _).subset htake
  have hle := length_le_of_mem_splitOn hmem
  rw [List.length_drop] at hle
  rw [dexterMaxPath] at hlen ⊢
  omega

/-- Exactly the paths of the format are parsed, rendering and parsing give the drive and the parts
back, and every part is stored with its terminator in its buffer. -/
theorem parse_exact :
    (∀ path k, FreeBlocks (blocksFor path) k → ∃ r k', pathparserParse path k = .ok (r, k') ∧
      (r ≠ none ↔ path.length ≤ dexterMaxPath ∧
        ∃ d rest, path = d :: colon :: slash :: rest ∧ isdigit d = true)) ∧
    (∀ d parts path k, d < 10 → (∀ p ∈ parts, p ≠ [] ∧ slash ∉ p) →
      (path = render d parts ∨ path = render d parts ++ [slash]) → path.length ≤ dexterMaxPath →
      FreeBlocks (blocksFor path) k → ∃ root k', pathparserParse path k = .ok (some root, k') ∧
        root.driveNo = d ∧ partsOf root = parts) ∧
    ∀ path (k : KernelHeap) root k', pathparserParse path k = .ok (some root, k') → ∀ part ∈ root.first,
      part.part.length < dexterMaxPath := by
  refine ⟨fun path k hk => ?_, fun d parts path k hd hparts hpath hlen hk => ?_,
    fun path k root k' h part hp => part_length h hp⟩
  · by_cases hacc : PathAccepted path
    · obtain ⟨r, k', hrun, root, rfl, -⟩ := pathparserParse_free hacc hk
      exact ⟨_, k', hrun, iff_of_true (Option.some_ne_none root) ((pathAccepted_iff path).mp hacc)⟩
    · refine ⟨none, k, by rw [pathparserParse_rejected hacc, pure_apply], ?_⟩
      exact iff_of_false (not_not.mpr rfl) fun hformat => hacc ((pathAccepted_iff path).mpr hformat)
  · obtain ⟨tail, htail, hrender⟩ : ∃ tail, (tail = [] ∨ tail = [slash]) ∧
        path = render d parts ++ tail := by
      rcases hpath with rfl | rfl
      · exact ⟨[], Or.inl rfl, (List.append_nil _).symm⟩
      · exact ⟨[slash], Or.inr rfl, rfl⟩
    obtain ⟨hacc, hdigit, hcomponents⟩ := render_accepted hd hrender hlen
    obtain ⟨r, k', hrun, root, rfl, hdrive, hroot⟩ := pathparserParse_free hacc hk
    refine ⟨root, k', hrun, hdrive.trans hdigit, ?_⟩
    rw [hroot, hcomponents, takeWhile_render hparts htail]

theorem takeWhile_eq_filter_iff {α : Type} (p : α → Bool) (l : List α) :
    l.takeWhile p = l.filter p ↔ l.Pairwise fun a b => p a = false → p b = false := by
  induction l with
  | nil => simp
  | cons a l ih =>
    rw [List.takeWhile_cons, List.filter_cons, List.pairwise_cons]
    by_cases ha : p a = true
    · rw [if_pos ha, if_pos ha, List.cons.injEq, ih]
      simp [ha]
    · have hfalse : p a = false := Bool.eq_false_of_not_eq_true ha
      rw [if_neg ha, if_neg ha, eq_comm, List.filter_eq_nil_iff]
      constructor
      · intro hnone
        have hall : ∀ b ∈ l, p b = false := fun b hb => Bool.eq_false_of_not_eq_true (hnone b hb)
        exact ⟨fun b hb _ => hall b hb,
          List.pairwise_of_forall_mem_list fun _ _ b hb _ => hall b hb⟩
      · intro ⟨hall, _⟩ b hb hp
        rw [hall b hb hfalse] at hp
        cases hp

/-- Nothing is dropped exactly from the paths in which only empty components follow an empty
component. -/
theorem every_component_kept_iff {path : CString} {k k' : KernelHeap} {root : PathRoot}
    (h : pathparserParse path k = .ok (some root, k')) :
    partsOf root = (components path).filter NonEmpty ↔
      (components path).Pairwise fun c d => c = [] → d = [] := by
  have hempty : ∀ c : CString, NonEmpty c = false ↔ c = [] := fun c => by
    rw [NonEmpty, decide_eq_false_iff_not, not_not]
  rw [(pathparserParse_parts h).2, takeWhile_eq_filter_iff]
  simp only [hempty]

theorem every_component_kept_plain : ∃ root k',
    pathparserParse [0x30, 0x3a, 0x2f, 0x61] kheapInit = .ok (some root, k') ∧
    (partsOf root = (components [0x30, 0x3a, 0x2f, 0x61]).filter NonEmpty ↔
      (components [0x30, 0x3a, 0x2f, 0x61]).Pairwise fun c d => c = [] → d = []) := by
  obtain ⟨r, k', hrun, root, rfl, -⟩ :=
    @pathparserParse_free [0x30, 0x3a, 0x2f, 0x61] (by decide) kheapInit
      (kheapInit_freeBlocks (by decide))
  exact ⟨root, k', hrun, every_component_kept_iff hrun⟩

/-- `0:/a//b` is parsed like `0:/a`. -/
theorem doubled_slash_drops : ∃ root k',
    pathparserParse [0x30, 0x3a, 0x2f, 0x61, 0x2f, 0x2f, 0x62] kheapInit = .ok (some root, k') ∧
    partsOf root = [[0x61]] ∧
    partsOf root ≠ (components [0x30, 0x3a, 0x2f, 0x61, 0x2f, 0x2f, 0x62]).filter NonEmpty := by
  obtain ⟨r, k', hrun, root, rfl, -, hparts⟩ :=
    @pathparserParse_free [0x30, 0x3a, 0x2f, 0x61, 0x2f, 0x2f, 0x62] (by decide) kheapInit
      (kheapInit_freeBlocks (by decide))
  have hone : partsOf root = [[0x61]] := hparts.trans (by decide)
  refine ⟨root, k', hrun, hone, ?_⟩
  rw [hone]
  decide

end Dexter.PathContract
