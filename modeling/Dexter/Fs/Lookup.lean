import Dexter.Fs.Fat16

/-!
# What a lookup asks the heap for

`fat16_find_item_in_directory` builds an item for every entry that reads as the name, keeps the
last one and loses the others. Each of them asks for 8 bytes and for 32 for the copy of its entry,
and a subdirectory for what it is loaded into, which is given back where the read fails.
`afterEntries` is the store behind the first `n` entries, from the directory and the disk alone.
-/

namespace Dexter
open Lib.Programs Lib.Faults

def ReadsAs (d : FatDirectory) (i : ℕ) (name : CString) : Prop :=
  ∃ filename, fat16GetFullRelativeFilename (d.item i) = .ok filename ∧
    istrncmp (pathBuffer filename) (pathBuffer name) = 0

def NamesFit (d : FatDirectory) (n : ℕ) : Prop :=
  ∀ i < n, ∃ filename, fat16GetFullRelativeFilename (d.item i) = .ok filename

structure LastRead (d : FatDirectory) (name : CString) (n m : ℕ) : Prop where
  bound : m < n
  reads : ReadsAs d m name
  after : ∀ i, m < i → i < n → ¬ReadsAs d i name

section Reading
variable {d : FatDirectory} {name filename : CString} {i m m' n : ℕ}

theorem readsAs_iff (h : fat16GetFullRelativeFilename (d.item i) = .ok filename) :
    ReadsAs d i name ↔ istrncmp (pathBuffer filename) (pathBuffer name) = 0 := by
  constructor
  · intro ⟨filename', h', hcmp⟩
    rw [h] at h'
    exact Except.ok.inj h' ▸ hcmp
  · exact fun hcmp => ⟨filename, h, hcmp⟩

theorem LastRead.unique (h : LastRead d name n m) (h' : LastRead d name n m') : m = m' := by
  rcases Nat.lt_trichotomy m m' with hlt | heq | hgt
  · exact absurd h'.reads (h.after m' hlt h'.bound)
  · exact heq
  · exact absurd h.reads (h'.after m hgt h.bound)

theorem LastRead.here (h : ReadsAs d n name) : LastRead d name (n + 1) n :=
  ⟨Nat.lt_succ_self n, h, fun _ hi hlt => absurd hi (Nat.not_lt.mpr (Nat.le_of_lt_succ hlt))⟩

theorem LastRead.succ (h : LastRead d name n m) (hn : ¬ReadsAs d n name) :
    LastRead d name (n + 1) m := by
  refine ⟨Nat.lt_succ_of_lt h.bound, h.reads, fun i hi hlt => ?_⟩
  rcases Nat.lt_succ_iff_lt_or_eq.mp hlt with hlt | rfl
  · exact h.after i hi hlt
  · exact hn

end Reading

section Ledger
variable {σ : Type} [Requests σ] (disk : Disk) (item : FatDirectoryItem)

/-- Behind the load of a subdirectory, or nothing where the load does not come back. -/
def afterLoad (s : σ) : Option σ :=
  let directory := Requests.ask 16 s
  if directory.1 = 0 then some directory.2
  else do
    let fatPrivate ← disk.privateData.toOption
    let cluster := fat16GetFirstCluster item
    let total ← (fat16GetTotalItemsForDirectory disk
      (u32 (fat16ClusterToSector fatPrivate cluster))).toOption
    let items := Requests.ask (u32 (i32 (total * 32))) directory.2
    if items.1 = 0 then some (Requests.release directory.1 items.2)
    else do
      let r ← (fat16ReadInternal disk cluster 0 (i32 (total * 32))).toOption
      some (if r.1 ≠ 0 then Requests.release directory.1 (Requests.release items.1 items.2)
        else items.2)

def beforeCopy (s : σ) : Option σ :=
  if item.attributes &&& fatFileSubdirectory ≠ 0 then afterLoad disk item (Requests.ask 8 s).2
  else some (Requests.ask 8 s).2

def afterItem (s : σ) : Option σ :=
  if (Requests.ask 8 s).1 = 0 then some (Requests.ask 8 s).2
  else (beforeCopy disk item s).map fun s => (Requests.ask 32 s).2

/-- Behind the first entries, or nothing where the lookup does not come there. -/
def afterEntries (d : FatDirectory) (name : CString) : ℕ → σ → Option σ
  | 0, s => some s
  | n + 1, s => do
    let s ← afterEntries d name n s
    let filename ← (fat16GetFullRelativeFilename (d.item n)).toOption
    if istrncmp (pathBuffer filename) (pathBuffer name) = 0 then afterItem disk (d.item n) s
    else some s

end Ledger

section Lookup
variable {σ : Type} [Requests σ] {disk : Disk} {item : FatDirectoryItem} {d : FatDirectory}
  {name filename : CString} {s s' s₀ s₁ : σ} {m n : ℕ} {r : Option FatItem}

theorem kzalloc_apply (size : ℕ) (s : σ) :
    kzalloc size s = .ok ((Requests.ask size s).1, (Requests.ask size s).2) := rfl

theorem kfree_apply (p : ℕ) (s : σ) : kfree p s = .ok ((), Requests.release p s) := rfl

theorem fat16FreeDirectory_apply {d : FatDirectory} (h : d.itemAddr ≠ 0) (s : σ) :
    fat16FreeDirectory (some d) s =
      .ok ((), Requests.release d.addr (Requests.release d.itemAddr s)) := by
  simp only [fat16FreeDirectory]
  rw [onlyIf, if_pos h, bind_of_ok (kfree_apply _ s), kfree_apply]

theorem fat16LoadFatDirectory_leaves (hsub : item.attributes &&& fatFileSubdirectory ≠ 0) (s : σ) :
    leaves (fat16LoadFatDirectory disk item) s = afterLoad disk item s := by
  rw [fat16LoadFatDirectory, afterLoad, if_neg hsub, leaves_bind (kzalloc_apply 16 s), leaves_ite]
  refine if_congr Iff.rfl rfl ?_
  rw [leaves_bind_ofExcept]
  refine congrArg _ (funext fun fatPrivate => ?_)
  rw [leaves_bind_ofExcept]
  refine congrArg _ (funext fun total => ?_)
  rw [leaves_bind (kzalloc_apply _ _), leaves_ite]
  refine ite_congr rfl (fun _ => rfl) fun hitems => ?_
  rw [leaves_bind_ofExcept]
  refine congrArg _ (funext fun r => ?_)
  -- what was loaded into is freed where the read fails
  rw [leaves_bind (onlyIf_of_ok fun _ => fat16FreeDirectory_apply hitems _)]
  exact leaves_of_ok (pure_apply _ _)

theorem fat16NewFatItem_refused (h : (Requests.ask 8 s).1 = 0) :
    fat16NewFatItemForDirectoryItem disk item s = .ok (none, (Requests.ask 8 s).2) := by
  rw [fat16NewFatItemForDirectoryItem, bind_of_ok (kzalloc_apply 8 s), if_pos h, pure_apply]

theorem beforeCopy_leaves (disk : Disk) (item : FatDirectoryItem) (s : σ) :
    leaves (onlyIf (item.attributes &&& fatFileSubdirectory ≠ 0) do
      let _ ← fat16LoadFatDirectory disk item
      pure ()) (Requests.ask 8 s).2 = beforeCopy disk item s := by
  rw [onlyIf, leaves_ite, beforeCopy]
  refine ite_congr rfl (fun hsub => ?_) fun _ => rfl
  rw [← fat16LoadFatDirectory_leaves hsub]
  cases hload : fat16LoadFatDirectory disk item (Requests.ask 8 s).2 with
  | error e => rw [leaves, leaves, bind_of_error hload, hload]; rfl
  | ok p => rw [leaves_bind hload, leaves_of_ok hload, leaves_of_ok (pure_apply _ _)]

theorem fat16NewFatItem_built (h : (Requests.ask 8 s).1 ≠ 0) :
    fat16NewFatItemForDirectoryItem disk item s = .ok (r, s') ↔
      ∃ s₁, beforeCopy disk item s = some s₁ ∧ s' = (Requests.ask 32 s₁).2 ∧
        r = some ⟨(Requests.ask 8 s).1, .file (Requests.ask 32 s₁).1 item⟩ := by
  rw [fat16NewFatItemForDirectoryItem, bind_of_ok (kzalloc_apply 8 s), if_neg h, bind_ok]
  simp only [← beforeCopy_leaves, leaves_eq_some]
  constructor
  · intro h₀
    obtain ⟨u, s₁, hload, h₁⟩ := h₀
    obtain ⟨rfl, rfl⟩ := ok_inj h₁
    exact ⟨s₁, ⟨u, hload⟩, rfl, rfl⟩
  · rintro ⟨s₁, ⟨u, hload⟩, rfl, rfl⟩
    exact ⟨u, s₁, hload, rfl⟩

theorem fat16NewFatItem_leaves (disk : Disk) (item : FatDirectoryItem) (s : σ) :
    leaves (fat16NewFatItemForDirectoryItem disk item) s = afterItem disk item s := by
  rw [afterItem]
  split_ifs with h
  · exact leaves_of_ok (fat16NewFatItem_refused h)
  · ext s'
    simp only [leaves_eq_some, fat16NewFatItem_built h, Option.map_eq_some_iff]
    constructor
    · rintro ⟨r, s₁, hs₁, rfl, rfl⟩
      exact ⟨s₁, hs₁, rfl⟩
    · rintro ⟨s₁, hs₁, rfl⟩
      exact ⟨_, s₁, hs₁, rfl, rfl⟩

theorem fat16FindItem_succ (n : ℕ) :
    (fat16FindItemInDirectory disk { d with total := (n + 1 : ℕ) } name : Prog Crash σ _) = (do
      let fItem ← fat16FindItemInDirectory disk { d with total := n } name
      let tmpFilename ← ofExcept (fat16GetFullRelativeFilename (d.item n))
      if istrncmp (pathBuffer tmpFilename) (pathBuffer name) = 0 then
        fat16NewFatItemForDirectoryItem disk (d.item n)
      else pure fItem) := rfl

theorem fat16FindItem_total :
    (fat16FindItemInDirectory disk { d with total := d.total.toNat } name : Prog Crash σ _) =
      fat16FindItemInDirectory disk d name := by
  rw [fat16FindItemInDirectory, Int.toNat_natCast]
  rfl

theorem fat16FindItem_leaves (disk : Disk) (d : FatDirectory) (name : CString) (n : ℕ) (s : σ) :
    leaves (fat16FindItemInDirectory disk { d with total := n } name) s =
      afterEntries disk d name n s := by
  induction n with
  | zero => rfl
  | succ n ih =>
    rw [fat16FindItem_succ, afterEntries, ← ih]
    cases hrun : fat16FindItemInDirectory disk { d with total := n } name s with
    | error e =>
      rw [leaves, leaves, bind_of_error hrun, hrun]
      rfl
    | ok p =>
      rw [leaves_bind hrun, leaves_of_ok hrun, leaves_bind_ofExcept]
      refine congrArg _ (funext fun filename => ?_)
      rw [leaves_ite, fat16NewFatItem_leaves]
      rfl

theorem afterEntries_succ : afterEntries disk d name (n + 1) s = some s' ↔
    ∃ s₁ filename, afterEntries disk d name n s = some s₁ ∧
      fat16GetFullRelativeFilename (d.item n) = .ok filename ∧
        (if istrncmp (pathBuffer filename) (pathBuffer name) = 0 then afterItem disk (d.item n) s₁
          else some s₁) = some s' := by
  rw [afterEntries]
  cases afterEntries disk d name n s with
  | none => simp
  | some s₁ =>
    cases fat16GetFullRelativeFilename (d.item n) with
    | error e => simp [Except.toOption]
    | ok filename => simp [Except.toOption]

theorem afterEntries_fit (h : afterEntries disk d name n s = some s') : NamesFit d n := by
  induction n generalizing s' with
  | zero => exact fun i hi => absurd hi (Nat.not_lt_zero i)
  | succ n ih =>
    obtain ⟨s₁, filename, hbefore, hname, -⟩ := afterEntries_succ.mp h
    intro i hi
    rcases Nat.lt_succ_iff_lt_or_eq.mp hi with hlt | rfl
    · exact ih hbefore i hlt
    · exact ⟨filename, hname⟩

/-- What the lookup over the first `n` entries comes back with, and the store it leaves. -/
inductive Finds (disk : Disk) (d : FatDirectory) (name : CString) (n : ℕ) (s : σ) :
    Option FatItem → σ → Prop
  | nothing (unread : ∀ i < n, ¬ReadsAs d i name) : Finds disk d name n s none s
  | refused (m : ℕ) (s₀ : σ) (last : LastRead d name n m)
      (before : afterEntries disk d name m s = some s₀) (refused : (Requests.ask 8 s₀).1 = 0) :
      Finds disk d name n s none (Requests.ask 8 s₀).2
  | item (m : ℕ) (s₀ s₁ : σ) (last : LastRead d name n m)
      (before : afterEntries disk d name m s = some s₀) (built : (Requests.ask 8 s₀).1 ≠ 0)
      (loaded : beforeCopy disk (d.item m) s₀ = some s₁) :
      Finds disk d name n s
        (some ⟨(Requests.ask 8 s₀).1, .file (Requests.ask 32 s₁).1 (d.item m)⟩)
        (Requests.ask 32 s₁).2

theorem Finds.succ (h : Finds disk d name n s r s') (hn : ¬ReadsAs d n name) :
    Finds disk d name (n + 1) s r s' := by
  cases h with
  | nothing unread =>
    refine .nothing fun i hi => ?_
    rcases Nat.lt_succ_iff_lt_or_eq.mp hi with hlt | rfl
    · exact unread i hlt
    · exact hn
  | refused m s₀ last before refused => exact .refused m s₀ (last.succ hn) before refused
  | item m s₀ s₁ last before built loaded => exact .item m s₀ s₁ (last.succ hn) before built loaded

theorem fat16FindItem_finds
    (h : fat16FindItemInDirectory disk { d with total := n } name s = .ok (r, s')) :
    Finds disk d name n s r s' := by
  induction n generalizing r s' with
  | zero =>
    obtain ⟨rfl, rfl⟩ := ok_inj h
    exact .nothing fun i hi => absurd hi (Nat.not_lt_zero i)
  | succ n ih =>
    rw [fat16FindItem_succ] at h
    obtain ⟨r₀, s₀, hrun, h₁⟩ := bind_ok.mp h
    obtain ⟨filename, t, hread, h₂⟩ := bind_ok.mp h₁
    obtain ⟨hname, rfl⟩ := ofExcept_ok.mp hread
    have hbefore : afterEntries disk d name n s = some t := by
      rw [← fat16FindItem_leaves]
      exact leaves_of_ok hrun
    have hiff := @readsAs_iff d name filename n hname
    split_ifs at h₂ with hcmp
    · have hlast := LastRead.here (hiff.mpr hcmp)
      by_cases hask : (Requests.ask 8 t).1 = 0
      · rw [fat16NewFatItem_refused hask] at h₂
        obtain ⟨rfl, rfl⟩ := ok_inj h₂
        exact .refused n t hlast hbefore hask
      · obtain ⟨s₁, hs₁, rfl, rfl⟩ := (fat16NewFatItem_built hask).mp h₂
        exact .item n t s₁ hlast hbefore hask hs₁
    · obtain ⟨rfl, rfl⟩ := ok_inj h₂
      exact (ih hrun).succ fun hreads => hcmp (hiff.mp hreads)

theorem findItem_spec (h : fat16FindItemInDirectory disk d name s = .ok (r, s')) :
    afterEntries disk d name d.total.toNat s = some s' ∧
      Finds disk d name d.total.toNat s r s' := by
  rw [← fat16FindItem_total] at h
  refine ⟨?_, fat16FindItem_finds h⟩
  rw [← fat16FindItem_leaves]
  exact leaves_of_ok h

theorem findItem_returns (h : afterEntries disk d name d.total.toNat s = some s') :
    ∃ r, fat16FindItemInDirectory disk d name s = .ok (r, s') := by
  rw [← fat16FindItem_leaves, fat16FindItem_total] at h
  exact leaves_eq_some.mp h

/-- The lookup builds an item, and `s₁` is the store that the copy of its entry is asked from. -/
def AsksForCopy (disk : Disk) (d : FatDirectory) (name : CString) (s s₁ : σ) : Prop :=
  NamesFit d d.total.toNat ∧ ∃ m s₀, LastRead d name d.total.toNat m ∧
    afterEntries disk d name m s = some s₀ ∧ (Requests.ask 8 s₀).1 ≠ 0 ∧
      beforeCopy disk (d.item m) s₀ = some s₁

theorem afterEntries_unread {m n : ℕ} (hfit : NamesFit d (m + n))
    (hunread : ∀ i, m ≤ i → i < m + n → ¬ReadsAs d i name) :
    afterEntries disk d name (m + n) s = afterEntries disk d name m s := by
  induction n with
  | zero => rfl
  | succ n ih =>
    obtain ⟨filename, hname⟩ := hfit (m + n) (Nat.lt_succ_self _)
    have hnot : ¬istrncmp (pathBuffer filename) (pathBuffer name) = 0 := fun hcmp =>
      hunread (m + n) (Nat.le_add_right m n) (Nat.lt_succ_self _) ((readsAs_iff hname).mpr hcmp)
    have hbefore := ih (fun i hi => hfit i (Nat.lt_succ_of_lt hi)) fun i hi hlt =>
      hunread i hi (Nat.lt_succ_of_lt hlt)
    rw [← hbefore, ← Nat.add_assoc, afterEntries, hname]
    cases afterEntries disk d name (m + n) s with
    | none => rfl
    | some t => exact if_neg hnot

theorem AsksForCopy.afterEntries (h : AsksForCopy disk d name s s₁) :
    Dexter.afterEntries disk d name d.total.toNat s = some (Requests.ask 32 s₁).2 := by
  obtain ⟨hfit, m, s₀, last, before, built, loaded⟩ := h
  obtain ⟨filename, hname⟩ := hfit m last.bound
  have hitem : afterItem disk (d.item m) s₀ = some (Requests.ask 32 s₁).2 := by
    rw [afterItem, if_neg built, loaded]
    rfl
  have hnext : Dexter.afterEntries disk d name (m + 1) s = some (Requests.ask 32 s₁).2 :=
    afterEntries_succ.mpr ⟨s₀, filename, before, hname,
      (if_pos ((readsAs_iff hname).mp last.reads)).trans hitem⟩
  have hbound := last.bound
  obtain ⟨n, hn⟩ : ∃ n, d.total.toNat = m + 1 + n := ⟨d.total.toNat - (m + 1), by omega⟩
  rw [hn, afterEntries_unread (hn ▸ hfit) fun i hi hlt => last.after i hi (hn ▸ hlt)]
  exact hnext

theorem AsksForCopy.unique {t : σ} (h : AsksForCopy disk d name s s₁)
    (h' : AsksForCopy disk d name s t) : s₁ = t := by
  obtain ⟨-, m, s₀, last, before, -, loaded⟩ := h
  obtain ⟨-, m', t₀, last', before', -, loaded'⟩ := h'
  obtain rfl := last.unique last'
  obtain rfl : s₀ = t₀ := Option.some.inj (before.symm.trans before')
  exact Option.some.inj (loaded.symm.trans loaded')

theorem findItem_copy {x : FatItem}
    (h : fat16FindItemInDirectory disk d name s = .ok (some x, s')) :
    ∃ s₁ raw, AsksForCopy disk d name s s₁ ∧ x.addr ≠ 0 ∧
      x.body = .file (Requests.ask 32 s₁).1 raw ∧ s' = (Requests.ask 32 s₁).2 := by
  obtain ⟨hafter, hfinds⟩ := findItem_spec h
  cases hfinds with
  | item m s₀ s₁ last before built loaded =>
    have hfit := afterEntries_fit hafter
    exact ⟨s₁, d.item m, ⟨hfit, m, s₀, last, before, built, loaded⟩, built, rfl, rfl⟩

theorem AsksForCopy.finds (h : AsksForCopy disk d name s s₁) :
    ∃ x, fat16FindItemInDirectory disk d name s = .ok (some x, (Requests.ask 32 s₁).2) := by
  obtain ⟨r, hrun⟩ := findItem_returns h.afterEntries
  cases r with
  | some x => exact ⟨x, hrun⟩
  | none =>
    obtain ⟨-, m, s₀, last, before, built, -⟩ := h
    generalize (Requests.ask 32 s₁).2 = t at hrun
    cases (findItem_spec hrun).2 with
    | nothing unread => exact absurd last.reads (unread m last.bound)
    | refused m' s₀' last' before' refused =>
      obtain rfl := last.unique last'
      obtain rfl : s₀ = s₀' := Option.some.inj (before.symm.trans before')
      exact absurd refused built

theorem Finds.body (h : Finds disk d name n s r s') {x : FatItem} (hr : r = some x) :
    ∃ m copy, LastRead d name n m ∧ x.body = .file copy (d.item m) := by
  cases h with
  | nothing unread => cases hr
  | refused m s₀ last before refused => cases hr
  | item m s₀ s₁ last before built loaded =>
    obtain rfl := Option.some.inj hr
    exact ⟨m, _, last, rfl⟩

theorem fat16WalkPath_file {x : FatItem} {copy : ℕ} {raw : FatDirectoryItem}
    (h : x.body = .file copy raw) (rest : List PathPart) :
    (fat16WalkPath disk rest (some x) : Prog Crash σ _) =
      pure (if rest = [] then some x else none) := by
  cases rest with
  | nil => rfl
  | cons part rest =>
    rw [fat16WalkPath, if_neg (List.cons_ne_nil part rest)]
    rw [h]

theorem getDirectoryEntry_ok {fatPrivate : FatPrivate} {first : PathPart} {rest : List PathPart}
    (hp : disk.fsPrivate = some fatPrivate) :
    fat16GetDirectoryEntry disk (first :: rest) s = .ok (r, s') ↔
      ∃ r₀, fat16FindItemInDirectory disk fatPrivate.rootDirectory.toFatDirectory first.part s =
        .ok (r₀, s') ∧ r = if rest = [] then r₀ else none := by
  have hdata : (ofExcept disk.privateData : Prog Crash σ FatPrivate) s = .ok (fatPrivate, s) := by
    rw [privateData_of_some hp]
    rfl
  rw [fat16GetDirectoryEntry, bind_of_ok hdata, bind_ok]
  have hfile : ∀ {x t}, fat16FindItemInDirectory disk fatPrivate.rootDirectory.toFatDirectory
      first.part s = .ok (some x, t) → (fat16WalkPath disk rest (some x) : Prog Crash σ _) =
        pure (if rest = [] then some x else none) := by
    intro x t hfind
    obtain ⟨m, copy, -, hbody⟩ := (findItem_spec hfind).2.body rfl
    exact fat16WalkPath_file hbody rest
  constructor
  · intro h
    obtain ⟨r₀, t, hfind, h⟩ := h
    cases r₀ with
    | none =>
      obtain ⟨rfl, rfl⟩ := ok_inj h
      exact ⟨none, hfind, (ite_self _).symm⟩
    | some x =>
      dsimp only at h
      rw [hfile hfind] at h
      obtain ⟨rfl, rfl⟩ := ok_inj h
      exact ⟨some x, hfind, rfl⟩
  · rintro ⟨r₀, hfind, rfl⟩
    refine ⟨r₀, s', hfind, ?_⟩
    cases r₀ with
    | none =>
      rw [ite_self]
      rfl
    | some x =>
      dsimp only
      rw [hfile hfind, pure_apply]

end Lookup

end Dexter
