import Dexter.Fs.Mounting
import Dexter.Lib.Runs

/-!
# The table of file systems (`fs/file.c`, `fs/disk.c`)

`fs_insert_filesystem` takes the first entry that is null, and does not come back where there is
none. `fs_resolve` asks the file systems of the table in their order until one takes the disk. What
the others have written to the disk stays there, but for `filesystem`, which `disk_search_and_init`
writes last.
-/

namespace Dexter.FileSystems
open Lib.Programs Lib.Runs KernelHeap

abbrev dexterMaxFilesystems : ℕ := 12

structure Filesystem where
  resolve : Disk → Prog Crash KernelHeap (ℤ × Disk)

abbrev Filesystems := ℕ → Option Filesystem

def fsGetFreeFilesystem (filesystems : Filesystems) : Option ℕ :=
  (List.range dexterMaxFilesystems).find? fun i => (filesystems i).isNone

def fsInsertFilesystem (filesystem : Filesystem) : Prog Crash Filesystems Unit := do
  let filesystems ← get
  match fsGetFreeFilesystem filesystems with
  | none => abort .hang
  | some i => modify fun filesystems => Function.update filesystems i (some filesystem)

def fat16Init : Filesystem := ⟨fat16ResolveDisk⟩

def fsStaticLoad : Prog Crash Filesystems Unit := fsInsertFilesystem fat16Init

def fsLoad : Prog Crash Filesystems Unit := do
  modify fun _ _ => none
  fsStaticLoad

def fsResolveFrom (filesystems : Filesystems) :
    ℕ → ℕ → Disk → Prog Crash KernelHeap (Option Filesystem × Disk)
  | 0, _, disk => pure (none, disk)
  | n + 1, i, disk =>
    match filesystems i with
    | none => fsResolveFrom filesystems n (i + 1) disk
    | some filesystem => do
      let r ← filesystem.resolve disk
      if r.1 = 0 then pure (some filesystem, r.2)
      else fsResolveFrom filesystems n (i + 1) r.2

def fsResolve (filesystems : Filesystems) (disk : Disk) :
    Prog Crash KernelHeap (Option Filesystem × Disk) :=
  fsResolveFrom filesystems dexterMaxFilesystems 0 disk

def clearedDisk (image : DiskImage) (past : ℕ → UInt8) : Disk := ⟨image, past, false, none⟩

def diskSearchAndInit (filesystems : Filesystems) (image : DiskImage) (past : ℕ → UInt8) :
    Prog Crash KernelHeap Disk := do
  let r ← fsResolve filesystems (clearedDisk image past)
  pure { r.2 with filesystem := r.1.isSome }

def tableOf (inserted : List Filesystem) : Filesystems := fun i => inserted[i]?

def step (filesystems : Filesystems) (filesystem : Filesystem) : Option Filesystems :=
  match fsInsertFilesystem filesystem filesystems with
  | .ok (_, filesystems') => some filesystems'
  | .error _ => none

inductive Rejected : List Filesystem → Disk → KernelHeap → Disk → KernelHeap → Prop
  | nil (disk : Disk) (k : KernelHeap) : Rejected [] disk k disk k
  | cons {filesystem : Filesystem} {rest : List Filesystem} {disk disk₁ disk₂ : Disk}
      {k k₁ k₂ : KernelHeap} {r : ℤ} (asked : filesystem.resolve disk k = .ok ((r, disk₁), k₁))
      (rejects : r ≠ 0) (others : Rejected rest disk₁ k₁ disk₂ k₂) :
      Rejected (filesystem :: rest) disk k disk₂ k₂

/-- The first file system that takes the disk is asked after those before it, and none behind it
is, or all of them reject the disk. -/
def TakenByFirst (inserted : List Filesystem) (disk : Disk) (k : KernelHeap) (disk' : Disk)
    (k' : KernelHeap) : Prop :=
  (∃ before filesystem after disk₀ k₀ disk₁, inserted = before ++ filesystem :: after ∧
    Rejected before disk k disk₀ k₀ ∧ filesystem.resolve disk₀ k₀ = .ok ((0, disk₁), k') ∧
    disk' = { disk₁ with filesystem := true }) ∨
  ∃ disk₀, Rejected inserted disk k disk₀ k' ∧ disk' = { disk₀ with filesystem := false }

section Insert
variable {inserted calls : List Filesystem} {filesystem : Filesystem} {t : Filesystems}

theorem fsGetFreeFilesystem_tableOf : fsGetFreeFilesystem (tableOf inserted) =
    if inserted.length < dexterMaxFilesystems then some inserted.length else none := by
  have hnone : ∀ i, (tableOf inserted i).isNone = true ↔ inserted.length ≤ i := fun i => by
    rw [tableOf, Option.isNone_iff_eq_none, List.getElem?_eq_none_iff]
  split_ifs with hlt
  · refine List.find?_range_eq_some.mpr ⟨(hnone _).mpr le_rfl, List.mem_range.mpr hlt, ?_⟩
    intro i hi
    rw [Bool.not_eq_true', ← Bool.not_eq_true, hnone]
    omega
  · refine List.find?_eq_none.mpr fun i hi => ?_
    rw [hnone]
    have := List.mem_range.mp hi
    omega

theorem tableOf_append : tableOf (inserted ++ [filesystem]) =
    Function.update (tableOf inserted) inserted.length (some filesystem) := by
  funext i
  by_cases hi : i = inserted.length
  · subst hi
    rw [Function.update_self, tableOf, List.getElem?_concat_length]
  · rw [Function.update_of_ne hi, tableOf, tableOf, List.getElem?_append]
    split_ifs with hlt
    · rfl
    · rw [List.getElem?_eq_none_iff.mpr (by simp; omega),
        List.getElem?_eq_none_iff.mpr (by omega)]

theorem step_tableOf : step (tableOf inserted) filesystem = some t ↔
    inserted.length < dexterMaxFilesystems ∧ t = tableOf (inserted ++ [filesystem]) := by
  rw [step, fsInsertFilesystem, bind_of_ok (get_apply _), fsGetFreeFilesystem_tableOf,
    tableOf_append]
  by_cases hlt : inserted.length < dexterMaxFilesystems
  · rw [if_pos hlt]
    show some (Function.update (tableOf inserted) inserted.length (some filesystem)) = some t ↔ _
    exact ⟨fun h => ⟨hlt, (Option.some.inj h).symm⟩, fun h => congrArg some h.2.symm⟩
  · rw [if_neg hlt]
    exact ⟨fun h => (nomatch h), fun h => absurd h.1 hlt⟩

theorem exec_tableOf : exec step (tableOf inserted) calls = some t ↔
    (calls = [] ∨ inserted.length + calls.length ≤ dexterMaxFilesystems) ∧
      t = tableOf (inserted ++ calls) := by
  induction calls generalizing inserted with
  | nil => simp [exec, eq_comm]
  | cons filesystem calls ih =>
    rw [exec_cons_some]
    constructor
    · rintro ⟨t₁, hstep, hrest⟩
      obtain ⟨hlt, rfl⟩ := step_tableOf.mp hstep
      obtain ⟨hlength, rfl⟩ := ih.mp hrest
      rw [List.length_append, List.length_singleton] at hlength
      refine ⟨Or.inr ?_, by rw [List.append_assoc, List.singleton_append]⟩
      rcases hlength with rfl | hle
      · exact hlt
      · rw [List.length_cons]
        omega
    · rintro ⟨hlength, rfl⟩
      have hle := hlength.resolve_left (List.cons_ne_nil _ _)
      rw [List.length_cons] at hle
      refine ⟨_, step_tableOf.mpr ⟨by omega, rfl⟩, ih.mpr ⟨Or.inr ?_, ?_⟩⟩
      · rw [List.length_append, List.length_singleton]
        omega
      · rw [List.append_assoc, List.singleton_append]

end Insert

section Resolve
variable {inserted rest : List Filesystem} {disk disk' : Disk} {k k' : KernelHeap} {n i : ℕ}
  {taken : Option Filesystem} {image : DiskImage} {past : ℕ → UInt8}

theorem fsResolveFrom_null (h : inserted.length ≤ i) :
    fsResolveFrom (tableOf inserted) n i disk = pure (none, disk) := by
  induction n generalizing i with
  | zero => rfl
  | succ n ih =>
    rw [fsResolveFrom, tableOf, List.getElem?_eq_none_iff.mpr h]
    exact ih (h.trans i.le_succ)

theorem fsResolveFrom_ok (hdrop : inserted.drop i = rest) (hn : rest.length ≤ n) :
    fsResolveFrom (tableOf inserted) n i disk k = .ok ((taken, disk'), k') ↔
      (∃ before filesystem after disk₀ k₀, rest = before ++ filesystem :: after ∧
        Rejected before disk k disk₀ k₀ ∧ filesystem.resolve disk₀ k₀ = .ok ((0, disk'), k') ∧
        taken = some filesystem) ∨
      Rejected rest disk k disk' k' ∧ taken = none := by
  induction rest generalizing n i disk k with
  | nil =>
    rw [fsResolveFrom_null (List.drop_eq_nil_iff.mp hdrop), pure_apply]
    constructor
    · intro h
      obtain ⟨hout, rfl⟩ := ok_inj h
      obtain ⟨rfl, rfl⟩ := Prod.mk.inj hout
      exact Or.inr ⟨.nil _ _, rfl⟩
    · rintro (⟨before, filesystem, after, disk₀, k₀, hnil, -⟩ | ⟨hrejected, rfl⟩)
      · exact absurd hnil.symm (by simp)
      · cases hrejected
        rfl
  | cons filesystem rest ih =>
    obtain ⟨n, rfl⟩ : ∃ m, n = m + 1 :=
      Nat.exists_eq_add_of_le' (Nat.le_trans (by simp) hn)
    have hat : tableOf inserted i = some filesystem := by
      rw [tableOf, ← Nat.add_zero i, ← List.getElem?_drop, hdrop]
      rfl
    have hdrop' : inserted.drop (i + 1) = rest := by
      rw [← List.drop_drop, hdrop]
      rfl
    have hrest : rest.length ≤ n := Nat.le_of_succ_le_succ hn
    rw [fsResolveFrom, hat]
    dsimp only
    constructor
    · intro h
      obtain ⟨⟨r, disk₁⟩, k₁, hasked, h⟩ := bind_ok.mp h
      dsimp only at h
      split_ifs at h with hr
      · subst hr
        obtain ⟨hout, rfl⟩ := ok_inj h
        obtain ⟨rfl, rfl⟩ := Prod.mk.inj hout
        exact Or.inl ⟨[], filesystem, rest, disk, k, rfl, .nil _ _, hasked, rfl⟩
      · rcases (ih hdrop' hrest).mp h with
          ⟨before, f, after, disk₀, k₀, rfl, hrejected, htakes, rfl⟩ | ⟨hrejected, rfl⟩
        · exact Or.inl ⟨filesystem :: before, f, after, disk₀, k₀, rfl,
            .cons hasked hr hrejected, htakes, rfl⟩
        · exact Or.inr ⟨.cons hasked hr hrejected, rfl⟩
    · rintro (⟨before, f, after, disk₀, k₀, hlist, hrejected, htakes, rfl⟩ | ⟨hrejected, rfl⟩)
      · cases before with
        | nil =>
          cases hrejected
          obtain ⟨rfl, rfl⟩ := List.cons.inj hlist
          rw [bind_of_ok htakes, if_pos rfl, pure_apply]
        | cons g before =>
          obtain ⟨rfl, rfl⟩ := List.cons.inj hlist
          cases hrejected with
          | cons hasked hr hothers =>
            rw [bind_of_ok hasked, if_neg hr]
            exact (ih hdrop' hrest).mpr
              (Or.inl ⟨before, f, after, disk₀, k₀, rfl, hothers, htakes, rfl⟩)
      · cases hrejected with
        | cons hasked hr hothers =>
          rw [bind_of_ok hasked, if_neg hr]
          exact (ih hdrop' hrest).mpr (Or.inr ⟨hothers, rfl⟩)

theorem diskSearchAndInit_tableOf (h : inserted.length ≤ dexterMaxFilesystems) :
    diskSearchAndInit (tableOf inserted) image past k = .ok (disk', k') ↔
      TakenByFirst inserted (clearedDisk image past) k disk' k' := by
  have hresolve := fun taken disk₁ k₁ => @fsResolveFrom_ok inserted inserted
    (clearedDisk image past) disk₁ k k₁ dexterMaxFilesystems 0 taken rfl h
  unfold diskSearchAndInit fsResolve
  constructor
  · intro hrun
    obtain ⟨⟨taken, disk₁⟩, k₁, hasked, hpure⟩ := bind_ok.mp hrun
    obtain ⟨rfl, rfl⟩ := ok_inj hpure
    rcases (hresolve _ _ _).mp hasked with
      ⟨before, f, after, disk₀, k₀, hlist, hrejected, htakes, rfl⟩ | ⟨hrejected, rfl⟩
    · exact Or.inl ⟨before, f, after, disk₀, k₀, disk₁, hlist, hrejected, htakes, rfl⟩
    · exact Or.inr ⟨disk₁, hrejected, rfl⟩
  · rintro (⟨before, f, after, disk₀, k₀, disk₁, hlist, hrejected, htakes, rfl⟩ |
      ⟨disk₀, hrejected, rfl⟩)
    · exact bind_of_ok ((hresolve _ _ _).mpr
        (Or.inl ⟨before, f, after, disk₀, k₀, hlist, hrejected, htakes, rfl⟩)) _
    · exact bind_of_ok ((hresolve _ _ _).mpr (Or.inr ⟨hrejected, rfl⟩)) _

/-- Any file systems can be inserted into the table, as long as there are no more than it has
entries, and then the disk gets the first of them that takes it. -/
theorem first_inserted_takes (inserted : List Filesystem) :
    ((∃ t, exec step (fun _ => none) inserted = some t) ↔
      inserted.length ≤ dexterMaxFilesystems) ∧
      ∀ t, exec step (fun _ => none) inserted = some t → ∀ image past k disk' k',
        diskSearchAndInit t image past k = .ok (disk', k') ↔
          TakenByFirst inserted (clearedDisk image past) k disk' k' := by
  have hexec : ∀ t, exec step (fun _ => none) inserted = some t ↔
      inserted.length ≤ dexterMaxFilesystems ∧ t = tableOf inserted := by
    intro t
    have h := @exec_tableOf [] inserted t
    rw [List.length_nil, Nat.zero_add, List.nil_append] at h
    refine h.trans (and_congr_left fun _ => ⟨?_, Or.inr⟩)
    rintro (rfl | hle)
    · exact Nat.zero_le _
    · exact hle
  refine ⟨⟨fun ⟨t, ht⟩ => ((hexec t).mp ht).1, fun h => ⟨_, (hexec _).mpr ⟨h, rfl⟩⟩⟩, ?_⟩
  intro t ht image past k disk' k'
  obtain ⟨hlength, rfl⟩ := (hexec t).mp ht
  exact diskSearchAndInit_tableOf hlength

theorem first_inserted_takes_second :
    let refuses : Filesystem := ⟨fun disk => pure (-eFsNotUs, { disk with filesystem := true })⟩
    let takes : Filesystem := ⟨fun disk => pure (0, disk)⟩
    ∃ t, exec step (fun _ => none) [refuses, takes] = some t ∧
      diskSearchAndInit t blankDisk.image blankDisk.past kheapInit =
        .ok ({ blankDisk with filesystem := true }, kheapInit) ∧
      diskSearchAndInit (tableOf [refuses]) blankDisk.image blankDisk.past kheapInit =
        .ok (blankDisk, kheapInit) := by
  intro refuses takes
  have hboth := first_inserted_takes [refuses, takes]
  obtain ⟨t, ht⟩ := hboth.1.mpr (by decide)
  have hrejected : ∀ k, Rejected [refuses] blankDisk k { blankDisk with filesystem := true } k :=
    fun k => .cons rfl (by decide) (.nil _ _)
  refine ⟨t, ht, (hboth.2 t ht _ _ _ _ _).mpr (Or.inl ?_),
    (diskSearchAndInit_tableOf (by decide)).mpr (Or.inr ⟨_, hrejected _, rfl⟩)⟩
  exact ⟨[refuses], takes, [], _, _, _, rfl, hrejected _, rfl, rfl⟩

end Resolve

section Fat16
variable {image : DiskImage} {past : ℕ → UInt8} {disk disk' : Disk} {k k' : KernelHeap} {r : ℤ}
  {fatPrivate : Option FatPrivate}

theorem fsLoad_ok (filesystems : Filesystems) :
    fsLoad filesystems = .ok ((), tableOf [fat16Init]) := by
  have hfree : fsGetFreeFilesystem (fun _ => none) = some 0 :=
    @fsGetFreeFilesystem_tableOf []
  rw [fsLoad, bind_of_ok (modify_apply _ _), fsStaticLoad, fsInsertFilesystem,
    bind_of_ok (get_apply _), hfree]
  exact congrArg (fun t => Except.ok ((), t)) (@tableOf_append [] fat16Init).symm

theorem fat16Resolve_zero_iff (h : fat16Resolve disk k = .ok ((r, fatPrivate), k')) :
    r = 0 ↔ fatPrivate.isSome := by
  obtain ⟨p, k₁, -, h⟩ := bind_ok.mp h
  split_ifs at h with hp
  · cases h
  obtain ⟨s₁, k₂, -, h⟩ := bind_ok.mp h
  obtain ⟨s₂, k₃, -, h⟩ := bind_ok.mp h
  obtain ⟨s₃, k₄, -, h⟩ := bind_ok.mp h
  obtain ⟨stream, k₅, -, h⟩ := bind_ok.mp h
  split_ifs at h with hsignature
  · obtain ⟨u, k₆, -, h⟩ := bind_ok.mp h
    obtain ⟨v, k₇, -, h⟩ := bind_ok.mp h
    cases h
    decide
  · obtain ⟨root, k₆, -, h⟩ := bind_ok.mp h
    obtain ⟨u, k₇, -, h⟩ := bind_ok.mp h
    cases root with
    | error e =>
      obtain ⟨v, k₈, -, h⟩ := bind_ok.mp h
      cases h
      decide
    | ok root =>
      cases h
      exact iff_of_true rfl rfl

theorem fat16GetRootDirectory_taken {m : ℕ} {total : ℤ} (hm : m < 25600)
    (htotal : fat16GetTotalItemsForDirectory disk disk.image.rootSector = .ok total) :
    Returns (Room m) (fat16GetRootDirectory disk disk.image.header) fun root _ =>
      (∃ rootDirectory, root = .ok rootDirectory) ∧ True := by
  rw [DiskImage.rootSector] at htotal
  rw [fat16GetRootDirectory, htotal]
  refine Returns.bind_ofExcept rfl ?_
  refine Returns.bind (Q := fun p _ => p ≠ 0 ∧ True) (fun k hk => ⟨_, _, step_apply _ k,
    malloc_of_last (hk.unused 25599 (by omega) (by decide)) _, trivial⟩) fun dir =>
    Returns.fact fun hdir => ?_
  exact Returns.ite_neg hdir (Returns.pure fun _ _ => ⟨⟨_, rfl⟩, trivial⟩)

theorem rootDirectory_counted :
    (∃ total, fat16GetTotalItemsForDirectory disk disk.image.rootSector = .ok total) ↔
      ∃ n, disk.image.itemByte disk.image.rootStart n = 0 := by
  constructor
  · rintro ⟨total, htotal⟩
    obtain ⟨n, used, hends, -⟩ := fat16GetTotalItems_ok_iff.mp htotal
    exact ⟨n, hends.1⟩
  · intro hend
    have hfirst := Nat.find_spec hend
    have hbefore : ∀ n < Nat.find hend, disk.image.itemByte disk.image.rootStart n ≠ 0 :=
      fun n hn => Nat.find_min hend hn
    exact ⟨_, fat16GetTotalItems_ok_iff.mpr ⟨_, _, ⟨hfirst, hbefore, rfl⟩, rfl⟩⟩

theorem fat16Resolve_signed {m : ℕ} (hm : m + 6 ≤ 25600)
    (hsignature : disk.image.header.signature = 0x29)
    (hend : ∃ n, disk.image.itemByte disk.image.rootStart n = 0) :
    Returns (Room m) (fat16Resolve disk) fun r _ => r.2.isSome := by
  obtain ⟨total, htotal⟩ := rootDirectory_counted.mpr hend
  have hroom : ∀ i ≤ 6, m + i ≤ 25600 := fun i hi => (Nat.add_le_add_left hi m).trans hm
  unfold fat16Resolve
  refine Returns.bind (kzalloc_page (by decide) (by decide) (hroom 1 (by decide))) fun p =>
    Returns.fact fun hp => Returns.ite_neg hp ?_
  refine Returns.bind (diskstreamerNew_room (hroom 2 (by decide))) fun s₁ =>
    Returns.fact fun _ => ?_
  refine Returns.bind (diskstreamerNew_room (hroom 3 (by decide))) fun s₂ =>
    Returns.fact fun _ => ?_
  refine Returns.bind (diskstreamerNew_room (hroom 4 (by decide))) fun s₃ =>
    Returns.fact fun _ => ?_
  refine Returns.bind (diskstreamerNew_room (hroom 5 (by decide))) fun stream =>
    Returns.fact fun _ => ?_
  dsimp only
  rw [header_of_read]
  refine Returns.ite_neg (not_not.mpr hsignature) ?_
  refine Returns.bind (fat16GetRootDirectory_taken (Nat.lt_of_lt_of_le (Nat.lt_succ_self _) hm)
    htotal) fun root => Returns.fact fun hroot => ?_
  obtain ⟨root, rfl⟩ := hroot
  exact Returns.bind (Q := fun _ _ => True) (fun k _ => ⟨(), k.free stream, modify_apply _ k,
    trivial⟩) fun _ => Returns.pure fun _ _ => rfl

/-- `fat16_resolve` comes back from every volume but those that have the signature and no end of the
root directory. -/
theorem fat16Resolve_returns_iff {m : ℕ} (hm : m + 6 ≤ 25600) (hk : Room m k) :
    (∃ r k', fat16Resolve disk k = .ok (r, k')) ↔
      (disk.image.header.signature = 0x29 →
        ∃ n, disk.image.itemByte disk.image.rootStart n = 0) := by
  constructor
  · rintro ⟨⟨r, fatPrivate⟩, k', h⟩ hsignature
    obtain ⟨p, k₁, -, h⟩ := bind_ok.mp h
    split_ifs at h with hp
    · cases h
    obtain ⟨s₁, k₂, -, h⟩ := bind_ok.mp h
    obtain ⟨s₂, k₃, -, h⟩ := bind_ok.mp h
    obtain ⟨s₃, k₄, -, h⟩ := bind_ok.mp h
    obtain ⟨stream, k₅, -, h⟩ := bind_ok.mp h
    rw [header_of_read, if_neg (not_not.mpr hsignature)] at h
    obtain ⟨root, k₆, hroot, -⟩ := bind_ok.mp h
    rw [fat16GetRootDirectory] at hroot
    obtain ⟨total, k₇, htotal, -⟩ := bind_ok.mp hroot
    exact rootDirectory_counted.mp ⟨total, (ofExcept_ok.mp htotal).1⟩
  · intro h
    by_cases hsignature : disk.image.header.signature = 0x29
    · obtain ⟨r, k', hrun, -⟩ := fat16Resolve_signed hm hsignature (h hsignature) hk
      exact ⟨r, k', hrun⟩
    · obtain ⟨r, k', hrun, -⟩ := fat16Resolve_unsigned
        ((Nat.add_le_add_left (by decide) m).trans hm) hsignature hk
      exact ⟨r, k', hrun⟩

theorem fat16Resolve_taken_iff {m : ℕ} (hm : m + 6 ≤ 25600) (hk : Room m k)
    (h : fat16Resolve disk k = .ok ((r, fatPrivate), k')) :
    fatPrivate.isSome ↔ disk.image.header.signature = 0x29 := by
  by_cases hsignature : disk.image.header.signature = 0x29
  · have hend := (fat16Resolve_returns_iff hm hk).mp ⟨_, _, h⟩ hsignature
    obtain ⟨r', k₁, hrun, hsome⟩ := fat16Resolve_signed hm hsignature hend hk
    obtain ⟨rfl, -⟩ := ok_inj (hrun.symm.trans h)
    exact iff_of_true hsome hsignature
  · obtain ⟨r', k₁, hrun, rfl⟩ := fat16Resolve_unsigned
      ((Nat.add_le_add_left (by decide) m).trans hm) hsignature hk
    obtain ⟨hout, -⟩ := ok_inj (hrun.symm.trans h)
    obtain ⟨-, rfl⟩ := Prod.mk.inj hout
    exact iff_of_false (by decide) hsignature

theorem fat16Resolve_kept (A : Set ℕ) (c : Prop) (disk : Disk) :
    Triple (Kept A c) (fat16Resolve disk) fun _ => Kept A c := by
  refine kzalloc_loose (by decide) fun p hp => Triple.ite (fun _ => Triple.abort) fun _ => ?_
  refine diskstreamerNew_loose fun s₁ _ => diskstreamerNew_loose fun s₂ _ =>
    diskstreamerNew_loose fun s₃ _ => diskstreamerNew_loose fun stream hloose => ?_
  have hfree : Triple (Kept A c) (kfree stream) fun _ => Kept A c := hloose.kfree rfl
  have hfree' : Triple (Kept A c) (kfree p) fun _ => Kept A c := hp.kfree rfl
  apply Triple.ite
  · intro _
    exact Triple.bind hfree fun _ => Triple.bind hfree' fun _ => Triple.pure fun _ hk => hk
  · intro _
    refine Triple.bind (fat16GetRootDirectory_kept disk (le16_lt _ _)) fun root =>
      Triple.bind hfree fun _ => ?_
    cases root with
    | error e => exact Triple.bind hfree' fun _ => Triple.pure fun _ hk => hk
    | ok root => exact Triple.pure fun _ hk => hk

/-- What `fat16_resolve` has written to `filesystem` is gone where it has rejected the disk. -/
theorem diskSearchAndInit_fat16 :
    diskSearchAndInit (tableOf [fat16Init]) image past k = .ok (disk', k') ↔
      ∃ r fatPrivate, fat16Resolve (clearedDisk image past) k = .ok ((r, fatPrivate), k') ∧
        disk' = ⟨image, past, fatPrivate.isSome, fatPrivate⟩ := by
  have hresolve : ∀ r disk₁, fat16Init.resolve (clearedDisk image past) k = .ok ((r, disk₁), k') ↔
      ∃ fatPrivate, fat16Resolve (clearedDisk image past) k = .ok ((r, fatPrivate), k') ∧
        disk₁ = ⟨image, past, true, fatPrivate⟩ := by
    intro r disk₁
    show fat16ResolveDisk (clearedDisk image past) k = .ok ((r, disk₁), k') ↔ _
    unfold fat16ResolveDisk
    constructor
    · intro h
      obtain ⟨⟨r', fatPrivate⟩, k₁, hrun, hpure⟩ := bind_ok.mp h
      cases hpure
      exact ⟨fatPrivate, hrun, rfl⟩
    · rintro ⟨fatPrivate, hrun, rfl⟩
      exact bind_of_ok hrun _
  rw [diskSearchAndInit_tableOf (by decide)]
  constructor
  · rintro (⟨before, f, after, disk₀, k₀, disk₁, hlist, hrejected, htakes, rfl⟩ |
      ⟨disk₀, hrejected, rfl⟩)
    · cases before with
      | cons g before => simp at hlist
      | nil =>
        cases hrejected
        obtain ⟨rfl, -⟩ := List.cons.inj hlist
        obtain ⟨fatPrivate, hrun, rfl⟩ := (hresolve 0 disk₁).mp htakes
        rw [← (fat16Resolve_zero_iff hrun).mp rfl]
        exact ⟨_, _, hrun, rfl⟩
    · cases hrejected with
      | cons hasked hr hothers =>
        cases hothers
        obtain ⟨fatPrivate, hrun, rfl⟩ := (hresolve _ _).mp hasked
        refine ⟨_, _, hrun, ?_⟩
        rw [Bool.eq_false_iff.mpr fun h => hr ((fat16Resolve_zero_iff hrun).mpr h)]
  · rintro ⟨r, fatPrivate, hrun, rfl⟩
    have hasked := (hresolve r _).mpr ⟨fatPrivate, hrun, rfl⟩
    by_cases hr : r = 0
    · subst hr
      rw [(fat16Resolve_zero_iff hrun).mp rfl]
      exact Or.inl ⟨[], _, [], _, _, _, rfl, .nil _ _, hasked, rfl⟩
    · rw [Bool.eq_false_iff.mpr fun h => hr ((fat16Resolve_zero_iff hrun).mpr h)]
      exact Or.inr ⟨_, .cons hasked hr (.nil _ _), rfl⟩

end Fat16

end Dexter.FileSystems
