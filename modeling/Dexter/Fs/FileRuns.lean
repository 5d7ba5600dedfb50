import Dexter.Fs.File
import Dexter.Lib.Runs

/-!
# Runs of openings and closings

The state of a run is the file state with the list of the open file descriptors:
the numbers `fopen` has returned, each with the descriptor that this `fopen` made.
`Held` says that the open descriptors are objects in frames of their own. A run is
faithful as long as no `fopen` gives out the last of the 512 slots: its number, 512,
is out of range for `file_get_descriptor`.
-/

namespace Dexter.FileRuns
open Lib.Programs Lib.Runs KernelHeap

abbrev Open := ℤ × Option FileDescriptor

inductive Op
  | fopen (filename modeStr : CString)
  | fclose (fd : ℤ)
  deriving DecidableEq, Repr

def created (disk : Disk) (filename modeStr : CString) (s : FileState) : Option FileDescriptor :=
  match fopenBody disk filename modeStr s with
  | .ok (r, _) => r.2
  | .error _ => none

def step (disk : Disk) : FileState × List Open → Op → Option (FileState × List Open)
  | (s, opened), .fopen filename modeStr =>
    match fopen disk filename modeStr s with
    | .ok (r, s') =>
      some (s', if r = 0 then opened else (r, created disk filename modeStr s) :: opened)
    | .error _ => none
  | (s, opened), .fclose fd =>
    match fclose fd s with
    | .ok (r, s') => some (s', if r = 0 then opened.filter (·.1 ≠ fd) else opened)
    | .error _ => none

theorem step_fopen {disk : Disk} {s s' : FileState} {opened : List Open}
    {filename modeStr : CString} {r : ℤ} (h : fopen disk filename modeStr s = .ok (r, s')) :
    step disk (s, opened) (.fopen filename modeStr) =
      some (s', if r = 0 then opened else (r, created disk filename modeStr s) :: opened) := by
  simp only [step, h]

/-- The open numbers are different and lead to the descriptors made for them, which are
different objects; every other number is rejected. -/
structure Faithful (c : FileState × List Open) : Prop where
  distinct : (c.2.map Prod.fst).Nodup
  found : ∀ e ∈ c.2, e.2 ≠ none ∧ fileGetDescriptor c.1 e.1 = e.2
  objects : c.2.Pairwise fun e e' => e.2.map FileDescriptor.addr ≠ e'.2.map FileDescriptor.addr
  rejected : ∀ fd, fd ∉ c.2.map Prod.fst → fileGetDescriptor c.1 fd = none

/-- One of the first 511 slots is free, or there is no free slot at all, or the call of `fopen`
does not come to the table. -/
def SlotUsable (disk : Disk) (c : FileState × List Open) : Op → Prop
  | .fopen filename modeStr => (∃ i < 511, c.1.fileDescriptors i = none) ∨
      c.1.fileDescriptors 511 ≠ none ∨ ¬Opens disk filename modeStr c.1.heap
  | .fclose _ => True

def pointers (e : Open) : Set ℕ := {p | ∃ d, e.2 = some d ∧ p ∈ d.pointers}

def frames (opened : List Open) : Set ℕ := {p | ∃ e ∈ opened, p ∈ pointers e ∧ p ≠ 0}

structure Held (s : FileState) (opened : List Open) : Prop where
  slots : ∀ i d, s.fileDescriptors i = some d → i < 512 ∧ d.index = i + 1
  kept : Kept (frames opened) True s.heap
  apart : opened.Pairwise fun e e' => ∀ p ∈ pointers e, p ≠ 0 → p ∉ pointers e'
  aligned : ∀ e ∈ opened, ∀ p ∈ pointers e, p % 4096 = 0 ∧ p < 4294967296
  object : ∀ e ∈ opened, ∀ d, e.2 = some d → d.addr ≠ 0

section Table
variable {s s' : FileState} {i : ℕ} {x : Option FileDescriptor}

theorem fileGetDescriptor_some {fd : ℤ} {d : FileDescriptor}
    (h : fileGetDescriptor s fd = some d) :
    0 < fd ∧ fd < 512 ∧ s.fileDescriptors (fd - 1).toNat = some d := by
  unfold fileGetDescriptor at h
  split_ifs at h with hfd
  simp only [dexterMaxFileDescriptors] at hfd
  exact ⟨by omega, by omega, h⟩

theorem fileGetDescriptor_update (h : s'.fileDescriptors = Function.update s.fileDescriptors i x)
    {fd : ℤ} (hne : fd ≠ i + 1) : fileGetDescriptor s' fd = fileGetDescriptor s fd := by
  unfold fileGetDescriptor
  split_ifs with hfd
  · rfl
  · have hslot : (fd - 1).toNat ≠ i := by omega
    rw [h, Function.update_of_ne hslot]

theorem fileGetDescriptor_self (h : s'.fileDescriptors = Function.update s.fileDescriptors i x)
    (hi : i < 511) : fileGetDescriptor s' (i + 1) = x := by
  rw [fileGetDescriptor_slot hi, h, Function.update_self]

end Table

section Fopen
variable {disk : Disk} {s s' : FileState} {opened : List Open} {r : ℤ}
  {desc : Option FileDescriptor} {opens : Prop}

theorem objects_of_held (h : Held s opened) (hsome : ∀ e ∈ opened, e.2 ≠ none) :
    opened.Pairwise fun e e' => e.2.map FileDescriptor.addr ≠ e'.2.map FileDescriptor.addr := by
  apply h.apart.imp_of_mem
  intro e e' he he' hdis heq
  obtain ⟨d, hd⟩ := Option.ne_none_iff_exists'.mp (hsome e he)
  obtain ⟨d', hd'⟩ := Option.ne_none_iff_exists'.mp (hsome e' he')
  rw [hd, hd'] at heq
  have haddr : d.addr = d'.addr := Option.some.inj heq
  exact hdis d.addr ⟨d, hd, Or.inl rfl⟩ (h.object e he d hd) ⟨d', hd', Or.inl haddr⟩

theorem held_opens {i : ℕ} {d : FileDescriptor} (h : Held s opened)
    (hslot : freeSlot s.fileDescriptors = some i) (hindex : d.index = i + 1)
    (hobj : d.addr ≠ 0)
    (htable : s'.fileDescriptors = Function.update s.fileDescriptors i (some d))
    (hbuilt : Built (frames opened) True d.pointers s'.heap) :
    Held s' ((i + 1, some d) :: opened) := by
  obtain ⟨hi, hfree, -⟩ := freeSlot_some.mp hslot
  have hpointers : pointers ((i : ℤ) + 1, some d) = d.pointers := by
    ext p
    simp [pointers]
  constructor
  · intro j d' hj
    rw [htable, Function.update_apply] at hj
    split_ifs at hj with hji
    · obtain rfl := Option.some.inj hj
      exact ⟨hji ▸ hi, hji ▸ hindex⟩
    · exact h.slots j d' hj
  · apply hbuilt.all.mono
    intro p ⟨e, he, hp, h0⟩
    rcases List.mem_cons.mp he with rfl | he
    · exact Or.inr ⟨hpointers ▸ hp, h0⟩
    · exact Or.inl ⟨e, he, hp, h0⟩
  · refine List.pairwise_cons.mpr ⟨fun e he p hp h0 hpe => ?_, h.apart⟩
    rw [hpointers] at hp
    exact (hbuilt.loose p hp).1 ⟨e, he, hpe, h0⟩
  · intro e he p hp
    rcases List.mem_cons.mp he with rfl | he
    · rw [hpointers] at hp
      exact (hbuilt.loose p hp).2
    · exact h.aligned e he p hp
  · intro e he d' hd'
    rcases List.mem_cons.mp he with rfl | he
    · exact Option.some.inj hd' ▸ hobj
    · exact h.object e he d' hd'

theorem faithful_opens_iff {i : ℕ} {d : FileDescriptor} (hf : Faithful (s, opened))
    (hslot : freeSlot s.fileDescriptors = some i)
    (htable : s'.fileDescriptors = Function.update s.fileDescriptors i (some d))
    (hheld : Held s' ((i + 1, some d) :: opened)) :
    Faithful (s', (i + 1, some d) :: opened) ↔ i < 511 := by
  obtain ⟨hi, hfree, -⟩ := freeSlot_some.mp hslot
  constructor
  · intro hf'
    by_contra hge
    have hlook := (hf'.found _ List.mem_cons_self).2
    have hout : fileGetDescriptor s' (i + 1) = none := by
      unfold fileGetDescriptor
      rw [if_pos (by simp only [dexterMaxFileDescriptors]; omega)]
    rw [hout] at hlook
    cases hlook
  · intro hlt
    have hother : ∀ e ∈ opened, e.1 ≠ i + 1 := by
      intro e he heq
      obtain ⟨hsome, hfound⟩ := hf.found e he
      rw [heq, fileGetDescriptor_slot hlt] at hfound
      exact hsome (hfound.symm.trans hfree)
    have hfound : ∀ e ∈ ((i : ℤ) + 1, some d) :: opened,
        e.2 ≠ none ∧ fileGetDescriptor s' e.1 = e.2 := by
      intro e he
      rcases List.mem_cons.mp he with rfl | he
      · exact ⟨by simp, fileGetDescriptor_self htable hlt⟩
      · rw [fileGetDescriptor_update htable (hother e he)]
        exact hf.found e he
    constructor
    · refine List.nodup_cons.mpr ⟨fun hm => ?_, hf.distinct⟩
      obtain ⟨e, he, heq⟩ := List.mem_map.mp hm
      exact hother e he heq
    · exact hfound
    · exact objects_of_held hheld fun e he => (hfound e he).1
    · intro fd hfd
      simp only [List.map_cons, List.mem_cons, not_or] at hfd
      rw [fileGetDescriptor_update htable hfd.1]
      exact hf.rejected fd hfd.2

end Fopen

section Fclose
variable {s s' : FileState} {opened : List Open} {fd : ℤ} {desc : FileDescriptor}

theorem closes_spec (h : Held s opened) (hf : Faithful (s, opened))
    (hfound : fileGetDescriptor s fd = some desc)
    (htable : s'.fileDescriptors = Function.update s.fileDescriptors (desc.index - 1).toNat none)
    (hkept : ∀ A c, Loose A desc.pointers → Kept A c s.heap → Kept A c s'.heap) :
    Held s' (opened.filter (·.1 ≠ fd)) ∧ Faithful (s', opened.filter (·.1 ≠ fd)) := by
  obtain ⟨hpos, hlt, hslot⟩ := fileGetDescriptor_some hfound
  have hindex : (desc.index - 1).toNat = (fd - 1).toNat := by
    have := (h.slots _ _ hslot).2
    omega
  have hfd : fd = ((fd - 1).toNat : ℤ) + 1 := by omega
  rw [hindex] at htable
  have hmem : ∀ e, e ∈ opened.filter (·.1 ≠ fd) ↔ e ∈ opened ∧ e.1 ≠ fd := fun e => by
    simp
  -- the descriptor that is closed is one of the open ones
  obtain ⟨e₀, he₀, hfd₀⟩ : ∃ e ∈ opened, e.1 = fd := by
    by_contra hnone
    have hrej := hf.rejected fd fun hm => hnone (List.mem_map.mp hm)
    rw [hfound] at hrej
    cases hrej
  have hdesc₀ : e₀.2 = some desc := by
    have := (hf.found e₀ he₀).2
    rw [hfd₀, hfound] at this
    exact this.symm
  have hne : ∀ e ∈ opened.filter (·.1 ≠ fd), e ≠ e₀ := fun e he heq =>
    ((hmem e).mp he).2 (heq ▸ hfd₀)
  have hloose : Loose (frames (opened.filter (·.1 ≠ fd))) desc.pointers := by
    intro p hp
    have hp₀ : p ∈ pointers e₀ := ⟨desc, hdesc₀, hp⟩
    refine ⟨?_, h.aligned e₀ he₀ p hp₀⟩
    intro ⟨e, he, hpe, h0⟩
    have hsymm : Std.Symm fun e e' : Open => ∀ p ∈ pointers e, p ≠ 0 → p ∉ pointers e' :=
      ⟨fun _ _ hd p hp h0 hp' => hd p hp' h0 hp⟩
    exact h.apart.forall ((hmem e).mp he).1 he₀ (hne e he) p hpe h0 hp₀
  have hheld : Held s' (opened.filter (·.1 ≠ fd)) := by
    constructor
    · intro j d hj
      rw [htable, Function.update_apply] at hj
      split_ifs at hj
      exact h.slots j d hj
    · apply hkept _ _ hloose
      apply h.kept.mono
      intro p ⟨e, he, hp⟩
      exact ⟨e, ((hmem e).mp he).1, hp⟩
    · exact h.apart.sublist List.filter_sublist
    · exact fun e he => h.aligned e ((hmem e).mp he).1
    · exact fun e he => h.object e ((hmem e).mp he).1
  have hfound' : ∀ e ∈ opened.filter (·.1 ≠ fd),
      e.2 ≠ none ∧ fileGetDescriptor s' e.1 = e.2 := by
    intro e he
    obtain ⟨he, hefd⟩ := (hmem e).mp he
    rw [fileGetDescriptor_update htable (hfd ▸ hefd)]
    exact hf.found e he
  refine ⟨hheld, ?_, hfound', objects_of_held hheld fun e he => (hfound' e he).1, ?_⟩
  · exact hf.distinct.sublist (List.filter_sublist.map Prod.fst)
  · intro fd' hfd'
    by_cases heq : fd' = fd
    · rw [heq, hfd]
      exact fileGetDescriptor_self htable (by omega)
    · rw [fileGetDescriptor_update htable (hfd ▸ heq)]
      apply hf.rejected
      intro hm
      obtain ⟨e, he, he'⟩ := List.mem_map.mp hm
      exact hfd' (List.mem_map.mpr ⟨e, (hmem e).mpr ⟨he, he' ▸ heq⟩, he'⟩)

end Fclose

section Runs
variable {disk : Disk} {c c' : FileState × List Open} {a : Op}

theorem step_faithful (h : Held c.1 c.2) (hf : Faithful c) (hstep : step disk c a = some c') :
    (Faithful c' ↔ SlotUsable disk c a) ∧ Held c'.1 c'.2 := by
  obtain ⟨s, opened⟩ := c
  cases a with
  | fopen filename modeStr =>
    cases hrun : fopen disk filename modeStr s with
    | error e => simp [step, hrun] at hstep
    | ok p =>
      obtain ⟨r, s'⟩ := p
      rw [step_fopen hrun] at hstep
      obtain ⟨r₀, desc, hbody, hspec⟩ := fopen_spec h.kept hrun
      have hcreated : created disk filename modeStr s = desc := by
        unfold created
        rw [hbody]
      rw [hcreated] at hstep
      cases hspec with
      | fails _ why table kept =>
        rw [if_pos rfl] at hstep
        obtain rfl := Option.some.inj hstep
        have hsame : ∀ fd, fileGetDescriptor s' fd = fileGetDescriptor s fd := fun fd => by
          rw [fileGetDescriptor, table, fileGetDescriptor]
        have hf' : Faithful (s', opened) := by
          refine ⟨hf.distinct, fun e he => ?_, hf.objects, fun fd hfd => ?_⟩
          · rw [hsame]
            exact hf.found e he
          · rw [hsame]
            exact hf.rejected fd hfd
        refine ⟨⟨fun _ => ?_, fun _ => hf'⟩, ⟨?_, kept, h.apart, h.aligned, h.object⟩⟩
        · rcases why with hno | hfull
          · exact Or.inr (Or.inr hno)
          · exact Or.inr (Or.inl (freeSlot_none.mp hfull 511 (by decide)))
        · exact fun i d hi => h.slots i d (table ▸ hi)
      | opens i d _ opened' slot index object table built =>
        rw [if_neg (by omega)] at hstep
        obtain rfl := Option.some.inj hstep
        have hheld := held_opens h slot index object table built
        refine ⟨(faithful_opens_iff hf slot table hheld).trans ?_, hheld⟩
        obtain ⟨hi, hfree, hbefore⟩ := freeSlot_some.mp slot
        constructor
        · exact fun hlt => Or.inl ⟨i, hlt, hfree⟩
        · intro hslot
          by_contra hge
          obtain rfl : i = 511 := by omega
          rcases hslot with ⟨j, hj, hnone⟩ | hlast | hno
          · exact hbefore j hj hnone
          · exact hlast hfree
          · exact hno opened'
  | fclose fd =>
    dsimp only [step] at hstep
    cases hrun : fclose fd s with
    | error e => simp [hrun] at hstep
    | ok p =>
      obtain ⟨r, s'⟩ := p
      simp only [hrun] at hstep
      cases fclose_spec hrun with
      | rejects unknown =>
        rw [if_neg (by decide)] at hstep
        obtain rfl := Option.some.inj hstep
        exact ⟨⟨fun _ => trivial, fun _ => hf⟩, h⟩
      | closes desc _ found table kept =>
        rw [if_pos rfl] at hstep
        obtain rfl := Option.some.inj hstep
        have hboth := closes_spec h hf found table kept
        exact ⟨⟨fun _ => trivial, fun _ => hboth.2⟩, hboth.1⟩

theorem held_empty (heap : KernelHeap) : Held ⟨heap, fun _ => none⟩ [] := by
  refine ⟨fun i d hi => absurd hi (by simp), ⟨fun p hp => ?_, fun _ => trivial⟩,
    List.Pairwise.nil, ?_, ?_⟩
  · obtain ⟨e, he, -⟩ := hp
    exact absurd he List.not_mem_nil
  · exact fun e he => absurd he List.not_mem_nil
  · exact fun e he => absurd he List.not_mem_nil

/-- From the empty table of `fs_init` on, the file descriptors stay faithful exactly as long as
no `fopen` that comes to the table finds the last slot to be the only free one. -/
theorem faithful_iff_slot_usable (disk : Disk) (heap : KernelHeap) (ops : List Op) :
    Throughout (step disk) Faithful (⟨heap, fun _ => none⟩, []) ops ↔
      Along (step disk) (SlotUsable disk) (⟨heap, fun _ => none⟩, []) ops := by
  apply throughout_iff_along (I := fun c => Held c.1 c.2)
  · exact fun c a c' hI hP hstep => (step_faithful hI hP hstep).1
  · exact fun c a c' hI hP hstep _ => (step_faithful hI hP hstep).2
  · exact held_empty heap
  · refine ⟨List.nodup_nil, fun e he => absurd he List.not_mem_nil, List.Pairwise.nil,
      fun fd _ => ?_⟩
    unfold fileGetDescriptor
    split_ifs <;> rfl

end Runs

section Full
variable {disk : Disk} {c : FileState × List Open} {n : ℕ}

def Filled (n : ℕ) (c : FileState × List Open) : Prop :=
  ∀ i, c.1.fileDescriptors i ≠ none ↔ i < n

theorem Filled.freeSlot (h : Filled n c) (hn : n < 512) :
    freeSlot c.1.fileDescriptors = some n := by
  refine freeSlot_some.mpr ⟨hn, ?_, fun j hj => (h j).mpr hj⟩
  by_contra hne
  exact Nat.lt_irrefl n ((h n).mp hne)

theorem step_sample {dir s₁ s₂ s₃ : ℕ} (h : Filled n c) (hn : n < 512)
    (hroom : Room (8 * n + 6) c.1.heap) :
    Opens (sampleDisk (some (samplePrivate dir s₁ s₂ s₃))) samplePath [0x72] c.1.heap ∧
      ∃ c', step (sampleDisk (some (samplePrivate dir s₁ s₂ s₃))) c (.fopen samplePath [0x72]) =
        some c' ∧ Filled (n + 1) c' ∧ Room (8 * (n + 1) + 6) c'.1.heap := by
  obtain ⟨s, opened⟩ := c
  obtain ⟨r, s', hrun, ⟨-, desc, -, -, htable⟩, hroom'⟩ :=
    @fopen_room _ (sampleDisk (some (samplePrivate dir s₁ s₂ s₃))) _ _ _ _ samplePath_names
      (by omega) rfl rfl
      (sample_oneFile dir s₁ s₂ s₃) _ _ (h.freeSlot hn) _ ⟨rfl, hroom⟩
  obtain ⟨x, k, hopen, ⟨addr, fItem, copy, rfl, -⟩, -⟩ :=
    @fopenPrivate_room _ (sampleDisk (some (samplePrivate dir s₁ s₂ s₃))) _ _ _ _ samplePath_names
      (by omega) rfl rfl
      (sample_oneFile dir s₁ s₂ s₃) _ hroom
  refine ⟨⟨_, k, hopen⟩, ?_⟩
  refine ⟨_, step_fopen hrun, fun i => ?_, ?_⟩
  · show s'.fileDescriptors i ≠ none ↔ _
    rw [htable, Function.update_apply]
    split_ifs with hi
    · simp [hi]
    · rw [h i]
      omega
  · have hadd : 8 * n + 6 + 8 = 8 * (n + 1) + 6 := by omega
    exact hadd ▸ hroom'

/-- The 512th number that is handed out is rejected. -/
theorem full_table_not_faithful : ∃ fatPrivate k,
    fat16Resolve (sampleDisk none) kheapInit = .ok ((0, some fatPrivate), k) ∧
    ¬Throughout (step (sampleDisk (some fatPrivate))) Faithful (⟨k, fun _ => none⟩, [])
      (List.replicate 512 (.fopen samplePath [0x72])) := by
  have hinit : Room 0 kheapInit := ⟨kheapInit_unused, rfl⟩
  obtain ⟨r, k, hresolve, ⟨dir, s₁, s₂, s₃, rfl, -⟩, hroom⟩ := fat16Resolve_sample (by decide) hinit
  refine ⟨_, k, hresolve, ?_⟩
  -- `i` openings are still to come when `n` have been made
  have hrun : ∀ i n c, n + i = 511 → Held c.1 c.2 → Filled n c → Room (8 * n + 6) c.1.heap →
      ¬Throughout (step (sampleDisk (some (samplePrivate dir s₁ s₂ s₃)))) Faithful c
        (List.replicate (i + 1) (.fopen samplePath [0x72])) := by
    intro i
    induction i with
    | zero =>
      intro n c hn hheld hfilled hroom hall
      obtain ⟨hopens, c', hstep, hfilled', -⟩ := step_sample hfilled (by omega) hroom
      have husable := (step_faithful hheld hall.head hstep).1.mp (hall.2 c' hstep).head
      rcases husable with ⟨j, hj, hnone⟩ | hlast | hno
      · exact (hfilled j).mpr (by omega) hnone
      · have := (hfilled 511).mp hlast
        omega
      · exact hno hopens
    | succ i ih =>
      intro n c hn hheld hfilled hroom hall
      obtain ⟨-, c', hstep, hfilled', hroom'⟩ := step_sample hfilled (by omega) hroom
      have hheld' := (step_faithful hheld hall.head hstep).2
      exact ih (n + 1) c' (by omega) hheld' hfilled' hroom' (hall.2 c' hstep)
  refine hrun 511 0 _ rfl ?_ (fun i => by simp) hroom
  exact held_empty k

end Full

end Dexter.FileRuns
