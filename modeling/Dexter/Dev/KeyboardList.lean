import Dexter.Machine
import Dexter.Lib.Chains
import Dexter.Lib.Runs

/-!
# The list of keyboards (`dev/keyboard.c`)

`keyboard_insert` puts a keyboard behind the last one, whatever it is: one that cannot be
initialised, one that is in the list already, one that has a link of its own. The list stays a list
as long as it is given none of these.
-/

namespace Dexter.KeyboardList
open Lib.Programs Lib.Runs Lib.Chains

structure Keyboard where
  init : ℕ
  next : ℕ
  deriving DecidableEq, Repr

/-- `called` is ghost state: the functions that have been called, the latest last. -/
structure State where
  keyboards : ℕ → Keyboard
  keyboardListHead : ℕ
  keyboardListTail : ℕ
  called : List ℕ

def State.next (s : State) (p : ℕ) : ℕ := (s.keyboards p).next

def State.link (s : State) (keyboard : ℕ) : State :=
  if s.keyboardListTail ≠ 0 then
    { s with
      keyboards := Function.update s.keyboards s.keyboardListTail
        { s.keyboards s.keyboardListTail with next := keyboard }
      keyboardListTail := keyboard }
  else { s with keyboardListHead := keyboard, keyboardListTail := keyboard }

/-- `init` stands for what the functions return. The error for a keyboard without one is assigned
to `r`, and then the function goes on as with any other. -/
def keyboardInsert (init : ℕ → ℤ) (keyboard : ℕ) : Prog Crash State ℤ := do
  if keyboard = 0 then abort .nullPointer
  else do
    modify fun s => s.link keyboard
    let s ← get
    let f := (s.keyboards keyboard).init
    if f = 0 then abort .nullPointer
    else do
      modify fun s => { s with called := s.called ++ [f] }
      pure (init f)

def accept (s : State) (accepted : List ℕ) (keyboard : ℕ) : List ℕ :=
  if (s.keyboards keyboard).init = 0 ∨ keyboard ∈ accepted then accepted
  else accepted ++ [keyboard]

structure Listed (s : State) (accepted : List ℕ) : Prop where
  chain : Path s.next s.keyboardListHead accepted 0
  once : accepted.Nodup
  last : s.keyboardListTail = accepted.getLastD 0

def step (init : ℕ → ℤ) (c : State × List ℕ) (keyboard : ℕ) : Option (State × List ℕ) :=
  match keyboardInsert init keyboard c.1 with
  | .ok (_, s) => some (s, accept c.1 c.2 keyboard)
  | .error _ => none

def Inserted (init : ℕ → ℤ) (c : State × List ℕ) (keyboard : ℕ) : Prop :=
  ∃ r s, keyboardInsert init keyboard c.1 = .ok (r, s) ∧ Listed s (accept c.1 c.2 keyboard) ∧
    ((c.1.keyboards keyboard).init = 0 → r = -eInvArg ∧ s = c.1)

structure Fresh (c : State × List ℕ) (keyboard : ℕ) : Prop where
  nonzero : keyboard ≠ 0
  init : (c.1.keyboards keyboard).init ≠ 0
  unlisted : keyboard ∉ c.2
  unlinked : c.1.next keyboard = 0

section Insert
variable {init : ℕ → ℤ} {s s' : State} {accepted : List ℕ} {keyboard : ℕ} {r : ℤ}

theorem link_init (s : State) (keyboard p : ℕ) :
    ((s.link keyboard).keyboards p).init = (s.keyboards p).init := by
  unfold State.link
  split_ifs
  · by_cases hp : p = s.keyboardListTail
    · subst hp
      simp
    · simp [hp]
  · rfl

theorem link_tail (s : State) (keyboard : ℕ) : (s.link keyboard).keyboardListTail = keyboard := by
  unfold State.link
  split_ifs <;> rfl

theorem link_next_of_ne {p : ℕ} (h : p ≠ s.keyboardListTail) :
    (s.link keyboard).next p = s.next p := by
  unfold State.link State.next
  split_ifs
  · simp [h]
  · rfl

theorem link_next_tail (h : s.keyboardListTail ≠ 0) :
    (s.link keyboard).next s.keyboardListTail = keyboard := by
  simp [State.link, State.next, h]

theorem keyboardInsert_ok : keyboardInsert init keyboard s = .ok (r, s') ↔
    keyboard ≠ 0 ∧ (s.keyboards keyboard).init ≠ 0 ∧ r = init (s.keyboards keyboard).init ∧
      s' = { s.link keyboard with called := (s.link keyboard).called ++
        [(s.keyboards keyboard).init] } := by
  rw [keyboardInsert]
  by_cases hzero : keyboard = 0
  · simp [hzero]
  · rw [if_neg hzero, bind_of_ok (modify_apply _ s), bind_of_ok (get_apply _), link_init]
    by_cases hinit : (s.keyboards keyboard).init = 0
    · simp [hinit]
    · rw [if_neg hinit, bind_of_ok (modify_apply _ _), pure_apply]
      constructor
      · intro h
        obtain ⟨hr, hs⟩ := ok_inj h
        exact ⟨hzero, hinit, hr.symm, hs.symm⟩
      · rintro ⟨-, -, rfl, rfl⟩
        rfl

theorem Listed.snoc {before : List ℕ} {tail : ℕ} (h : Listed s (before ++ [tail])) :
    s.keyboardListTail = tail ∧ tail ≠ 0 ∧ tail ∉ before ∧
      Path s.next s.keyboardListHead before tail := by
  obtain ⟨hbefore, htail, -⟩ := path_snoc.mp h.chain
  obtain ⟨-, -, hdisjoint⟩ := List.nodup_append.mp h.once
  refine ⟨by simpa using h.last, htail, fun hmem => ?_, hbefore⟩
  exact hdisjoint tail hmem tail List.mem_cons_self rfl

theorem link_head (h : s.keyboardListTail ≠ 0) :
    (s.link keyboard).keyboardListHead = s.keyboardListHead := by
  rw [State.link, if_pos h]

theorem Listed.way_to_tail {before : List ℕ} {tail : ℕ} (h : Listed s (before ++ [tail]))
    (keyboard : ℕ) :
    Path (s.link keyboard).next (s.link keyboard).keyboardListHead before tail := by
  obtain ⟨htail, hne, hnot, hbefore⟩ := h.snoc
  rw [link_head (htail ▸ hne)]
  exact hbefore.congr fun x hx => link_next_of_ne fun heq => hnot (htail ▸ heq ▸ hx)

theorem link_listed_iff (h : Listed s accepted) (hzero : keyboard ≠ 0)
    (hunlisted : keyboard ∉ accepted) :
    Listed (s.link keyboard) (accepted ++ [keyboard]) ↔ s.next keyboard = 0 := by
  have hparts : Listed (s.link keyboard) (accepted ++ [keyboard]) ↔
      Path (s.link keyboard).next (s.link keyboard).keyboardListHead (accepted ++ [keyboard]) 0 := by
    refine ⟨Listed.chain, fun hchain => ⟨hchain, hchain.nodup, ?_⟩⟩
    rw [link_tail, List.getLastD_concat]
  rw [hparts, path_snoc]
  rcases List.eq_nil_or_concat' accepted with rfl | ⟨before, tail, rfl⟩
  · have htail : s.keyboardListTail = 0 := h.last
    have hnext : (s.link keyboard).next keyboard = s.next keyboard :=
      link_next_of_ne (htail ▸ hzero)
    have hhead : (s.link keyboard).keyboardListHead = keyboard := by
      rw [State.link, if_neg (not_not.mpr htail)]
    rw [hnext, hhead]
    exact ⟨fun hall => hall.2.2, fun hend => ⟨rfl, hzero, hend⟩⟩
  · have hway := h.way_to_tail keyboard
    obtain ⟨htail, hne, -, -⟩ := h.snoc
    subst htail
    have hkeyboard : keyboard ≠ s.keyboardListTail := fun heq => hunlisted (by simp [heq])
    rw [link_next_of_ne hkeyboard]
    refine ⟨fun hall => hall.2.2, fun hend => ⟨path_snoc.mpr ?_, hzero, hend⟩⟩
    exact ⟨hway, hne, link_next_tail hne⟩

theorem relink_not_listed (h : Listed s accepted) (hlisted : keyboard ∈ accepted) (l : List ℕ) :
    ¬Path (s.link keyboard).next (s.link keyboard).keyboardListHead l 0 := by
  intro hchain
  obtain ⟨before, tail, rfl⟩ :=
    (List.eq_nil_or_concat' accepted).resolve_left (List.ne_nil_of_mem hlisted)
  have hsame := h.way_to_tail keyboard
  obtain ⟨htail, hne, -, -⟩ := h.snoc
  subst htail
  obtain ⟨way, hway⟩ : ∃ way, Path (s.link keyboard).next keyboard way s.keyboardListTail := by
    rcases List.mem_append.mp hlisted with hmem | hmem
    · obtain ⟨first, second, rfl⟩ := List.append_of_mem hmem
      obtain ⟨b, -, hrest⟩ := path_append.mp hsame
      exact ⟨_, hrest.1 ▸ hrest⟩
    · exact ⟨[], List.mem_singleton.mp hmem⟩
  have hround : Path (s.link keyboard).next s.keyboardListTail (s.keyboardListTail :: way)
      s.keyboardListTail := ⟨rfl, hne, by rwa [link_next_tail hne]⟩
  exact List.cons_ne_nil _ _ (hchain.no_return hsame hround)

theorem inserted_iff (init : ℕ → ℤ) {c : State × List ℕ} (h : Listed c.1 c.2) :
    Inserted init c keyboard ↔ Fresh c keyboard := by
  constructor
  · rintro ⟨r, s, hrun, hlisted, -⟩
    obtain ⟨hzero, hinit, -, rfl⟩ := keyboardInsert_ok.mp hrun
    have hunlisted : keyboard ∉ c.2 := fun hmem => relink_not_listed h hmem _ hlisted.chain
    rw [accept, if_neg (by simp [hinit, hunlisted])] at hlisted
    exact ⟨hzero, hinit, hunlisted,
      (link_listed_iff h hzero hunlisted).mp ⟨hlisted.chain, hlisted.once, hlisted.last⟩⟩
  · intro ⟨hzero, hinit, hunlisted, hunlinked⟩
    have hlisted := (link_listed_iff h hzero hunlisted).mpr hunlinked
    refine ⟨_, _, keyboardInsert_ok.mpr ⟨hzero, hinit, rfl, rfl⟩, ?_, fun h0 => absurd h0 hinit⟩
    rw [accept, if_neg (by simp [hinit, hunlisted])]
    exact ⟨hlisted.chain, hlisted.once, hlisted.last⟩

theorem step_listed {c c' : State × List ℕ} (h : Listed c.1 c.2) (hfresh : Fresh c keyboard)
    (hstep : step init c keyboard = some c') : Listed c'.1 c'.2 := by
  obtain ⟨r, s, hrun, hlisted, -⟩ := (inserted_iff init h).mpr hfresh
  rw [step, hrun] at hstep
  obtain rfl := Option.some.inj hstep
  exact hlisted

end Insert

/-- In a run of insertions into an empty list, every call leaves the list sound exactly if every
keyboard that is inserted is fresh. -/
theorem inserts_sound_iff (init : ℕ → ℤ) (keyboards : ℕ → Keyboard) (called inserts : List ℕ) :
    Each (step init) (Inserted init) (⟨keyboards, 0, 0, called⟩, []) inserts ↔
      Each (step init) Fresh (⟨keyboards, 0, 0, called⟩, []) inserts := by
  have hempty : Listed ⟨keyboards, 0, 0, called⟩ [] := ⟨rfl, List.nodup_nil, rfl⟩
  exact each_iff_each (I := fun c => Listed c.1 c.2) (fun _ _ h => inserted_iff init h)
    (fun _ _ _ h hfresh hstep => step_listed h hfresh hstep) hempty

theorem insert_calls_null : ¬∀ (init : ℕ → ℤ) (keyboards : ℕ → Keyboard) (called inserts : List ℕ),
    Each (step init) (Inserted init) (⟨keyboards, 0, 0, called⟩, []) inserts := by
  intro h
  obtain ⟨r, s, hrun, -⟩ := (h (fun _ => 0) (fun _ => ⟨0, 0⟩) [] [0x9000]).1
  exact (keyboardInsert_ok.mp hrun).2.1 rfl

end Dexter.KeyboardList
