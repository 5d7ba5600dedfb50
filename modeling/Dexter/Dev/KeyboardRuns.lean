import Dexter.Dev.Keyboard
import Dexter.Lib.Ring

/-!
# Runs of the keyboard buffer

The buffer of the process that is typed at, against the list of the characters that have been
pushed and not popped. There is no count in the buffer and no test of its room: what is unread
starts at the head and ends at the first empty cell, and the tail is where the next character
goes, wherever that is.
-/

namespace Dexter.KeyboardRuns
open Lib.Programs Lib.Runs Lib.Ring KernelState Keyboard

structure Plugged (p : ℕ) (s : KernelState) : Prop where
  process : s.currentProcess = p
  nonzero : p ≠ 0
  current : s.currentTask ≠ 0
  task : ∃ a, s.tasks s.currentTask = some a ∧ a.process = p

inductive Op
  | push (c : UInt8)
  | pop
  | backspace
  deriving DecidableEq, Repr

structure Session where
  kernel : KernelState
  pushed : List UInt8
  popped : List UInt8
  unread : List UInt8
  expected : List UInt8

def Session.start (s : KernelState) : Session := ⟨s, [], [], [], []⟩

def step (p : ℕ) (t : Session) : Op → Option Session
  | .push c =>
    match keyboardPush c t.kernel with
    | .ok (_, k) => some { t with
        kernel := k
        pushed := t.pushed ++ [c]
        unread := t.unread ++ [c] }
    | .error _ => none
  | .pop =>
    match keyboardPop t.kernel with
    | .ok (c, k) => some { t with
        kernel := k
        popped := t.popped ++ [c]
        unread := t.unread.tail
        expected := t.expected ++ [t.unread.headD 0] }
    | .error _ => none
  | .backspace =>
    match keyboardBackspace p t.kernel with
    | .ok (_, k) => some { t with
        kernel := k
        unread := t.unread.dropLast }
    | .error _ => none

/-- The buffer of the process holds `q` from its head on, and the tail is behind it. -/
structure Unread (x : Process) (q : List UInt8) : Prop where
  holds : Holds dexterKeyboardBufferSize 0 x.keyboard.buffer (keyboardGetHeadIndex x) q
  tail : x.keyboard.tail = i32 (x.keyboard.head + q.length)

def Fresh (p : ℕ) (s : KernelState) : Prop :=
  Plugged p s ∧ ∃ x, s.processAt p = some x ∧ x.keyboard = Process.zero.keyboard

def Follows (p : ℕ) (t : Session) : Prop :=
  t.popped = t.expected ∧ ∃ x, t.kernel.processAt p = some x ∧ Unread x t.unread

def Typed (t : Session) : Op → Prop
  | .push c => c ≠ 0 ∧ t.unread.length < dexterKeyboardBufferSize
  | .pop => True
  | .backspace => True

def Queued (t : Session) : Op → Prop
  | .push c => c ≠ 0 ∧ t.unread.length < dexterKeyboardBufferSize
  | .pop => True
  | .backspace => False

def TakesBackUnread (t : Session) : Op → Prop
  | .backspace => t.unread ≠ []
  | _ => True

section Calls
variable {p : ℕ} {s : KernelState} {x : Process} {q : List UInt8} {c : UInt8}

theorem Plugged.put (h : Plugged p s) (x : Process) : Plugged p (s.putProcess p x) :=
  ⟨h.process, h.nonzero, h.current, h.task⟩

theorem push_eq (h : Plugged p s) (hx : s.processAt p = some x) (c : UInt8) :
    keyboardPush c s = .ok ((), s.putProcess p (pushed c x)) := by
  have hprocess : processCurrent s = .ok (p, s) := by
    rw [processCurrent, bind_of_ok (get_apply s), h.process, pure_apply]
  rw [keyboardPush, bind_of_ok hprocess, if_neg h.nonzero]
  exact setProcess_ok.mpr ⟨h.nonzero, x, hx, rfl⟩

theorem pop_eq (h : Plugged p s) (hx : s.processAt p = some x) : keyboardPop s =
    if x.keyboard.buffer (keyboardGetHeadIndex x) = 0 then .ok (0, s)
    else .ok (x.keyboard.buffer (keyboardGetHeadIndex x), s.putProcess p (popped x)) := by
  obtain ⟨a, ha, hp⟩ := h.task
  have htask : onTasks (TaskLayer.taskAt s.currentTask) s = .ok (a, s) :=
    onTasks_ok.mpr ⟨_, TaskLayer.taskAt_of_some h.current ha, rfl⟩
  rw [keyboardPop, bind_of_ok (get_apply s), if_neg h.current, bind_of_ok htask, hp,
    bind_of_ok (getProcess_ok.mpr ⟨h.nonzero, hx, rfl⟩)]
  split_ifs with hc
  · rfl
  · have hset : setProcess p popped s = .ok ((), s.putProcess p (popped x)) :=
      setProcess_ok.mpr ⟨h.nonzero, x, hx, rfl⟩
    rw [bind_of_ok hset, pure_apply]

theorem backspace_eq (h : Plugged p s) (hx : s.processAt p = some x) :
    keyboardBackspace p s = .ok ((), s.putProcess p (backspaced x)) :=
  setProcess_ok.mpr ⟨h.nonzero, x, hx, rfl⟩

theorem u32_i32_mod (x : ℤ) : u32 (i32 x) % 1024 = u32 x % 1024 := by
  unfold u32 i32
  omega

theorem u32_add_mod (x : ℤ) (n : ℕ) : u32 (x + n) % 1024 = (u32 x % 1024 + n) % 1024 := by
  unfold u32
  omega

theorem Unread.tailIndex (h : Unread x q) :
    keyboardGetTailIndex x = (keyboardGetHeadIndex x + q.length) % 1024 := by
  rw [keyboardGetTailIndex, h.tail, dexterKeyboardBufferSize, u32_i32_mod, u32_add_mod]
  rfl

theorem headIndex_popped (x : Process) :
    keyboardGetHeadIndex (popped x) = (keyboardGetHeadIndex x + 1) % 1024 := by
  show u32 (i32 (x.keyboard.head + 1)) % 1024 = _
  rw [u32_i32_mod]
  exact u32_add_mod x.keyboard.head 1

theorem headIndex_lt (x : Process) : keyboardGetHeadIndex x < 1024 := Nat.mod_lt _ (by decide)

theorem holds_popped {c : UInt8}
    (h : Holds 1024 0 x.keyboard.buffer (keyboardGetHeadIndex x) (c :: q)) :
    Holds 1024 0 (popped x).keyboard.buffer (keyboardGetHeadIndex (popped x)) q := by
  have htail := h.tail
  rw [Nat.mod_eq_of_lt (headIndex_lt x)] at htail
  refine htail.congr_head ?_
  rw [headIndex_popped, Nat.mod_mod]

theorem Unread.pushed (h : Unread x q) (hroom : q.length < 1024) (hc : c ≠ 0) :
    Unread (pushed c x) (q ++ [c]) := by
  constructor
  · have hsnoc := h.holds.snoc hroom hc
    rw [dexterKeyboardBufferSize, ← h.tailIndex] at hsnoc
    exact hsnoc
  · show i32 (x.keyboard.tail + 1) = i32 (x.keyboard.head + (q ++ [c]).length)
    rw [h.tail, i32_i32_add, List.length_append, List.length_singleton, Nat.cast_add, Nat.cast_one,
      add_assoc]

theorem Unread.popped (h : Unread x (c :: q)) : Unread (popped x) q := by
  constructor
  · exact holds_popped h.holds
  · show x.keyboard.tail = i32 (i32 (x.keyboard.head + 1) + q.length)
    rw [h.tail, i32_i32_add, List.length_cons, Nat.cast_add, Nat.cast_one, add_assoc,
      add_comm (q.length : ℤ) 1]

theorem Unread.backspaced (h : Unread x (q ++ [c])) : Unread (backspaced x) q := by
  have htail : i32 (x.keyboard.tail - 1) = i32 (x.keyboard.head + q.length) := by
    rw [h.tail, sub_eq_add_neg, i32_i32_add, List.length_append, List.length_singleton,
      Nat.cast_add, Nat.cast_one]
    ring_nf
  refine ⟨?_, htail⟩
  have hdrop := h.holds.dropLast
  have hplace : u32 (i32 (x.keyboard.tail - 1)) % 1024 =
      (keyboardGetHeadIndex x + q.length) % 1024 := by
    rw [htail, u32_i32_mod, u32_add_mod]
    rfl
  rw [dexterKeyboardBufferSize, ← hplace] at hdrop
  exact hdrop

theorem Fresh.unread (h : Fresh p s) : ∃ x, s.processAt p = some x ∧ Unread x [] := by
  obtain ⟨-, x, hx, hzero⟩ := h
  refine ⟨x, hx, holds_nil fun i => ?_, ?_⟩
  · rw [hzero]
    rfl
  · rw [hzero]
    rfl

end Calls

def typist : KernelState :=
  { bootKernel with
    tasks := Function.update (fun _ => none) 64 (some { Task.zero with process := 4096 })
    taskHead := 64
    taskTail := 64
    currentTask := 64
    processAt := Function.update (fun _ => none) 4096 (some .zero)
    currentProcess := 4096 }

theorem typist_fresh : Fresh 4096 typist :=
  ⟨⟨rfl, by decide, by decide, _, rfl, rfl⟩, .zero, rfl, rfl⟩

section List
variable {p : ℕ} {s : KernelState} {t t' : Session} {op : Op} {x : Process} {q : List UInt8}

theorem step_push (h : Plugged p t.kernel) (hx : t.kernel.processAt p = some x) (c : UInt8) :
    step p t (.push c) = some { t with
      kernel := t.kernel.putProcess p (pushed c x)
      pushed := t.pushed ++ [c]
      unread := t.unread ++ [c] } := by
  rw [step, push_eq h hx]

theorem step_pop_empty (h : Plugged p t.kernel) (hx : t.kernel.processAt p = some x)
    (hc : x.keyboard.buffer (keyboardGetHeadIndex x) = 0) : step p t .pop = some { t with
      popped := t.popped ++ [0]
      unread := t.unread.tail
      expected := t.expected ++ [t.unread.headD 0] } := by
  rw [step, pop_eq h hx, if_pos hc]

theorem step_pop (h : Plugged p t.kernel) (hx : t.kernel.processAt p = some x)
    (hc : x.keyboard.buffer (keyboardGetHeadIndex x) ≠ 0) : step p t .pop = some { t with
      kernel := t.kernel.putProcess p (popped x)
      popped := t.popped ++ [x.keyboard.buffer (keyboardGetHeadIndex x)]
      unread := t.unread.tail
      expected := t.expected ++ [t.unread.headD 0] } := by
  rw [step, pop_eq h hx, if_neg hc]

theorem step_backspace (h : Plugged p t.kernel) (hx : t.kernel.processAt p = some x) :
    step p t .backspace = some { t with
      kernel := t.kernel.putProcess p (backspaced x)
      unread := t.unread.dropLast } := by
  rw [step, backspace_eq h hx]

theorem step_plugged (h : Plugged p t.kernel) (hx : ∃ x, t.kernel.processAt p = some x) (op : Op) :
    ∃ t', step p t op = some t' ∧ Plugged p t'.kernel ∧ ∃ x, t'.kernel.processAt p = some x := by
  obtain ⟨x, hx⟩ := hx
  cases op with
  | push c => exact ⟨_, step_push h hx c, h.put _, _, putProcess_self _ _ _⟩
  | pop =>
    by_cases hc : x.keyboard.buffer (keyboardGetHeadIndex x) = 0
    · exact ⟨_, step_pop_empty h hx hc, h, x, hx⟩
    · exact ⟨_, step_pop h hx hc, h.put _, _, putProcess_self _ _ _⟩
  | backspace => exact ⟨_, step_backspace h hx, h.put _, _, putProcess_self _ _ _⟩

theorem step_stays (h : Plugged p t.kernel) (hx : ∃ x, t.kernel.processAt p = some x)
    (hstep : step p t op = some t') : Plugged p t'.kernel := by
  obtain ⟨t'', ht'', hp, -⟩ := step_plugged h hx op
  obtain rfl := Option.some.inj (hstep.symm.trans ht'')
  exact hp

theorem Unread.headCell (h : Unread x q) :
    x.keyboard.buffer (keyboardGetHeadIndex x) = q.headD 0 := by
  have hhead := h.holds.head (by decide)
  rwa [dexterKeyboardBufferSize, Nat.mod_eq_of_lt (headIndex_lt x)] at hhead

theorem pop_follows (h : Plugged p t.kernel) (hf : Follows p t) (hstep : step p t .pop = some t') :
    Follows p t' := by
  obtain ⟨hpopped, x, hx, hunread⟩ := hf
  have hhead := hunread.headCell
  cases hq : t.unread with
  | nil =>
    rw [hq] at hhead
    rw [step_pop_empty h hx hhead] at hstep
    obtain rfl := Option.some.inj hstep
    refine ⟨by simp [hpopped, hq], x, hx, ?_⟩
    rwa [hq, List.tail_nil, ← hq]
  | cons c q =>
    rw [hq] at hhead hunread
    have hc : c ≠ 0 := fun h0 => hunread.holds.filled (h0 ▸ List.mem_cons_self)
    rw [step_pop h hx (by rw [hhead]; exact hc)] at hstep
    obtain rfl := Option.some.inj hstep
    refine ⟨by simp [hpopped, hhead, hq], _, putProcess_self _ _ _, ?_⟩
    rw [hq]
    exact hunread.popped

/-- A character that is taken back where none is unread moves the tail in front of the head. -/
theorem not_unread_backspaced (h : Unread x []) : ¬Unread (backspaced x) [] := by
  intro hb
  have htail : i32 (x.keyboard.tail - 1) = i32 (x.keyboard.head + ([] : List UInt8).length) := hb.tail
  rw [← h.tail] at htail
  have hrange : i32 x.keyboard.tail = x.keyboard.tail := by
    rw [h.tail, i32_i32]
  unfold i32 at htail hrange
  omega

theorem step_follows (h : Plugged p t.kernel) (hf : Follows p t) (hop : Typed t op)
    (hstep : step p t op = some t') : Follows p t' ↔ TakesBackUnread t op := by
  cases op with
  | push c =>
    refine iff_of_true ?_ trivial
    obtain ⟨hpopped, x, hx, hunread⟩ := hf
    rw [step_push h hx] at hstep
    obtain rfl := Option.some.inj hstep
    exact ⟨hpopped, _, putProcess_self _ _ _, hunread.pushed hop.2 hop.1⟩
  | pop => exact iff_of_true (pop_follows h hf hstep) trivial
  | backspace =>
    obtain ⟨hpopped, x, hx, hunread⟩ := hf
    rw [step_backspace h hx] at hstep
    obtain rfl := Option.some.inj hstep
    rcases List.eq_nil_or_concat' t.unread with hnil | ⟨q, c, hq⟩
    · refine iff_of_false (fun hf' => ?_) (not_not.mpr hnil)
      obtain ⟨-, y, hy, hunread'⟩ := hf'
      obtain rfl := Option.some.inj ((putProcess_self _ _ _).symm.trans hy)
      simp only [hnil, List.dropLast_nil] at hunread hunread'
      exact not_unread_backspaced hunread hunread'
    · refine iff_of_true ⟨hpopped, _, putProcess_self _ _ _, ?_⟩ (by simp [TakesBackUnread, hq])
      simp only [hq, List.dropLast_concat]
      exact (hq ▸ hunread).backspaced

theorem Fresh.follows (h : Fresh p s) : Follows p (.start s) := ⟨rfl, h.unread⟩

structure Delivered (t : Session) : Prop where
  all : t.expected.filter (· ≠ 0) ++ t.unread = t.pushed
  nonzero : 0 ∉ t.unread

theorem step_delivered (hd : Delivered t) (hop : Queued t op) (hstep : step p t op = some t') :
    Delivered t' := by
  cases op with
  | push c =>
    cases hrun : keyboardPush c t.kernel with
    | error e => simp [step, hrun] at hstep
    | ok r =>
      rw [step, hrun] at hstep
      obtain rfl := Option.some.inj hstep
      refine ⟨?_, by simpa [hd.nonzero] using hop.1.symm⟩
      show t.expected.filter _ ++ (t.unread ++ [c]) = t.pushed ++ [c]
      rw [← List.append_assoc, hd.all]
  | pop =>
    cases hrun : keyboardPop t.kernel with
    | error e => simp [step, hrun] at hstep
    | ok r =>
      rw [step, hrun] at hstep
      obtain rfl := Option.some.inj hstep
      refine ⟨?_, fun hmem => hd.nonzero (List.mem_of_mem_tail hmem)⟩
      have hall := hd.all
      have hne := hd.nonzero
      cases hq : t.unread with
      | nil => simpa [hq] using hall
      | cons c q =>
        rw [hq] at hall hne
        have hc : c ≠ 0 := fun h0 => hne (h0 ▸ List.mem_cons_self)
        simpa [hc] using hall
  | backspace => exact hop.elim

theorem queued_follows (h : Fresh p s) {ops : List Op}
    (hops : Along (step p) Queued (.start s) ops) :
    Throughout (step p) (fun t => Follows p t ∧ Delivered t) (.start s) ops := by
  refine throughout_of_along (I := fun t => Plugged p t.kernel) ?_ h.1
    ⟨h.follows, rfl, List.not_mem_nil⟩ hops
  rintro t op t' hp ⟨hf, hd⟩ hstep hop
  refine ⟨⟨(step_follows hp hf ?_ hstep).mpr ?_, step_delivered hd hop hstep⟩,
    step_stays hp (hf.2.imp fun x hx => hx.1) hstep⟩
  · cases op with
    | push c => exact hop
    | pop => trivial
    | backspace => trivial
  · cases op with
    | push c => trivial
    | pop => trivial
    | backspace => exact hop.elim

theorem step_unread_length (h : step p t op = some t') :
    t'.unread.length ≤ t.unread.length + 1 := by
  cases op with
  | push c =>
    cases hrun : keyboardPush c t.kernel with
    | error e => simp [step, hrun] at h
    | ok r =>
      rw [step, hrun] at h
      obtain rfl := Option.some.inj h
      simp
  | pop =>
    cases hrun : keyboardPop t.kernel with
    | error e => simp [step, hrun] at h
    | ok r =>
      rw [step, hrun] at h
      obtain rfl := Option.some.inj h
      simp only [List.length_tail]
      omega
  | backspace =>
    cases hrun : keyboardBackspace p t.kernel with
    | error e => simp [step, hrun] at h
    | ok r =>
      rw [step, hrun] at h
      obtain rfl := Option.some.inj h
      simp only [List.length_dropLast]
      omega

theorem along_queued {ops : List Op} (hops : ∀ op ∈ ops, op ≠ .backspace ∧ op ≠ .push 0)
    (hroom : t.unread.length + ops.length ≤ 1024) : Along (step p) Queued t ops := by
  induction ops generalizing t with
  | nil => trivial
  | cons op ops ih =>
    intro t' hstep
    have hlength := step_unread_length hstep
    rw [List.length_cons] at hroom
    refine ⟨?_, ih (fun op' hop' => hops op' (List.mem_cons_of_mem op hop')) (by omega)⟩
    obtain ⟨hback, hzero⟩ := hops op List.mem_cons_self
    cases op with
    | push c =>
      refine ⟨fun h0 => hzero (by rw [h0]), ?_⟩
      show t.unread.length < 1024
      omega
    | pop => trivial
    | backspace => exact hback rfl

/-- What a keyboard buffer gives up is what was pushed, in the order of the pushes, and 0 where
nothing is unread, as long as it never has to hold more than its size. -/
theorem keyboard_is_fifo (h : Fresh p s) {ops : List Op}
    (hops : Along (step p) Queued (.start s) ops) :
    (∃ t, exec (step p) (.start s) ops = some t) ∧
      Throughout (step p) (fun t => t.popped = t.expected ∧
        t.popped.filter (· ≠ 0) ++ t.unread = t.pushed) (.start s) ops := by
  constructor
  · obtain ⟨t, ht, -⟩ := exec_of_along
      (I := fun t : Session => Plugged p t.kernel ∧ ∃ x, t.kernel.processAt p = some x)
      (fun t op ht => (step_plugged ht.1 ht.2 op).imp fun t' h' => ⟨h'.1, fun _ => h'.2⟩)
      ⟨h.1, h.unread.imp fun x hx => hx.1⟩ hops
    exact ⟨t, ht⟩
  · refine (queued_follows h hops).mono ?_
    rintro t ⟨⟨heq, -⟩, hd⟩
    exact ⟨heq, heq ▸ hd.all⟩

theorem keyboard_is_fifo_sample : ∃ t,
    exec (step 4096) (.start typist) [.push 0x61, .push 0x62, .pop] = some t ∧
      t.popped = t.expected ∧ t.popped.filter (· ≠ 0) ++ t.unread = t.pushed := by
  have hops : Along (step 4096) Queued (.start typist) [.push 0x61, .push 0x62, .pop] :=
    along_queued (by decide) (by decide)
  obtain ⟨⟨t, ht⟩, hall⟩ := keyboard_is_fifo typist_fresh hops
  exact ⟨t, ht, hall.last ht⟩

/-- With backspaces, the buffer follows the list exactly as long as nothing is taken back where
nothing is unread. -/
theorem backspace_follows_iff (h : Fresh p s) {ops : List Op}
    (hops : Along (step p) Typed (.start s) ops) :
    Throughout (step p) (Follows p) (.start s) ops ↔
      Along (step p) TakesBackUnread (.start s) ops := by
  refine throughout_iff_along_within (I := fun t => Plugged p t.kernel) ?_ ?_ h.1 h.follows hops
  · exact fun t op t' hp hf hop hstep => step_follows hp hf hop hstep
  · exact fun t op t' hp hf _ hstep _ => step_stays hp (hf.2.imp fun x hx => hx.1) hstep

theorem backspace_follows_sample :
    Throughout (step 4096) (Follows 4096) (.start typist) [.push 0x61, .backspace] := by
  refine (backspace_follows_iff typist_fresh ?_).mpr ?_
  · exact fun _ _ => ⟨⟨by decide, by decide⟩, fun _ _ => ⟨trivial, trivial⟩⟩
  · intro t ht
    rw [step_push typist_fresh.1 rfl] at ht
    obtain rfl := Option.some.inj ht
    exact ⟨trivial, fun _ _ => ⟨List.cons_ne_nil _ _, trivial⟩⟩

/-- A backspace on an empty buffer, and the character that is typed next is lost. -/
theorem backspace_loses_character :
    Along (step 4096) Typed (.start typist) [.backspace, .push 0x61, .pop] ∧
    (∃ t, exec (step 4096) (.start typist) [.backspace, .push 0x61, .pop] = some t ∧
      t.popped = [0] ∧ t.expected = [0x61]) ∧
    ¬Throughout (step 4096) (Follows 4096) (.start typist) [.backspace, .push 0x61, .pop] := by
  have hrun : ∃ t, exec (step 4096) (.start typist) [.backspace, .push 0x61, .pop] = some t ∧
      t.popped = [0] ∧ t.expected = [0x61] := ⟨_, rfl, by decide, rfl⟩
  refine ⟨?_, hrun, fun h => ?_⟩
  · intro t ht
    rw [step_backspace typist_fresh.1 rfl] at ht
    obtain rfl := Option.some.inj ht
    exact ⟨trivial, fun _ _ => ⟨⟨by decide, by decide⟩, fun _ _ => ⟨trivial, trivial⟩⟩⟩
  · obtain ⟨t, ht, hpopped, hexpected⟩ := hrun
    have heq := (h.last ht).1
    rw [hpopped, hexpected] at heq
    exact absurd heq (by decide)

end List

def NoneHidden (x : Process) : Prop :=
  ∀ i k, i ≤ k → k < dexterKeyboardBufferSize →
    x.keyboard.buffer ((keyboardGetHeadIndex x + k) % dexterKeyboardBufferSize) ≠ 0 →
    x.keyboard.buffer ((keyboardGetHeadIndex x + i) % dexterKeyboardBufferSize) ≠ 0

def Orderly (p : ℕ) (t : Session) : Prop :=
  (t.popped.filter (· ≠ 0)).Sublist t.pushed ∧
    ∃ x, t.kernel.processAt p = some x ∧ NoneHidden x

/-- What the buffer holds is all that has been pushed and not popped, but for the zeros. -/
def NothingLost (p : ℕ) (t : Session) : Prop :=
  ∃ x q, t.kernel.processAt p = some x ∧
    Holds dexterKeyboardBufferSize 0 x.keyboard.buffer (keyboardGetHeadIndex x) q ∧
    t.popped.filter (· ≠ 0) ++ q = t.pushed.filter (· ≠ 0)

def TailFollows (x : Process) : Prop :=
  ∃ k < dexterKeyboardBufferSize,
    keyboardGetTailIndex x = (keyboardGetHeadIndex x + k) % dexterKeyboardBufferSize ∧
    ∀ i < k, x.keyboard.buffer ((keyboardGetHeadIndex x + i) % dexterKeyboardBufferSize) ≠ 0

/-- The cell that a character is pushed to is empty, and for other characters than zero there is
no empty cell in front of it. -/
def PushedBehind (p : ℕ) (t : Session) : Op → Prop
  | .push c => ∀ x, t.kernel.processAt p = some x →
      x.keyboard.buffer (keyboardGetTailIndex x) = 0 ∧ (c ≠ 0 → TailFollows x)
  | _ => True

section Full
variable {p : ℕ} {s : KernelState} {t t' : Session} {op : Op} {x : Process} {q : List UInt8}
  {c : UInt8}

theorem TailFollows.index (h : TailFollows x)
    (hq : Holds 1024 0 x.keyboard.buffer (keyboardGetHeadIndex x) q)
    (hempty : x.keyboard.buffer (keyboardGetTailIndex x) = 0) :
    q.length < 1024 ∧ keyboardGetTailIndex x = (keyboardGetHeadIndex x + q.length) % 1024 := by
  obtain ⟨k, hk, htail, hfilled⟩ := h
  rw [dexterKeyboardBufferSize] at hk htail hfilled
  rw [htail, hq.cell k hk, getD_eq_empty hq.filled] at hempty
  have hlast : ¬q.length < k := fun hlt =>
    hfilled _ hlt (hq.end_empty (hlt.trans hk))
  obtain rfl : q.length = k := by omega
  exact ⟨hk, htail⟩

theorem tailFollows_of_holds (hq : Holds 1024 0 x.keyboard.buffer (keyboardGetHeadIndex x) q)
    (hc : c ≠ 0) (h : Holds 1024 0 (pushed c x).keyboard.buffer (keyboardGetHeadIndex x) (q ++ [c])) :
    x.keyboard.buffer (keyboardGetTailIndex x) = 0 ∧ TailFollows x := by
  have hroom : q.length < 1024 := by simpa using h.room
  have hend := hq.end_empty hroom
  have hnew : (pushed c x).keyboard.buffer ((keyboardGetHeadIndex x + q.length) % 1024) = c := by
    rw [h.cell _ hroom]
    simp
  have htail : keyboardGetTailIndex x = (keyboardGetHeadIndex x + q.length) % 1024 := by
    by_contra hne
    have hsame : (pushed c x).keyboard.buffer ((keyboardGetHeadIndex x + q.length) % 1024) =
        x.keyboard.buffer ((keyboardGetHeadIndex x + q.length) % 1024) :=
      Function.update_of_ne (Ne.symm hne) _ _
    exact hc (hnew.symm.trans (hsame.trans hend))
  refine ⟨htail ▸ hend, q.length, hroom, htail, fun i hi hzero => ?_⟩
  rw [dexterKeyboardBufferSize, hq.cell i (by omega), getD_eq_empty hq.filled] at hzero
  omega

theorem holds_pushed_zero (hq : Holds 1024 0 x.keyboard.buffer (keyboardGetHeadIndex x) q) :
    Holds 1024 0 (pushed 0 x).keyboard.buffer (keyboardGetHeadIndex x) q ↔
      x.keyboard.buffer (keyboardGetTailIndex x) = 0 := by
  obtain ⟨k, hk, hslot⟩ := exists_slot (h := keyboardGetHeadIndex x) (n := 1024) (by decide)
    (keyboardGetTailIndex x)
  have htail : keyboardGetTailIndex x < 1024 := Nat.mod_lt _ (by decide)
  rw [Nat.mod_eq_of_lt htail] at hslot
  constructor
  · intro h
    rw [← hslot, hq.cell k hk, ← h.cell k hk, hslot]
    exact Function.update_self _ _ _
  · intro hzero
    have hsame : (pushed 0 x).keyboard.buffer = x.keyboard.buffer :=
      Function.update_eq_self_iff.mpr hzero.symm
    rwa [hsame]

theorem push_nothingLost (h : Plugged p t.kernel) (hl : NothingLost p t)
    (hstep : step p t (.push c) = some t') : NothingLost p t' ↔ PushedBehind p t (.push c) := by
  obtain ⟨x, q, hx, hq, hall⟩ := hl
  rw [step_push h hx] at hstep
  obtain rfl := Option.some.inj hstep
  rw [dexterKeyboardBufferSize] at hq
  have hself := putProcess_self t.kernel p (pushed c x)
  by_cases hc : c = 0
  · subst hc
    have hzero := holds_pushed_zero hq
    constructor
    · rintro ⟨y, q', hy, hq', hall'⟩ z hz
      obtain rfl := Option.some.inj (hself.symm.trans hy)
      obtain rfl := Option.some.inj (hx.symm.trans hz)
      have heq : t.popped.filter (· ≠ 0) ++ q' = t.popped.filter (· ≠ 0) ++ q := by
        rw [hall]
        simpa using hall'
      obtain rfl := List.append_cancel_left heq
      exact ⟨hzero.mp hq', fun h0 => absurd rfl h0⟩
    · intro hbehind
      refine ⟨_, q, hself, hzero.mpr (hbehind x hx).1, ?_⟩
      simpa using hall
  · constructor
    · rintro ⟨y, q', hy, hq', hall'⟩ z hz
      obtain rfl := Option.some.inj (hself.symm.trans hy)
      obtain rfl := Option.some.inj (hx.symm.trans hz)
      have heq : t.popped.filter (· ≠ 0) ++ q' = t.popped.filter (· ≠ 0) ++ (q ++ [c]) := by
        rw [← List.append_assoc, hall]
        simpa [hc] using hall'
      obtain rfl := List.append_cancel_left heq
      obtain ⟨hempty, hfollows⟩ := tailFollows_of_holds hq hc hq'
      exact ⟨hempty, fun _ => hfollows⟩
    · intro hbehind
      obtain ⟨hempty, hfollows⟩ := hbehind x hx
      obtain ⟨hroom, htail⟩ := (hfollows hc).index hq hempty
      have hsnoc := hq.snoc hroom hc
      rw [← htail] at hsnoc
      refine ⟨_, q ++ [c], hself, hsnoc, ?_⟩
      rw [← List.append_assoc, hall]
      simp [hc]

theorem pop_nothingLost (h : Plugged p t.kernel) (hl : NothingLost p t)
    (hstep : step p t .pop = some t') : NothingLost p t' := by
  obtain ⟨x, q, hx, hq, hall⟩ := hl
  have hhead := hq.head (by decide)
  rw [dexterKeyboardBufferSize, Nat.mod_eq_of_lt (headIndex_lt x)] at hhead
  cases q with
  | nil =>
    rw [step_pop_empty h hx hhead] at hstep
    obtain rfl := Option.some.inj hstep
    exact ⟨x, [], hx, hq, by simpa using hall⟩
  | cons c q =>
    have hc : c ≠ 0 := fun h0 => hq.filled (h0 ▸ List.mem_cons_self)
    rw [step_pop h hx (by rw [hhead]; exact hc)] at hstep
    obtain rfl := Option.some.inj hstep
    refine ⟨_, q, putProcess_self _ _ _, holds_popped hq, ?_⟩
    rw [hhead]
    simpa [hc] using hall

theorem NothingLost.orderly (h : NothingLost p t) : Orderly p t := by
  obtain ⟨x, q, hx, hq, hall⟩ := h
  refine ⟨?_, x, hx, fun i k hik hk hfull => hq.filled_of_le hk hik hfull⟩
  have hprefix : (t.popped.filter (· ≠ 0)).Sublist (t.pushed.filter (· ≠ 0)) := by
    rw [← hall]
    exact List.sublist_append_left _ _
  exact hprefix.trans List.filter_sublist

theorem Fresh.nothingLost (h : Fresh p s) : NothingLost p (.start s) := by
  obtain ⟨x, hx, hunread⟩ := h.unread
  exact ⟨x, [], hx, hunread.holds, rfl⟩

theorem Unread.pushedBehind (h : Unread x q) (hroom : q.length < 1024) :
    x.keyboard.buffer (keyboardGetTailIndex x) = 0 ∧ TailFollows x := by
  have htail := h.tailIndex
  have hempty := h.holds.end_empty hroom
  rw [dexterKeyboardBufferSize] at hempty
  refine ⟨by rw [htail, hempty], q.length, hroom, htail, fun i hi hzero => ?_⟩
  rw [h.holds.cell i (by rw [dexterKeyboardBufferSize]; omega),
    getD_eq_empty h.holds.filled] at hzero
  omega

theorem queued_pushedBehind (h : Fresh p s) {ops : List Op}
    (hops : Along (step p) Queued (.start s) ops) :
    Along (step p) (PushedBehind p) (.start s) ops := by
  refine (queued_follows h hops).along ?_ hops
  rintro t op ⟨hf, -⟩ hop
  cases op with
  | push c =>
    intro x hx
    obtain ⟨-, y, hy, hunread⟩ := hf
    obtain rfl := Option.some.inj (hx.symm.trans hy)
    obtain ⟨hempty, hfollows⟩ := hunread.pushedBehind hop.2
    exact ⟨hempty, fun _ => hfollows⟩
  | pop => trivial
  | backspace => trivial

/-- Whatever is pushed and however much: nothing is lost exactly as long as every character goes
to an empty cell, with none in front of it if it is not zero; and then what is popped was pushed
in this order, and no character lies behind an empty cell. -/
theorem full_buffer_orderly (h : Fresh p s) {ops : List Op} (hops : .backspace ∉ ops) :
    (Throughout (step p) (NothingLost p) (.start s) ops ↔
      Along (step p) (PushedBehind p) (.start s) ops) ∧
    (Along (step p) (PushedBehind p) (.start s) ops →
      Throughout (step p) (Orderly p) (.start s) ops) := by
  have hno : Along (step p) (fun _ op => op ≠ .backspace) (.start s) ops :=
    along_of_forall fun op hop _ heq => hops (heq ▸ hop)
  have hiff : Throughout (step p) (NothingLost p) (.start s) ops ↔
      Along (step p) (PushedBehind p) (.start s) ops := by
    refine throughout_iff_along_within (I := fun t => Plugged p t.kernel) ?_ ?_ h.1 h.nothingLost hno
    · intro t op t' hp hl hop hstep
      cases op with
      | push c => exact push_nothingLost hp hl hstep
      | pop => exact iff_of_true (pop_nothingLost hp hl hstep) trivial
      | backspace => exact absurd rfl hop
    · intro t op t' hp hl _ hstep _
      obtain ⟨x, q, hx, -⟩ := hl
      exact step_stays hp ⟨x, hx⟩ hstep
  exact ⟨hiff, fun h => (hiff.mpr h).mono fun t ht => ht.orderly⟩

theorem full_buffer_orderly_sample :
    (∃ t, exec (step 4096) (.start typist)
      [.push 0x61, .push 0x62, .pop, .push 0x63, .pop, .pop, .pop] = some t ∧
        t.popped = [0x61, 0x62, 0x63, 0]) ∧
    Throughout (step 4096) (NothingLost 4096) (.start typist)
      [.push 0x61, .push 0x62, .pop, .push 0x63, .pop, .pop, .pop] ∧
    Throughout (step 4096) (Orderly 4096) (.start typist)
      [.push 0x61, .push 0x62, .pop, .push 0x63, .pop, .pop, .pop] := by
  have hbehind : Along (step 4096) (PushedBehind 4096) (.start typist)
      [.push 0x61, .push 0x62, .pop, .push 0x63, .pop, .pop, .pop] :=
    queued_pushedBehind typist_fresh (along_queued (by decide) (by decide))
  have hops : .backspace ∉ ([.push 0x61, .push 0x62, .pop, .push 0x63, .pop, .pop, .pop] : List Op) := by
    decide
  exact ⟨⟨_, rfl, rfl⟩, (full_buffer_orderly typist_fresh hops).1.mpr hbehind,
    (full_buffer_orderly typist_fresh hops).2 hbehind⟩

/-- Behind a zero a character cannot be reached. -/
theorem zero_hides_character :
    (∃ t, exec (step 4096) (.start typist) [.push 0, .push 0x61, .pop] = some t ∧ t.popped = [0]) ∧
    ¬Throughout (step 4096) (Orderly 4096) (.start typist) [.push 0, .push 0x61, .pop] := by
  refine ⟨⟨_, rfl, rfl⟩, fun h => ?_⟩
  have hrun : exec (step 4096) (.start typist) [.push 0, .push 0x61, .pop] = some _ := rfl
  obtain ⟨-, x, hx, hnone⟩ := h.last hrun
  obtain rfl := Option.some.inj hx
  exact hnone 0 1 (by decide) (by decide) (by decide) (by decide)

end Full

end Dexter.KeyboardRuns
