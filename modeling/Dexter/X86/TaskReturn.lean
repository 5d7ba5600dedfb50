import Dexter.X86.Processor
import Dexter.Proc.TaskRuns

/-!
# Back to a program (`x86/task.asm`)

`task_return` builds the frame of an interrupt on the kernel's stack from the registers of a task,
fills the registers and leaves through `iretd`. `Called` is what it finds, `StackAt` what lies on the
stack while it runs, from the top down to the argument of the call, and `Resumes` is what a program
may expect of its interrupt.
-/

namespace Dexter
open Lib.Programs Lib.LittleEndian Processor

def Registers.words (r : Registers) : List ℕ :=
  [r.edi, r.esi, r.ebp, r.ebx, r.edx, r.ecx, r.eax, r.ip, r.cs, r.flags, r.esp, r.ss]

def restoreGeneralPurposeRegisters : Prog Fault Processor Unit := do
  let c ← get
  push c.ebp
  mov fun c => { c with ebp := c.esp }
  mov fun c => { c with ebx := load c.memory 4 (u32 (c.ebp + 8)) }
  movFromEbx 0 fun w c => { c with edi := w }
  movFromEbx 4 fun w c => { c with esi := w }
  movFromEbx 8 fun w c => { c with ebp := w }
  movFromEbx 16 fun w c => { c with edx := w }
  movFromEbx 20 fun w c => { c with ecx := w }
  movFromEbx 24 fun w c => { c with eax := w }
  movFromEbx 12 fun w c => { c with ebx := w }
  let ebp ← pop
  mov fun c => { c with ebp := ebp }
  ret

namespace TaskReturn

def pushFrame : Prog Fault Processor Unit := do
  mov fun c => { c with ebp := c.esp }
  mov fun c => { c with ebx := load c.memory 4 (u32 (c.ebp + 4)) }
  pushFromEbx 44
  pushFromEbx 40
  pushf
  let eax ← pop
  mov fun c => { c with eax := eax ||| 0x200 }
  let c ← get
  push c.eax
  pushFromEbx 32
  pushFromEbx 28

def loadSegments : Prog Fault Processor Unit := do
  let c ← get
  let ax ← readData 2 (u32 (c.ebx + 44))
  mov fun c => { c with eax := c.eax / 65536 * 65536 + ax }
  movFromAx fun selector c => { c with ds := selector }
  movFromAx fun selector c => { c with es := selector }
  movFromAx fun selector c => { c with fs := selector }
  movFromAx fun selector c => { c with gs := selector }

end TaskReturn
open TaskReturn

def taskReturn (next : UInt32) : Prog Fault Processor Unit := do
  pushFrame
  loadSegments
  let c ← get
  push (load c.memory 4 (u32 (c.ebp + 4)))
  call next.toNat restoreGeneralPurposeRegisters
  mov fun c => { c with esp := u32 (c.esp + 4) }
  iretd

namespace TaskReturn

/-- `task_return` has been called with a pointer to the registers `r` at `p`, which lie apart from
the part of the stack that it uses. -/
structure Called (c : Processor) (p : ℕ) (r : Registers) : Prop where
  argument : load c.memory 4 (c.esp + 4) = p
  object : Words c.memory p r.words
  below : 32 ≤ c.esp
  above : c.esp + 8 < 4294967296
  inside : p + 48 ≤ 4294967296
  apart : p + 48 ≤ c.esp - 32 ∨ c.esp ≤ p
  data : c.ds / 4 ≠ 0

/-- The interrupted program goes on in ring 3 as it was, with interrupts enabled. -/
structure Resumes (frame : InterruptFrame) (c : Processor) : Prop where
  ring : c.cs % 4 = 3
  eax : c.eax = frame.eax
  ebx : c.ebx = frame.ebx
  ecx : c.ecx = frame.ecx
  edx : c.edx = frame.edx
  esi : c.esi = frame.esi
  edi : c.edi = frame.edi
  ebp : c.ebp = frame.ebp
  ip : c.eip = frame.ip
  cs : c.cs = frame.cs
  esp : c.esp = frame.esp
  ss : c.ss = frame.ss
  flags : c.eflags = frame.flags ||| 0x200

def pushedFlags (c : Processor) : ℕ := c.eflags &&& 0x00FCFFFF ||| 0x200

def withRegisters (r : Registers) (c : Processor) : Processor :=
  { c with edi := r.edi, esi := r.esi, edx := r.edx, ecx := r.ecx, eax := r.eax, ebx := r.ebx }

def withSegments (selector : ℕ) (c : Processor) : Processor :=
  { c with ds := selector, es := selector, fs := selector, gs := selector }

structure StackAt (base p : ℕ) (r : Registers) (m : ℕ → UInt8) (esp : ℕ) (ws : List ℕ) : Prop where
  depth : esp + 4 * ws.length = base + 8
  stack : Words m esp ws
  object : Words m p r.words
  below : 32 ≤ base
  above : base + 8 < 4294967296
  inside : p + 48 ≤ 4294967296
  apart : p + 48 ≤ base - 32 ∨ base ≤ p

section Stack
variable {base p w esp : ℕ} {r : Registers} {m : ℕ → UInt8} {ws : List ℕ} {c : Processor}

theorem Called.stackAt (h : Called c p r) :
    StackAt c.esp p r c.memory c.esp [load c.memory 4 c.esp, p] where
  depth := rfl
  stack := ⟨rfl, h.argument, trivial⟩
  object := h.object
  below := h.below
  above := h.above
  inside := h.inside
  apart := h.apart

theorem StackAt.u32_sub (h : StackAt base p r m esp ws) (hlen : ws.length < 10) :
    u32 (esp - 4) = esp - 4 := by
  have hdepth := h.depth
  have hbelow := h.below
  have habove := h.above
  unfold u32
  omega

theorem StackAt.u32_add (h : StackAt base p r m esp (w :: ws)) : u32 (esp + 4) = esp + 4 := by
  have hdepth := h.depth
  have habove := h.above
  rw [List.length_cons] at hdepth
  unfold u32
  omega

theorem StackAt.push (h : StackAt base p r m esp ws) (hpast : 2 ≤ ws.length) (hlen : ws.length < 10)
    (hw : w < 4294967296) : StackAt base p r (store m 4 (esp - 4) w) (esp - 4) (w :: ws) := by
  have hdepth := h.depth
  have hbelow := h.below
  have hpos : 4 ≤ esp := by omega
  have hwords : r.words.length = 12 := rfl
  refine ⟨?_, ?_, ?_, h.below, h.above, h.inside, h.apart⟩
  · rw [List.length_cons]
    omega
  · refine Words.cons ?_ hw
    rw [Nat.sub_add_cancel hpos]
    exact h.stack
  · apply h.object.store_of_disjoint
    have hapart := h.apart
    omega

theorem StackAt.pop (h : StackAt base p r m esp (w :: ws)) : StackAt base p r m (esp + 4) ws := by
  refine ⟨?_, h.stack.2, h.object, h.below, h.above, h.inside, h.apart⟩
  have hdepth := h.depth
  rw [List.length_cons] at hdepth
  omega

theorem push_ok (h : StackAt base p r c.memory c.esp ws) (hpast : 2 ≤ ws.length)
    (hlen : ws.length < 10) (hw : w < 4294967296) :
    ∃ m, push w c = .ok ((), { c with esp := c.esp - 4, memory := m }) ∧
      StackAt base p r m (c.esp - 4) (w :: ws) := by
  refine ⟨_, ?_, h.push hpast hlen hw⟩
  rw [Processor.push, modify_apply, h.u32_sub hlen]

theorem pop_ok {e : ℕ} (h : StackAt base p r c.memory c.esp (w :: ws)) (he : c.esp + 4 = e) :
    pop c = .ok (w, { c with esp := e }) := by
  rw [pop, step_apply, h.stack.1, h.u32_add, he]

theorem readData_word (h : StackAt base p r c.memory c.esp ws) (hds : c.ds / 4 ≠ 0) (i : ℕ)
    (hw : r.words[i]? = some w) : readData 4 (u32 ((p : ℤ) + (4 * i : ℕ))) c = .ok (w, c) := by
  obtain ⟨hi, -⟩ := List.getElem?_eq_some_iff.mp hw
  have hwords : r.words.length = 12 := rfl
  have hinside := h.inside
  have hat : u32 ((p : ℤ) + (4 * i : ℕ)) = p + 4 * i := by
    unfold u32
    omega
  rw [hat, readData, bind_of_ok (get_apply c), if_neg hds, h.object.load_eq i hw, pure_apply]

theorem pushFromEbx_ok (h : StackAt base p r c.memory c.esp ws) (hpast : 2 ≤ ws.length)
    (hlen : ws.length < 10) (hds : c.ds / 4 ≠ 0) (hebx : c.ebx = p) (i : ℕ)
    (hw : r.words[i]? = some w) :
    ∃ m, pushFromEbx (4 * i) c = .ok ((), { c with esp := c.esp - 4, memory := m }) ∧
      StackAt base p r m (c.esp - 4) (w :: ws) := by
  subst hebx
  obtain ⟨m, hpush, hm⟩ := push_ok h hpast hlen (h.object.lt (List.mem_of_getElem? hw))
  refine ⟨m, ?_, hm⟩
  rw [pushFromEbx, bind_of_ok (get_apply c), bind_of_ok (readData_word h hds i hw), hpush]

theorem movFromEbx_ok (h : StackAt base p r c.memory c.esp ws) (hds : c.ds / 4 ≠ 0)
    (hebx : c.ebx = p) (i : ℕ) (hw : r.words[i]? = some w)
    (put : ℕ → Processor → Processor) : movFromEbx (4 * i) put c = .ok ((), put w c) := by
  subst hebx
  rw [movFromEbx, bind_of_ok (get_apply c), bind_of_ok (readData_word h hds i hw)]
  rfl

end Stack

section Frame
variable {base p next : ℕ} {r : Registers} {ws : List ℕ} {c : Processor}

theorem pushedFlags_lt (c : Processor) : pushedFlags c < 4294967296 :=
  Nat.or_lt_two_pow (n := 32) (Nat.and_lt_two_pow _ (by decide)) (by decide)

theorem pushFrame_ok (h : Called c p r) : ∃ m, pushFrame c = .ok ((), { c with
      ebp := c.esp
      ebx := p
      eax := pushedFlags c
      esp := c.esp - 20
      memory := m }) ∧
    StackAt c.esp p r m (c.esp - 20)
      [r.ip, r.cs, pushedFlags c, r.esp, r.ss, load c.memory 4 c.esp, p] := by
  have hbelow := h.below
  have habove := h.above
  have hargument : u32 ((c.esp : ℤ) + 4) = c.esp + 4 := by
    unfold u32
    omega
  set c₁ : Processor := { c with ebp := c.esp, ebx := p } with hc₁
  have hebp : mov (fun c => { c with ebp := c.esp }) c = .ok ((), { c with ebp := c.esp }) := rfl
  have hebx : mov (fun c => { c with ebx := load c.memory 4 (u32 (c.ebp + 4)) })
      { c with ebp := c.esp } = .ok ((), c₁) := by
    rw [mov_apply, hargument, h.argument]
  obtain ⟨m₂, hss, h₂⟩ := pushFromEbx_ok (c := c₁) h.stackAt (by simp) (by simp) h.data rfl 11 rfl
  obtain ⟨m₃, hesp, h₃⟩ := pushFromEbx_ok (c := { c₁ with esp := c.esp - 4, memory := m₂ }) h₂
    (by simp) (by simp) h.data rfl 10 rfl
  set c₃ : Processor := { c₁ with esp := c.esp - 4 - 4, memory := m₃ }
  -- the flags are pushed twice: as they are, and with the interrupt flag
  have himage : c.eflags &&& 0x00FCFFFF < 2 ^ 32 := Nat.and_lt_two_pow _ (by decide)
  obtain ⟨m₄, himage, h₄⟩ := push_ok (c := c₃) h₃ (by simp) (by simp) himage
  have hflags : pushf c₃ = .ok ((), { c₃ with esp := c₃.esp - 4, memory := m₄ }) := himage
  have hback : c₃.esp - 4 + 4 = c₃.esp := Nat.sub_add_cancel (by show 4 ≤ c.esp - 4 - 4; omega)
  have hpop := pop_ok (c := { c₃ with esp := c₃.esp - 4, memory := m₄ }) h₄ hback
  have h₅ := h₄.pop
  rw [hback] at h₅
  set c₅ : Processor := { c₃ with eax := pushedFlags c, memory := m₄ }
  have heax : mov (fun c' => { c' with eax := c.eflags &&& 0x00FCFFFF ||| 0x200 })
      { c₃ with memory := m₄ } = .ok ((), c₅) := rfl
  obtain ⟨m₆, hpush, h₆⟩ := push_ok (c := c₅) h₅ (by simp) (by simp) (pushedFlags_lt c)
  obtain ⟨m₇, hcs, h₇⟩ := pushFromEbx_ok (c := { c₅ with esp := c₅.esp - 4, memory := m₆ }) h₆
    (by simp) (by simp) h.data rfl 8 rfl
  obtain ⟨m₈, hip, h₈⟩ := pushFromEbx_ok
    (c := { c₅ with esp := c₅.esp - 4 - 4, memory := m₇ }) h₇ (by simp) (by simp) h.data rfl 7 rfl
  have hdepth : c₅.esp - 4 - 4 - 4 = c.esp - 20 := by
    show c.esp - 4 - 4 - 4 - 4 - 4 = c.esp - 20
    omega
  refine ⟨m₈, ?_, hdepth ▸ h₈⟩
  rw [pushFrame, bind_of_ok hebp, bind_of_ok hebx, bind_of_ok hss, bind_of_ok hesp,
    bind_of_ok hflags, bind_of_ok hpop, bind_of_ok heax, bind_of_ok (get_apply c₅),
    bind_of_ok hpush, bind_of_ok hcs, hip, hdepth]

theorem loadSegments_eq (hs : StackAt base p r c.memory c.esp ws) (hds : c.ds / 4 ≠ 0)
    (hebx : c.ebx = p) : ∃ eax, loadSegments c =
      if loadsData (r.ss % 65536) then .ok ((), withSegments (r.ss % 65536) { c with eax := eax })
      else .error .generalProtection := by
  have hat : u32 ((c.ebx : ℤ) + 44) = p + 4 * 11 := by
    have hinside := hs.inside
    rw [hebx]
    unfold u32
    omega
  have hss : load c.memory 2 (p + 4 * 11) = r.ss % 65536 := by
    rw [load_mod c.memory (by decide : 2 ≤ 4), hs.object.load_eq 11 rfl]
    rfl
  have hread : readData 2 (u32 (c.ebx + 44)) c = .ok (r.ss % 65536, c) := by
    rw [hat, readData, bind_of_ok (get_apply c), if_neg hds, hss, pure_apply]
  have hlt : r.ss % 65536 < 65536 := Nat.mod_lt _ (by decide)
  have hax : ∀ c' : Processor, c'.eax % 65536 = r.ss % 65536 → ∀ put, movFromAx put c' =
      if loadsData (r.ss % 65536) then .ok ((), put (r.ss % 65536) c')
      else .error .generalProtection := by
    intro c' heax put
    rw [movFromAx, bind_of_ok (get_apply c'), heax]
    split_ifs <;> rfl
  refine ⟨c.eax / 65536 * 65536 + r.ss % 65536, ?_⟩
  set eax := c.eax / 65536 * 65536 + r.ss % 65536 with heax
  have hlow : eax % 65536 = r.ss % 65536 := by omega
  have hmov : mov (fun c => { c with eax := c.eax / 65536 * 65536 + r.ss % 65536 }) c =
      .ok ((), { c with eax := eax }) := rfl
  rw [loadSegments, bind_of_ok (get_apply c), bind_of_ok hread, bind_of_ok hmov]
  split_ifs with hloads
  · simp only [if_pos hloads] at hax
    rw [bind_of_ok (hax _ hlow _), bind_of_ok (hax _ hlow _), bind_of_ok (hax _ hlow _), hax _ hlow]
    rfl
  · simp only [if_neg hloads] at hax
    exact bind_of_error (hax _ hlow _) _

theorem restoreGeneralPurposeRegisters_ok (h : StackAt base p r c.memory c.esp (next :: p :: ws))
    (hpast : 2 ≤ ws.length + 2) (hlen : ws.length + 2 < 10) (hds : c.ds / 4 ≠ 0)
    (hebp : c.ebp < 4294967296) :
    ∃ m, restoreGeneralPurposeRegisters c = .ok ((), { withRegisters r c with
        eip := next
        esp := c.esp + 4
        memory := m }) ∧
      StackAt base p r m (c.esp + 4) (p :: ws) := by
  obtain ⟨m, hpush, h₁⟩ := push_ok h hpast hlen hebp
  have hdepth := h.depth
  have hpos : 4 ≤ c.esp := by
    have hbelow := h.below
    simp only [List.length_cons] at hdepth
    omega
  have hargument : load m 4 (u32 (((c.esp - 4 : ℕ) : ℤ) + 8)) = p := by
    have hat : u32 (((c.esp - 4 : ℕ) : ℤ) + 8) = c.esp - 4 + 4 * 2 := by
      have habove := h.above
      simp only [List.length_cons] at hdepth
      unfold u32
      omega
    rw [hat]
    exact h₁.stack.load_eq 2 rfl
  have hframe : mov (fun c => { c with ebp := c.esp })
      { c with esp := c.esp - 4, memory := m } =
      .ok ((), { c with ebp := c.esp - 4, esp := c.esp - 4, memory := m }) := rfl
  set c₂ : Processor := { c with ebp := c.esp - 4, ebx := p, esp := c.esp - 4, memory := m }
  have hebx : mov (fun c => { c with ebx := load c.memory 4 (u32 (c.ebp + 8)) })
      { c with ebp := c.esp - 4, esp := c.esp - 4, memory := m } = .ok ((), c₂) := by
    rw [mov_apply, hargument]
  -- `ebx` points to the struct until it is loaded itself
  have hedi := movFromEbx_ok (c := c₂) h₁ hds rfl 0 rfl fun w c => { c with edi := w }
  have hesi := movFromEbx_ok (c := { c₂ with edi := r.edi }) h₁ hds rfl 1 rfl
    fun w c => { c with esi := w }
  have hebp' := movFromEbx_ok (c := { c₂ with edi := r.edi, esi := r.esi }) h₁ hds rfl 2 rfl
    fun w c => { c with ebp := w }
  set c₃ : Processor := { c₂ with edi := r.edi, esi := r.esi, ebp := r.ebp }
  have hedx := movFromEbx_ok (c := c₃) h₁ hds rfl 4 rfl fun w c => { c with edx := w }
  have hecx := movFromEbx_ok (c := { c₃ with edx := r.edx }) h₁ hds rfl 5 rfl
    fun w c => { c with ecx := w }
  have heax := movFromEbx_ok (c := { c₃ with edx := r.edx, ecx := r.ecx }) h₁ hds rfl 6 rfl
    fun w c => { c with eax := w }
  set c₄ : Processor := { c₃ with edx := r.edx, ecx := r.ecx, eax := r.eax }
  have hebx' := movFromEbx_ok (c := c₄) h₁ hds rfl 3 rfl fun w c => { c with ebx := w }
  have hback : c.esp - 4 + 4 = c.esp := Nat.sub_add_cancel hpos
  have hpop := pop_ok (c := { c₄ with ebx := r.ebx }) h₁ hback
  have h₂ := h₁.pop
  rw [hback] at h₂
  set c₅ : Processor := { c₄ with ebx := r.ebx, esp := c.esp }
  have hold : mov (fun c' => { c' with ebp := c.ebp }) c₅ = .ok ((), { c₅ with ebp := c.ebp }) := rfl
  have hret := pop_ok (c := { c₅ with ebp := c.ebp }) h₂ rfl
  refine ⟨m, ?_, h₂.pop⟩
  rw [restoreGeneralPurposeRegisters, bind_of_ok (get_apply c), bind_of_ok hpush,
    bind_of_ok hframe, bind_of_ok hebx, bind_of_ok hedi, bind_of_ok hesi, bind_of_ok hebp',
    bind_of_ok hedx, bind_of_ok hecx, bind_of_ok heax, bind_of_ok hebx', bind_of_ok hpop,
    bind_of_ok hold, ret, bind_of_ok hret, mov_apply]
  rfl

theorem iretd_eq {ip cs flags esp ss : ℕ}
    (h : StackAt base p r c.memory c.esp (ip :: cs :: flags :: esp :: ss :: ws)) : iretd c =
      if loadsCode (cs % 65536) then
        if cs % 4 = 0 then .ok ((), { c with
          eip := ip
          cs := cs % 65536
          eflags := flags
          esp := c.esp + 12 })
        else if loadsStack (cs % 4) (ss % 65536) then .ok ((), { c with
          eip := ip
          cs := cs % 65536
          eflags := flags
          esp := esp
          ss := ss % 65536
          ds := keptSegment (cs % 4) c.ds
          es := keptSegment (cs % 4) c.es
          fs := keptSegment (cs % 4) c.fs
          gs := keptSegment (cs % 4) c.gs })
        else .error .generalProtection
      else .error .generalProtection := by
  have hip := pop_ok h rfl
  have hcs := pop_ok (c := { c with esp := c.esp + 4 }) h.pop rfl
  have hflags := pop_ok (c := { c with esp := c.esp + 8 }) h.pop.pop rfl
  have hesp := pop_ok (c := { c with esp := c.esp + 12 }) h.pop.pop.pop rfl
  have hss := pop_ok (c := { c with esp := c.esp + 16 }) h.pop.pop.pop.pop rfl
  rw [iretd, bind_of_ok hip, bind_of_ok hcs, bind_of_ok hflags]
  split_ifs with hcode hring hstack
  · rfl
  · rw [bind_of_ok hesp, bind_of_ok hss, if_pos hstack]
    rfl
  · rw [bind_of_ok hesp, bind_of_ok hss, if_neg hstack]
    rfl
  · rfl

theorem restoreGeneralPurposeRegisters_error (h : StackAt base p r c.memory c.esp (next :: p :: ws))
    (hlen : ws.length + 2 < 10) (hds : c.ds / 4 = 0) (hebp : c.ebp < 4294967296) :
    restoreGeneralPurposeRegisters c = .error .generalProtection := by
  obtain ⟨m, hpush, -⟩ := push_ok h (Nat.le_add_left _ _) hlen hebp
  have hread : ∀ c' : Processor, c'.ds = c.ds → ∀ put,
      movFromEbx 0 put c' = .error .generalProtection := by
    intro c' hds' put
    have hnull : ∀ v, readData 4 v c' = .error .generalProtection := by
      intro v
      rw [readData, bind_of_ok (get_apply c'), hds', if_pos hds, abort_apply]
    rw [movFromEbx, bind_of_ok (get_apply c'), bind_of_error (hnull _)]
  rw [restoreGeneralPurposeRegisters, bind_of_ok (get_apply c), bind_of_ok hpush]
  rw [bind_of_ok (mov_apply _ _), bind_of_ok (mov_apply _ _)]
  refine bind_of_error (hread _ ?_ _) _
  rfl

theorem call_restoreGeneralPurposeRegisters_ok (next : UInt32)
    (h : StackAt base p r c.memory c.esp (p :: ws)) (hpast : 2 ≤ ws.length + 1)
    (hlen : ws.length + 1 < 9) (hds : c.ds / 4 ≠ 0) (hebp : c.ebp < 4294967296) :
    ∃ m, call next.toNat restoreGeneralPurposeRegisters c =
        .ok ((), { withRegisters r c with eip := next.toNat, memory := m }) ∧
      StackAt base p r m c.esp (p :: ws) := by
  have hpos : 4 ≤ c.esp := by
    have hdepth := h.depth
    have hbelow := h.below
    rw [List.length_cons] at hdepth
    omega
  obtain ⟨m₁, hpush, h₁⟩ := push_ok h hpast (hlen.trans (by decide)) next.toNat_lt
  obtain ⟨m, hrestore, h₂⟩ := restoreGeneralPurposeRegisters_ok
    (c := { c with esp := c.esp - 4, memory := m₁ }) h₁ (Nat.le_add_left _ _)
    (Nat.succ_lt_succ hlen) hds hebp
  have hback : c.esp - 4 + 4 = c.esp := Nat.sub_add_cancel hpos
  rw [hback] at hrestore h₂
  refine ⟨m, ?_, h₂⟩
  rw [call, bind_of_ok hpush, bind_of_ok hrestore, bind_of_ok (get_apply _), if_pos rfl,
    pure_apply]
  rfl

theorem call_restoreGeneralPurposeRegisters_error (next : UInt32)
    (h : StackAt base p r c.memory c.esp (p :: ws)) (hpast : 2 ≤ ws.length + 1)
    (hlen : ws.length + 1 < 9) (hds : c.ds / 4 = 0) (hebp : c.ebp < 4294967296) :
    call next.toNat restoreGeneralPurposeRegisters c = .error .generalProtection := by
  obtain ⟨m₁, hpush, h₁⟩ := push_ok h hpast (hlen.trans (by decide)) next.toNat_lt
  have hrestore := restoreGeneralPurposeRegisters_error
    (c := { c with esp := c.esp - 4, memory := m₁ }) h₁ (Nat.succ_lt_succ hlen) hds hebp
  rw [call, bind_of_ok hpush, bind_of_error hrestore]

/-- What `task_return` comes to: `iretd` on the frame it has built, with the registers of the task,
its own stack pointer in `ebp`. -/
theorem taskReturn_eq (next : UInt32) (h : Called c p r) :
    ∃ m, StackAt c.esp p r m (c.esp - 20)
      [r.ip, r.cs, pushedFlags c, r.esp, r.ss, load c.memory 4 c.esp, p] ∧
    taskReturn next c =
      if loadsData (r.ss % 65536) = true ∧ r.ss % 65536 / 4 ≠ 0 then
        iretd (withRegisters r (withSegments (r.ss % 65536) { c with
          ebp := c.esp
          esp := c.esp - 20
          eip := next.toNat
          memory := m }))
      else .error .generalProtection := by
  have hbelow := h.below
  have habove := h.above
  obtain ⟨m₁, hframe, h₁⟩ := pushFrame_ok h
  set c₁ : Processor := { c with
    ebp := c.esp
    ebx := p
    eax := pushedFlags c
    esp := c.esp - 20
    memory := m₁ }
  obtain ⟨eax, hsegments⟩ := loadSegments_eq (c := c₁) h₁ h.data rfl
  by_cases hloads : loadsData (r.ss % 65536) = true
  · rw [if_pos hloads] at hsegments
    set c₂ : Processor := withSegments (r.ss % 65536) { c₁ with eax := eax }
    have hargument : load c₂.memory 4 (u32 ((c₂.ebp : ℤ) + 4)) = p := by
      have hebp : c₂.ebp = c.esp := rfl
      have hat : u32 ((c₂.ebp : ℤ) + 4) = c.esp - 20 + 4 * 6 := by
        rw [hebp]
        unfold u32
        omega
      rw [hat]
      exact h₁.stack.load_eq 6 rfl
    have hp : p < 4294967296 := h₁.stack.lt (by simp)
    obtain ⟨m₃, hpush, h₃⟩ := push_ok (c := c₂) h₁ (by simp) (by simp) hp
    set c₃ : Processor := { c₂ with esp := c₂.esp - 4, memory := m₃ }
    have hbase : c₃.ebp < 4294967296 := by
      show c.esp < 4294967296
      omega
    by_cases hnull : r.ss % 65536 / 4 = 0
    · have hcall := call_restoreGeneralPurposeRegisters_error (c := c₃) next h₃ (by simp) (by simp)
        hnull hbase
      refine ⟨m₁, h₁, ?_⟩
      rw [taskReturn, bind_of_ok hframe, bind_of_ok hsegments, bind_of_ok (get_apply c₂),
        hargument, bind_of_ok hpush, bind_of_error hcall, if_neg fun hboth => hboth.2 hnull]
    · obtain ⟨m₄, hcall, h₄⟩ := call_restoreGeneralPurposeRegisters_ok (c := c₃) next h₃ (by simp)
        (by simp) hnull hbase
      set c₄ : Processor := { withRegisters r c₃ with eip := next.toNat, memory := m₄ }
      -- `add esp, 4` drops the argument
      have hdrop : u32 ((c₄.esp : ℤ) + 4) = c.esp - 20 := by
        have hesp : c₄.esp = c.esp - 20 - 4 := rfl
        rw [hesp]
        unfold u32
        omega
      have hclean : mov (fun c => { c with esp := u32 (c.esp + 4) }) c₄ =
          .ok ((), { c₄ with esp := c.esp - 20 }) := by rw [mov_apply, hdrop]
      have hlast : c.esp - 20 - 4 + 4 = c.esp - 20 := Nat.sub_add_cancel (by omega)
      have h₅ := h₄.pop
      refine ⟨m₄, hlast ▸ h₅, ?_⟩
      rw [taskReturn, bind_of_ok hframe, bind_of_ok hsegments, bind_of_ok (get_apply c₂),
        hargument, bind_of_ok hpush, bind_of_ok hcall, bind_of_ok hclean, if_pos ⟨hloads, hnull⟩]
      rfl
  · rw [if_neg hloads] at hsegments
    refine ⟨m₁, h₁, ?_⟩
    rw [taskReturn, bind_of_ok hframe, bind_of_error hsegments, if_neg fun hboth => hloads hboth.1]

end Frame

section Resume
variable {s s' : TaskState} {t : ℕ} {frame : InterruptFrame} {r : Registers} {c c' : Processor}

theorem taskSaveState_registers (hsave : taskSaveState t frame s = .ok ((), s'))
    (hr : (s'.tasks t).map Task.registers = some r) : r = frame.toRegisters := by
  obtain ⟨-, x, -, rfl⟩ := TaskLayer.setTask_ok.mp hsave
  rw [TaskLayer.putTask_self, Option.map_some] at hr
  exact (Option.some.inj hr).symm

/-- A program with the segments of a program is entered with everything but its `ebp` and the
flags as it was. -/
theorem taskReturn_user (next : UInt32) (h : Called c (t + 4) r) (hcs : r.cs = userCodeSegment)
    (hss : r.ss = userDataSegment) : ∃ c', taskReturn next c = .ok ((), c') ∧
      (c'.eax = r.eax ∧ c'.ebx = r.ebx ∧ c'.ecx = r.ecx ∧ c'.edx = r.edx ∧ c'.esi = r.esi ∧
        c'.edi = r.edi ∧ c'.eip = r.ip ∧ c'.cs = r.cs ∧ c'.esp = r.esp ∧ c'.ss = r.ss) ∧
      c'.ebp = c.esp ∧ c'.eflags = pushedFlags c := by
  obtain ⟨m, hm, hrun⟩ := taskReturn_eq next h
  rw [if_pos (by rw [hss]; decide), iretd_eq hm, if_pos (by rw [hcs]; decide),
    if_neg (by rw [hcs]; decide), if_pos (by rw [hcs, hss]; decide)] at hrun
  refine ⟨_, hrun, ⟨rfl, rfl, rfl, rfl, rfl, rfl, rfl, ?_, rfl, ?_⟩, rfl, rfl⟩
  · exact (congrArg (· % 65536) hcs).trans hcs.symm
  · exact (congrArg (· % 65536) hss).trans hss.symm

theorem taskReturn_ring (next : UInt32) (h : Called c (t + 4) r)
    (hrun : taskReturn next c = .ok ((), c')) (hring : c'.cs % 4 = 3) (hcs : c'.cs = r.cs)
    (hss : c'.ss = r.ss) : r.cs = userCodeSegment ∧ r.ss = userDataSegment := by
  obtain ⟨m, hm, heq⟩ := taskReturn_eq next h
  rw [heq] at hrun
  split_ifs at hrun
  rw [iretd_eq hm] at hrun
  have hlow : r.cs % 65536 % 4 = r.cs % 4 := by omega
  split_ifs at hrun with hcode hzero hstack
  · obtain ⟨-, rfl⟩ := ok_inj hrun
    have hin : r.cs % 65536 % 4 = 3 := hring
    omega
  · obtain ⟨-, rfl⟩ := ok_inj hrun
    rw [← hlow] at hstack hzero
    obtain ⟨hc, hs⟩ := user_selectors hcode hzero hstack
    exact ⟨hcs.symm.trans hc, hss.symm.trans hs⟩

/-- A program goes on where its interrupt was, with everything as it was, exactly where its `ebp`
was the stack pointer the kernel calls `task_return` with, and its flags those the kernel has there,
the interrupt flag apart. -/
theorem resumes_saved_iff (next : UInt32) (hsave : taskSaveState t frame s = .ok ((), s'))
    (hr : (s'.tasks t).map Task.registers = some r) (h : Called c (t + 4) r) :
    (∃ c', taskReturn next c = .ok ((), c') ∧ Resumes frame c') ↔
      frame.cs = userCodeSegment ∧ frame.ss = userDataSegment ∧ frame.ebp = c.esp ∧
        frame.flags ||| 0x200 = pushedFlags c := by
  obtain rfl := taskSaveState_registers hsave hr
  constructor
  · intro ⟨c', hrun, hresumes⟩
    obtain ⟨hcs, hss⟩ := taskReturn_ring next h hrun hresumes.ring hresumes.cs hresumes.ss
    obtain ⟨c'', hrun', -, hebp, hflags⟩ := taskReturn_user next h hcs hss
    obtain rfl : c' = c'' := (ok_inj (hrun.symm.trans hrun')).2
    exact ⟨hcs, hss, hresumes.ebp.symm.trans hebp, hresumes.flags.symm.trans hflags⟩
  · intro ⟨hcs, hss, hebp, hflags⟩
    obtain ⟨c', hrun, hregs, hebp', hflags'⟩ := taskReturn_user next h hcs hss
    obtain ⟨heax, hebx, hecx, hedx, hesi, hedi, hip, hcs', hesp, hss'⟩ := hregs
    refine ⟨c', hrun, ⟨?_, heax, hebx, hecx, hedx, hesi, hedi, hebp'.trans hebp.symm, hip, hcs',
      hesp, hss', hflags'.trans hflags.symm⟩⟩
    exact congrArg (· % 4) (hcs'.trans hcs)

end Resume

section Sample

def programFrame (ebp : UInt32) : InterruptFrame :=
  { Registers.zero with
    ebp := ebp.toNat
    ip := dexterProgramVirtualAddress
    cs := userCodeSegment
    flags := 0x202
    esp := 0x3FEF00
    ss := userDataSegment
    reserved := 0 }

def kernelProcessor (ebp : UInt32) : Processor where
  edi := 0
  esi := 0
  ebp := 0
  ebx := 0
  edx := 0
  ecx := 0
  eax := 0
  esp := 0x5FFF00
  eip := 0
  eflags := 0x2
  cs := 0x08
  ss := 0x10
  ds := userDataSegment
  es := userDataSegment
  fs := userDataSegment
  gs := userDataSegment
  memory := storeWords (storeWords (fun _ => 0) 0x5FFF00 [0, 0x1400004]) 0x1400004
    (programFrame ebp).toRegisters.words

theorem kernelProcessor_called (ebp : UInt32) :
    Called (kernelProcessor ebp) (0x1400000 + 4) (programFrame ebp).toRegisters where
  argument :=
    ((words_storeWords (by decide)).storeWords_of_disjoint
      (Or.inr (by decide : 0x5FFF00 + 4 * 2 ≤ 0x1400004))).load_eq 1 rfl
  object := words_storeWords (by
    have hebp := ebp.toNat_lt
    simp [Registers.words, programFrame, Registers.zero]
    omega)
  below := (by decide : 32 ≤ 0x5FFF00)
  above := (by decide : 0x5FFF00 + 8 < 4294967296)
  inside := by decide
  apart := Or.inr (by decide : 0x5FFF00 ≤ 0x1400000 + 4)
  data := (by decide : userDataSegment / 4 ≠ 0)

theorem programFrame_saved (ebp : UInt32) :
    taskSaveState 0x1400000 (programFrame ebp)
      (TaskLayer.putTask 0x1400000 (some .zero) TaskRuns.bootTasks) =
      .ok ((), TaskLayer.putTask 0x1400000
        (some { Task.zero with registers := (programFrame ebp).toRegisters })
        (TaskLayer.putTask 0x1400000 (some .zero) TaskRuns.bootTasks)) :=
  TaskLayer.setTask_of_some (by decide) (TaskLayer.putTask_self _ _ _)

theorem resumes_saved_kernel_ebp : ∃ c', taskReturn 0 (kernelProcessor 0x5FFF00) = .ok ((), c') ∧
    Resumes (programFrame 0x5FFF00) c' :=
  (resumes_saved_iff 0 (programFrame_saved _)
    (congrArg (Option.map Task.registers) (TaskLayer.putTask_self _ _ _))
    (kernelProcessor_called _)).mpr ⟨rfl, rfl, rfl, by decide⟩

/-- The program's frame pointer is lost. -/
theorem frame_pointer_lost : ∃ (s s' : TaskState) (c c' : Processor),
    taskSaveState 0x1400000 (programFrame 0x3FEF80) s = .ok ((), s') ∧
      (s'.tasks 0x1400000).map Task.registers = some (programFrame 0x3FEF80).toRegisters ∧
      Called c (0x1400000 + 4) (programFrame 0x3FEF80).toRegisters ∧
      taskReturn 0 c = .ok ((), c') ∧ c'.ebp = 0x5FFF00 ∧ ¬Resumes (programFrame 0x3FEF80) c' := by
  have hcalled := kernelProcessor_called 0x3FEF80
  obtain ⟨c', hrun, -, hebp, -⟩ := taskReturn_user 0 hcalled rfl rfl
  refine ⟨_, _, _, c', programFrame_saved 0x3FEF80,
    congrArg (Option.map Task.registers) (TaskLayer.putTask_self _ _ _), hcalled, hrun, hebp,
    fun hresumes => ?_⟩
  have hlost : (0x5FFF00 : ℕ) = 0x3FEF80 := hebp.symm.trans hresumes.ebp
  omega

end Sample

end TaskReturn

end Dexter
