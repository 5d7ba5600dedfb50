import Dexter.X86.Gates

/-!
# Into the kernel and back (`x86/idt.asm`)

An interrupt of a program finds its gate, changes to the kernel's stack and leaves there what it
takes to come back. The stubs save the registers, call a function of the kernel with the frame and
leave through `iret`. None of them knows of the error code that some exceptions push, and the
handler of number 0 is a function, which ends with `ret`.
-/

namespace Dexter
open Lib.Programs Lib.LittleEndian Processor

structure SystemRegisters where
  idtr : Idtr
  ss0 : ℕ
  esp0 : ℕ

abbrev kernelDataSelector : ℕ := 0x10

def systemRegisters (idtr : Idtr) : SystemRegisters := ⟨idtr, kernelDataSelector, 0x600000⟩

/-- How an interrupt comes about: by the instruction `int`, or from the processor or a device, with
the error code that goes with some numbers. -/
inductive Source
  | software
  | hardware (errorCode : Option ℕ)
  deriving DecidableEq, Repr

def Source.errorCode : Source → Option ℕ
  | .software => none
  | .hardware errorCode => errorCode

def Gate.usable (g : Gate) (source : Source) (ring : ℕ) : Bool :=
  g.typeAttr.testBit 7 && g.typeAttr % 32 == 14 &&
    (source != .software || ring ≤ g.typeAttr / 32 % 4)

/-- The flags for tracing, interrupts, nested tasks, resuming and virtual 8086 mode are cleared. -/
def handlerFlags (eflags : ℕ) : ℕ := eflags &&& 0xFFFCBCFF

def Processor.pushAll : List ℕ → Prog Fault Processor Unit
  | [] => pure ()
  | w :: ws => do
    push w
    pushAll ws

def changeStack (t : SystemRegisters) : Prog Fault Processor Unit := do
  let c ← get
  if c.cs % 4 = 0 then pure ()
  else if loadsStack 0 t.ss0 then do
    modify fun c => { c with ss := t.ss0, esp := t.esp0 }
    pushAll [c.ss, c.esp]
  else abort .generalProtection

/-- The interrupt `n`, through a gate that leads to ring 0, as all gates do. -/
def interrupt (t : SystemRegisters) (n : ℕ) (source : Source) : Prog Fault Processor Unit := do
  let c ← get
  let g := gateAt c.memory (t.idtr.base + 8 * n)
  if 8 * n + 7 ≤ t.idtr.limit ∧ g.usable source (c.cs % 4) ∧ loadsCode (g.selector / 4 * 4) then do
    changeStack t
    pushAll ([c.eflags, c.cs, c.eip] ++ source.errorCode.toList)
    modify fun c =>
      { c with cs := g.selector / 4 * 4, eip := g.offset, eflags := handlerFlags c.eflags }
  else abort .generalProtection

def codeAt (address : UInt32) (code : Prog Fault Processor Unit) : Prog Fault Processor Unit := do
  let c ← get
  if c.eip = address.toNat then code else abort .wildReturn

namespace Processor

def pushad : Prog Fault Processor Unit := do
  let c ← get
  pushAll [c.eax, c.ecx, c.edx, c.ebx, c.esp, c.ebp, c.esi, c.edi]

def popInto (put : ℕ → Processor → Processor) : Prog Fault Processor Unit := do
  let w ← pop
  mov (put w)

def popAll : List (ℕ → Processor → Processor) → Prog Fault Processor Unit
  | [] => pure ()
  | put :: puts => do
    popInto put
    popAll puts

/-- The stack pointer that `pushad` has left is not restored. -/
def popad : Prog Fault Processor Unit :=
  popAll [fun w c => { c with edi := w }, fun w c => { c with esi := w },
    fun w c => { c with ebp := w }, fun _ c => c, fun w c => { c with ebx := w },
    fun w c => { c with edx := w }, fun w c => { c with ecx := w }, fun w c => { c with eax := w }]

def pushEsp : Prog Fault Processor Unit := do
  let c ← get
  push c.esp

def dropFromStack (n : ℕ) : Prog Fault Processor Unit :=
  mov fun c => { c with esp := u32 (c.esp + n) }

def writeData (p w : ℕ) : Prog Fault Processor Unit := do
  let c ← get
  if c.ds / 4 = 0 then abort .generalProtection
  else modify fun c => { c with memory := store c.memory 4 p w }

end Processor

/-- A function of the kernel as the compiler leaves it: it takes its return address from the stack,
keeps the registers that belong to its caller, and writes to none of the stack behind its arguments,
up to `top`. -/
structure CFunction (top arguments : ℕ) where
  run : Prog Fault Processor Unit
  eip : ∀ {c c'}, run c = .ok ((), c') → c'.eip = load c.memory 4 c.esp
  esp : ∀ {c c'}, run c = .ok ((), c') → c'.esp = c.esp + 4
  kept : ∀ {c c'}, run c = .ok ((), c') → c'.ebx = c.ebx ∧ c'.esi = c.esi ∧ c'.edi = c.edi ∧
    c'.ebp = c.ebp ∧ c'.cs = c.cs ∧ c'.ss = c.ss
  stack : ∀ {c c'}, run c = .ok ((), c') → ∀ a, c.esp + 4 + 4 * arguments ≤ a → a < top →
    c'.memory a = c.memory a

/-- A handler ends with `task_page`, which calls `user_registers`. -/
structure Handler (top : ℕ) extends CFunction top 2 where
  segments : ∀ {c c'}, run c = .ok ((), c') → c'.ds = userDataSegment ∧ c'.es = userDataSegment ∧
    c'.fs = userDataSegment ∧ c'.gs = userDataSegment

def CFunction.returning (top arguments w : ℕ) : CFunction top arguments where
  run := mov fun c =>
    { c with
      eip := load c.memory 4 c.esp
      esp := c.esp + 4
      eax := w
      ds := userDataSegment
      es := userDataSegment
      fs := userDataSegment
      gs := userDataSegment }
  eip h := by
    obtain ⟨-, rfl⟩ := ok_inj h
    rfl
  esp h := by
    obtain ⟨-, rfl⟩ := ok_inj h
    rfl
  kept h := by
    obtain ⟨-, rfl⟩ := ok_inj h
    exact ⟨rfl, rfl, rfl, rfl, rfl, rfl⟩
  stack h a _ _ := by
    obtain ⟨-, rfl⟩ := ok_inj h
    rfl

def Handler.returning (top w : ℕ) : Handler top where
  toCFunction := .returning top 2 w
  segments h := by
    obtain ⟨-, rfl⟩ := ok_inj h
    exact ⟨rfl, rfl, rfl, rfl⟩

def interruptStub {top : ℕ} (interruptHandler : Handler top) (n : ℕ) (next : UInt32) :
    Prog Fault Processor Unit := do
  pushad
  pushEsp
  push n
  call next.toNat interruptHandler.run
  dropFromStack 8
  popad
  iretd

def isr80hWrapper {top : ℕ} (isr80hHandler : Handler top) (tmpRes : ℕ) (next : UInt32) :
    Prog Fault Processor Unit := do
  pushad
  pushEsp
  let c ← get
  push c.eax
  call next.toNat isr80hHandler.run
  let c ← get
  writeData tmpRes c.eax
  dropFromStack 8
  popad
  let eax ← readData 4 tmpRes
  mov fun c => { c with eax := eax }
  iretd

def InterruptFrame.words (f : InterruptFrame) : List ℕ :=
  [f.edi, f.esi, f.ebp, f.reserved, f.ebx, f.edx, f.ecx, f.eax, f.ip, f.cs, f.flags, f.esp, f.ss]

namespace Processor

def pushes (ws : List ℕ) (c : Processor) : Processor :=
  { c with
    esp := c.esp - 4 * ws.length
    memory := storeWords c.memory (c.esp - 4 * ws.length) ws }

variable {c : Processor} {w : ℕ} {ws : List ℕ}

theorem push_pushes (hroom : 4 * (ws.length + 1) ≤ c.esp) (hlt : c.esp < 4294967296) :
    push w (c.pushes ws) = .ok ((), c.pushes (w :: ws)) := by
  have hesp : u32 (((c.esp - 4 * ws.length : ℕ) : ℤ) - 4) = c.esp - 4 * (ws.length + 1) := by
    unfold u32
    omega
  have hnext : c.esp - 4 * (ws.length + 1) + 4 = c.esp - 4 * ws.length := by omega
  rw [push, modify_apply]
  unfold pushes
  dsimp only
  rw [hesp, List.length_cons, storeWords, hnext]

theorem pop_words (h : Words c.memory c.esp (w :: ws)) (hlt : c.esp + 4 < 4294967296) :
    pop c = .ok (w, { c with esp := c.esp + 4 }) := by
  have hesp : u32 ((c.esp : ℤ) + 4) = c.esp + 4 := by
    unfold u32
    omega
  rw [pop, step_apply, h.1, hesp]

theorem readData_of_ne {n p : ℕ} (h : ¬c.ds / 4 = 0) :
    readData n p c = .ok (load c.memory n p, c) := by
  rw [readData, bind_of_ok (get_apply c), if_neg h, pure_apply]

theorem popAll_ok {puts : List (ℕ → Processor → Processor)} {vs : List ℕ}
    (hputs : ∀ put ∈ puts, ∀ w c, (put w c).memory = c.memory ∧ (put w c).esp = c.esp)
    (hlength : vs.length = puts.length) (h : Words c.memory c.esp (vs ++ ws))
    (hlt : c.esp + 4 * vs.length < 4294967296) : popAll puts c =
      .ok ((), (puts.zip vs).foldl (fun c p => p.1 p.2 { c with esp := c.esp + 4 }) c) := by
  induction puts generalizing vs c with
  | nil => rfl
  | cons put puts ih =>
    cases vs with
    | nil => cases hlength
    | cons v vs =>
      obtain ⟨hmem, hesp⟩ := hputs put List.mem_cons_self v { c with esp := c.esp + 4 }
      have hpop : popInto put c = .ok ((), put v { c with esp := c.esp + 4 }) := by
        rw [popInto, bind_of_ok (pop_words h (by rw [List.length_cons] at hlt; omega)), mov_apply]
      rw [popAll, bind_of_ok hpop, ih (fun p hp => hputs p (List.mem_cons_of_mem put hp))
        (Nat.succ.inj hlength) (by rw [hmem, hesp]; exact h.2)
        (by rw [hesp]; rw [List.length_cons] at hlt; dsimp only; omega)]
      rfl

theorem popad_ok {edi esi ebp reserved ebx edx ecx eax : ℕ}
    (h : Words c.memory c.esp (edi :: esi :: ebp :: reserved :: ebx :: edx :: ecx :: eax :: ws))
    (hlt : c.esp + 32 < 4294967296) : popad c = .ok ((), { c with
      edi := edi
      esi := esi
      ebp := ebp
      ebx := ebx
      edx := edx
      ecx := ecx
      eax := eax
      esp := c.esp + 32 }) :=
  @popAll_ok c ws _ [edi, esi, ebp, reserved, ebx, edx, ecx, eax] (by simp) rfl h hlt

/-- Back in a program, with its two segments. -/
theorem iretd_program {eip eflags esp : ℕ}
    (h : Words c.memory c.esp [eip, userCodeSegment, eflags, esp, userDataSegment])
    (hlt : c.esp + 20 < 4294967296) : iretd c = .ok ((), { c with
      eip := eip
      cs := userCodeSegment
      eflags := eflags
      esp := esp
      ss := userDataSegment
      ds := keptSegment 3 c.ds
      es := keptSegment 3 c.es
      fs := keptSegment 3 c.fs
      gs := keptSegment 3 c.gs }) := by
  rw [iretd, bind_of_ok (pop_words h (by omega)),
    bind_of_ok (pop_words (c := { c with esp := c.esp + 4 }) h.2 (by dsimp only; omega)),
    bind_of_ok (pop_words (c := { c with esp := c.esp + 8 }) h.2.2 (by dsimp only; omega)),
    if_pos (by decide), if_neg (by decide),
    bind_of_ok (pop_words (c := { c with esp := c.esp + 12 }) h.2.2.2 (by dsimp only; omega)),
    bind_of_ok (pop_words (c := { c with esp := c.esp + 16 }) h.2.2.2.2 (by dsimp only; omega)),
    if_pos (by decide)]
  rfl

theorem pushAll_pushes {vs : List ℕ} (hroom : 4 * (ws.length + vs.length) ≤ c.esp)
    (hlt : c.esp < 4294967296) :
    pushAll vs (c.pushes ws) = .ok ((), c.pushes (vs.reverse ++ ws)) := by
  induction vs generalizing ws with
  | nil => rfl
  | cons v vs ih =>
    rw [List.length_cons] at hroom
    rw [pushAll, bind_of_ok (push_pushes (by omega) hlt),
      ih (by rw [List.length_cons]; omega), List.reverse_cons, List.append_assoc]
    rfl

theorem pushad_pushes (hroom : 4 * (ws.length + 8) ≤ c.esp) (hlt : c.esp < 4294967296) :
    pushad (c.pushes ws) = .ok ((), c.pushes ([c.edi, c.esi, c.ebp, c.esp - 4 * ws.length, c.ebx,
      c.edx, c.ecx, c.eax] ++ ws)) := by
  rw [pushad, bind_of_ok (get_apply _)]
  exact pushAll_pushes hroom hlt

end Processor

structure UserMode (c : Processor) : Prop where
  cs : c.cs = userCodeSegment
  ss : c.ss = userDataSegment
  segments : c.ds = userDataSegment ∧ c.es = userDataSegment ∧ c.fs = userDataSegment ∧
    c.gs = userDataSegment
  words : ∀ w ∈ [c.edi, c.esi, c.ebp, c.ebx, c.edx, c.ecx, c.eax, c.eip, c.eflags, c.esp],
    w < 4294967296

theorem UserMode.withEax {c : Processor} {w : ℕ} (h : UserMode c) (hw : w < 4294967296) :
    UserMode { c with eax := w } where
  cs := h.cs
  ss := h.ss
  segments := h.segments
  words := by
    have hwords := h.words
    simp only [List.forall_mem_cons] at hwords ⊢
    tauto

structure Installed (t : SystemRegisters) (h : Handlers) (m : Ram) : Prop where
  limit : t.idtr.limit = 8 * dexterTotalInterrupts - 1
  gates : ∀ n < dexterTotalInterrupts,
    gateAt m (t.idtr.base + 8 * n) = ⟨(h.address n).toNat, kernelCodeSelector, 0xEE⟩
  ss0 : t.ss0 = kernelDataSelector
  room : 128 ≤ t.esp0
  top : t.esp0 < 4294967296

theorem installed_idtInit (h : Handlers) (o : IdtObjects) (m : Ram) :
    Installed (systemRegisters ⟨8 * dexterTotalInterrupts - 1, o.idtDescriptors⟩) h
      (idtInit h o m).2 where
  limit := rfl
  gates _ hn := gateAt_idtInit h o m hn
  ss0 := rfl
  room := (by decide : 128 ≤ 0x600000)
  top := (by decide : 0x600000 < 4294967296)

def someHandlers : Handlers := ⟨fun n => 0x101000 + 16 * n.toUInt32, 0x100020, 0x100040⟩

def someObjects : IdtObjects := ⟨0x110000, 0x10A000, by decide, by decide⟩

def someProgram : Processor where
  edi := 0
  esi := 0
  ebp := 0
  ebx := 0
  edx := 0
  ecx := 0
  eax := 7
  esp := 0x3FF000
  eip := 0x400000
  eflags := 0x202
  cs := userCodeSegment
  ss := userDataSegment
  ds := userDataSegment
  es := userDataSegment
  fs := userDataSegment
  gs := userDataSegment
  memory := (idtInit someHandlers someObjects fun _ => 0).2

theorem userMode_someProgram : UserMode someProgram where
  cs := rfl
  ss := rfl
  segments := ⟨rfl, rfl, rfl, rfl⟩
  words := by decide

def Source.words (source : Source) (c : Processor) : List ℕ :=
  source.errorCode.toList ++ [c.eip, c.cs, c.eflags, c.esp, c.ss]

def entering (t : SystemRegisters) (address : UInt32) (c : Processor) : Processor :=
  { c with
    ss := t.ss0
    esp := t.esp0
    cs := kernelCodeSelector
    eip := address.toNat
    eflags := handlerFlags c.eflags }

section Entry
variable {t : SystemRegisters} {h : Handlers} {n : ℕ} {source : Source} {c c' : Processor}

theorem interrupt_enters (hc : UserMode c) (hi : Installed t h c.memory) (hn : n < 256) :
    interrupt t n source c =
      .ok ((), (entering t (h.address n) c).pushes (source.words c)) := by
  have hgate := hi.gates n (by rw [dexterTotalInterrupts]; omega)
  have hring : c.cs % 4 = 3 := congrArg (· % 4) hc.cs
  have hlimit : 8 * n + 7 ≤ t.idtr.limit := by
    rw [hi.limit, dexterTotalInterrupts]
    omega
  have husable : ∀ offset, Gate.usable ⟨offset, kernelCodeSelector, 0xEE⟩ source 3 = true := by
    intro offset
    have hpresent : Nat.testBit 0xEE 7 = true := by decide
    cases source <;> simp [Gate.usable, hpresent]
  have hroom := hi.room
  set base : Processor := { c with ss := t.ss0, esp := t.esp0 } with hbase
  have hstack : changeStack t c = .ok ((), base.pushes [c.esp, c.ss]) := by
    rw [changeStack, bind_of_ok (get_apply c), if_neg (by rw [hring]; decide), hi.ss0,
      if_pos (by decide), bind_of_ok (modify_apply _ c), ← hi.ss0]
    exact @pushAll_pushes base [] [c.ss, c.esp] (by show 4 * 2 ≤ t.esp0; omega) hi.top
  have hcode : source.errorCode.toList.length ≤ 1 := by
    cases source.errorCode <;> simp
  have hpush := @pushAll_pushes base [c.esp, c.ss]
    ([c.eflags, c.cs, c.eip] ++ source.errorCode.toList)
    (by rw [List.length_append]; show 4 * (2 + (3 + _)) ≤ t.esp0; omega) hi.top
  have hwords : ([c.eflags, c.cs, c.eip] ++ source.errorCode.toList).reverse ++ [c.esp, c.ss] =
      source.words c := by
    unfold Source.words
    cases source.errorCode <;> rfl
  rw [interrupt, bind_of_ok (get_apply c), hgate, if_pos ⟨hlimit, by rw [hring, husable],
    (by decide : loadsCode (kernelCodeSelector / 4 * 4) = true)⟩, bind_of_ok hstack,
    bind_of_ok hpush, modify_apply, hwords]
  have hselector : kernelCodeSelector / 4 * 4 = kernelCodeSelector := by decide
  dsimp only
  rw [hselector]
  rfl

theorem codeAt_pushes (code : Prog Fault Processor Unit) (address : UInt32) (ws : List ℕ) :
    codeAt address code ((entering t address c).pushes ws) =
      code ((entering t address c).pushes ws) := by
  have heip : ((entering t address c).pushes ws).eip = address.toNat := rfl
  rw [codeAt, bind_of_ok (get_apply _), if_pos heip]

def savedWords (t : SystemRegisters) (source : Source) (c : Processor) : List ℕ :=
  [c.edi, c.esi, c.ebp, t.esp0 - 4 * (source.words c).length, c.ebx, c.edx, c.ecx, c.eax] ++
    source.words c

def framePointer (t : SystemRegisters) (source : Source) (c : Processor) : ℕ :=
  t.esp0 - 4 * (savedWords t source c).length

def calling (t : SystemRegisters) (h : Handlers) (n : ℕ) (source : Source) (argument : ℕ)
    (next : UInt32) (c : Processor) : Processor :=
  (entering t (h.address n) c).pushes
    (next.toNat :: argument :: framePointer t source c :: savedWords t source c)

def Processor.frame (c : Processor) (reserved : ℕ) : InterruptFrame :=
  ⟨⟨c.edi, c.esi, c.ebp, c.ebx, c.edx, c.ecx, c.eax, c.eip, c.cs, c.eflags, c.esp, c.ss⟩, reserved⟩

def CalledWith (argument : ℕ) (frame : InterruptFrame) (c : Processor) : Prop :=
  ∃ p, Words c.memory (c.esp + 4) [argument, p] ∧ Words c.memory p frame.words

theorem savedWords_frame (hs : source.errorCode = none) :
    savedWords t source c = (c.frame (t.esp0 - 20)).words := by
  unfold savedWords Source.words
  rw [hs]
  rfl

theorem length_savedWords : 13 ≤ (savedWords t source c).length ∧
    (savedWords t source c).length ≤ 14 := by
  unfold savedWords Source.words
  cases source.errorCode <;> simp

theorem savedWords_lt (hc : UserMode c) (hi : Installed t h c.memory)
    (herror : ∀ e ∈ source.errorCode, e < 4294967296) :
    ∀ w ∈ savedWords t source c, w < 4294967296 := by
  have htop := hi.top
  have hcs : c.cs < 4294967296 := hc.cs ▸ (by decide : userCodeSegment < 4294967296)
  have hss : c.ss < 4294967296 := hc.ss ▸ (by decide : userDataSegment < 4294967296)
  have hreserved : t.esp0 - 4 * (source.words c).length < 4294967296 := by omega
  have hcode : ∀ w ∈ source.errorCode.toList, w < 4294967296 := fun w hw =>
    herror w (Option.mem_toList.mp hw)
  have hwords := hc.words
  simp only [List.forall_mem_cons] at hwords
  unfold savedWords
  rw [List.forall_mem_append]
  nth_rewrite 2 [Source.words]
  rw [List.forall_mem_append]
  simp only [List.forall_mem_cons, hwords, hcs, hss, hreserved, true_and]
  exact ⟨List.forall_mem_nil _, hcode, List.forall_mem_nil _⟩

theorem calling_words (next : UInt32) (argument : ℕ) (hargument : argument < 4294967296)
    (hc : UserMode c) (hi : Installed t h c.memory)
    (herror : ∀ e ∈ source.errorCode, e < 4294967296) :
    (calling t h n source argument next c).esp + 12 = framePointer t source c ∧
    Words (calling t h n source argument next c).memory (calling t h n source argument next c).esp
      (next.toNat :: argument :: framePointer t source c :: savedWords t source c) := by
  have hroom := hi.room
  have htop := hi.top
  have hlength := @length_savedWords t source c
  constructor
  · show t.esp0 - 4 * ((savedWords t source c).length + 1 + 1 + 1) + 12 =
      t.esp0 - 4 * (savedWords t source c).length
    omega
  · refine words_storeWords fun w hw => ?_
    have hnext := next.toNat_lt
    have hpointer : framePointer t source c < 4294967296 := by
      unfold framePointer
      omega
    rcases List.mem_cons.mp hw with rfl | hw
    · exact hnext
    · rcases List.mem_cons.mp hw with rfl | hw
      · exact hargument
      · rcases List.mem_cons.mp hw with rfl | hw
        · exact hpointer
        · exact savedWords_lt hc hi herror w hw

theorem saves (hi : Installed t h c.memory) {argument : ℕ} :
    pushad ((entering t (h.address n) c).pushes (source.words c)) =
      .ok ((), (entering t (h.address n) c).pushes (savedWords t source c)) ∧
    pushEsp ((entering t (h.address n) c).pushes (savedWords t source c)) =
      .ok ((), (entering t (h.address n) c).pushes
        (framePointer t source c :: savedWords t source c)) ∧
    push argument ((entering t (h.address n) c).pushes
        (framePointer t source c :: savedWords t source c)) =
      .ok ((), (entering t (h.address n) c).pushes
        (argument :: framePointer t source c :: savedWords t source c)) := by
  have hroom := hi.room
  have hlength := @length_savedWords t source c
  have hesp : (entering t (h.address n) c).esp = t.esp0 := rfl
  have hsource : (source.words c).length ≤ 6 := by
    unfold Source.words
    cases source.errorCode <;> simp
  refine ⟨pushad_pushes (by omega) hi.top, ?_, ?_⟩
  · rw [pushEsp, bind_of_ok (get_apply _)]
    exact push_pushes (by omega) hi.top
  · exact push_pushes (by rw [List.length_cons]; omega) hi.top

theorem call_calling {argument : ℕ} (f : CFunction t.esp0 2) (next : UInt32)
    (hargument : argument < 4294967296) (hc : UserMode c) (hi : Installed t h c.memory)
    (herror : ∀ e ∈ source.errorCode, e < 4294967296) :
    call next.toNat f.run ((entering t (h.address n) c).pushes
        (argument :: framePointer t source c :: savedWords t source c)) =
      f.run (calling t h n source argument next c) := by
  have hroom := hi.room
  have hlength := @length_savedWords t source c
  have hesp : (entering t (h.address n) c).esp = t.esp0 := rfl
  have hpush : push next.toNat ((entering t (h.address n) c).pushes
      (argument :: framePointer t source c :: savedWords t source c)) =
        .ok ((), calling t h n source argument next c) :=
    push_pushes (by simp only [List.length_cons]; omega) hi.top
  obtain ⟨-, hwords⟩ := @calling_words t h n source c next argument hargument hc hi herror
  rw [call, bind_of_ok hpush]
  cases hrun : f.run (calling t h n source argument next c) with
  | error e => rw [bind_of_error hrun]
  | ok d =>
    have heip : d.2.eip = next.toNat := (f.eip hrun).trans hwords.1
    rw [bind_of_ok hrun, bind_of_ok (get_apply _), if_pos heip, pure_apply]

theorem returned {argument : ℕ} {d : Processor} (f : CFunction t.esp0 2) (next : UInt32)
    (hargument : argument < 4294967296) (hc : UserMode c) (hi : Installed t h c.memory)
    (herror : ∀ e ∈ source.errorCode, e < 4294967296)
    (hrun : f.run (calling t h n source argument next c) = .ok ((), d)) :
    (∀ m, dropFromStack 8 { d with memory := m } =
      .ok ((), { d with esp := framePointer t source c, memory := m })) ∧
      Words d.memory (framePointer t source c) (savedWords t source c) := by
  obtain ⟨hpointer, hwords⟩ := @calling_words t h n source c next argument hargument hc hi herror
  have hesp := f.esp hrun
  have hroom := hi.room
  have htop := hi.top
  have hlength := @length_savedWords t source c
  have hdepth : framePointer t source c + 4 * (savedWords t source c).length = t.esp0 := by
    unfold framePointer
    omega
  constructor
  · intro m
    have hdrop : u32 ((d.esp : ℤ) + 8) = framePointer t source c := by
      unfold u32
      omega
    exact congrArg (fun e => Except.ok ((), { d with esp := e, memory := m })) hdrop
  · have hsaved := hwords.2.2.2
    rw [← hpointer]
    exact hsaved.congr fun a ha hlt => f.stack hrun a ha (by omega)

/-- A stub behind its entry: the function runs, and the registers are popped. -/
theorem interruptStub_eq (f : Handler t.esp0) (next : UInt32) (hc : UserMode c)
    (hi : Installed t h c.memory) (hn : n < 256) (herror : ∀ e ∈ source.errorCode, e < 4294967296) :
    interruptStub f n next ((entering t (h.address n) c).pushes (source.words c)) =
      (do
        f.run
        dropFromStack 8
        popad
        iretd) (calling t h n source n next c) := by
  obtain ⟨hpushad, hpointer, hpush⟩ := @saves t h n source c hi n
  have hcall := @call_calling t h n source c n f.toCFunction next (by omega) hc hi herror
  rw [interruptStub, bind_of_ok hpushad, bind_of_ok hpointer, bind_of_ok hpush]
  cases hrun : f.run (calling t h n source n next c) with
  | error e => rw [bind_of_error (hcall.trans hrun), bind_of_error hrun]
  | ok d => rw [bind_of_ok (hcall.trans hrun), bind_of_ok hrun]

def restored (t : SystemRegisters) (source : Source) (c d : Processor) : Processor :=
  { d with
    edi := c.edi
    esi := c.esi
    ebp := c.ebp
    ebx := c.ebx
    edx := c.edx
    ecx := c.ecx
    eax := c.eax
    esp := framePointer t source c + 32 }

theorem popad_restored {d : Processor} (hi : Installed t h c.memory)
    (hwords : Words d.memory (framePointer t source c) (savedWords t source c)) :
    popad { d with esp := framePointer t source c } = .ok ((), restored t source c d) ∧
      Words (restored t source c d).memory (restored t source c d).esp (source.words c) := by
  have htop := hi.top
  have hroom := hi.room
  have hlength := @length_savedWords t source c
  constructor
  · refine popad_ok (c := { d with esp := framePointer t source c }) hwords ?_
    show t.esp0 - 4 * (savedWords t source c).length + 32 < 4294967296
    omega
  · exact hwords.2.2.2.2.2.2.2.2

theorem iretd_restored {d : Processor} (hc : UserMode c) (hi : Installed t h c.memory)
    (hsource : source.errorCode = none) (hds : d.ds = userDataSegment ∧ d.es = userDataSegment ∧
      d.fs = userDataSegment ∧ d.gs = userDataSegment)
    (hwords : Words (restored t source c d).memory (restored t source c d).esp (source.words c)) :
    iretd (restored t source c d) = .ok ((), { c with memory := d.memory }) := by
  have htop := hi.top
  have hroom := hi.room
  have hlength := @length_savedWords t source c
  have hlt : (restored t source c d).esp + 20 < 4294967296 := by
    show t.esp0 - 4 * (savedWords t source c).length + 32 + 20 < 4294967296
    omega
  obtain ⟨hds', hes', hfs', hgs'⟩ := hc.segments
  obtain ⟨hds, hes, hfs, hgs⟩ := hds
  unfold Source.words at hwords
  rw [hsource, hc.cs, hc.ss] at hwords
  have hkept : keptSegment 3 userDataSegment = userDataSegment := by decide
  rw [iretd_program hwords hlt]
  refine congrArg (fun c' => Except.ok ((), c')) (Processor.mk.injEq .. |>.mpr ?_)
  refine ⟨rfl, rfl, rfl, rfl, rfl, rfl, rfl, rfl, rfl, rfl, hc.cs.symm, hc.ss.symm, ?_, ?_, ?_, ?_,
    rfl⟩
  · exact (congrArg (keptSegment 3) hds).trans (hkept.trans hds'.symm)
  · exact (congrArg (keptSegment 3) hes).trans (hkept.trans hes'.symm)
  · exact (congrArg (keptSegment 3) hfs).trans (hkept.trans hfs'.symm)
  · exact (congrArg (keptSegment 3) hgs).trans (hkept.trans hgs'.symm)

theorem iretd_ok {d d' : Processor} {eip cs eflags esp ss : ℕ} {ws : List ℕ}
    (hwords : Words d.memory d.esp (eip :: cs :: eflags :: esp :: ss :: ws))
    (hlt : d.esp + 20 < 4294967296) (hrun : iretd d = .ok ((), d')) :
    d'.eip = eip ∧ d'.cs = cs % 65536 ∧ d'.eflags = eflags ∧
      (cs % 4 ≠ 0 → d'.esp = esp ∧ d'.ss = ss % 65536) := by
  rw [iretd, bind_of_ok (pop_words hwords (by omega)),
    bind_of_ok (pop_words (c := { d with esp := d.esp + 4 }) hwords.2 (by dsimp only; omega)),
    bind_of_ok (pop_words (c := { d with esp := d.esp + 8 }) hwords.2.2 (by dsimp only; omega))]
    at hrun
  split_ifs at hrun with hcode hring
  · obtain ⟨-, rfl⟩ := ok_inj hrun
    exact ⟨rfl, rfl, rfl, fun hne => absurd hring hne⟩
  · rw [bind_of_ok (pop_words (c := { d with esp := d.esp + 12 }) hwords.2.2.2
        (by dsimp only; omega)),
      bind_of_ok (pop_words (c := { d with esp := d.esp + 16 }) hwords.2.2.2.2
        (by dsimp only; omega))] at hrun
    split_ifs at hrun with hstack
    · obtain ⟨-, rfl⟩ := ok_inj hrun
      exact ⟨rfl, rfl, rfl, fun _ => ⟨rfl, rfl⟩⟩
    · cases hrun
  · cases hrun

/-- With an error code in front nothing is popped into its place. -/
theorem iretd_displaced {d c' : Processor} {e : ℕ} (hc : UserMode c) (hi : Installed t h c.memory)
    (hsource : source.errorCode = some e)
    (hwords : Words (restored t source c d).memory (restored t source c d).esp (source.words c))
    (hrun : iretd (restored t source c d) = .ok ((), c')) : ∀ m, c' ≠ { c with memory := m } := by
  have htop := hi.top
  have hroom := hi.room
  have hlength := @length_savedWords t source c
  have hlt : (restored t source c d).esp + 20 < 4294967296 := by
    show t.esp0 - 4 * (savedWords t source c).length + 32 + 20 < 4294967296
    omega
  unfold Source.words at hwords
  rw [hsource] at hwords
  obtain ⟨heip, hcs, heflags, hstack⟩ := iretd_ok hwords hlt hrun
  rintro m rfl
  have hcs' : c.cs = c.eip % 65536 := hcs
  have heflags' : c.eflags = c.cs := heflags
  rw [hc.cs] at hcs' heflags'
  have hring : c.eip % 4 ≠ 0 := by
    have : userCodeSegment = 27 := rfl
    omega
  obtain ⟨hesp, hss⟩ := hstack hring
  have hesp' : c.esp = c.eflags := hesp
  have hss' : c.ss = c.esp % 65536 := hss
  rw [hc.ss, hesp', heflags'] at hss'
  exact absurd hss' (by decide)

end Entry

/-- An interrupt whose gate leads to a stub: its handler is called with the number of the interrupt and
the program's registers, unless the processor has pushed an error code, and if it comes back, so
does the program, with everything but memory as it was, exactly if there was no error code. -/
theorem interrupt_resumes_iff (t : SystemRegisters) (h : Handlers) (f : Handler t.esp0) (n : ℕ)
    (source : Source) (next : UInt32) (c d : Processor) (hc : UserMode c)
    (hi : Installed t h c.memory) (hn : n < 256) (h0 : n ≠ 0) (h128 : n ≠ 0x80)
    (herror : ∀ e ∈ source.errorCode, e < 4294967296)
    (hrun : f.run (calling t h n source n next c) = .ok ((), d)) :
    (source.errorCode = none →
      CalledWith n (c.frame (t.esp0 - 20)) (calling t h n source n next c)) ∧
    ((∃ m, (do
        interrupt t n source
        codeAt (h.interruptPointerTable n) (interruptStub f n next)) c =
          .ok ((), { c with memory := m })) ↔
      source.errorCode = none) := by
  have hstub : h.address n = h.interruptPointerTable n := by
    rw [Handlers.address, if_neg h128, if_neg h0]
  obtain ⟨hpointer, hcalling⟩ := @calling_words t h n source c next n (by omega) hc hi herror
  obtain ⟨hdrop, hsaved⟩ := returned f.toCFunction next (by omega) hc hi herror hrun
  obtain ⟨hpopad, hwords⟩ := popad_restored (d := d) hi hsaved
  have hwhole : (do
      interrupt t n source
      codeAt (h.interruptPointerTable n) (interruptStub f n next)) c =
        iretd (restored t source c d) := by
    rw [← hstub, bind_of_ok (interrupt_enters hc hi hn), codeAt_pushes,
      interruptStub_eq f next hc hi hn herror, bind_of_ok hrun, bind_of_ok (hdrop d.memory),
      bind_of_ok hpopad]
  rw [hwhole]
  constructor
  · intro hsource
    refine ⟨framePointer t source c, ?_, ?_⟩
    · exact ⟨hcalling.2.1, hcalling.2.2.1, trivial⟩
    · rw [← hpointer, ← savedWords_frame hsource]
      exact hcalling.2.2.2
  · constructor
    · rintro ⟨m, hresumes⟩
      by_contra hsome
      obtain ⟨e, he⟩ := Option.ne_none_iff_exists'.mp hsome
      exact iretd_displaced hc hi he hwords hresumes m rfl
    · exact fun hsource => ⟨_, iretd_restored hc hi hsource (f.segments hrun) hwords⟩

theorem interrupt_resumes_iff_timer : let t := systemRegisters ⟨4095, 0x110000⟩
    (∃ m, (do
      interrupt t 0x20 (.hardware none)
      codeAt (someHandlers.interruptPointerTable 0x20)
        (interruptStub (Handler.returning t.esp0 0) 0x20 0x101212)) someProgram =
        .ok ((), { someProgram with memory := m })) ↔
      (Source.hardware none).errorCode = none :=
  (interrupt_resumes_iff (systemRegisters ⟨4095, 0x110000⟩) someHandlers (Handler.returning _ 0)
    0x20 (.hardware none) 0x101212 someProgram _ userMode_someProgram
    (installed_idtInit someHandlers someObjects _) (by decide) (by decide) (by decide)
    (fun e he => nomatch he) rfl).2

theorem isr80hWrapper_returns {t : SystemRegisters} {h : Handlers} (f : Handler t.esp0) {tmpRes : ℕ}
    {next : UInt32} {c d : Processor} (hc : UserMode c) (hi : Installed t h c.memory)
    (htmp : tmpRes + 4 ≤ t.esp0 - 52 ∨ t.esp0 ≤ tmpRes)
    (hrun : f.run (calling t h 0x80 .software c.eax next c) = .ok ((), d))
    (heax : d.eax < 4294967296) :
    (do
      interrupt t 0x80 .software
      codeAt (h.address 0x80) (isr80hWrapper f tmpRes next)) c =
        .ok ((), { c with eax := d.eax, memory := store d.memory 4 tmpRes d.eax }) := by
  have herror : ∀ e ∈ Source.software.errorCode, e < 4294967296 := fun e he => nomatch he
  have hargument : c.eax < 4294967296 := hc.words c.eax (by simp)
  obtain ⟨hpushad, hpointer, hpush⟩ := @saves t h 0x80 .software c hi c.eax
  set saved := (entering t (h.address 0x80) c).pushes
    (framePointer t .software c :: savedWords t .software c)
  have heaxSaved : saved.eax = c.eax := rfl
  have hcall := call_calling (n := 0x80) f.toCFunction next hargument hc hi herror
  obtain ⟨hdrop, hsaved⟩ := returned f.toCFunction next hargument hc hi herror hrun
  obtain ⟨hds, hsegments⟩ := f.segments hrun
  have hdata : ¬d.ds / 4 = 0 := by
    rw [hds]
    decide
  set m := store d.memory 4 tmpRes d.eax
  have hwrite : writeData tmpRes d.eax d = .ok ((), { d with memory := m }) := by
    rw [writeData, bind_of_ok (get_apply d), if_neg hdata, modify_apply]
  have hroom := hi.room
  have hpointer' : framePointer t .software c = t.esp0 - 52 := rfl
  have hkept : Words m (framePointer t .software c) (savedWords t .software c) :=
    hsaved.store_of_disjoint (by show _ ∨ _ + 4 * 13 ≤ _; omega)
  obtain ⟨hpopad, hwords⟩ := popad_restored (d := { d with memory := m }) hi hkept
  have hread : readData 4 tmpRes (restored t .software c { d with memory := m }) =
      .ok (d.eax, restored t .software c { d with memory := m }) := by
    have hload : load m 4 tmpRes = d.eax := by
      rw [load_store_self]
      exact Nat.mod_eq_of_lt heax
    exact (readData_of_ne (c := restored t .software c { d with memory := m }) hdata).trans
      (congrArg (fun w => Except.ok (w, restored t .software c { d with memory := m })) hload)
  rw [bind_of_ok (interrupt_enters hc hi (by decide)), codeAt_pushes, isr80hWrapper,
    bind_of_ok hpushad, bind_of_ok hpointer, bind_of_ok (get_apply _), heaxSaved,
    bind_of_ok hpush, bind_of_ok (hcall.trans hrun), bind_of_ok (get_apply d), bind_of_ok hwrite,
    bind_of_ok (hdrop m), bind_of_ok hpopad, bind_of_ok hread, bind_of_ok (mov_apply _ _)]
  exact iretd_restored (c := { c with eax := d.eax }) (hc.withEax heax) hi rfl ⟨hds, hsegments⟩
    hwords

/-- The result of a system call goes through `tmp_res`, and the program goes on with it in `eax`. -/
theorem isr80hWrapper_resumes (t : SystemRegisters) (h : Handlers) (f : Handler t.esp0)
    (tmpRes : ℕ) (next : UInt32) (c d : Processor) (hc : UserMode c) (hi : Installed t h c.memory)
    (htmp : tmpRes + 4 ≤ t.esp0 - 52 ∨ t.esp0 ≤ tmpRes)
    (hrun : f.run (calling t h 0x80 .software c.eax next c) = .ok ((), d))
    (heax : d.eax < 4294967296) :
    CalledWith c.eax (c.frame (t.esp0 - 20)) (calling t h 0x80 .software c.eax next c) ∧
    (do
      interrupt t 0x80 .software
      codeAt (h.address 0x80) (isr80hWrapper f tmpRes next)) c =
        .ok ((), { c with eax := d.eax, memory := store d.memory 4 tmpRes d.eax }) := by
  refine ⟨?_, isr80hWrapper_returns f hc hi htmp hrun heax⟩
  obtain ⟨hframe, hcalling⟩ := @calling_words t h 0x80 .software c next c.eax
    (hc.words c.eax (by simp)) hc hi fun e he => nomatch he
  refine ⟨framePointer t .software c, ⟨hcalling.2.1, hcalling.2.2.1, trivial⟩, ?_⟩
  rw [← hframe]
  exact hcalling.2.2.2

theorem isr80hWrapper_resumes_unknown : let t := systemRegisters ⟨4095, 0x110000⟩
    ∃ m, (do
      interrupt t 0x80 .software
      codeAt (someHandlers.address 0x80)
        (isr80hWrapper (Handler.returning t.esp0 0) 0x120000 0x100050)) someProgram =
        .ok ((), { someProgram with eax := 0, memory := m }) :=
  ⟨_, (isr80hWrapper_resumes (systemRegisters ⟨4095, 0x110000⟩) someHandlers (Handler.returning _ 0)
    0x120000 0x100050 someProgram _ userMode_someProgram
    (installed_idtInit someHandlers someObjects _) (by decide) rfl (by decide)).2⟩

/-- `idt_zero` is entered without a return address and leaves through the program's own: the program
goes on in ring 0, on the kernel's stack. -/
theorem idtZero_leaves_ring_zero (t : SystemRegisters) (h : Handlers) (idtZero : CFunction t.esp0 0)
    (source : Source) (c d : Processor) (hc : UserMode c) (hi : Installed t h c.memory)
    (hsource : source.errorCode = none)
    (hrun : idtZero.run ((entering t (h.address 0) c).pushes (source.words c)) = .ok ((), d)) :
    (do
      interrupt t 0 source
      codeAt (h.address 0) idtZero.run) c = .ok ((), d) ∧
    d.eip = c.eip ∧ d.cs = kernelCodeSelector ∧ d.ss = kernelDataSelector ∧
      Words d.memory d.esp [c.cs, c.eflags, c.esp, c.ss] := by
  have htop := hi.top
  have hroom := hi.room
  have hwords : source.words c = [c.eip, c.cs, c.eflags, c.esp, c.ss] := by
    rw [Source.words, hsource]
    rfl
  have hlt : ∀ w ∈ source.words c, w < 4294967296 := fun w hw =>
    @savedWords_lt _ _ source _ hc hi (fun e he => by simp [hsource] at he) w
      (List.mem_append_right _ hw)
  rw [hwords] at hrun hlt
  have hstack : Words ((entering t (h.address 0) c).pushes [c.eip, c.cs, c.eflags, c.esp,
      c.ss]).memory (t.esp0 - 20) [c.eip, c.cs, c.eflags, c.esp, c.ss] := words_storeWords hlt
  have hesp : ((entering t (h.address 0) c).pushes [c.eip, c.cs, c.eflags, c.esp, c.ss]).esp =
      t.esp0 - 20 := rfl
  refine ⟨?_, (idtZero.eip hrun).trans hstack.1, (idtZero.kept hrun).2.2.2.2.1,
    (idtZero.kept hrun).2.2.2.2.2.trans hi.ss0, ?_⟩
  · rw [bind_of_ok (interrupt_enters hc hi (by decide)), codeAt_pushes, hwords, hrun]
  · rw [idtZero.esp hrun, hesp]
    exact hstack.2.congr fun a ha hlt => idtZero.stack hrun a (by omega)
      (lt_of_lt_of_eq hlt (by show t.esp0 - 20 + 4 + 4 * 4 = t.esp0; omega))

theorem idtZero_leaves_ring_zero_int : let t := systemRegisters ⟨4095, 0x110000⟩
    ∃ d, (do
      interrupt t 0 .software
      codeAt (someHandlers.address 0) (CFunction.returning t.esp0 0 0).run) someProgram =
        .ok ((), d) ∧
      d.eip = someProgram.eip ∧ d.cs = kernelCodeSelector :=
  have h := idtZero_leaves_ring_zero (systemRegisters ⟨4095, 0x110000⟩) someHandlers
    (CFunction.returning _ 0 0) .software someProgram _ userMode_someProgram
    (installed_idtInit someHandlers someObjects _) rfl rfl
  ⟨_, h.1, h.2.1, h.2.2.1⟩

end Dexter
