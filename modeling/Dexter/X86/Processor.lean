import Dexter.Machine
import Dexter.Lib.LittleEndian

/-!
# The processor

As much of it as a switch to a program needs: the registers, a stack, the checks on the selectors of
the segments in `gdt_structured` (`sys/kernel.c`), and `iretd`. It runs in ring 0, every segment
begins at 0, and `memory` is what the loaded directory shows. NT is clear in the kernel, as an
interrupt gate leaves it, and the flags that arithmetic sets are not kept: what is modelled here
does not read them before `iretd` replaces them all.
-/

namespace Dexter
open Lib.Programs Lib.LittleEndian

inductive Fault
  | generalProtection
  | wildReturn
  deriving DecidableEq, Repr

structure Processor where
  edi : ℕ
  esi : ℕ
  ebp : ℕ
  ebx : ℕ
  edx : ℕ
  ecx : ℕ
  eax : ℕ
  esp : ℕ
  eip : ℕ
  eflags : ℕ
  cs : ℕ
  ss : ℕ
  ds : ℕ
  es : ℕ
  fs : ℕ
  gs : ℕ
  memory : ℕ → UInt8

def gdtStructured : List ℕ := [0x00, 0x9a, 0x92, 0xf8, 0xf2, 0xe9]

/-- The type of the segment that a selector names. There is no local table. -/
def segmentType (selector : ℕ) : Option ℕ :=
  if selector / 4 % 2 = 1 then none else gdtStructured[selector / 8]?

def privilege (type : ℕ) : ℕ := type / 32 % 4

/-- Ring 0 may load the selector into `ds`, `es`, `fs` or `gs`: it is null, or it names data or
readable code that is present. -/
def loadsData (selector : ℕ) : Bool :=
  selector / 4 == 0 || (segmentType selector).any fun type =>
    type.testBit 7 && type.testBit 4 && (!type.testBit 3 || type.testBit 1) &&
      (type.testBit 3 && type.testBit 2 || selector % 4 ≤ privilege type)

def loadsCode (selector : ℕ) : Bool :=
  (segmentType selector).any fun type =>
    type.testBit 7 && type.testBit 4 && type.testBit 3 &&
      if type.testBit 2 then privilege type ≤ selector % 4 else privilege type == selector % 4

def loadsStack (ring selector : ℕ) : Bool :=
  (segmentType selector).any fun type =>
    type.testBit 7 && type.testBit 4 && !type.testBit 3 && type.testBit 1 &&
      privilege type == ring && selector % 4 == ring

def keptSegment (ring selector : ℕ) : ℕ :=
  if (segmentType selector).any fun type => privilege type < ring then 0 else selector

namespace Processor

def push (w : ℕ) : Prog Fault Processor Unit :=
  modify fun c =>
    { c with
      esp := u32 (c.esp - 4)
      memory := store c.memory 4 (u32 (c.esp - 4)) w }

def pop : Prog Fault Processor ℕ :=
  step fun c => (load c.memory 4 c.esp, { c with esp := u32 (c.esp + 4) })

def mov (f : Processor → Processor) : Prog Fault Processor Unit := modify f

def readData (n p : ℕ) : Prog Fault Processor ℕ := do
  let c ← get
  if c.ds / 4 = 0 then abort .generalProtection else pure (load c.memory n p)

def movFromEbx (offset : ℕ) (put : ℕ → Processor → Processor) : Prog Fault Processor Unit := do
  let c ← get
  let w ← readData 4 (u32 (c.ebx + offset))
  mov (put w)

def pushFromEbx (offset : ℕ) : Prog Fault Processor Unit := do
  let c ← get
  let w ← readData 4 (u32 (c.ebx + offset))
  push w

def movFromAx (put : ℕ → Processor → Processor) : Prog Fault Processor Unit := do
  let c ← get
  if loadsData (c.eax % 65536) then mov (put (c.eax % 65536)) else abort .generalProtection

def pushf : Prog Fault Processor Unit := do
  let c ← get
  push (c.eflags &&& 0x00FCFFFF)

def call (next : ℕ) (f : Prog Fault Processor Unit) : Prog Fault Processor Unit := do
  push next
  f
  let c ← get
  if c.eip = next then pure () else abort .wildReturn

def ret : Prog Fault Processor Unit := do
  let eip ← pop
  mov fun c => { c with eip := eip }

def iretd : Prog Fault Processor Unit := do
  let eip ← pop
  let cs ← pop
  let eflags ← pop
  if loadsCode (cs % 65536) then
    if cs % 4 = 0 then modify fun c => { c with eip := eip, cs := cs % 65536, eflags := eflags }
    else do
      let esp ← pop
      let ss ← pop
      if loadsStack (cs % 4) (ss % 65536) then
        modify fun c =>
          { c with
            eip := eip
            cs := cs % 65536
            eflags := eflags
            esp := esp
            ss := ss % 65536
            ds := keptSegment (cs % 4) c.ds
            es := keptSegment (cs % 4) c.es
            fs := keptSegment (cs % 4) c.fs
            gs := keptSegment (cs % 4) c.gs }
      else abort .generalProtection
  else abort .generalProtection

@[simp] theorem mov_apply (f : Processor → Processor) (c : Processor) : mov f c = .ok ((), f c) := rfl

end Processor

theorem selector_lt {f : ℕ → Bool} {selector : ℕ} (h : (segmentType selector).any f = true) :
    selector < 48 := by
  obtain ⟨type, htype, -⟩ := (Option.any_eq_true f _).mp h
  unfold segmentType at htype
  split_ifs at htype
  obtain ⟨hlt, -⟩ := List.getElem?_eq_some_iff.mp htype
  have hlength : gdtStructured.length = 6 := rfl
  omega

theorem user_selectors {cs ss : ℕ} (hcs : loadsCode cs = true) (hring : cs % 4 ≠ 0)
    (hss : loadsStack (cs % 4) ss = true) : cs = userCodeSegment ∧ ss = userDataSegment := by
  have hcode : ∀ cs < 48, loadsCode cs = true → cs % 4 ≠ 0 → cs = userCodeSegment := by decide
  have hdata : ∀ ss < 48, loadsStack 3 ss = true → ss = userDataSegment := by decide
  obtain rfl := hcode cs (selector_lt hcs) hcs hring
  exact ⟨rfl, hdata ss (selector_lt hss) hss⟩

end Dexter
