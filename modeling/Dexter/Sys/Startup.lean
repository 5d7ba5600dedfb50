import Dexter.Sys.PrintBuf
import Dexter.X86.Interrupts
import Dexter.Dev.KeyboardList
import Dexter.Fs.FileSystems
import Dexter.Libc.Stdio

/-!
# The start of the kernel (`sys/kernel.c`)

`kernel_init` sets up one table of the kernel after the other. It gets through to its end but where
the volume has the signature of the file system and no end of its root directory. A kernel that has
started has no process and a directory that shows every address at itself, and its tables hold what
interrupts, system calls and file calls are later served from.
-/

namespace Dexter.Startup
open Lib.Programs Lib.LittleEndian KernelHeap KernelState FileSystems KeyboardList
open TaskLayer (cleared)

abbrev Commands := ℕ → Option (InterruptFrame → Prog Crash TaskState ℕ)

structure Machine where
  kernel : KernelState
  terminal : Terminal
  gdtr : ℕ × ℕ
  registers : SystemRegisters
  commands : Commands
  keyboards : KeyboardList.State
  filesystems : Filesystems
  disk : Disk

structure Layout where
  gdtReal : ℕ
  gdtDescriptor : ℕ
  idt : IdtObjects
  tss : UInt32
  handlers : Handlers
  classicKeyboard : ℕ
  classicKeyboardInit : ℕ
  below : gdtReal < 4294967296
  apart : gdtReal + 48 ≤ idt.idtDescriptors ∨
    idt.idtDescriptors + 8 * dexterTotalInterrupts ≤ gdtReal
  gdtrApart : gdtReal + 48 ≤ gdtDescriptor ∨ gdtDescriptor + 6 ≤ gdtReal
  idtrApart : gdtReal + 48 ≤ idt.idtrDescriptor ∨ idt.idtrDescriptor + 6 ≤ gdtReal
  keyboard_ne : classicKeyboard ≠ 0
  init_ne : classicKeyboardInit ≠ 0

def onKernel {α : Type} (prog : Prog Crash KernelState α) : Prog Crash Machine α :=
  zoom Machine.kernel (fun k m => { m with kernel := k }) prog

def onRam {α : Type} (prog : Prog Crash Ram α) : Prog Crash Machine α :=
  zoom (fun m => m.kernel.ram) (fun ram m => { m with kernel := { m.kernel with ram := ram } }) prog

def onTerminal (f : Terminal → Terminal) : Prog Crash Machine Unit :=
  modify fun m => { m with terminal := f m.terminal }

def text (str : String) : CString := str.toList.map fun c => UInt8.ofNat c.toNat

def report (verbose : Bool) (call : PrintCall) : Prog Crash Machine Unit :=
  onTerminal (PrintCall.runAll (if verbose then [call] else []))

def gdtLoad (gdtDescriptor gdt size : ℕ) (m : Ram) : (ℕ × ℕ) × Ram :=
  let m := store m 4 (gdtDescriptor + 2) gdt
  let m := store m 2 gdtDescriptor size
  ((load m 2 gdtDescriptor, load m 4 (gdtDescriptor + 2)), m)

def setupGdt (l : Layout) : Prog Crash Machine Unit := do
  onRam (modify (cleared l.gdtReal 48))
  onRam (gdtStructuredToGdt l.gdtReal (fun i => (kernelSegments l.tss).getD i ⟨0, 0, 0⟩) 6)
  modify fun m =>
    let gdt := gdtLoad l.gdtDescriptor l.gdtReal 48 m.kernel.ram
    { m with
      kernel := { m.kernel with ram := gdt.2 }
      gdtr := gdt.1 }

def setupTss : Prog Crash Machine Unit :=
  modify fun m =>
    { m with registers := { m.registers with ss0 := kernelDataSelector, esp0 := 0x600000 } }

def loadIdt (l : Layout) : Prog Crash Machine Unit :=
  modify fun m =>
    let idt := idtInit l.handlers l.idt m.kernel.ram
    { m with
      kernel := { m.kernel with ram := idt.2 }
      registers := { m.registers with idtr := idt.1 } }

def fsInit : Prog Crash Machine Unit := do
  onKernel (modify fun s => { s with fileDescriptors := fun _ => none })
  zoom Machine.filesystems (fun t m => { m with filesystems := t }) fsLoad

/-- `panic` does not come back. -/
def isr80hRegisterCommand (commandId : ℤ) (command : InterruptFrame → Prog Crash TaskState ℕ) :
    Prog Crash Commands Unit :=
  if commandId < 0 ∨ commandId ≥ dexterMaxIsr80hCommands then abort .hang
  else do
    let commands ← get
    if (commands commandId.toNat).isSome then abort .hang
    else modify fun commands => Function.update commands commandId.toNat (some command)

def isr80hRegisterCommands : Prog Crash Commands Unit := do
  isr80hRegisterCommand 0 isr80hCommand0Sum
  isr80hRegisterCommand 1 isr80hCommand1Print

/-- `classic_keyboard_init` writes to a port and returns 0. -/
def keyboardInit (l : Layout) : Prog Crash KeyboardList.State ℤ :=
  keyboardInsert (fun _ => 0) l.classicKeyboard

def searchDisk : Prog Crash Machine Unit := do
  let m ← get
  let disk ← onKernel (onHeap (diskSearchAndInit m.filesystems m.disk.image m.disk.past))
  modify fun m => { m with disk := disk }

def kernelInit (l : Layout) (verbose : Bool) : Prog Crash Machine Unit := do
  onTerminal terminalInitialize
  onTerminal (cprint (text "THIS IS DEXTER!\n\n") 14)
  setupGdt l
  report verbose (.cprint (text "Global descriptor table loaded.\n") 15)
  onKernel (onHeap (modify fun _ => kheapInit))
  report verbose (.cprint (text "Kernel memory heap initialized.\n") 13)
  fsInit
  report verbose (.cprint (text "File systems initialized.\n") 11)
  onKernel (onTasks startPaging)
  report verbose (.cprint (text "Paging enabled.\n") 10)
  zoom Machine.commands (fun t m => { m with commands := t }) isr80hRegisterCommands
  report verbose (.print (text "Kernel commands registered.\n"))
  loadIdt l
  report verbose (.cprint (text "Interrupt descriptor table initialized.\n") 13)
  let _ ← zoom Machine.keyboards (fun t m => { m with keyboards := t }) (keyboardInit l)
  report verbose (.print (text "Keyboard initialized.\n"))
  searchDisk
  report verbose (.cprint (text "Primary disk initialized.\n") 14)
  setupTss
  report verbose (.cprint (text "Task switching segment loaded.\n") 10)

def kernelInitEnd (verbose : Bool) : Prog Crash Machine Unit := do
  searchDisk
  report verbose (.cprint (text "Primary disk initialized.\n") 14)
  setupTss
  report verbose (.cprint (text "Task switching segment loaded.\n") 10)

structure StaticStorage (l : Layout) (m : Machine) : Prop where
  unloaded : Unloaded m.kernel
  commands : ∀ n, m.commands n = none
  keyboards : m.keyboards.keyboardListHead = 0 ∧ m.keyboards.keyboardListTail = 0
  classic : m.keyboards.keyboards l.classicKeyboard = ⟨l.classicKeyboardInit, 0⟩

def tableMessages : List PrintCall :=
  [.cprint (text "Global descriptor table loaded.\n") 15,
    .cprint (text "Kernel memory heap initialized.\n") 13,
    .cprint (text "File systems initialized.\n") 11,
    .cprint (text "Paging enabled.\n") 10,
    .print (text "Kernel commands registered.\n"),
    .cprint (text "Interrupt descriptor table initialized.\n") 13,
    .print (text "Keyboard initialized.\n")]

def earlyMessages (verbose : Bool) : List PrintCall :=
  .cprint (text "THIS IS DEXTER!\n\n") 14 :: if verbose then tableMessages else []

def messages (verbose : Bool) : List PrintCall :=
  earlyMessages verbose ++ if verbose then
    [.cprint (text "Primary disk initialized.\n") 14,
      .cprint (text "Task switching segment loaded.\n") 10]
  else []

structure Started (l : Layout) (verbose : Bool) (m m' : Machine) : Prop where
  unloaded : Unloaded m'.kernel
  sees : PrintBuf.KernelSeesSelf m'.kernel.toTaskLayer
  space : m'.kernel.toTaskLayer.AddressSpace m'.kernel.kernelChunk
  descriptors : ∀ i, m'.kernel.fileDescriptors i = none
  gdtr : m'.gdtr = (48, l.gdtReal)
  segments : ∀ i < 6, descriptorAt m'.kernel.ram (l.gdtReal + 8 * i) =
    (kernelSegments l.tss).getD i ⟨0, 0, 0⟩
  interrupts : Installed m'.registers l.handlers m'.kernel.ram
  commands : m'.commands = isr80hCommands
  keyboards : Listed m'.keyboards [l.classicKeyboard]
  disk : ∃ k r, fat16Resolve (clearedDisk m.disk.image m.disk.past) k =
    .ok ((r, m'.disk.fsPrivate), m'.kernel.heap)
  taken : m'.disk.filesystem = true ↔ m.disk.image.header.signature = 0x29
  made : m'.disk.fsPrivate.isSome = m'.disk.filesystem
  screen : m'.terminal = PrintCall.runAll (messages verbose) (terminalInitialize m.terminal)

structure Prepared (l : Layout) (verbose : Bool) (m m₁ : Machine) : Prop where
  unloaded : Unloaded m₁.kernel
  sees : PrintBuf.KernelSeesSelf m₁.kernel.toTaskLayer
  space : m₁.kernel.toTaskLayer.AddressSpace m₁.kernel.kernelChunk
  room : Room 1026 m₁.kernel.heap
  descriptors : ∀ i, m₁.kernel.fileDescriptors i = none
  gdtr : m₁.gdtr = (48, l.gdtReal)
  segments : ∀ i < 6, descriptorAt m₁.kernel.ram (l.gdtReal + 8 * i) =
    (kernelSegments l.tss).getD i ⟨0, 0, 0⟩
  table : Installed (systemRegisters m₁.registers.idtr) l.handlers m₁.kernel.ram
  commands : m₁.commands = isr80hCommands
  keyboards : Listed m₁.keyboards [l.classicKeyboard]
  filesystems : m₁.filesystems = tableOf [fat16Init]
  disk : m₁.disk = m.disk
  screen : m₁.terminal = PrintCall.runAll (earlyMessages verbose) (terminalInitialize m.terminal)

section Steps
variable {l : Layout} {m : Machine}

theorem zoom_at {σ τ α : Type} {view : σ → τ} {put : τ → σ → σ} {prog : Prog Crash τ α} {s : σ}
    {t t' : τ} {a : α} (h : prog t = .ok (a, t')) (ht : view s = t) :
    zoom view put prog s = .ok (a, put t' s) := zoom_of_ok (ht ▸ h)

theorem onKernel_at {α : Type} {prog : Prog Crash KernelState α} {a : α} {k k' : KernelState}
    (h : prog k = .ok (a, k')) (hk : m.kernel = k) :
    onKernel prog m = .ok (a, { m with kernel := k' }) := zoom_at h hk

theorem onRam_at {α : Type} {prog : Prog Crash Ram α} {a : α} {ram ram' : Ram}
    (h : prog ram = .ok (a, ram')) (hram : m.kernel.ram = ram) :
    onRam prog m = .ok (a, { m with kernel := { m.kernel with ram := ram' } }) := zoom_at h hram

theorem report_ok (verbose : Bool) (call : PrintCall) (m : Machine) : report verbose call m =
    .ok ((), { m with
      terminal := PrintCall.runAll (if verbose then [call] else []) m.terminal }) := rfl

theorem runAll_append (calls calls' : List PrintCall) (t : Terminal) :
    PrintCall.runAll (calls ++ calls') t = PrintCall.runAll calls' (PrintCall.runAll calls t) :=
  List.foldl_append

theorem runAll_banner (str : CString) (c : ℤ) (calls : List PrintCall) (t : Terminal) :
    PrintCall.runAll (.cprint str c :: calls) t = PrintCall.runAll calls (cprint str c t) := rfl

theorem runAll_reports (verbose : Bool) (calls calls' : List PrintCall) (t : Terminal) :
    PrintCall.runAll (if verbose then calls' else [])
      (PrintCall.runAll (if verbose then calls else []) t) =
      PrintCall.runAll (if verbose then calls ++ calls' else []) t := by
  cases verbose with
  | false => rfl
  | true => exact (runAll_append calls calls' t).symm

theorem kheapInit_ok (m : Machine) : onKernel (onHeap (modify fun _ => kheapInit)) m =
    .ok ((), { m with kernel := { m.kernel with heap := kheapInit } }) := rfl

theorem fsInit_ok (m : Machine) : fsInit m = .ok ((), { m with
    kernel := { m.kernel with fileDescriptors := fun _ => none }
    filesystems := tableOf [fat16Init] }) :=
  (bind_of_ok (onKernel_at (modify_apply _ _) rfl) _).trans (zoom_at (fsLoad_ok _) rfl)

theorem gdtLoad_loads (l : Layout) (ram : Ram) :
    (gdtLoad l.gdtDescriptor l.gdtReal 48 ram).1 = (48, l.gdtReal) := by
  dsimp only [gdtLoad]
  rw [load_store_self, load_store_of_disjoint (by omega), load_store_self]
  exact congrArg₂ Prod.mk (by decide) (Nat.mod_eq_of_lt l.below)

theorem setupGdt_ok {ram ram' : Ram} {gdt : (ℕ × ℕ) × Ram} (h : gdtStructuredToGdt l.gdtReal
    (fun i => (kernelSegments l.tss).getD i ⟨0, 0, 0⟩) 6 (cleared l.gdtReal 48 ram) =
      .ok ((), ram')) (hgdt : gdtLoad l.gdtDescriptor l.gdtReal 48 ram' = gdt)
    (hram : m.kernel.ram = ram) :
    setupGdt l m = .ok ((), { m with
      kernel := { m.kernel with ram := gdt.2 }
      gdtr := gdt.1 }) := by
  subst hgdt
  exact (bind_of_ok (onRam_at (modify_apply _ _) hram) _).trans (bind_of_ok (onRam_at h rfl) _)

theorem loadIdt_ok {ram : Ram} {idt : Idtr × Ram}
    (h : idtInit l.handlers l.idt ram = idt) (hram : m.kernel.ram = ram) :
    loadIdt l m = .ok ((), { m with
      kernel := { m.kernel with ram := idt.2 }
      registers := { m.registers with idtr := idt.1 } }) := by
  subst hram h
  rfl

theorem kernelSegments_descriptors (l : Layout) (ram : Ram) : ∃ ram',
    gdtStructuredToGdt l.gdtReal (fun i => (kernelSegments l.tss).getD i ⟨0, 0, 0⟩) 6 ram =
      .ok ((), ram') ∧
    ∀ i < 6, descriptorAt ram' (l.gdtReal + 8 * i) = (kernelSegments l.tss).getD i ⟨0, 0, 0⟩ :=
  gdtStructuredToGdt_returns _ _ 6
    (fun i _ => accepted_iff.mp (kernelSegments_accepted l.tss i)) ram

theorem isr80hRegisterCommands_ok {commands : Commands} (h : ∀ n, commands n = none) :
    isr80hRegisterCommands commands = .ok ((), isr80hCommands) := by
  have hnone : (fun _ => none) = commands := funext fun n => (h n).symm
  subst hnone
  refine congrArg (fun t => Except.ok ((), t)) (funext fun n => ?_)
  match n with
  | 0 => rfl
  | 1 => rfl
  | _ + 2 => rfl

theorem keyboardInit_ok (h : StaticStorage l m) : ∃ s,
    keyboardInit l m.keyboards = .ok (0, s) ∧ Listed s [l.classicKeyboard] := by
  have hnext : m.keyboards.next l.classicKeyboard = 0 := congrArg Keyboard.next h.classic
  have hempty : Listed m.keyboards [] := ⟨h.keyboards.1, List.nodup_nil, h.keyboards.2⟩
  have hlisted := (link_listed_iff hempty l.keyboard_ne List.not_mem_nil).mpr hnext
  refine ⟨_, keyboardInsert_ok.mpr ⟨l.keyboard_ne, ?_, rfl, rfl⟩, ?_⟩
  · rw [h.classic]
    exact l.init_ne
  · exact ⟨hlisted.chain, hlisted.once, hlisted.last⟩

theorem startPaging_space {s s' : TaskState} (h : startPaging s = .ok ((), s')) :
    s'.AddressSpace s'.kernelChunk := by
  rw [startPaging, @bind_ok Crash TaskState] at h
  obtain ⟨chunk, s₁, hnew, h₁⟩ := h
  obtain ⟨m, hpaging, rfl⟩ := TaskLayer.onMemory_ok.mp hnew
  rw [bind_of_ok (modify_apply _ _)] at h₁
  obtain ⟨m', hswitch, rfl⟩ := TaskLayer.onMemory_ok.mp h₁
  obtain ⟨-, rfl⟩ := pagingSwitch_ok.mp hswitch
  have hspace := (pagingNew4gb_spec (by decide) (Owns.empty _) hpaging).space
  exact ⟨hspace.owned, hspace.separated⟩

theorem descriptorAt_idtInit (l : Layout) (ram : Ram) {i : ℕ} (hi : i < 6) :
    descriptorAt (idtInit l.handlers l.idt ram).2 (l.gdtReal + 8 * i) =
      descriptorAt ram (l.gdtReal + 8 * i) := by
  have hapart := l.apart
  have hidtr := l.idtrApart
  exact descriptorAt_congr fun a _ _ => idtInit_frame l.handlers l.idt ram (by omega) (by omega)

theorem descriptorAt_gdtLoad (l : Layout) (ram : Ram) {i : ℕ} (hi : i < 6) :
    descriptorAt (gdtLoad l.gdtDescriptor l.gdtReal 48 ram).2 (l.gdtReal + 8 * i) =
      descriptorAt ram (l.gdtReal + 8 * i) := by
  have hgdtr := l.gdtrApart
  refine descriptorAt_congr fun a _ _ => ?_
  dsimp only [gdtLoad]
  rw [store_frame (by omega), store_frame (by omega)]

end Steps

section Start
variable {l : Layout} {verbose : Bool} {m m' : Machine}

theorem kernelInit_reaches (h : StaticStorage l m) (verbose : Bool) : ∃ m₁,
    Prepared l verbose m m₁ ∧ kernelInit l verbose m = kernelInitEnd verbose m₁ := by
  obtain ⟨written, hwritten, hsegments⟩ :=
    kernelSegments_descriptors l (cleared l.gdtReal 48 m.kernel.ram)
  obtain ⟨gdt, hgdt⟩ : ∃ gdt, gdtLoad l.gdtDescriptor l.gdtReal 48 written = gdt := ⟨_, rfl⟩
  obtain ⟨memory, chunk, hstart, -, hunused, hshort⟩ := startPaging_returns
    (s := { m.kernel.toTaskLayer with heap := kheapInit, ram := gdt.2 })
    kheapInit_unused (by decide)
  obtain ⟨keyboards, hkeyboards, hlisted⟩ := keyboardInit_ok h
  have hspace := startPaging_space hstart
  have hpaging : onTasks startPaging
      { m.kernel with heap := kheapInit, ram := gdt.2, fileDescriptors := fun _ => none } = .ok ((),
        { m.kernel with
          toPagingLayer := memory
          kernelChunk := chunk
          ram := gdt.2
          fileDescriptors := fun _ => none }) := onTasks_ok.mpr ⟨_, hstart, rfl⟩
  have hcommands := isr80hRegisterCommands_ok h.commands
  obtain ⟨idt, hidt⟩ : ∃ idt, idtInit l.handlers l.idt gdt.2 = idt := ⟨_, rfl⟩
  obtain ⟨t, ht⟩ : ∃ t, terminalInitialize m.terminal = t := ⟨_, rfl⟩
  have hfirst : onTerminal terminalInitialize m = .ok ((), { m with terminal := t }) := by
    rw [onTerminal, modify_apply, ht]
  obtain ⟨t₁, ht₁⟩ : ∃ t₁, cprint (text "THIS IS DEXTER!\n\n") 14 t = t₁ := ⟨_, rfl⟩
  have hbanner : onTerminal (cprint (text "THIS IS DEXTER!\n\n") 14) { m with terminal := t } =
      .ok ((), { m with terminal := t₁ }) := by
    rw [onTerminal, modify_apply, ht₁]
  refine ⟨{
    kernel :=
      { m.kernel with
        toPagingLayer := memory
        kernelChunk := chunk
        ram := idt.2
        fileDescriptors := fun _ => none }
    terminal := PrintCall.runAll (if verbose then tableMessages else []) t₁
    gdtr := gdt.1
    registers := { m.registers with idtr := idt.1 }
    commands := isr80hCommands
    keyboards := keyboards
    filesystems := tableOf [fat16Init]
    disk := m.disk }, ?_, ?_⟩
  · exact
      { unloaded := ⟨h.unloaded.tasks, h.unloaded.list, h.unloaded.currentTask,
          h.unloaded.processes, h.unloaded.currentProcess⟩
        sees := fun v hv => PrintBuf.startPaging_seesSelf hstart v hv
        space := ⟨hspace.owned, hspace.separated⟩
        room := ⟨hunused, hshort⟩
        descriptors := fun _ => rfl
        gdtr := hgdt ▸ gdtLoad_loads l written
        segments := fun i hi => by
          rw [← hidt, descriptorAt_idtInit l _ hi, ← hgdt, descriptorAt_gdtLoad l _ hi]
          exact hsegments i hi
        table := by
          rw [← hidt, idtInit_loads]
          exact installed_idtInit _ _ _
        commands := rfl
        keyboards := hlisted
        filesystems := rfl
        disk := rfl
        screen := by
          rw [ht, earlyMessages, runAll_banner, ht₁] }
  · rw [kernelInit, bind_of_ok hfirst, bind_of_ok hbanner, bind_of_ok (setupGdt_ok hwritten hgdt ?_),
      bind_of_ok (report_ok _ _ _), bind_of_ok (kheapInit_ok _), bind_of_ok (report_ok _ _ _),
      bind_of_ok (fsInit_ok _), bind_of_ok (report_ok _ _ _),
      bind_of_ok (onKernel_at hpaging ?_), bind_of_ok (report_ok _ _ _),
      bind_of_ok (zoom_at hcommands ?_), bind_of_ok (report_ok _ _ _),
      bind_of_ok (loadIdt_ok hidt ?_), bind_of_ok (report_ok _ _ _),
      bind_of_ok (zoom_at hkeyboards ?_), bind_of_ok (report_ok _ _ _)]
    · simp only [runAll_reports, List.cons_append, List.nil_append]
      rw [tableMessages, kernelInitEnd]
    all_goals rfl

theorem onHeap_ok {α : Type} {prog : Prog Crash KernelHeap α} {a : α} :
    onKernel (onHeap prog) m = .ok (a, m') ↔ ∃ k, prog m.kernel.heap = .ok (a, k) ∧
      m' = { m with kernel := { m.kernel with heap := k } } := by
  unfold onKernel KernelState.onHeap KernelState.onMemory onTasks TaskLayer.onMemory PagingLayer.onHeap
  constructor
  · intro h
    obtain ⟨s, hs, rfl⟩ := zoom_ok.mp h
    obtain ⟨t, ht, rfl⟩ := zoom_ok.mp hs
    obtain ⟨memory, hmemory, rfl⟩ := zoom_ok.mp ht
    obtain ⟨k, hk, rfl⟩ := zoom_ok.mp hmemory
    exact ⟨k, hk, rfl⟩
  · rintro ⟨k, h, rfl⟩
    exact zoom_of_ok (zoom_of_ok (zoom_of_ok (zoom_of_ok h)))

theorem searchDisk_ok {u : Unit} (hfilesystems : m.filesystems = tableOf [fat16Init]) :
    searchDisk m = .ok (u, m') ↔ ∃ r fatPrivate k,
      fat16Resolve (clearedDisk m.disk.image m.disk.past) m.kernel.heap =
        .ok ((r, fatPrivate), k) ∧
      m' = { m with
        kernel := { m.kernel with heap := k }
        disk := ⟨m.disk.image, m.disk.past, fatPrivate.isSome, fatPrivate⟩ } := by
  rw [searchDisk, bind_of_ok (get_apply m)]
  constructor
  · intro h
    obtain ⟨disk, m₁, hasked, hset⟩ := bind_ok.mp h
    obtain ⟨k, hsearch, rfl⟩ := onHeap_ok.mp hasked
    obtain ⟨-, rfl⟩ := ok_inj hset
    rw [hfilesystems] at hsearch
    obtain ⟨r, fatPrivate, hresolve, rfl⟩ := diskSearchAndInit_fat16.mp hsearch
    exact ⟨r, fatPrivate, k, hresolve, rfl⟩
  · rintro ⟨r, fatPrivate, k, hresolve, rfl⟩
    have hsearch := diskSearchAndInit_fat16.mpr ⟨r, fatPrivate, hresolve, rfl⟩
    rw [← hfilesystems] at hsearch
    rw [bind_of_ok (onHeap_ok.mpr ⟨k, hsearch, rfl⟩)]
    rfl

/-- What the rest of `kernel_init` makes of a kernel that is prepared. -/
theorem Prepared.finish {m₁ : Machine} (h : Prepared l verbose m m₁) :
    kernelInitEnd verbose m₁ = .ok ((), m') ↔
      ∃ r fatPrivate k, fat16Resolve (clearedDisk m.disk.image m.disk.past) m₁.kernel.heap =
        .ok ((r, fatPrivate), k) ∧
      m' = { m₁ with
        kernel := { m₁.kernel with heap := k }
        terminal := PrintCall.runAll (messages verbose) (terminalInitialize m.terminal)
        registers := systemRegisters m₁.registers.idtr
        disk := ⟨m.disk.image, m.disk.past, fatPrivate.isSome, fatPrivate⟩ } := by
  have hrest : ∀ m₂ : Machine, m₂.terminal = m₁.terminal → m₂.registers = m₁.registers → (do
      report verbose (.cprint (text "Primary disk initialized.\n") 14)
      setupTss
      report verbose (.cprint (text "Task switching segment loaded.\n") 10)) m₂ = .ok ((), { m₂ with
        terminal := PrintCall.runAll (messages verbose) (terminalInitialize m.terminal)
        registers := systemRegisters m₁.registers.idtr }) := by
    intro m₂ hterminal hregisters
    rw [bind_of_ok (report_ok _ _ _), setupTss, bind_of_ok (modify_apply _ _), report_ok,
      messages, runAll_append, ← h.screen, ← hterminal, ← hregisters, runAll_reports]
    rfl
  rw [kernelInitEnd]
  constructor
  · intro hrun
    obtain ⟨u, m₂, hsearch, hrun⟩ := bind_ok.mp hrun
    obtain ⟨r, fatPrivate, k, hresolve, rfl⟩ := (searchDisk_ok h.filesystems).mp hsearch
    rw [h.disk] at hresolve
    refine ⟨r, fatPrivate, k, hresolve, ?_⟩
    rw [hrest _ ?_ ?_, h.disk] at hrun
    · exact (ok_inj hrun).2.symm
    all_goals rfl
  · rintro ⟨r, fatPrivate, k, hresolve, rfl⟩
    rw [← h.disk] at hresolve
    rw [bind_of_ok ((@searchDisk_ok m₁ _ () h.filesystems).mpr ⟨r, fatPrivate, k, hresolve, rfl⟩),
      hrest _ ?_ ?_, h.disk]
    all_goals rfl

theorem Prepared.taken_iff {m₁ : Machine} {r : ℤ} {fatPrivate : Option FatPrivate} {k : KernelHeap}
    (h : Prepared l verbose m m₁) (hresolve : fat16Resolve (clearedDisk m.disk.image m.disk.past)
      m₁.kernel.heap = .ok ((r, fatPrivate), k)) :
    fatPrivate.isSome = true ↔ m.disk.image.header.signature = 0x29 := by
  have hroom : 1026 + 6 ≤ 25600 := by decide
  have htaken := fat16Resolve_taken_iff hroom h.room hresolve
  rw [clearedDisk] at htaken
  exact htaken

theorem Prepared.started {m₁ : Machine} {r : ℤ} {fatPrivate : Option FatPrivate} {k : KernelHeap}
    (h : Prepared l verbose m m₁) (hresolve : fat16Resolve (clearedDisk m.disk.image m.disk.past)
      m₁.kernel.heap = .ok ((r, fatPrivate), k)) :
    Started l verbose m { m₁ with
      kernel := { m₁.kernel with heap := k }
      terminal := PrintCall.runAll (messages verbose) (terminalInitialize m.terminal)
      registers := systemRegisters m₁.registers.idtr
      disk := ⟨m.disk.image, m.disk.past, fatPrivate.isSome, fatPrivate⟩ } := by
  have htaken := h.taken_iff hresolve
  have howned := (fat16Resolve_kept _ True _ ⟨h.space.owned, fun _ => trivial⟩ hresolve).owns
  refine ⟨⟨h.unloaded.tasks, h.unloaded.list, h.unloaded.currentTask, h.unloaded.processes,
    h.unloaded.currentProcess⟩, fun v hv => h.sees v hv, ⟨howned, h.space.separated⟩,
    h.descriptors, h.gdtr, h.segments, h.table, h.commands, h.keyboards, ⟨_, r, hresolve⟩, ?_, ?_, ?_⟩
  · exact htaken
  · rfl
  · dsimp only

theorem started_of_kernelInit (h : StaticStorage l m)
    (hrun : kernelInit l verbose m = .ok ((), m')) : Started l verbose m m' := by
  obtain ⟨m₁, hprepared, heq⟩ := kernelInit_reaches h verbose
  rw [heq] at hrun
  obtain ⟨r, fatPrivate, k, hresolve, rfl⟩ := hprepared.finish.mp hrun
  exact hprepared.started hresolve

/-- The kernel starts if and only if a volume with the signature has an end of its root directory,
and what it has set up then is what interrupts, system calls and file calls rely on. -/
theorem kernelInit_starts (h : StaticStorage l m) (verbose : Bool) :
    ((∃ m', kernelInit l verbose m = .ok ((), m')) ↔
      (m.disk.image.header.signature = 0x29 →
        ∃ n, m.disk.image.itemByte m.disk.image.rootStart n = 0)) ∧
      ∀ m', kernelInit l verbose m = .ok ((), m') → Started l verbose m m' := by
  refine ⟨?_, fun m' hrun => started_of_kernelInit h hrun⟩
  obtain ⟨m₁, hprepared, heq⟩ := kernelInit_reaches h verbose
  have hreturns : ((∃ r k, fat16Resolve (clearedDisk m.disk.image m.disk.past) m₁.kernel.heap =
      .ok (r, k)) ↔ _) := fat16Resolve_returns_iff (by decide) hprepared.room
  rw [heq]
  refine Iff.trans ⟨?_, ?_⟩ hreturns
  · rintro ⟨m', hm'⟩
    obtain ⟨r, fatPrivate, k, hresolve, -⟩ := hprepared.finish.mp hm'
    exact ⟨_, k, hresolve⟩
  · rintro ⟨⟨r, fatPrivate⟩, k, hresolve⟩
    exact ⟨_, hprepared.finish.mpr ⟨r, fatPrivate, k, hresolve, rfl⟩⟩

end Start

def someLayout : Layout where
  gdtReal := 0x108000
  gdtDescriptor := 0x109000
  idt := someObjects
  tss := 0x112000
  handlers := someHandlers
  classicKeyboard := 0x114000
  classicKeyboardInit := 0x103000
  below := by decide
  apart := by decide
  gdtrApart := by decide
  idtrApart := by decide
  keyboard_ne := by decide
  init_ne := by decide

def someMachine : Machine where
  kernel := bootKernel
  terminal := ⟨fun _ => 0, 0, 0, []⟩
  gdtr := (0, 0)
  registers := ⟨⟨0, 0⟩, 0, 0⟩
  commands := fun _ => none
  keyboards := ⟨fun p => ⟨if p = 0x114000 then 0x103000 else 0, 0⟩, 0, 0, []⟩
  filesystems := fun _ => none
  disk := clearedDisk sampleImage fun _ => 0

theorem someMachine_static : StaticStorage someLayout someMachine where
  unloaded := ⟨fun _ => rfl, ⟨rfl, rfl⟩, rfl, fun _ => rfl, rfl⟩
  commands := fun _ => rfl
  keyboards := ⟨rfl, rfl⟩
  classic := rfl

theorem someMachine_starts : ∃ m', kernelInit someLayout false someMachine = .ok ((), m') ∧
    Room 1032 m'.kernel.heap := by
  obtain ⟨m₁, hprepared, heq⟩ := kernelInit_reaches someMachine_static false
  have hheader : (clearedDisk sampleImage fun _ => 0).image.header = ⟨1, 1, 1, 16, 1, 0x29⟩ := by
    decide +kernel
  have htotal : fat16GetTotalItemsForDirectory (clearedDisk sampleImage fun _ => 0) 2 = .ok 1 := by
    decide +kernel
  obtain ⟨⟨r, fatPrivate⟩, k, hresolve, -, hroom⟩ := @fat16Resolve_room 1026
    (clearedDisk sampleImage fun _ => 0) 1 (by decide) (by rw [hheader])
    (by rw [hheader]; decide) (by rw [hheader]; exact htotal) _ hprepared.room
  rw [heq]
  exact ⟨_, hprepared.finish.mpr ⟨r, fatPrivate, k, hresolve, rfl⟩, hroom⟩

theorem kernelInit_starts_sample : ∃ m', kernelInit someLayout false someMachine = .ok ((), m') ∧
    m'.commands 1 = some isr80hCommand1Print ∧ m'.disk.filesystem = true := by
  have h := kernelInit_starts someMachine_static false
  obtain ⟨m', hrun⟩ := h.1.mpr fun _ => ⟨1, by decide +kernel⟩
  have hstarted := h.2 m' hrun
  exact ⟨m', hrun, congrFun hstarted.commands 1, hstarted.taken.mpr (by decide +kernel)⟩

end Dexter.Startup
