import Dexter.Proc.Contexts
import Dexter.Libc.ScreenText

/-!
# What the programs print

A program hands a string to the kernel, which copies it twice and writes it to the screen. A string
that ends within the copy, in memory of the program or below the heap, comes through both copies as
it is, and what the screen shows in the end is the text of all programs, in the order of their
calls.
-/

namespace Dexter.PrintedText
open Lib.Programs Lib.Runs Lib.TwoLevel PagingLayer KernelHeap KernelState TaskLayer PrintBuf

section Copies
variable {s s' : TaskState} {tmp src max k i : ℕ} {text : CString}

structure Copied (text : CString) (tmp max i : ℕ) (s : TaskState) : Prop where
  done : ∀ j < i, s.ram (tmp + j) = text.getD j 0
  clear : ∀ j < max, i ≤ j → s.ram (tmp + j) = 0

def Holds (text : CString) (src tmp max : ℕ) (s : TaskState) : Prop :=
  ∀ j ≤ text.length, ∃ p, s.translate (u32 (src + j)) = some p ∧ ¬(tmp ≤ p ∧ p < tmp + max) ∧
    s.ram p = text.getD j 0

theorem Holds.write {c : UInt8} (h : Holds text src tmp max s) (hi : i < max) :
    Holds text src tmp max { s with ram := Function.update s.ram (tmp + i) c } := by
  intro j hj
  obtain ⟨p, hp, hout, hbyte⟩ := h j hj
  exact ⟨p, hp, hout, (Function.update_of_ne (by omega) _ _).trans hbyte⟩

theorem Copied.write (h : Copied text tmp max i s) (hi : i < max) :
    Copied text tmp max (i + 1)
      { s with ram := Function.update s.ram (tmp + i) (text.getD i 0) } := by
  refine ⟨fun j hj => ?_, fun j hj hij => ?_⟩
  · by_cases hji : j = i
    · subst hji
      exact Function.update_self _ _ _
    · exact (Function.update_of_ne (by omega) _ _).trans (h.done j (by omega))
  · exact (Function.update_of_ne (by omega) _ _).trans (h.clear j hj (by omega))

theorem getD_eq_zero_iff (h0 : 0 ∉ text) (hi : i ≤ text.length) :
    text.getD i 0 = 0 ↔ i = text.length := by
  constructor
  · intro hzero
    by_contra hne
    have hlt : i < text.length := by omega
    rw [List.getD_eq_getElem _ _ hlt] at hzero
    exact h0 (hzero ▸ List.getElem_mem hlt)
  · rintro rfl
    exact List.getD_eq_default _ _ le_rfl

theorem strncpy_text {u : Unit} (h0 : 0 ∉ text) (hshort : text.length < max)
    (hs : Copied text tmp max i s) (hholds : Holds text src tmp max s) (hi : i ≤ text.length)
    (hk : i + k = max) (hdest : ∀ j < max, ∀ p, s.translate (u32 (tmp + j)) = some p → p = tmp + j)
    (h : strncpy tmp src k i false s = .ok (u, s')) :
    ∀ j < max, s'.ram (tmp + j) = text.getD j 0 := by
  induction k generalizing i s with
  | zero => omega
  | succ k ih =>
    rw [strncpy_succ] at h
    obtain ⟨c, s₁, hread, h₁⟩ := bind_ok.mp h
    obtain ⟨p, hp, rfl, rfl⟩ := readByte_ok.mp hread
    obtain ⟨w, s₂, hwrite, hrest⟩ := bind_ok.mp h₁
    obtain ⟨q, hq, rfl⟩ := writeByte_ok.mp hwrite
    obtain rfl := hdest i (by omega) q hq
    obtain ⟨p', hp', hout, hbyte⟩ := hholds i hi
    obtain rfl := Option.some.inj (hp.symm.trans hp')
    rw [hbyte] at hrest
    have hnext := hs.write (by omega)
    by_cases hend : i = text.length
    · -- the terminator has been copied: zeros follow
      have hended : (false || text.getD i 0 == 0) = true := by
        simpa using (getD_eq_zero_iff h0 hi).mpr hend
      rw [hended] at hrest
      intro j hj
      by_cases hji : j ≤ i
      · refine Eq.trans ?_ (hnext.done j (by omega))
        by_contra hne
        obtain ⟨j', hj', hij', hat⟩ := strncpy_ram hrest _ hne
        have hdest' := hdest j' (by omega) _ hat
        omega
      · rw [List.getD_eq_default _ _ (by omega)]
        exact strncpy_zero hrest (hnext.clear j hj (by omega))
    · have hmore : (false || text.getD i 0 == 0) = false := by
        simpa using mt (getD_eq_zero_iff h0 hi).mp hend
      rw [hmore] at hrest
      exact ih hnext (hholds.write (by omega)) (by omega) (by omega) hdest hrest

theorem strncpySource_ended {bytes : List UInt8}
    (h : strncpySource tmp k i true s = .ok (bytes, s')) : bytes = List.replicate k 0 := by
  induction k generalizing i bytes s' with
  | zero => exact (ok_inj h).1.symm
  | succ k ih =>
    rw [strncpySource_succ] at h
    obtain ⟨c, s₁, hread, h₁⟩ := bind_ok.mp h
    obtain ⟨rest, s₂, hrest, hpure⟩ := bind_ok.mp h₁
    obtain ⟨rfl, -⟩ := ok_inj hpure
    obtain ⟨rfl, rfl⟩ := ok_inj hread
    have hrest' : strncpySource tmp k (i + 1) true s = .ok (rest, s₂) := hrest
    rw [ih hrest', List.replicate_succ]

theorem strncpySource_text {bytes : List UInt8}
    (h : strncpySource tmp k i false s = .ok (bytes, s')) (h0 : 0 ∉ text)
    (hshort : text.length < max) (hi : i ≤ text.length) (hk : i + k = max)
    (hram : ∀ j < max, s.ram (tmp + j) = text.getD j 0)
    (hsrc : ∀ j < max, s.translate (u32 (tmp + j)) = some (tmp + j)) :
    bytes = text.drop i ++ List.replicate (max - text.length) 0 := by
  induction k generalizing i bytes with
  | zero => omega
  | succ k ih =>
    rw [strncpySource_succ] at h
    obtain ⟨c, s₁, hread, h₁⟩ := bind_ok.mp h
    obtain ⟨rest, s₂, hrest, hpure⟩ := bind_ok.mp h₁
    obtain ⟨rfl, rfl⟩ := ok_inj hpure
    obtain ⟨p, hp, rfl, rfl⟩ := readByte_ok.mp hread
    obtain rfl := Option.some.inj (hp.symm.trans (hsrc i (by omega)))
    rw [hram i (by omega)] at hrest ⊢
    by_cases hend : i = text.length
    · have hended : (false || text.getD i 0 == 0) = true := by
        simpa using (getD_eq_zero_iff h0 hi).mpr hend
      rw [hended] at hrest
      obtain rfl := strncpySource_ended hrest
      have hcount : max - text.length = k + 1 := by omega
      rw [(getD_eq_zero_iff h0 hi).mpr hend, hend, List.drop_length, List.nil_append, hcount,
        List.replicate_succ]
    · have hmore : (false || text.getD i 0 == 0) = false := by
        simpa using mt (getD_eq_zero_iff h0 hi).mp hend
      rw [hmore] at hrest
      have hlt : i < text.length := by omega
      rw [ih hrest (by omega) (by omega), List.getD_eq_getElem _ _ hlt,
        List.drop_eq_getElem_cons hlt, List.cons_append]

end Copies

section Buffer
variable {s s' s₁ : TaskState} {x : Task} {t virt max : ℕ} {text : CString} {stack buf : List UInt8}

theorem copySteps_text {r : ℤ × Option (List UInt8)} (hx : s.tasks t = some x)
    (hs : s.AddressSpace x.pageDirectory) (hkernel : KernelSeesSelf s) (h0 : 0 ∉ text)
    (hshort : text.length < max) (hmax : max < 4096)
    (hholds : Holds text virt (s.heap.malloc max).1 max (withBuffer s x (s.heap.malloc max).1))
    (h : CopySteps s t virt max r s') :
    r = (0, some (text ++ List.replicate (max - text.length) 0)) := by
  obtain ⟨y, old, r₁, r₂, m₁, m₂, ram, hy, hne, hget, hmap, hcopy, hset, hresult⟩ := h
  obtain rfl : y = x := Option.some.inj (hy.symm.trans hx)
  obtain ⟨b, hb, hp, -⟩ := malloc_buffer (by omega) hmax hne
  have hal : (s.heap.malloc max).1 % 4096 = 0 := hp ▸ frame_aligned b
  have hlt : (s.heap.malloc max).1 + max ≤ 4294967296 := by
    rw [kernelHeapBlocks] at hb
    rw [hp, frame]
    omega
  have hspace : (s.afterKzalloc max).AddressSpace y.pageDirectory :=
    hs.congr (fun _ _ => ⟨rfl, rfl⟩) ((s.heap.malloc_spec (by omega)).owns hs.owned)
  obtain ⟨rfl, hpages⟩ := pagingMap_restored hget hmap hset hspace hal (by omega)
  have hmapped : (.ok (0, _) : Except Crash (ℤ × Memory)) = .ok (r₁, m₁) :=
    (pagingMap_eq hspace hal (by omega) hal).symm.trans hmap
  obtain ⟨-, rfl⟩ := ok_inj hmapped
  obtain ⟨pages, rfl⟩ := pagingSet_pages _ _ _ (SameButPages.refl _) hset
  set tmp := (s.heap.malloc max).1
  set start : TaskState := TaskLayer.onTask { s with
    toPagingLayer := (s.afterKzalloc max).withEntry y.pageDirectory tmp (tmp ||| 7)
    ram := cleared tmp max s.ram } y with hstart
  have hcopied : Copied text tmp max 0 start :=
    ⟨fun j hj => absurd hj (Nat.not_lt_zero j),
      fun j hj _ => if_pos ⟨Nat.le_add_right _ _, Nat.add_lt_add_left hj _⟩⟩
  have hsource : Holds text virt tmp max start := by
    intro j hj
    obtain ⟨p, hat, hout, hbyte⟩ := hholds j hj
    exact ⟨p, hat, hout, (cleared_of_not_mem hout _).trans hbyte⟩
  have htext := strncpy_text h0 hshort hcopied hsource (Nat.zero_le _) (Nat.zero_add max)
    (fun j hj p => buffer_translate hspace hal (by omega) (hj.trans hmax) rfl rfl) hcopy
  cases hresult with
  | unmapped negative => exact absurd negative (lt_irrefl 0)
  | copied bytes returned read =>
    have hbytes := strncpySource_text read h0 hshort (Nat.zero_le _) (Nat.zero_add max) htext
    rw [hbytes ?_, List.drop_zero]
    intro j hj
    have hv : u32 ((tmp : ℤ) + j) = tmp + j := by
      exact_mod_cast u32_natCast (x := tmp + j) (by omega)
    rw [hv]
    refine Eq.trans (translate_congr ?_ ?_ _) (hkernel (tmp + j) (by omega))
    · exact hpages
    · rfl

theorem isr80hPrintBuf_text (hready : Ready s x)
    (hitem : taskGetStackItem s.currentTask 0 s = .ok (virt, s₁)) (h0 : 0 ∉ text)
    (hshort : text.length < 1024) (hne : (s.heap.malloc 1024).1 ≠ 0)
    (hholds : Holds text virt (s.heap.malloc 1024).1 1024 (withBuffer s x (s.heap.malloc 1024).1))
    (h : isr80hPrintBuf stack s = .ok (buf, s')) :
    buf = text ++ List.replicate (1024 - text.length) 0 := by
  rw [isr80hPrintBuf, bind_of_ok (get_apply s), bind_of_ok hitem] at h
  obtain rfl := taskGetStackItem_ok hitem
  rw [bind_of_ok (get_apply _)] at h
  obtain ⟨r, s₂, hcopy, hpure⟩ := bind_ok.mp h
  obtain ⟨rfl, -⟩ := ok_inj hpure
  have hobject : s.onKernel.tasks s.onKernel.currentTask = some x := hready.object
  have hspace : s.onKernel.AddressSpace x.pageDirectory :=
    ⟨hready.space.owned, hready.space.separated⟩
  have hkernel : KernelSeesSelf s.onKernel := hready.kernel
  rcases copyStringFromTask_steps hcopy with ⟨-, hle⟩ | ⟨hnone, -, -⟩ | hsteps
  · exact absurd hle (by decide)
  · exact absurd hnone hne
  · rw [copySteps_text hobject hspace hkernel h0 hshort (by decide) hholds hsteps]
    rfl

theorem takeWhile_text (h0 : 0 ∉ text) (n : ℕ) :
    (text ++ List.replicate n 0).takeWhile (· ≠ (0 : UInt8)) = text := by
  rw [List.takeWhile_append_of_pos]
  · cases n with
    | zero => simp
    | succ n => simp [List.replicate_succ]
  · intro c hc
    simpa using ne_of_mem_of_not_mem hc h0

end Buffer

structure Message (s : TaskState) (x : Task) (virt : ℕ) (text : CString) : Prop where
  ended : 0 ∉ text
  short : text.length < 1024
  below : virt + text.length < 16777216
  bytes : ∀ j ≤ text.length, ∃ p, (s.onTask x).translate (virt + j) = some p ∧
    s.ram p = text.getD j 0

section Found
variable {s : KernelState} {x : Task} {y : Process} {virt tmp v p : ℕ} {text : CString}

theorem imageEntry_frame {ptr size stack : ℕ}
    (howned : s.heap.Owns (imageFrames ptr size stack)) (hv : v < 4294967296) :
    entryTable (imageEntry ptr size stack v) ∈ imageFrames ptr size stack ∨
      entryTable (imageEntry ptr size stack v) = v / 4096 * 4096 := by
  unfold imageEntry
  split_ifs with hprogram hstack
  · exact Or.inl (Or.inl (ProcessRuns.frames_entry (howned.mono Set.subset_union_left) (by decide)
      hprogram.1 hprogram.2))
  · exact Or.inl (Or.inr (ProcessRuns.frames_entry (howned.mono Set.subset_union_right) (by decide)
      hstack.1 (by omega)))
  · exact Or.inr (entryTable_or (Nat.mul_mod_left _ _) (by omega) (by decide))

theorem outside_block (hmapped : Mapped s.toPagingLayer x.pageDirectory y.ptr y.size y.stack)
    (howned : s.heap.Owns (imageFrames y.ptr y.size y.stack)) (htmp : tmp % 4096 = 0)
    (hheap : 16777216 ≤ tmp) (hfresh : tmp ∉ imageFrames y.ptr y.size y.stack) (hv : v < 16777216)
    (hp : (s.toTaskLayer.onTask x).translate v = some p) : ¬(tmp ≤ p ∧ p < tmp + 1024) := by
  rw [ProcessRuns.translate_mapped hmapped (by omega)] at hp
  have hframe := Option.some.inj hp
  have hal := (entryTable_aligned (imageEntry y.ptr y.size y.stack v)).1
  rcases imageEntry_frame howned (by omega : v < 4294967296) with hin | hself
  · intro hblock
    have heq : entryTable (imageEntry y.ptr y.size y.stack v) = tmp := by omega
    exact hfresh (heq ▸ hin)
  · omega

theorem Message.holds (h : Message s.toTaskLayer x virt text)
    (hmapped : Mapped s.toPagingLayer x.pageDirectory y.ptr y.size y.stack)
    (howned : s.heap.Owns (imageFrames y.ptr y.size y.stack))
    (hne : (s.heap.malloc 1024).1 ≠ 0) :
    Holds text virt (s.heap.malloc 1024).1 1024
      (withBuffer s.toTaskLayer x (s.heap.malloc 1024).1) := by
  obtain ⟨b, hb, hp, -⟩ := malloc_buffer (by decide) (by decide) hne
  have hfresh := (@malloc_spec s.heap 1024 (by decide)).fresh howned
  rw [kernelHeapBlocks] at hb
  have hframe : (s.heap.malloc 1024).1 = 16777216 + 4096 * b := hp
  intro j hj
  have hbelow := h.below
  have hv : u32 ((virt : ℤ) + j) = virt + j := by
    exact_mod_cast u32_natCast (x := virt + j) (by omega)
  obtain ⟨p, hat, hbyte⟩ := h.bytes j hj
  refine ⟨p, ?_, ?_, hbyte⟩
  · rw [hv, withBuffer_elsewhere hmapped.space (by omega) (by omega) (by omega)]
    exact hat
  · exact outside_block hmapped howned (by omega) (by omega) hfresh (by omega) hat

end Found

structure Console where
  kernel : KernelState
  screen : Terminal

def onKernel {α : Type} (prog : Prog Crash KernelState α) : Prog Crash Console α :=
  zoom Console.kernel (fun k c => { c with kernel := k }) prog

/-- `print(buf)`: `strlen` stops at the first zero, and runs past a buffer that has none. -/
def printBuf (buf : List UInt8) : Prog Crash Console Unit :=
  if 0 ∈ buf then modify fun c => { c with screen := print (buf.takeWhile (· ≠ 0)) c.screen }
  else abort .overrun

def isr80hCommand1Print (stack : List UInt8) (_ : InterruptFrame) : Prog Crash Console ℕ := do
  let buf ← onKernel (onTasks (isr80hPrintBuf stack))
  printBuf buf
  pure 0

def isr80hCommands (stack : List UInt8) : ℕ → Option (InterruptFrame → Prog Crash Console ℕ)
  | 0 => some fun frame => onKernel (onTasks (isr80hCommand0Sum frame))
  | 1 => some (isr80hCommand1Print stack)
  | _ => none

def isr80hHandleCommand (stack : List UInt8) (command : ℤ) (frame : InterruptFrame) :
    Prog Crash Console ℕ :=
  if command < 0 ∨ command ≥ dexterMaxIsr80hCommands then pure 0
  else
    match isr80hCommands stack command.toNat with
    | none => pure 0
    | some commandFunc => commandFunc frame

def isr80hHandler (stack : List UInt8) (command : ℤ) (frame : InterruptFrame) :
    Prog Crash Console ℕ := do
  onKernel (onTasks kernelPage)
  onKernel (onTasks (taskCurrentSaveState frame))
  let r ← isr80hHandleCommand stack command frame
  onKernel (onTasks taskPage)
  pure r

section Handler
variable {c c' : Console} {stack : List UInt8} {command : ℤ} {frame : InterruptFrame} {r : ℕ}

theorem onKernel_ok {α : Type} {prog : Prog Crash KernelState α} {a : α} :
    onKernel prog c = .ok (a, c') ↔ ∃ k, prog c.kernel = .ok (a, k) ∧
      c' = { c with kernel := k } := zoom_ok

theorem printBuf_ok {buf : List UInt8} {u : Unit} : printBuf buf c = .ok (u, c') ↔
    0 ∈ buf ∧ c' = { c with screen := print (buf.takeWhile (· ≠ 0)) c.screen } := by
  unfold printBuf
  split_ifs with h
  · rw [modify_apply]
    exact ⟨fun hok => ⟨h, (ok_inj hok).2.symm⟩, fun hok => by rw [hok.2]⟩
  · refine iff_of_false (fun hok => ?_) fun hok => h hok.1
    cases hok

inductive Shown (stack : List UInt8) (command : ℤ) (s : TaskState) (screen : Terminal) :
    Terminal → Prop
  | nothing (other : command ≠ 1) : Shown stack command s screen screen
  | buffer (buf : List UInt8) (s' : TaskState) (prints : command = 1)
      (run : isr80hPrintBuf stack s = .ok (buf, s')) (ended : 0 ∈ buf) :
      Shown stack command s screen (print (buf.takeWhile (· ≠ 0)) screen)

theorem isr80hHandleCommand_shown (h : isr80hHandleCommand stack command frame c = .ok (r, c')) :
    onTasks (Dexter.isr80hHandleCommand command frame) c.kernel = .ok (r, c'.kernel) ∧
      Shown stack command c.kernel.toTaskLayer c.screen c'.screen := by
  unfold isr80hHandleCommand isr80hCommands at h
  split_ifs at h with hrange
  · obtain ⟨rfl, rfl⟩ := ok_inj h
    refine ⟨onTasks_ok.mpr ⟨_, ?_, rfl⟩, .nothing ?_⟩
    · rw [Dexter.isr80hHandleCommand, if_pos hrange]
      rfl
    · rintro rfl
      exact absurd hrange (by decide)
  have hbase : Dexter.isr80hHandleCommand command frame =
      (Dexter.isr80hCommands command.toNat).elim (pure 0) fun commandFunc => commandFunc frame := by
    rw [Dexter.isr80hHandleCommand, if_neg hrange]
    cases Dexter.isr80hCommands command.toNat with
    | none => rfl
    | some commandFunc => rfl
  rw [hbase]
  rcases hcommand : command.toNat with _ | _ | n
  · rw [hcommand] at h
    obtain ⟨k, hrun, rfl⟩ := onKernel_ok.mp h
    exact ⟨hrun, .nothing (by omega)⟩
  · rw [hcommand] at h
    obtain ⟨buf, c₁, hbuf, h₁⟩ := bind_ok.mp h
    obtain ⟨k, hrun, rfl⟩ := onKernel_ok.mp hbuf
    obtain ⟨u, c₂, hprint, hpure⟩ := bind_ok.mp h₁
    obtain ⟨hended, rfl⟩ := printBuf_ok.mp hprint
    obtain ⟨rfl, rfl⟩ := ok_inj hpure
    obtain ⟨t, htasks, rfl⟩ := onTasks_ok.mp hrun
    refine ⟨onTasks_ok.mpr ⟨t, ?_, rfl⟩, .buffer buf t (by omega) htasks hended⟩
    show Dexter.isr80hCommand1Print frame _ = _
    rw [isr80hCommand1Print_eq stack, bind_of_ok htasks, pure_apply]
  · rw [hcommand] at h
    obtain ⟨rfl, rfl⟩ := ok_inj h
    exact ⟨onTasks_ok.mpr ⟨_, rfl, rfl⟩, .nothing (by omega)⟩

theorem isr80hHandler_shown (h : isr80hHandler stack command frame c = .ok (r, c')) :
    Dexter.isr80hHandler command frame c.kernel = .ok (r, c'.kernel) ∧
      ∃ x, c.kernel.currentTask ≠ 0 ∧ c.kernel.tasks c.kernel.currentTask = some x ∧
        Shown stack command (c.kernel.toTaskLayer.saved x frame) c.screen c'.screen := by
  obtain ⟨u, c₁, hpage, h₁⟩ := bind_ok.mp h
  obtain ⟨k₁, hkernel, rfl⟩ := onKernel_ok.mp hpage
  obtain ⟨v, c₂, hstate, h₂⟩ := bind_ok.mp h₁
  obtain ⟨k₂, hsave, rfl⟩ := onKernel_ok.mp hstate
  obtain ⟨r₂, c₃, hcommand, h₃⟩ := bind_ok.mp h₂
  obtain ⟨w, c₄, hback, hpure⟩ := bind_ok.mp h₃
  obtain ⟨k₄, htask, rfl⟩ := onKernel_ok.mp hback
  obtain ⟨rfl, rfl⟩ := ok_inj hpure
  obtain ⟨hrun, hshown⟩ := isr80hHandleCommand_shown hcommand
  have hboth : saveOnKernel frame c.kernel = .ok ((), k₂) := by
    rw [saveOnKernel, bind_of_ok hkernel]
    exact hsave
  obtain ⟨-, ht, x, hx, rfl⟩ := saveOnKernel_ok.mp hboth
  refine ⟨?_, x, ht, hx, hshown⟩
  rw [isr80hHandler_eq, bind_of_ok hboth, bind_of_ok hrun, bind_of_ok htask, pure_apply]

end Handler

structure Call where
  op : ProcessRuns.Op
  stack : List UInt8
  text : CString

def Call.printed (call : Call) : CString :=
  match call.op with
  | .syscall command _ _ => if command = 1 then call.text else []
  | _ => []

def step (c : Console) (call : Call) : Option Console :=
  match call.op with
  | .syscall command frame ram =>
    ((isr80hHandler call.stack command frame
      { c with kernel := { c.kernel with ram := ram } }).map Prod.snd).toOption
  | op => (ProcessRuns.step c.kernel op).map fun k => { c with kernel := k }

/-- A print call finds a block for the copy, and the message where the first word on the stack of
its task points to. -/
def Prints (c : Console) (call : Call) : Prop :=
  match call.op with
  | .syscall command frame ram => command = 1 → (c.kernel.heap.malloc 1024).1 ≠ 0 ∧
      ∀ x, c.kernel.tasks c.kernel.currentTask = some x → ∃ virt s₁,
        taskGetStackItem c.kernel.currentTask 0
          (TaskLayer.saved { c.kernel.toTaskLayer with ram := ram } x frame) = .ok (virt, s₁) ∧
        Message { c.kernel.toTaskLayer with ram := ram } x virt call.text
  | _ => True

section Runs
variable {c c' : Console} {call : Call} {calls : List Call}

theorem print_append (text text' : CString) (screen : Terminal) :
    print (text ++ text') screen = print text' (print text screen) := List.foldl_append

theorem step_syscall {command : ℤ} {frame : InterruptFrame} {ram : ℕ → UInt8}
    {stack : List UInt8} {text : CString} :
    step c ⟨.syscall command frame ram, stack, text⟩ = some c' ↔
      ∃ r, isr80hHandler stack command frame { c with kernel := { c.kernel with ram := ram } } =
        .ok (r, c') := by
  show ((isr80hHandler stack command frame _).map Prod.snd).toOption = _ ↔ _
  cases isr80hHandler stack command frame { c with kernel := { c.kernel with ram := ram } } with
  | error e => simp [Except.map, Except.toOption]
  | ok p => simp [Except.map, Except.toOption, Prod.ext_iff]

theorem step_kernel (h : step c call = some c') :
    ProcessRuns.step c.kernel call.op = some c'.kernel := by
  obtain ⟨op, stack, text⟩ := call
  cases op with
  | load files filename =>
    obtain ⟨k, hk, rfl⟩ := Option.map_eq_some_iff.mp h
    exact hk
  | switch task =>
    obtain ⟨k, hk, rfl⟩ := Option.map_eq_some_iff.mp h
    exact hk
  | syscall command frame ram =>
    obtain ⟨r, hrun⟩ := step_syscall.mp h
    exact ProcessRuns.step_syscall.mpr ⟨r, (isr80hHandler_shown hrun).1⟩

theorem step_screen (hs : ProcessRuns.Isolated c.kernel (ProcessRuns.live c.kernel))
    (hkernel : KernelSeesSelf c.kernel.toTaskLayer) (hprints : Prints c call)
    (h : step c call = some c') : c'.screen = print call.printed c.screen := by
  obtain ⟨op, stack, text⟩ := call
  cases op with
  | load files filename =>
    obtain ⟨k, hk, rfl⟩ := Option.map_eq_some_iff.mp h
    rfl
  | switch task =>
    obtain ⟨k, hk, rfl⟩ := Option.map_eq_some_iff.mp h
    rfl
  | syscall command frame ram =>
    obtain ⟨r, hrun⟩ := step_syscall.mp h
    obtain ⟨-, x, ht, hx, hshown⟩ := isr80hHandler_shown hrun
    have hprinted : Call.printed ⟨.syscall command frame ram, stack, text⟩ =
        if command = 1 then text else [] := rfl
    rw [hprinted]
    generalize c'.screen = screen at hshown ⊢
    cases hshown with
    | nothing other =>
      rw [if_neg other]
      rfl
    | buffer buf s' prints run ended =>
      obtain ⟨hne, hfind⟩ := hprints prints
      obtain ⟨virt, s₁, hitem, hmessage⟩ := hfind x hx
      have hlive : c.kernel.currentTask ∈ ProcessRuns.live c.kernel := ProcessRuns.mem_live hx
      obtain ⟨a, y, ha, hy, hmapped⟩ := hs.shown _ hlive
      obtain rfl := Option.some.inj (hx.symm.trans ha)
      have howned := (hs.owned _ hlive).mono ProcessRuns.imageOf_subset
      rw [ProcessRuns.imageOf_eq ha hy] at howned
      have hholds := hmessage.holds (s := { c.kernel with ram := ram }) hmapped howned hne
      have hready : Ready (TaskLayer.saved { c.kernel.toTaskLayer with ram := ram } x frame)
          { x with registers := frame.toRegisters } :=
        ⟨putTask_self _ _ _, ⟨hmapped.space.owned, hmapped.space.separated⟩, hkernel⟩
      have hbuf : buf = text ++ List.replicate (1024 - text.length) 0 :=
        isr80hPrintBuf_text hready hitem hmessage.ended hmessage.short hne hholds run
      rw [if_pos prints, hbuf, takeWhile_text hmessage.ended]

theorem run_kernel (h : exec step c calls = some c') :
    exec ProcessRuns.step c.kernel (calls.map Call.op) = some c'.kernel := by
  induction calls generalizing c with
  | nil =>
    obtain rfl := Option.some.inj h
    rfl
  | cons call calls ih =>
    obtain ⟨c₁, hstep, hrest⟩ := exec_cons_some.mp h
    exact exec_cons_some.mpr ⟨c₁.kernel, step_kernel hstep, ih hrest⟩

theorem run_screen (hs : c.kernel.heap.short = false → ProcessRuns.Running c.kernel)
    (hprints : Along step Prints c calls) (h : exec step c calls = some c')
    (hshort : c'.kernel.heap.short = false) :
    c'.screen = print (calls.flatMap Call.printed) c.screen := by
  induction calls generalizing c with
  | nil =>
    obtain rfl := Option.some.inj h
    rfl
  | cons call calls ih =>
    obtain ⟨c₁, hstep, hrest⟩ := exec_cons_some.mp h
    obtain ⟨hfirst, hothers⟩ := hprints c₁ hstep
    have hkernel := step_kernel hstep
    have hshort₁ := ProcessRuns.run_short (run_kernel hrest) hshort
    have hrunning := hs (ProcessRuns.step_short hkernel hshort₁)
    have hscreen := step_screen hrunning.isolated hrunning.sees hfirst hstep
    rw [ih (fun hshort => ProcessRuns.step_running hrunning hkernel hshort) hothers hrest, hscreen,
      List.flatMap_cons, print_append]

/-- After any sequence of loads, task switches and system calls in the kernel that has started
paging, the screen shows the messages of the print calls one behind the other, a cell for each
character. -/
theorem programs_print {s₀ : KernelState} {screen : Terminal} (h₀ : ProcessRuns.Booted s₀)
    (hprints : Along step Prints ⟨s₀, screen⟩ calls)
    (h : exec step ⟨s₀, screen⟩ calls = some c) (hshort : c.kernel.heap.short = false) :
    exec ProcessRuns.step s₀ (calls.map Call.op) = some c.kernel ∧
      c.screen = print (calls.flatMap Call.printed) screen ∧
      (screen.terminalCol.toNat < vgaWidth →
        Terminal.OnRows screen (calls.flatMap Call.printed) →
        Terminal.Written (fun b cell => cell = terminalMakeChar b 15) screen
          (calls.flatMap Call.printed) c.screen) := by
  have hscreen := run_screen (c := ⟨s₀, screen⟩) (fun _ => h₀.running) hprints h hshort
  refine ⟨run_kernel h, hscreen, fun hcol hrows => ?_⟩
  rw [hscreen]
  exact Terminal.cprint_written _ 15 hcol hrows

end Runs

section Sample
variable {s s' : KernelState} {x : Task} {y : Process}

def letterAtZero (p : ℕ) : UInt8 := if p = 0 then 0x41 else 0

structure Waiting (s : KernelState) (x : Task) : Prop where
  running : ProcessRuns.Running s
  current : s.currentTask ≠ 0
  object : s.tasks s.currentTask = some x
  kernelChunk : s.kernelChunk ≠ 0
  block : (s.heap.malloc 1024).1 ≠ 0
  short : (s.heap.malloc 1024).2.short = false

theorem Waiting.mapped (h : Waiting s x) : ∃ y : Process,
    Mapped s.toPagingLayer x.pageDirectory y.ptr y.size y.stack ∧
      s.heap.Owns (imageFrames y.ptr y.size y.stack) := by
  have hlive := ProcessRuns.mem_live h.object
  obtain ⟨a, y, ha, hy, hmapped⟩ := h.running.isolated.shown _ hlive
  obtain rfl := Option.some.inj (h.object.symm.trans ha)
  have howned := (h.running.isolated.owned _ hlive).mono ProcessRuns.imageOf_subset
  rw [ProcessRuns.imageOf_eq ha hy] at howned
  exact ⟨y, hmapped, howned⟩

theorem Waiting.translate (h : Waiting s x) {v : ℕ} (hv : v < 4294967296) :
    ∃ p, (s.toTaskLayer.onTask x).translate v = some p ∧ (v < 4096 → p = v) ∧
      (p = 0 → v < 4096) := by
  obtain ⟨y, hmapped, howned⟩ := h.mapped
  refine ⟨_, ProcessRuns.translate_mapped hmapped hv, fun hlt => ?_, fun hzero => ?_⟩
  · have hentry : imageEntry y.ptr y.size y.stack v = v / 4096 * 4096 ||| 5 := by
      rw [imageEntry, if_neg (by omega), if_neg (by omega)]
    rw [hentry, entryTable_or (Nat.mul_mod_left _ _) (by omega) (by decide)]
    omega
  · rcases imageEntry_frame howned hv with hin | hself
    · have hpos := (howned.pos hin).1
      omega
    · omega

def calling (s : KernelState) (x : Task) : TaskState :=
  TaskLayer.saved { s.toTaskLayer with ram := letterAtZero } x bottomFrame

def callingTask (x : Task) : Task := { x with registers := bottomFrame.toRegisters }

theorem Waiting.calling_object (x : Task) (s : KernelState) :
    (calling s x).tasks s.currentTask = some (callingTask x) := putTask_self _ _ _

theorem Waiting.item (h : Waiting s x) :
    taskGetStackItem s.currentTask 0 (calling s x) = .ok (0, calling s x) := by
  have hobject := Waiting.calling_object x s
  obtain ⟨y, hmapped, -⟩ := h.mapped
  have hbyte : ∀ v < 4294967296, 4096 ≤ v → readByte v ((calling s x).onTask (callingTask x)) =
      .ok (0, (calling s x).onTask (callingTask x)) := by
    intro v hv hle
    obtain ⟨p, hp, -, hzero⟩ := h.translate hv
    have hne : ¬p = 0 := fun h0 => absurd (hzero h0) (by omega)
    exact readByte_ok.mpr ⟨p, hp, (if_neg hne).symm, rfl⟩
  have hpage : taskPageTask s.currentTask (calling s x) =
      .ok ((), (calling s x).onTask (callingTask x)) :=
    taskPageTask_ok.mpr ⟨h.current, _, hobject, hmapped.space.chunk_ne, rfl⟩
  have hkernel : kernelPage ((calling s x).onTask (callingTask x)) = .ok ((), calling s x) :=
    kernelPage_ok.mpr ⟨h.kernelChunk, rfl⟩
  have hword : readUint32 0x3FB000 ((calling s x).onTask (callingTask x)) =
      .ok (0, (calling s x).onTask (callingTask x)) := by
    rw [readUint32, bind_of_ok (hbyte _ (by decide) (by decide))]
    exact (bind_of_ok (hbyte _ (by decide) (by decide)) _).trans
      ((bind_of_ok (hbyte _ (by decide) (by decide)) _).trans
        ((bind_of_ok (hbyte _ (by decide) (by decide)) _).trans rfl))
  rw [taskGetStackItem, bind_of_ok (taskAt_of_some h.current hobject), bind_of_ok hpage]
  exact (bind_of_ok hword _).trans ((bind_of_ok hkernel _).trans rfl)

theorem Waiting.message (h : Waiting s x) :
    Message { s.toTaskLayer with ram := letterAtZero } x 0 [0x41] := by
  refine ⟨by decide, by decide, by decide, fun j hj => ?_⟩
  have hle : j ≤ 1 := hj
  obtain ⟨p, hp, hself, -⟩ := h.translate (v := j) (by omega)
  obtain rfl := hself (by omega)
  refine ⟨p, by rw [Nat.zero_add]; exact hp, ?_⟩
  obtain rfl | rfl : p = 0 ∨ p = 1 := by omega
  · rfl
  · rfl

theorem Waiting.prints (h : Waiting s x) (stack : List UInt8) : ∃ buf t,
    isr80hPrintBuf stack (calling s x) = .ok (buf, t) ∧ 0 ∈ buf := by
  obtain ⟨y, hmapped, howned⟩ := h.mapped
  have hspace : (calling s x).AddressSpace (callingTask x).pageDirectory :=
    ⟨hmapped.space.owned, hmapped.space.separated⟩
  have htask : SeesAll ((calling s x).onTask (callingTask x)) := by
    intro v hv
    obtain ⟨p, hp, -⟩ := h.translate hv
    exact Option.ne_none_iff_exists'.mpr ⟨p, hp⟩
  have hsees : SeesAll (calling s x).onKernel := fun v hv =>
    Option.ne_none_iff_exists'.mpr ⟨v, h.running.sees v hv⟩
  obtain ⟨bytes, t, hcopy⟩ := @copyStringFromTask_returns (calling s x) (callingTask x)
    s.currentTask 0 1024 h.current (Waiting.calling_object x s) hspace h.kernelChunk (by decide)
    (by decide) h.block htask hsees
  have hrun : isr80hPrintBuf stack (calling s x) = .ok (bytes, t) := by
    rw [isr80hPrintBuf, bind_of_ok (get_apply _)]
    exact (bind_of_ok h.item _).trans ((bind_of_ok (get_apply _) _).trans (bind_of_ok hcopy _))
  have hready : Ready (calling s x) (callingTask x) :=
    ⟨Waiting.calling_object x s, hspace, h.running.sees⟩
  have hmessage := h.message
  have hholds := hmessage.holds (s := { s with ram := letterAtZero }) hmapped howned h.block
  refine ⟨bytes, t, hrun, ?_⟩
  rw [isr80hPrintBuf_text hready h.item hmessage.ended hmessage.short h.block hholds hrun]
  decide

theorem command_short {t t' : TaskState} (h : Command t t') (ht : t.heap.short = false)
    (hblock : (t.heap.malloc 1024).2.short = false) : t'.heap.short = false := by
  cases h with
  | ignored => exact ht
  | sums => exact ht
  | prints t' copied =>
    cases copied with
    | early k heap =>
      rcases heap with rfl | ⟨rfl, -⟩
      · exact ht
      · exact hblock
    | late x pages ram object nonzero restored => exact hblock

theorem Waiting.step (h : Waiting s x) (stack : List UInt8) (screen : Terminal) : ∃ c',
    PrintedText.step ⟨s, screen⟩ ⟨.syscall 1 bottomFrame letterAtZero, stack, [0x41]⟩ = some c' ∧
      c'.kernel.heap.short = false := by
  obtain ⟨buf, t, hrun, hended⟩ := h.prints stack
  obtain ⟨y, hmapped, -⟩ := h.mapped
  set s₁ : KernelState := { s with ram := letterAtZero }
  have hkernel : kernelPage s₁.toTaskLayer = .ok ((), s₁.toTaskLayer.onKernel) :=
    kernelPage_ok.mpr ⟨h.kernelChunk, rfl⟩
  have hsaved : saveOnKernel bottomFrame s₁ = .ok ((), { s₁ with toTaskLayer := calling s x }) :=
    saveOnKernel_ok.mpr ⟨h.kernelChunk, h.current, x, h.object, rfl⟩
  rw [saveOnKernel, bind_of_ok (onTasks_ok.mpr ⟨_, hkernel, rfl⟩)] at hsaved
  have hbase : Dexter.isr80hHandleCommand 1 bottomFrame (calling s x) = .ok (0, t) := by
    show Dexter.isr80hCommand1Print bottomFrame (calling s x) = _
    rw [isr80hCommand1Print_eq stack, bind_of_ok hrun, pure_apply]
  have hcommand := isr80hHandleCommand_ok hbase
  have hmoved := hcommand.unmoved
  have hobject : t.tasks t.currentTask = some (callingTask x) := by
    rw [hmoved.tasks, hmoved.currentTask]
    exact Waiting.calling_object x s
  have hcurrent : t.currentTask ≠ 0 := by
    rw [hmoved.currentTask]
    exact h.current
  have hpage : taskPage t = .ok ((), t.onTask (callingTask x)) :=
    taskPage_ok.mpr ⟨hcurrent, _, hobject, hmapped.space.chunk_ne, rfl⟩
  set after := print (buf.takeWhile (· ≠ 0)) screen
  have hfirst : onKernel (onTasks kernelPage) ⟨s₁, screen⟩ =
      .ok ((), ⟨{ s₁ with toTaskLayer := s₁.toTaskLayer.onKernel }, screen⟩) :=
    onKernel_ok.mpr ⟨_, onTasks_ok.mpr ⟨_, hkernel, rfl⟩, rfl⟩
  have hsave : onKernel (onTasks (taskCurrentSaveState bottomFrame))
      ⟨{ s₁ with toTaskLayer := s₁.toTaskLayer.onKernel }, screen⟩ =
      .ok ((), ⟨{ s₁ with toTaskLayer := calling s x }, screen⟩) :=
    onKernel_ok.mpr ⟨_, hsaved, rfl⟩
  have hbuf : onKernel (onTasks (isr80hPrintBuf stack))
      ⟨{ s₁ with toTaskLayer := calling s x }, screen⟩ =
      .ok (buf, ⟨{ s₁ with toTaskLayer := t }, screen⟩) :=
    onKernel_ok.mpr ⟨_, onTasks_ok.mpr ⟨t, hrun, rfl⟩, rfl⟩
  have hprint : printBuf buf ⟨{ s₁ with toTaskLayer := t }, screen⟩ =
      .ok ((), ⟨{ s₁ with toTaskLayer := t }, after⟩) := printBuf_ok.mpr ⟨hended, rfl⟩
  have hlast : onKernel (onTasks taskPage) ⟨{ s₁ with toTaskLayer := t }, after⟩ =
      .ok ((), ⟨{ s₁ with toTaskLayer := t.onTask (callingTask x) }, after⟩) :=
    onKernel_ok.mpr ⟨_, onTasks_ok.mpr ⟨_, hpage, rfl⟩, rfl⟩
  have hcommand₁ : isr80hHandleCommand stack 1 bottomFrame
      ⟨{ s₁ with toTaskLayer := calling s x }, screen⟩ =
      .ok (0, ⟨{ s₁ with toTaskLayer := t }, after⟩) := by
    show isr80hCommand1Print stack bottomFrame _ = _
    rw [isr80hCommand1Print, bind_of_ok hbuf, bind_of_ok hprint, pure_apply]
  refine ⟨⟨{ s₁ with toTaskLayer := t.onTask (callingTask x) }, after⟩,
    step_syscall.mpr ⟨0, ?_⟩, ?_⟩
  · rw [isr80hHandler, bind_of_ok hfirst, bind_of_ok hsave, bind_of_ok hcommand₁, bind_of_ok hlast,
      pure_apply]
  · have hlong : t.heap.short = false :=
      command_short hcommand (malloc_short_mono rfl h.short) h.short
    exact hlong

theorem waiting_exists : ∃ (s₀ s : KernelState) (x : Task), ProcessRuns.Booted s₀ ∧ Waiting s x ∧
    ProcessRuns.step s₀ ProcessRuns.loadByte = some s := by
  obtain ⟨s₀, hbooted, hunloaded, hchunk, hunused, hshort⟩ := ProcessRuns.booted_exists
  obtain ⟨t, s, hstep, hs⟩ := (ProcessRuns.unloaded_populated hunloaded hunused hshort hchunk).load
    (by decide) (by decide)
  obtain ⟨hblock, -, hlong⟩ := @malloc_of_unused _ _ 1024 hs.unused (by decide) (by decide)
  have hcurrent : s.currentTask ∈ [t] := hs.wellFormed.current.resolve_right fun h => by
    exact absurd h.1 (List.cons_ne_nil t [])
  obtain ⟨x, y, hx, -⟩ := hs.object hcurrent
  exact ⟨s₀, s, x, hbooted, ⟨ProcessRuns.step_running hbooted.running hstep hs.long,
    (hs.wellFormed.linked.walk.node_ne hcurrent).1, hx, hs.kernel, hblock, hlong.trans hs.long⟩,
    hstep⟩

theorem programs_print_letter : ∃ (s₀ : KernelState) (c : Console) (calls : List Call),
    exec step ⟨s₀, ⟨fun _ => 0, 0, 0, []⟩⟩ calls = some c ∧
      c.screen = print [0x41] ⟨fun _ => 0, 0, 0, []⟩ := by
  obtain ⟨s₀, s, x, hbooted, hwaiting, hload⟩ := waiting_exists
  set screen : Terminal := ⟨fun _ => 0, 0, 0, []⟩
  obtain ⟨c, hprint, hshort⟩ := hwaiting.step [] screen
  have hfirst : step ⟨s₀, screen⟩ ⟨ProcessRuns.loadByte, [], []⟩ =
      some ⟨s, screen⟩ := Option.map_eq_some_iff.mpr ⟨s, hload, rfl⟩
  have hrun : exec step ⟨s₀, screen⟩ [⟨ProcessRuns.loadByte, [], []⟩,
      ⟨.syscall 1 bottomFrame letterAtZero, [], [0x41]⟩] = some c :=
    exec_cons_some.mpr ⟨_, hfirst, exec_cons_some.mpr ⟨c, hprint, rfl⟩⟩
  have hprints : Along step Prints ⟨s₀, screen⟩
      [⟨ProcessRuns.loadByte, [], []⟩,
        ⟨.syscall 1 bottomFrame letterAtZero, [], [0x41]⟩] := by
    intro c₁ hc₁
    refine ⟨trivial, fun c₂ hc₂ => ⟨fun _ => ?_, trivial⟩⟩
    obtain rfl := Option.some.inj (hfirst.symm.trans hc₁)
    refine ⟨hwaiting.block, fun y hy => ?_⟩
    obtain rfl := Option.some.inj (hwaiting.object.symm.trans hy)
    exact ⟨0, _, hwaiting.item, hwaiting.message⟩
  exact ⟨s₀, c, _, hrun, (programs_print hbooted hprints hrun hshort).2.1⟩

end Sample

end Dexter.PrintedText
