import Dexter.Sys.UserStrings

/-!
# The text of a print call (`proc/commands.c`)

`isr80h_command1_print` has 1024 bytes on the stack, asks `copy_string_from_task` to fill them and
hands them to `print` whatever it returned. Both copies are `strncpy` with the size of the buffer:
a string that does not end in it fills it. Where no block is left for the first copy, the bytes on
the stack are those that were there before.
-/

namespace Dexter
open Lib.Programs Lib.TwoLevel PagingLayer KernelHeap TaskLayer

/-- `isr80h_command1_print` up to the call of `print`: what `buf` holds then, where its place on
the stack held `stack`. -/
def isr80hPrintBuf (stack : List UInt8) : Prog Crash TaskState (List UInt8) := do
  let s ← get
  let userSpaceMsgBuf ← taskGetStackItem s.currentTask 0
  let s ← get
  let out ← copyStringFromTask s.currentTask userSpaceMsgBuf 1024
  pure (out.2.getD stack)

theorem isr80hCommand1Print_eq (stack : List UInt8) (frame : InterruptFrame) :
    isr80hCommand1Print frame = (do
      let _ ← isr80hPrintBuf stack
      pure 0) := by
  rw [isr80hCommand1Print, isr80hPrintBuf]
  simp only [prog_bind_assoc]
  rfl

namespace PrintBuf

def withBuffer (s : TaskState) (x : Task) (tmp : ℕ) : TaskState :=
  TaskLayer.onTask { s with toPagingLayer := s.toPagingLayer.withEntry x.pageDirectory tmp (tmp ||| 7) } x

/-- The byte at `i` of the string at `virt` ends the copy: it is a zero of the memory, or it lies
in the cleared buffer where the copy has not been yet. -/
def EndsAt (s : TaskState) (x : Task) (tmp max virt i : ℕ) : Prop :=
  ∃ p, (withBuffer s x tmp).translate (u32 (virt + i)) = some p ∧
    if tmp ≤ p ∧ p < tmp + max then tmp + i ≤ p else s.ram p = 0

def KernelSeesSelf (s : TaskState) : Prop := ∀ v < 4294967296, s.onKernel.translate v = some v

structure Ready (s : TaskState) (x : Task) : Prop where
  object : s.tasks s.currentTask = some x
  space : s.AddressSpace x.pageDirectory
  kernel : KernelSeesSelf s

section Bytes
variable {s s' t : TaskState} {v p tmp src max k i : ℕ} {c : UInt8} {ended : Bool}

theorem translate_congr (hpages : s'.pages = s.pages) (hcr3 : s'.cr3 = s.cr3) (v : ℕ) :
    s'.translate v = s.translate v := by
  unfold TaskLayer.translate
  rw [hpages, hcr3]

theorem translate_of_entry (hroot : s'.pages s'.cr3 (pageCell v).1 = s.pages s.cr3 (pageCell v).1)
    (hentry : lookup entryTable s'.pages s'.cr3 (pageCell v) =
      lookup entryTable s.pages s.cr3 (pageCell v)) : s'.translate v = s.translate v :=
  Option.ext fun p => by rw [translate_some, translate_some, hroot, hentry]

structure Copying (ram : ℕ → UInt8) (tmp max i : ℕ) (s : TaskState) : Prop where
  outside : ∀ p, ¬(tmp ≤ p ∧ p < tmp + max) → s.ram p = ram p
  copied : ∀ j < i, s.ram (tmp + j) ≠ 0
  clear : ∀ j < max, i ≤ j → s.ram (tmp + j) = 0

theorem strncpy_zero {u : Unit} (h : strncpy tmp src k i true s = .ok (u, s')) (hp : s.ram p = 0) :
    s'.ram p = 0 := by
  induction k generalizing i s with
  | zero =>
    obtain ⟨-, rfl⟩ := ok_inj h
    exact hp
  | succ k ih =>
    rw [strncpy_succ] at h
    obtain ⟨c, s₁, hread, h₁⟩ := bind_ok.mp h
    obtain ⟨rfl, rfl⟩ := ok_inj hread
    obtain ⟨w, s₂, hwrite, hrest⟩ := bind_ok.mp h₁
    obtain ⟨q, -, rfl⟩ := writeByte_ok.mp hwrite
    refine ih hrest ?_
    by_cases hpq : p = q
    · subst hpq
      exact Function.update_self _ _ _
    · exact (Function.update_of_ne hpq _ _).trans hp

theorem Copying.step {ram : ℕ → UInt8} (h : Copying ram tmp max i s) (hi : i < max) (hc : c ≠ 0) :
    Copying ram tmp max (i + 1) { s with ram := Function.update s.ram (tmp + i) c } := by
  constructor
  · intro p hp
    exact (Function.update_of_ne (by omega) _ _).trans (h.outside p hp)
  · intro j hj
    by_cases hji : j = i
    · subst hji
      exact ne_of_eq_of_ne (Function.update_self _ _ _) hc
    · exact ne_of_eq_of_ne (Function.update_of_ne (by omega) _ _) (h.copied j (by omega))
  · intro j hj hij
    exact (Function.update_of_ne (by omega) _ _).trans (h.clear j hj (by omega))

theorem Copying.zero_iff {ram : ℕ → UInt8} (h : Copying ram tmp max i s) :
    s.ram p = 0 ↔ if tmp ≤ p ∧ p < tmp + max then tmp + i ≤ p else ram p = 0 := by
  split_ifs with hp
  · have hj : p = tmp + (p - tmp) := by omega
    constructor
    · intro hzero
      by_contra hlt
      rw [hj] at hzero
      exact h.copied (p - tmp) (by omega) hzero
    · intro hle
      rw [hj]
      exact h.clear (p - tmp) (by omega) (by omega)
  · rw [h.outside p hp]

/-- The buffer has a zero after the copy exactly where the string ends within its size. -/
theorem strncpy_zero_iff {ram : ℕ → UInt8} {u : Unit} (hs : Copying ram tmp max i s)
    (hk : i + k = max) (hdest : ∀ j < max, ∀ p, s.translate (u32 (tmp + j)) = some p → p = tmp + j)
    (h : strncpy tmp src k i false s = .ok (u, s')) :
    (∃ j < max, s'.ram (tmp + j) = 0) ↔ ∃ j < max, i ≤ j ∧
      ∃ p, s.translate (u32 (src + j)) = some p ∧
        if tmp ≤ p ∧ p < tmp + max then tmp + j ≤ p else ram p = 0 := by
  induction k generalizing i s with
  | zero =>
    obtain ⟨-, rfl⟩ := ok_inj h
    constructor
    · rintro ⟨j, hj, hzero⟩
      exact absurd hzero (hs.copied j (by omega))
    · rintro ⟨j, hj, hij, -⟩
      omega
  | succ k ih =>
    rw [strncpy_succ] at h
    obtain ⟨c, s₁, hread, h₁⟩ := bind_ok.mp h
    obtain ⟨p, hp, rfl, rfl⟩ := readByte_ok.mp hread
    obtain ⟨w, s₂, hwrite, hrest⟩ := bind_ok.mp h₁
    obtain ⟨q, hq, rfl⟩ := writeByte_ok.mp hwrite
    obtain rfl := hdest i (by omega) q hq
    have hends := @Copying.zero_iff s₁ p tmp max i ram hs
    by_cases hc : s₁.ram p = 0
    · rw [hc] at hrest
      have hlast := strncpy_zero (p := tmp + i) hrest (Function.update_self _ _ _)
      exact iff_of_true ⟨i, by omega, hlast⟩ ⟨i, by omega, le_rfl, p, hp, hends.mp hc⟩
    · have hne : (false || s₁.ram p == 0) = false := by simpa using hc
      rw [hne] at hrest
      rw [ih (hs.step (by omega) hc) (by omega) hdest hrest]
      constructor
      · rintro ⟨j, hj, hij, hend⟩
        exact ⟨j, hj, by omega, hend⟩
      · rintro ⟨j, hj, hij, p', hp', hend⟩
        refine ⟨j, hj, lt_of_le_of_ne hij fun hij' => ?_, p', hp', hend⟩
        subst hij'
        obtain rfl := Option.some.inj (hp.symm.trans hp')
        exact hc (hends.mpr hend)

theorem strncpySource_bytes {bytes : List UInt8}
    (hsrc : ∀ j < i + k, s.translate (u32 (tmp + j)) = some (tmp + j))
    (h : strncpySource tmp k i ended s = .ok (bytes, s')) :
    bytes.length = k ∧
      (0 ∈ bytes ↔ (ended = true ∧ 0 < k) ∨ ∃ j < i + k, i ≤ j ∧ s.ram (tmp + j) = 0) := by
  induction k generalizing i ended bytes with
  | zero =>
    obtain ⟨rfl, -⟩ := ok_inj h
    refine ⟨rfl, iff_of_false List.not_mem_nil ?_⟩
    rintro (⟨-, hlt⟩ | ⟨j, hj, hij, -⟩)
    · exact absurd hlt (lt_irrefl 0)
    · omega
  | succ k ih =>
    rw [strncpySource_succ] at h
    obtain ⟨c, s₁, hread, h₁⟩ := bind_ok.mp h
    obtain ⟨rest, s₂, hrest, hpure⟩ := bind_ok.mp h₁
    obtain ⟨rfl, rfl⟩ := ok_inj hpure
    obtain rfl := nextByte_same hread
    obtain ⟨hlength, hzero⟩ := ih (fun j hj => hsrc j (by omega)) hrest
    refine ⟨congrArg (· + 1) hlength, ?_⟩
    cases ended with
    | true =>
      obtain ⟨rfl, -⟩ := ok_inj hread
      exact iff_of_true List.mem_cons_self (Or.inl ⟨rfl, Nat.succ_pos k⟩)
    | false =>
      obtain ⟨p, hp, rfl, -⟩ := readByte_ok.mp hread
      obtain rfl := Option.some.inj (hp.symm.trans (hsrc i (by omega)))
      rw [List.mem_cons, hzero]
      constructor
      · rintro (hc | ⟨hc, -⟩ | ⟨j, hj, hij, hz⟩)
        · exact Or.inr ⟨i, by omega, le_rfl, hc.symm⟩
        · exact Or.inr ⟨i, by omega, le_rfl, by simpa using hc⟩
        · exact Or.inr ⟨j, by omega, by omega, hz⟩
      · rintro (⟨hf, -⟩ | ⟨j, hj, hij, hz⟩)
        · cases hf
        · by_cases hji : j = i
          · subst hji
            exact Or.inl hz.symm
          · exact Or.inr (Or.inr ⟨j, by omega, by omega, hz⟩)

end Bytes

section Print
variable {s s' s₁ : TaskState} {x : Task} {t virt max : ℕ} {r : ℤ × Option (List UInt8)}
  {stack buf : List UInt8}

theorem copySteps_zero_iff (hx : s.tasks t = some x) (hs : s.AddressSpace x.pageDirectory)
    (hkernel : KernelSeesSelf s) (h0 : 1 ≤ max) (hmax : max < 4096)
    (h : CopySteps s t virt max r s') : ∃ bytes, r = (0, some bytes) ∧ bytes.length = max ∧
      (0 ∈ bytes ↔ ∃ i < max, EndsAt s x (s.heap.malloc max).1 max virt i) := by
  obtain ⟨y, old, r₁, r₂, m₁, m₂, ram, hy, hne, hget, hmap, hcopy, hset, hresult⟩ := h
  obtain rfl : y = x := Option.some.inj (hy.symm.trans hx)
  obtain ⟨b, hb, hp, -⟩ := malloc_buffer h0 hmax hne
  have hal : (s.heap.malloc max).1 % 4096 = 0 := hp ▸ frame_aligned b
  have hlt : (s.heap.malloc max).1 + max ≤ 4294967296 := by
    rw [kernelHeapBlocks] at hb
    rw [hp, frame]
    omega
  have hspace : (s.afterKzalloc max).AddressSpace y.pageDirectory :=
    hs.congr (fun _ _ => ⟨rfl, rfl⟩) ((s.heap.malloc_spec (by omega)).owns hs.owned)
  obtain ⟨rfl, hpages⟩ := pagingMap_restored hget hmap hset hspace hal (by omega)
  have hmapped : (.ok (0, _) : Except Crash (ℤ × Memory)) = .ok (r₁, m₁) :=
    (pagingMap_eq hspace hal (by omega) hal).symm.trans hmap
  obtain ⟨-, rfl⟩ := ok_inj hmapped
  obtain ⟨pages, rfl⟩ := pagingSet_pages _ _ _ (SameButPages.refl _) hset
  set tmp := (s.heap.malloc max).1
  have hstart : Copying s.ram tmp max 0 (TaskLayer.onTask { s with
      toPagingLayer := (s.afterKzalloc max).withEntry y.pageDirectory tmp (tmp ||| 7)
      ram := cleared tmp max s.ram } y) :=
    ⟨fun p hout => cleared_of_not_mem hout _, fun j hj => absurd hj (Nat.not_lt_zero j),
      fun j hj _ => if_pos ⟨Nat.le_add_right _ _, Nat.add_lt_add_left hj _⟩⟩
  have hcopied := strncpy_zero_iff hstart (Nat.zero_add max)
    (fun j hj p => buffer_translate hspace hal (by omega) (hj.trans hmax) rfl rfl) hcopy
  cases hresult with
  | unmapped negative => exact absurd negative (lt_irrefl 0)
  | copied bytes returned read =>
    obtain ⟨hlength, hzero⟩ := strncpySource_bytes (fun j hj => by
      have hv : u32 ((tmp : ℤ) + j) = tmp + j := by
        exact_mod_cast u32_natCast (x := tmp + j) (by omega)
      rw [hv]
      refine Eq.trans (translate_congr ?_ ?_ _) (hkernel (tmp + j) (by omega))
      · exact hpages
      · rfl) read
    refine ⟨bytes, rfl, hlength, ?_⟩
    calc 0 ∈ bytes ↔ ∃ j < max, ram (tmp + j) = 0 := by simpa using hzero
      _ ↔ ∃ i < max, EndsAt s y tmp max virt i := by
        simp only [hcopied, Nat.zero_le, true_and]
        rfl

theorem isr80hPrintBuf_cases (hready : Ready s x)
    (hitem : taskGetStackItem s.currentTask 0 s = .ok (virt, s₁))
    (h : isr80hPrintBuf stack s = .ok (buf, s')) :
    ((s.heap.malloc 1024).1 = 0 ∧ buf = stack) ∨
      ((s.heap.malloc 1024).1 ≠ 0 ∧ buf.length = 1024 ∧
        (0 ∈ buf ↔ ∃ i < 1024, EndsAt s x (s.heap.malloc 1024).1 1024 virt i)) := by
  rw [isr80hPrintBuf, bind_of_ok (get_apply s), bind_of_ok hitem] at h
  obtain rfl := taskGetStackItem_ok hitem
  rw [bind_of_ok (get_apply _)] at h
  obtain ⟨r, s₂, hcopy, hpure⟩ := bind_ok.mp h
  obtain ⟨rfl, -⟩ := ok_inj hpure
  have hobject : s.onKernel.tasks s.onKernel.currentTask = some x := hready.object
  have hspace : s.onKernel.AddressSpace x.pageDirectory :=
    ⟨hready.space.owned, hready.space.separated⟩
  have hkernel : KernelSeesSelf s.onKernel := hready.kernel
  rcases copyStringFromTask_steps hcopy with ⟨-, hle⟩ | ⟨hnone, -, rfl⟩ | hsteps
  · exact absurd hle (by decide)
  · exact Or.inl ⟨hnone, rfl⟩
  · obtain ⟨bytes, rfl, hlength, hzero⟩ := copySteps_zero_iff hobject hspace hkernel (by decide)
      (by decide) hsteps
    cases hsteps with
    | steps y old r₁ r₂ m₁ m₂ ram object nonzero get map copy set result =>
      exact Or.inr ⟨nonzero, hlength, hzero⟩

/-- The buffer that is handed to `print` has a zero in it exactly where the string of the user
ends within the copy; without a block for the copy, exactly where the stack had one. -/
theorem print_terminated_iff (hready : Ready s x) (hstack : stack.length = 1024)
    (hitem : taskGetStackItem s.currentTask 0 s = .ok (virt, s₁))
    (h : isr80hPrintBuf stack s = .ok (buf, s')) : buf.length = 1024 ∧
      (0 ∈ buf ↔ if (s.heap.malloc 1024).1 = 0 then 0 ∈ stack
        else ∃ i < 1024, EndsAt s x (s.heap.malloc 1024).1 1024 virt i) := by
  rcases isr80hPrintBuf_cases hready hitem h with ⟨h0, rfl⟩ | ⟨hne, hlength, hzero⟩
  · rw [if_pos h0]
    exact ⟨hstack, Iff.rfl⟩
  · rw [if_neg hne]
    exact ⟨hlength, hzero⟩

theorem startPaging_seesSelf (h : startPaging s = .ok ((), s')) : KernelSeesSelf s' := by
  rw [startPaging, @bind_ok Crash TaskState] at h
  obtain ⟨chunk, s₁, hnew, h₁⟩ := h
  obtain ⟨m, hpaging, rfl⟩ := onMemory_ok.mp hnew
  rw [bind_of_ok (modify_apply _ _)] at h₁
  obtain ⟨m', hswitch, rfl⟩ := onMemory_ok.mp h₁
  obtain ⟨-, rfl⟩ := pagingSwitch_ok.mp hswitch
  exact fun v hv => (pagingNew4gb_spec (by decide) (Owns.empty _) hpaging).translate_self
    (by decide) (by decide) rfl rfl hv

end Print

section Sample
variable {s : TaskState} {x : Task} {m : Memory} {chunk tmp v : ℕ} {ram : ℕ → UInt8}

theorem withBuffer_elsewhere (hs : s.AddressSpace x.pageDirectory) (hlt : tmp < 4294967296)
    (hv : v < 4294967296) (hne : v / 4096 ≠ tmp / 4096) :
    (withBuffer s x tmp).translate v = (s.onTask x).translate v := by
  have hroot : (withBuffer s x tmp).pages (s.chunks x.pageDirectory) =
      s.pages (s.chunks x.pageDirectory) := hs.separated.store_root (pageCell_lt hlt) _
  have hentry := hs.entryAt_withEntry hlt hv (tmp ||| 7)
  rw [if_neg fun hcell => hne (pageCell_inj hcell)] at hentry
  exact translate_of_entry (congrFun hroot _) hentry

def printer (m : Memory) (chunk : ℕ) (ram : ℕ → UInt8) : TaskState :=
  { sharedDirectory m chunk with ram := ram }

def printerTask (chunk : ℕ) : Task := { Task.zero with pageDirectory := chunk }

structure Printing (m : Memory) (chunk : ℕ) : Prop where
  ready : ∀ ram, Ready (printer m chunk ram) (printerTask chunk)
  chunk_ne : chunk ≠ 0
  buffer : ∀ ram, ((printer m chunk ram).heap.malloc 1024).1 ≠ 0

theorem printing_exists : ∃ m chunk, Printing m chunk := by
  obtain ⟨m, chunk, hnew, -, hpage⟩ := sharedDirectory_exists
  have hspace := pagingNew4gb_spec (by decide) (Owns.empty _) hnew
  refine ⟨m, chunk, fun ram => ⟨rfl, ⟨hspace.space.owned, hspace.space.separated⟩, ?_⟩,
    hspace.space.chunk_ne, fun ram => ?_⟩
  · exact fun v hv => hspace.translate_self (by decide) (by decide) rfl rfl hv
  · rw [malloc_page (by decide) (by decide)]
    exact hpage

theorem Printing.translate (h : Printing m chunk) (hv : v < 4294967296) :
    (printer m chunk ram).translate v = some v := (h.ready ram).kernel v hv

theorem Printing.item (h : Printing m chunk) : taskGetStackItem 64 0 (printer m chunk ram) =
    .ok ((ram 0).toNat + 256 * (ram 1).toNat + 65536 * (ram 2).toNat + 16777216 * (ram 3).toNat,
      printer m chunk ram) := by
  have hbyte : ∀ v < 4, readByte v (printer m chunk ram) = .ok (ram v, printer m chunk ram) :=
    fun v hv => readByte_ok.mpr ⟨v, h.translate (by omega), rfl, rfl⟩
  have hpage : taskPageTask 64 (printer m chunk ram) = .ok ((), printer m chunk ram) :=
    taskPageTask_ok.mpr ⟨by decide, printerTask chunk, rfl, h.chunk_ne, rfl⟩
  have hkernel : kernelPage (printer m chunk ram) = .ok ((), printer m chunk ram) :=
    kernelPage_ok.mpr ⟨h.chunk_ne, rfl⟩
  have hword : readUint32 0 (printer m chunk ram) = .ok ((ram 0).toNat + 256 * (ram 1).toNat +
      65536 * (ram 2).toNat + 16777216 * (ram 3).toNat, printer m chunk ram) := by
    rw [readUint32, bind_of_ok (hbyte 0 (by decide))]
    exact (bind_of_ok (hbyte 1 (by decide)) _).trans ((bind_of_ok (hbyte 2 (by decide)) _).trans
      ((bind_of_ok (hbyte 3 (by decide)) _).trans rfl))
  rw [taskGetStackItem, bind_of_ok (taskAt_of_some (by decide) rfl), bind_of_ok hpage]
  exact (bind_of_ok hword _).trans ((bind_of_ok hkernel _).trans rfl)

theorem Printing.prints (h : Printing m chunk) (ram : ℕ → UInt8) (stack : List UInt8) :
    ∃ buf s', isr80hPrintBuf stack (printer m chunk ram) = .ok (buf, s') := by
  have hsees : SeesAll (printer m chunk ram) := by
    intro v hv
    rw [h.translate hv]
    exact Option.some_ne_none v
  obtain ⟨bytes, s', hcopy⟩ := @copyStringFromTask_returns (printer m chunk ram) _ 64 _ 1024
    (by decide) (h.ready ram).object (h.ready ram).space h.chunk_ne (by decide) (by decide)
    (h.buffer ram) hsees hsees
  refine ⟨bytes, s', ?_⟩
  rw [isr80hPrintBuf, bind_of_ok (get_apply _)]
  exact (bind_of_ok h.item _).trans ((bind_of_ok (get_apply _) _).trans (bind_of_ok hcopy _))

theorem Printing.endsAt_iff (h : Printing m chunk) {virt i : ℕ} (hi : virt + i < 16777216) :
    EndsAt (printer m chunk ram) (printerTask chunk) ((printer m chunk ram).heap.malloc 1024).1
      1024 virt i ↔ ram (virt + i) = 0 := by
  obtain ⟨b, hb, hp, -⟩ := malloc_buffer (by decide) (by decide) (h.buffer ram)
  rw [kernelHeapBlocks] at hb
  rw [frame] at hp
  have hv : u32 ((virt : ℤ) + i) = virt + i := by
    exact_mod_cast u32_natCast (x := virt + i) (by omega)
  have hat : (withBuffer (printer m chunk ram) (printerTask chunk)
      ((printer m chunk ram).heap.malloc 1024).1).translate (virt + i) = some (virt + i) :=
    (withBuffer_elsewhere (h.ready ram).space (by omega) (by omega) (by omega)).trans
      (h.translate (by omega))
  rw [EndsAt, hv, hat]
  constructor
  · rintro ⟨p, hp, hend⟩
    obtain rfl := Option.some.inj hp
    rwa [if_neg (by omega)] at hend
  · intro hzero
    exact ⟨virt + i, rfl, by rwa [if_neg (by omega)]⟩

end Sample

def letters (n p : ℕ) : UInt8 :=
  if p = 2 then 0x40 else if 0x400000 ≤ p ∧ p < 0x400000 + n then 0x41 else 0

theorem letters_stack (n : ℕ) : (letters n 0).toNat + 256 * (letters n 1).toNat +
    65536 * (letters n 2).toNat + 16777216 * (letters n 3).toNat = 0x400000 := by
  simp [letters]

theorem print_terminated_longest : ∃ (s s' : TaskState) (buf : List UInt8),
    s.ram = letters 1023 ∧ taskGetStackItem s.currentTask 0 s = .ok (0x400000, s) ∧
      isr80hPrintBuf (List.replicate 1024 1) s = .ok (buf, s') ∧ buf.length = 1024 ∧ 0 ∈ buf := by
  obtain ⟨m, chunk, h⟩ := printing_exists
  obtain ⟨buf, s', hrun⟩ := h.prints (letters 1023) (List.replicate 1024 1)
  have hitem := @Printing.item m chunk (letters 1023) h
  rw [letters_stack] at hitem
  have hiff := print_terminated_iff (h.ready _) List.length_replicate hitem hrun
  refine ⟨_, s', buf, rfl, hitem, hrun, hiff.1, hiff.2.mpr ?_⟩
  rw [if_neg (h.buffer _)]
  exact ⟨1023, by decide, (h.endsAt_iff (by decide)).mpr (by decide)⟩

/-- A string of 1024 characters fills the buffer. -/
theorem long_string_unterminated : ∃ (s s' : TaskState) (x : Task) (buf : List UInt8),
    Ready s x ∧ s.ram = letters 1024 ∧ taskGetStackItem s.currentTask 0 s = .ok (0x400000, s) ∧
      isr80hPrintBuf (List.replicate 1024 0) s = .ok (buf, s') ∧ buf.length = 1024 ∧ 0 ∉ buf := by
  obtain ⟨m, chunk, h⟩ := printing_exists
  obtain ⟨buf, s', hrun⟩ := h.prints (letters 1024) (List.replicate 1024 0)
  have hitem := @Printing.item m chunk (letters 1024) h
  rw [letters_stack] at hitem
  obtain ⟨h0, -⟩ | ⟨-, hlength, hzero⟩ := isr80hPrintBuf_cases (h.ready _) hitem hrun
  · exact absurd h0 (h.buffer _)
  refine ⟨_, s', _, buf, h.ready _, rfl, hitem, hrun, hlength, fun hmem => ?_⟩
  obtain ⟨i, hi, hend⟩ := hzero.mp hmem
  have hbyte := (h.endsAt_iff (by omega)).mp hend
  rw [letters, if_neg (by omega), if_pos ⟨by omega, by omega⟩] at hbyte
  cases hbyte

end PrintBuf

end Dexter
