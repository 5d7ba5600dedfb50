import Dexter.Proc.FromDisk
import Dexter.Proc.PageTables

/-!
# Tasks that wait

While other tasks run, load programs and call the kernel, a task that waits keeps its registers,
and under every address that it can write to it finds the bytes that it left. A load stores its
program in a block of its own, a system call copies into a block of its own, and what a program
writes lies behind the writeable entries of its own task.
-/

namespace Dexter
open Lib.Programs Lib.Runs KernelHeap KernelState TaskLayer

def FileLayer.Fits (files : FileLayer) : Prop :=
  ∀ size fd f r f', files.fread size 1 fd f = .ok (r, f') → r.2.length ≤ size

section Members
variable {disk : Disk} {fatPrivate : FatPrivate} {r : ℤ × List UInt8}

/-- The share of a cluster never takes what is left below the bytes that are delivered. -/
theorem share_le {total : ℤ} {size : ℕ} : let share := if total > size then (size : ℤ) else total
    share.toNat + (total - share).toNat ≤ total.toNat := by
  dsimp only
  split_ifs <;> omega

theorem fat16ReadInternalFromStream_length {k : ℕ} {cluster offset total : ℤ}
    (h : fat16ReadInternalFromStream disk fatPrivate k cluster offset total = .ok r) :
    r.2.length ≤ total.toNat := by
  have hshare := @share_le total (fat16SizeOfClusterBytes fatPrivate)
  induction k generalizing offset total r with
  | zero =>
    rw [fat16ReadInternalFromStream] at h
    obtain ⟨clusterToUse, -, h₁⟩ := bind_eq_ok.mp h
    by_cases hneg : clusterToUse < 0
    · rw [if_pos hneg] at h₁
      obtain rfl := Except.ok.inj h₁
      exact Nat.zero_le _
    · rw [if_neg hneg] at h₁
      obtain rfl := Except.ok.inj h₁
      rw [diskstreamerRead_length]
      exact (Nat.le_add_right _ _).trans hshare
  | succ k ih =>
    rw [fat16ReadInternalFromStream] at h
    obtain ⟨clusterToUse, -, h₁⟩ := bind_eq_ok.mp h
    by_cases hneg : clusterToUse < 0
    · rw [if_pos hneg] at h₁
      obtain rfl := Except.ok.inj h₁
      exact Nat.zero_le _
    · rw [if_neg hneg] at h₁
      obtain ⟨rest, hrest, hpure⟩ := bind_eq_ok.mp h₁
      obtain rfl := Except.ok.inj hpure
      have hlength := ih hrest share_le
      rw [List.length_append, diskstreamerRead_length]
      exact (Nat.add_le_add_left hlength _).trans hshare

theorem i32_toNat_le (n : ℕ) : (i32 n).toNat ≤ n := by
  unfold i32
  omega

theorem fat16Read_length {descriptor : FatFileDescriptor} {size : ℕ}
    (h : fat16Read disk descriptor size 1 = .ok r) : r.2.length ≤ size := by
  unfold fat16Read at h
  split at h
  · cases h
  · split_ifs at h with haddr
    obtain ⟨x, hread, h₁⟩ := bind_eq_ok.mp h
    obtain ⟨fatPrivate, -, hstream⟩ := bind_eq_ok.mp hread
    have hlength := (fat16ReadInternalFromStream_length hstream).trans (i32_toNat_le size)
    by_cases hneg : x.1 < 0
    · rw [if_pos hneg] at h₁
      obtain rfl := Except.ok.inj h₁
      exact hlength
    · rw [if_neg hneg] at h₁
      obtain rfl := Except.ok.inj h₁
      rwa [List.append_nil]

theorem fat16Layer_fits (disk : Disk) : (fat16Layer disk).Fits := by
  intro size fd f r f' h
  have hread : Dexter.fread disk size 1 fd f = .ok (r, f') := h
  rw [Dexter.fread, bind_of_ok (get_apply f)] at hread
  by_cases hargs : size = 0 ∨ 1 = 0 ∨ fd < 1
  · rw [if_pos hargs] at hread
    obtain ⟨rfl, -⟩ := ok_inj hread
    exact Nat.zero_le _
  · rw [if_neg hargs] at hread
    cases hfd : fileGetDescriptor f fd with
    | none =>
      rw [hfd] at hread
      obtain ⟨rfl, -⟩ := ok_inj hread
      exact Nat.zero_le _
    | some desc =>
      rw [hfd] at hread
      exact fat16Read_length (ofExcept_ok.mp hread).1

end Members

end Dexter

namespace Dexter.ProcessRuns
open Lib.Programs Lib.Runs Lib.TwoLevel KernelHeap KernelState TaskLayer FromDisk

def SameBytes (A : Set ℕ) (ram ram' : ℕ → UInt8) : Prop := ∀ q, pageOf q ∈ A → ram' q = ram q

theorem SameBytes.refl (A : Set ℕ) (ram : ℕ → UInt8) : SameBytes A ram ram := fun _ _ => rfl

theorem SameBytes.mono {A B : Set ℕ} {ram ram' : ℕ → UInt8} (h : SameBytes A ram ram')
    (hB : B ⊆ A) : SameBytes B ram ram' := fun q hq => h q (hB hq)

theorem SameBytes.trans {A : Set ℕ} {r₁ r₂ r₃ : ℕ → UInt8} (h₁ : SameBytes A r₁ r₂)
    (h₂ : SameBytes A r₂ r₃) : SameBytes A r₁ r₃ := fun q hq => (h₂ q hq).trans (h₁ q hq)

section Load
variable {files : FileLayer} {filename : CString} {A : Set ℕ} {s s' : KernelState} {p : ℕ}
  {x : Process} {r : ℤ}

theorem cleared_same {k : KernelHeap} {ptr size : ℕ} (hprogram : Program A ptr size k)
    (hshort : k.short = false) (ram : ℕ → UInt8) : SameBytes A ram (cleared ptr size ram) := by
  intro q hq
  refine cleared_of_not_mem (fun hin => ?_) ram
  exact Set.disjoint_left.mp (hprogram.fresh hshort) hq
    (pageOf_block hprogram.aligned hin.1 hin.2)

theorem stored_same {k : KernelHeap} {ptr size : ℕ} {bytes : List UInt8}
    (hprogram : Program A ptr size k) (hshort : k.short = false) (hbytes : bytes.length ≤ size)
    (ram : ℕ → UInt8) : SameBytes A ram (stored ptr bytes ram) := by
  intro q hq
  unfold stored
  split_ifs with hin
  · have hpage := pageOf_block (n := size) hprogram.aligned hin.1 (by omega)
    exact absurd hpage (Set.disjoint_left.mp (hprogram.fresh hshort) hq)
  · rfl

theorem processLoadBinaryBody_bytes {fd : ℤ} (hfits : files.Fits) (hA : s.heap.Owns A)
    (h : processLoadBinaryBody files fd p s = .ok (r, s')) :
    s'.fileDescriptors = s.fileDescriptors ∧
      (s'.heap.short = false → SameBytes A s.ram s'.ram) := by
  unfold processLoadBinaryBody at h
  split_ifs at h with hfd
  · obtain ⟨-, rfl⟩ := ok_inj h
    exact ⟨rfl, fun _ => .refl A _⟩
  obtain ⟨stat, s₁, hstat, h₁⟩ := bind_ok.mp h
  obtain ⟨f, hrun, rfl⟩ := onFiles_ok.mp hstat
  obtain ⟨rfl, -⟩ := files.fstat_same hrun
  split_ifs at h₁ with hok
  · obtain ⟨-, rfl⟩ := ok_inj h₁
    exact ⟨rfl, fun _ => .refl A _⟩
  rw [bind_of_ok (onHeap_kzalloc _ _)] at h₁
  split_ifs at h₁ with h0
  · obtain ⟨-, rfl⟩ := ok_inj h₁
    exact ⟨rfl, fun _ => .refl A _⟩
  obtain ⟨hprogram, -⟩ := kzalloc_program (c := True) (u32_lt _) ⟨hA, fun _ => trivial⟩ h0
  rw [bind_of_ok (clearBytes_apply _ _ _)] at h₁
  obtain ⟨⟨count, bytes⟩, s₂, hread, h₂⟩ := bind_ok.mp h₁
  obtain ⟨f₂, hrun₂, rfl⟩ := onFiles_ok.mp hread
  have hbytes := hfits _ _ _ _ _ hrun₂
  obtain rfl := files.fread_same hrun₂
  obtain ⟨u, s₃, hstore, h₃⟩ := bind_ok.mp h₂
  obtain ⟨-, rfl⟩ := ok_inj hstore
  split_ifs at h₃ with hcount
  · obtain ⟨-, rfl⟩ := ok_inj h₃
    exact ⟨rfl, fun hshort =>
      (cleared_same hprogram hshort s.ram).trans (stored_same hprogram hshort hbytes _)⟩
  · obtain ⟨v, s₄, hset, h₄⟩ := bind_ok.mp h₃
    obtain ⟨-, y, -, rfl⟩ := setProcess_ok.mp hset
    obtain ⟨-, rfl⟩ := ok_inj h₄
    exact ⟨rfl, fun hshort =>
      (cleared_same hprogram hshort s.ram).trans (stored_same hprogram hshort hbytes _)⟩

theorem processLoadBinary_bytes (hfits : files.Fits) (hA : s.heap.Owns A)
    (h : processLoadBinary files filename p s = .ok (r, s')) (hshort : s'.heap.short = false) :
    SameBytes A s.ram s'.ram := by
  obtain ⟨fd, s₁, hopen, h₁⟩ := bind_ok.mp h
  obtain ⟨f, hrun, rfl⟩ := onFiles_ok.mp hopen
  have hbuilt := files.fopen_built (c := True) filename ⟨hA, fun _ => trivial⟩ hrun
  obtain ⟨r₁, s₂, hbody, h₂⟩ := bind_ok.mp h₁
  obtain ⟨u, s₃, hclose, hpure⟩ := bind_ok.mp h₂
  obtain ⟨-, rfl⟩ := ok_inj hpure
  obtain ⟨f', hrun', rfl⟩ := onFiles_ok.mp hclose
  obtain ⟨htable, hbytes⟩ := processLoadBinaryBody_bytes
    (s := { s with heap := f.heap, fileDescriptors := f.fileDescriptors }) hfits
    hbuilt.kept.owns hbody
  have hfiles : s₂.files = { f with heap := s₂.heap } := by
    rw [KernelState.files, htable]
  have hloose : Loose ∅ (files.holds fd s₂.files) := by
    rw [hfiles, files.holds_heap]
    exact fun q hq => ⟨Set.notMem_empty q, (hbuilt.loose q hq).2⟩
  -- closing the file does not make a request short
  exact hbytes ((files.fclose_kept (A := ∅) (c := s₂.heap.short = false) hloose
    ⟨Owns.empty _, id⟩ hrun').short hshort)

theorem processLoadForSlotBody_bytes {slot : ℤ} {out : ℤ × ℕ} (hfits : files.Fits)
    (hA : s.heap.Owns A) (hx : s.processAt p = some x)
    (h : processLoadForSlotBody files filename slot p s = .ok (out, s'))
    (hshort : s'.heap.short = false) : SameBytes A s.ram s'.ram := by
  obtain ⟨r, s₁, hload, h₁⟩ := bind_ok.mp h
  have hbytes : s₁.heap.short = false → SameBytes A s.ram s₁.ram :=
    processLoadBinary_bytes hfits hA hload
  split_ifs at h₁ with hneg
  · obtain ⟨-, rfl⟩ := ok_inj h₁
    exact hbytes hshort
  rw [bind_of_ok (onHeap_kzalloc _ _)] at h₁
  split_ifs at h₁ with h0
  · obtain ⟨-, rfl⟩ := ok_inj h₁
    exact hbytes (malloc_short_mono rfl hshort)
  have howned : s₁.heap.Owns A := by
    cases processLoadBinary_spec (c := True) ⟨hA, fun _ => trivial⟩ hx hload with
    | fails r k table ram negative kept => exact absurd negative hneg
    | loads k table ram ptr size sized kept program => exact kept.owns
  obtain ⟨hstack, -⟩ := kzalloc_program (c := True) (by decide) ⟨howned, fun _ => trivial⟩ h0
  rw [bind_of_ok (clearBytes_apply _ _ _)] at h₁
  obtain ⟨u, s₂, hset, h₂⟩ := bind_ok.mp h₁
  obtain ⟨-, y, hy, rfl⟩ := setProcess_ok.mp hset
  obtain ⟨-, hram, t, ts, hnew, hheap⟩ := processLoadTask_keeps (putProcess_self _ _ _) h₂
  rw [hram]
  rw [hheap] at hshort
  obtain ⟨chunk, hspec⟩ := taskNew_spec (A := ∅) (Owns.empty _) hnew
  have hlong := hspec.short hshort
  exact (hbytes (malloc_short_mono rfl hlong)).trans (cleared_same hstack hlong _)

theorem processLoadOut_same {c : Prop} {slot : ℤ} {out : ℤ × ℕ} {u : Unit} {s₁ : KernelState}
    (hspec : LoadBody files filename A c s p slot .zero out s₁)
    (h : processLoadOut p out.1 s₁ = .ok (u, s')) : s' = s₁ := by
  cases hspec with
  | fails r k table ram y negative kept task =>
    rw [processLoadOut, onlyIf, if_pos negative] at h
    obtain ⟨z, s₂, hz, hfree⟩ := bind_ok.mp h
    obtain ⟨-, hy, rfl⟩ := getProcess_ok.mp hz
    obtain rfl : y = z := Option.some.inj ((putProcess_self _ _ _).symm.trans hy)
    have htask : ¬y.task ≠ 0 := not_not.mpr task
    rw [onlyIf, if_neg htask] at hfree
    exact (ok_inj hfree).2.symm
  | loads n y t chunk s' place inside sized named loaded =>
    rw [processLoadOut, onlyIf, if_neg (lt_irrefl 0)] at h
    exact (ok_inj h).2.symm

theorem processLoad_bytes {out : ℤ × ℕ} (hfits : files.Fits) (hA : s.heap.Owns A)
    (h : processLoad files filename s = .ok (out, s')) (hshort : s'.heap.short = false) :
    SameBytes A s.ram s'.ram := by
  rcases processGetFreeSlot_cases s with hslot | ⟨slot, hlt, hslot, hfree⟩
  · rw [processLoad, bind_of_ok (get_apply s), if_pos (by rw [hslot]; decide)] at h
    obtain ⟨-, rfl⟩ := ok_inj h
    exact .refl A _
  · rw [processLoad_free hlt hslot hfree] at h
    split_ifs at h with h0
    · obtain ⟨-, rfl⟩ := ok_inj h
      exact .refl A _
    have hmalloc := @malloc_spec s.heap 5256 (by decide)
    obtain ⟨⟨r, q⟩, s₁, hbody, h₁⟩ := bind_ok.mp h
    obtain ⟨u, s₂, hout, hpure⟩ := bind_ok.mp h₁
    obtain ⟨-, rfl⟩ := ok_inj hpure
    have hspec := processLoadForSlotBody_spec (A := ∅) (c := True) (x := .zero)
      (s := KernelState.putProcess _ .zero { s with heap := (s.heap.malloc 5256).2 })
      ⟨Owns.empty _, fun _ => trivial⟩ (putProcess_self _ _ _) hbody
    obtain rfl := processLoadOut_same hspec hout
    exact processLoadForSlotBody_bytes
      (s := KernelState.putProcess _ .zero { s with heap := (s.heap.malloc 5256).2 }) hfits
      (hmalloc.owns hA) (putProcess_self _ _ _) hbody hshort

end Load

section Calls
variable {s s' : TaskState} {x : Task} {A : Set ℕ} {command : ℤ} {frame : InterruptFrame} {r : ℕ}

theorem copyStringFromTask_bytes {t virt max : ℕ} {out : ℤ × Option (List UInt8)}
    (hx : s.tasks t = some x) (hs : s.AddressSpace x.pageDirectory) (hA : s.heap.Owns A)
    (h0 : 1 ≤ max) (hmax : max < 4096) (h : copyStringFromTask t virt max s = .ok (out, s')) :
    SameBytes A s.ram s'.ram := by
  have hmalloc := s.heap.malloc_spec (by omega : max < 4294967296)
  rcases copyStringFromTask_steps h with ⟨rfl, -⟩ | ⟨-, rfl, -⟩ | hsteps
  · exact .refl A _
  · exact .refl A _
  · obtain ⟨y, old, r₁, r₂, m₁, m₂, ram, hy, hne, -, hmap, hcopy, -, -⟩ := hsteps
    obtain rfl : y = x := Option.some.inj (hy.symm.trans hx)
    obtain ⟨b, hb, hp, -⟩ := malloc_buffer h0 hmax hne
    have hal : (s.heap.malloc max).1 % 4096 = 0 := hp ▸ frame_aligned b
    have hlt : (s.heap.malloc max).1 < 4294967296 := hp ▸ frame_lt hb
    have hspace : (s.afterKzalloc max).AddressSpace y.pageDirectory :=
      hs.congr (fun _ _ => ⟨rfl, rfl⟩) (hmalloc.owns hs.owned)
    have hmapped : (.ok (0, _) : Except Crash (ℤ × Memory)) = .ok (r₁, m₁) :=
      (pagingMap_eq hspace hal hlt hal).symm.trans hmap
    obtain ⟨-, rfl⟩ := ok_inj hmapped
    intro q hq
    by_contra hne
    have hin : (s.heap.malloc max).1 ≤ q ∧ q < (s.heap.malloc max).1 + max := by
      by_contra hout
      rw [← cleared_of_not_mem hout s.ram] at hne
      exact hout (buffer_writes hspace hal hlt hmax rfl rfl rfl hcopy q hne)
    have hpage : pageOf q = (s.heap.malloc max).1 := by
      unfold pageOf
      omega
    exact hmalloc.fresh hA (hpage ▸ hq)

theorem isr80hHandleCommand_bytes (hx : s.tasks s.currentTask = some x)
    (hs : s.AddressSpace x.pageDirectory) (hA : s.heap.Owns A)
    (h : isr80hHandleCommand command frame s = .ok (r, s')) : SameBytes A s.ram s'.ram := by
  unfold isr80hHandleCommand isr80hCommands at h
  split_ifs at h with hrange
  · obtain ⟨-, rfl⟩ := ok_inj h
    exact .refl A _
  match hcommand : command.toNat with
  | 0 =>
    rw [hcommand] at h
    obtain ⟨t, s₁, hget, h₁⟩ := bind_ok.mp h
    obtain ⟨rfl, rfl⟩ := ok_inj hget
    obtain ⟨v₂, s₂, hitem, h₂⟩ := bind_ok.mp h₁
    obtain rfl := taskGetStackItem_ok hitem
    rw [bind_of_ok (get_apply _)] at h₂
    obtain ⟨v₁, s₃, hitem', h₃⟩ := bind_ok.mp h₂
    obtain rfl := taskGetStackItem_ok hitem'
    obtain ⟨-, rfl⟩ := ok_inj h₃
    exact .refl A _
  | 1 =>
    rw [hcommand] at h
    obtain ⟨t, s₁, hget, h₁⟩ := bind_ok.mp h
    obtain ⟨rfl, rfl⟩ := ok_inj hget
    obtain ⟨buf, s₂, hitem, h₂⟩ := bind_ok.mp h₁
    obtain rfl := taskGetStackItem_ok hitem
    rw [bind_of_ok (get_apply _)] at h₂
    obtain ⟨out, s₃, hcopy, h₃⟩ := bind_ok.mp h₂
    obtain ⟨-, rfl⟩ := ok_inj h₃
    exact copyStringFromTask_bytes (s := s.onKernel) hx ⟨hs.owned, hs.separated⟩ hA (by decide)
      (by decide) hcopy
  | n + 2 =>
    rw [hcommand] at h
    obtain ⟨-, rfl⟩ := ok_inj h
    exact .refl A _

end Calls

section Handler
variable {s s' : KernelState} {A : Set ℕ} {command : ℤ} {frame : InterruptFrame} {r : ℕ}

theorem isr80hHandler_bytes {tasks : Set ℕ} (h : Isolated s tasks) (ht : s.currentTask ∈ tasks)
    (hrun : isr80hHandler command frame s = .ok (r, s')) :
    SameBytes (allHeld s tasks) s.ram s'.ram ∧
      ∀ t ≠ s.currentTask, s'.tasks t = s.tasks t := by
  rw [isr80hHandler_eq] at hrun
  obtain ⟨u, s₁, hsave, h₁⟩ := bind_ok.mp hrun
  obtain ⟨-, -, x, hx, rfl⟩ := saveOnKernel_ok.mp hsave
  obtain ⟨r₂, s₂, hcommand, h₂⟩ := bind_ok.mp h₁
  obtain ⟨t₂, hbody, rfl⟩ := onTasks_ok.mp hcommand
  obtain ⟨v, s₃, hpage, h₃⟩ := bind_ok.mp h₂
  obtain ⟨t₃, hrun', rfl⟩ := onTasks_ok.mp hpage
  obtain ⟨-, y, -, -, rfl⟩ := taskPage_ok.mp hrun'
  obtain ⟨-, rfl⟩ := ok_inj h₃
  obtain ⟨a, z, ha, -, hmapped⟩ := h.shown _ ht
  obtain rfl := Option.some.inj (hx.symm.trans ha)
  have hself : (s.toTaskLayer.saved x frame).tasks s.currentTask =
      some { x with registers := frame.toRegisters } := putTask_self _ _ _
  have hspace : (s.toTaskLayer.saved x frame).AddressSpace x.pageDirectory :=
    ⟨hmapped.space.owned, hmapped.space.separated⟩
  have hmoved := (isr80hHandleCommand_ok hbody).unmoved
  have hbytes : SameBytes (allHeld s tasks) s.ram t₂.ram :=
    isr80hHandleCommand_bytes (s := s.toTaskLayer.saved x frame) hself hspace h.allOwned hbody
  refine ⟨hbytes, fun t hne => ?_⟩
  show t₂.tasks t = s.tasks t
  rw [hmoved.tasks]
  exact putTask_of_ne hne _ _

end Handler

/-- A file layer that a load goes through delivers no more than it is asked for, and before a system
call a program has written only behind the writeable entries of the current task. -/
def Op.Proper (s : KernelState) : Op → Prop
  | .load files _ => files.Fits
  | .switch _ => True
  | .syscall _ _ ram => ∀ a, s.tasks s.currentTask = some a → ∀ q, ram q ≠ s.ram q →
      pageOf q ∈ writeableFrames s a

def Op.LeavesOut (t : ℕ) (s : KernelState) : Op → Prop
  | .syscall _ _ _ => s.currentTask ≠ t
  | _ => True

structure Waits (t : ℕ) (c : ℕ × Registers × ℕ) (x : Process) (ram : ℕ → UInt8)
    (s : KernelState) : Prop where
  content : (s.tasks t).map Task.content = some c
  object : s.processAt c.2.2 = some x
  bytes : SameBytes (imageFrames x.ptr x.size x.stack) ram s.ram

section Waiting
variable {s s' : KernelState} {t : ℕ} {c : ℕ × Registers × ℕ} {x : Process} {ram : ℕ → UInt8}
  {op : Op}

theorem Waits.mem (h : Waits t c x ram s) : t ∈ live s := by
  obtain ⟨a, ha, -⟩ := Option.map_eq_some_iff.mp h.content
  exact mem_live ha

theorem Waits.held (h : Waits t c x ram s) : t ∈ heldBy s t ∧ c.2.2 ∈ heldBy s t ∧
    imageFrames x.ptr x.size x.stack ⊆ heldBy s t := by
  obtain ⟨a, ha, rfl⟩ := Option.map_eq_some_iff.mp h.content
  exact ⟨⟨a, x, ha, h.object, Or.inl rfl⟩, ⟨a, x, ha, h.object, Or.inr (Or.inl (process_mem_frames _))⟩,
    fun q hq => ⟨a, x, ha, h.object, Or.inr (Or.inr (Or.inr hq))⟩⟩

theorem Waits.load {files : FileLayer} {filename : CString} {out : ℤ × ℕ} (h : Waits t c x ram s)
    (hs : Isolated s (live s)) (hfits : files.Fits)
    (hrun : processLoad files filename s = .ok (out, s')) (hshort : s'.heap.short = false) :
    Waits t c x ram s' := by
  obtain ⟨hself, hprocess, himage⟩ := h.held
  have hsub : heldBy s t ⊆ allHeld s (live s) := heldBy_subset h.mem
  have hbytes := h.bytes.trans
    ((processLoad_bytes hfits hs.allOwned hrun hshort).mono (himage.trans hsub))
  have hspec := processLoad_spec (A := allHeld s (live s)) (c := True)
    ⟨hs.allOwned, fun _ => trivial⟩ hrun
  cases hspec with
  | noSlot none => exact h
  | noProcess slot full => exact ⟨h.content, h.object, hbytes⟩
  | fails r p k table ram y slot object nonzero negative kept =>
    have hmalloc := @malloc_spec s.heap 5256 (by decide)
    have hnew : p ∉ allHeld s (live s) := object ▸ hmalloc.fresh hs.allOwned
    have hne : c.2.2 ≠ p := fun hp => hnew (hp ▸ hsub hprocess)
    exact ⟨h.content, (putProcess_of_ne hne _ _).trans h.object, hbytes⟩
  | loads p slot u chunk y s' free object nonzero new whole sized loaded =>
    have hne : c.2.2 ≠ p := fun hp =>
      Set.disjoint_left.mp new (hsub hprocess) (hp ▸ object ▸ mem_processFrames s.heap)
    have hu : t ≠ u := fun ht => loaded.fresh (ht ▸ Or.inl (hsub hself))
    refine ⟨?_, ?_, hbytes⟩
    · rw [loaded.content t, if_neg hu]
      exact h.content
    · rw [loaded.object, Function.update_of_ne hne]
      exact (putProcess_of_ne hne _ _).trans h.object

theorem Waits.switch {task : ℕ} {u : Unit} (h : Waits t c x ram s)
    (hrun : onTasks (taskSwitch task) s = .ok (u, s')) : Waits t c x ram s' := by
  obtain ⟨-, y, -, rfl⟩ := switch_ok hrun
  exact ⟨h.content, h.object, h.bytes⟩

theorem Waits.written {ram' : ℕ → UInt8} (h : Waits t c x ram s) (hs : Isolated s (live s))
    (hlive : s.currentTask ∈ live s) (hne : s.currentTask ≠ t)
    (hwrites : ∀ a, s.tasks s.currentTask = some a → ∀ q, ram' q ≠ s.ram q →
      pageOf q ∈ writeableFrames s a) : Waits t c x ram { s with ram := ram' } := by
  refine ⟨h.content, h.object, h.bytes.trans fun q hq => ?_⟩
  by_contra hwritten
  obtain ⟨a, y, ha, hy, hmapped⟩ := hs.shown _ hlive
  have hsub : imageFrames y.ptr y.size y.stack ⊆ heldBy s s.currentTask := fun q hq =>
    ⟨a, y, ha, hy, Or.inr (Or.inr (Or.inr hq))⟩
  have howned := (hs.owned _ hlive).mono hsub
  have hpage := writeableFrames_subset hmapped howned (hwrites a ha q hwritten)
  exact Set.disjoint_left.mp (hs.apart _ hlive t h.mem hne) (hsub hpage) (h.held.2.2 hq)

theorem Waits.syscall {command : ℤ} {frame : InterruptFrame} {ram' : ℕ → UInt8} {r : ℕ}
    (h : Waits t c x ram s) (hs : Isolated s (live s)) (hne : s.currentTask ≠ t)
    (hwrites : ∀ a, s.tasks s.currentTask = some a → ∀ q, ram' q ≠ s.ram q →
      pageOf q ∈ writeableFrames s a)
    (hrun : isr80hHandler command frame { s with ram := ram' } = .ok (r, s')) :
    Waits t c x ram s' := by
  obtain ⟨y, s₂, -, hy, -, hs'⟩ := isr80hHandler_ok hrun
  have hlive : s.currentTask ∈ live s := mem_live hy
  have hwritten := h.written hs hlive hne hwrites
  have hs₁ := (@Isolated.congr _ { s with ram := ram' } _ hs (fun _ _ => rfl)
    (fun _ _ => rfl) (fun _ _ => ⟨rfl, rfl⟩) hs.allOwned).1
  obtain ⟨hbytes, htasks⟩ := isr80hHandler_bytes hs₁ hlive hrun
  refine ⟨?_, ?_, hwritten.bytes.trans (hbytes.mono ?_)⟩
  · rw [htasks t hne.symm]
    exact h.content
  · rw [hs']
    exact h.object
  · exact hwritten.held.2.2.trans (heldBy_subset (s := { s with ram := ram' }) h.mem)

theorem waits_step (h : Waits t c x ram s) (hs : Isolated s (live s)) (hproper : op.Proper s)
    (hout : op.LeavesOut t s) (hstep : step s op = some s') (hshort : s'.heap.short = false) :
    Waits t c x ram s' := by
  cases op with
  | load files filename =>
    obtain ⟨out, hrun⟩ := step_load.mp hstep
    exact h.load hs hproper hrun hshort
  | switch task =>
    obtain ⟨u, hrun⟩ := step_switch.mp hstep
    exact h.switch hrun
  | syscall command frame ram' =>
    obtain ⟨r, hrun⟩ := step_syscall.mp hstep
    exact h.syscall hs hout hproper hrun

theorem run_short {ops : List Op} (h : exec step s ops = some s') (hshort : s'.heap.short = false) :
    s.heap.short = false :=
  exec_invariant (I := fun u => u.heap.short = false → s.heap.short = false)
    (fun _ _ _ hs hstep hshort => hs (step_short hstep hshort)) id h hshort

theorem waits_run {ops : List Op} (h : Waits t c x ram s) (hs : Isolated s (live s))
    (hops : Along step (fun s op => op.Proper s ∧ op.LeavesOut t s) s ops)
    (hrun : exec step s ops = some s') (hshort : s'.heap.short = false) : Waits t c x ram s' := by
  have hthrough : Throughout step (fun s => s.heap.short = false → Waits t c x ram s) s ops := by
    refine throughout_of_along (I := fun s => s.heap.short = false → Isolated s (live s)) ?_
      (fun _ => hs) (fun _ => h) hops
    intro s₁ op s₂ hisolated hwaits hstep ⟨hproper, hout⟩
    refine ⟨fun hshort₂ => ?_, fun hshort₂ => step_isolated hisolated hstep hshort₂⟩
    have hshort₁ := step_short hstep hshort₂
    exact waits_step (hwaits hshort₁) (hisolated hshort₁) hproper hout hstep hshort₂
  exact hthrough.last hrun hshort

end Waiting

section Views
variable {s s' : KernelState} {t : ℕ} {a : Task} {x : Process} {v p : ℕ}

theorem pageOf_translate (hp : (s.toTaskLayer.onTask a).translate v = some p)
    (hv : v < 4294967296) (hwriteable : s.entryAt a.pageDirectory v &&& pagingIsWriteable ≠ 0) :
    pageOf p ∈ writeableFrames s a := by
  have hframe : p = entryTable (s.entryAt a.pageDirectory v) + v % 4096 := (translate_some.mp hp).2
  have hal := (entryTable_aligned (s.entryAt a.pageDirectory v)).1
  refine ⟨v, hv, hwriteable, ?_⟩
  unfold pageOf
  omega

/-- From any state that loads, task switches and system calls lead to, and through any number of
them that the task does not make itself: it keeps its registers, its directory and its process,
every address leads where it led, and where it can write it reads what it left. -/
theorem waiting_task_keeps {s₀ : KernelState} {before after : List Op} (h₀ : Unloaded s₀)
    (h : exec step s₀ before = some s) (ha : s.tasks t = some a)
    (hops : Along step (fun s op => op.Proper s ∧ op.LeavesOut t s) s after)
    (hrun : exec step s after = some s') (hshort : s'.heap.short = false) :
    ∃ a', s'.tasks t = some a' ∧ a'.content = a.content ∧
      ∀ v < 4294967296, ∃ p, (s.toTaskLayer.onTask a).translate v = some p ∧
        (s'.toTaskLayer.onTask a').translate v = some p ∧
        (s.entryAt a.pageDirectory v &&& pagingIsWriteable ≠ 0 → s'.ram p = s.ram p) := by
  have hs := run_isolated h₀ h (run_short hrun hshort)
  have hs' : Isolated s' (live s') :=
    exec_invariant (I := fun s => s.heap.short = false → Isolated s (live s))
      (fun _ _ _ hs hstep hshort => step_isolated hs hstep hshort) (fun _ => hs) hrun hshort
  obtain ⟨b, x, hb, hx, hmapped⟩ := hs.shown t (mem_live ha)
  obtain rfl := Option.some.inj (ha.symm.trans hb)
  have hstart : Waits t a.content x s.ram s := ⟨by rw [ha]; rfl, hx, .refl _ _⟩
  have hwaits := waits_run hstart hs hops hrun hshort
  obtain ⟨a', ha', hcontent⟩ := Option.map_eq_some_iff.mp hwaits.content
  obtain ⟨b, y, hb, hy, hmapped'⟩ := hs'.shown t hwaits.mem
  obtain rfl := Option.some.inj (ha'.symm.trans hb)
  have hprocess : a'.process = a.process := congrArg (fun c => c.2.2) hcontent
  rw [hprocess] at hy
  obtain rfl : y = x := Option.some.inj (hy.symm.trans hwaits.object)
  refine ⟨a', ha', hcontent, fun v hv => ⟨_, translate_mapped hmapped hv,
    translate_mapped hmapped' hv, fun hwriteable => ?_⟩⟩
  have howned := (hs.owned t (mem_live ha))
  exact hwaits.bytes _ (writeableFrames_subset hmapped (howned.mono hstart.held.2.2)
    (pageOf_translate (translate_mapped hmapped hv) hv hwriteable))

end Views

theorem stack_writeable {s : KernelState} {a : Task} {x : Process}
    (h : Mapped s.toPagingLayer a.pageDirectory x.ptr x.size x.stack) :
    s.entryAt a.pageDirectory dexterProgramVirtualStackAddressEnd &&& pagingIsWriteable ≠ 0 := by
  have hentry := h.entries dexterProgramVirtualStackAddressEnd (by decide)
  rw [hentry, imageEntry, if_neg (fun hin => absurd hin.1 (by decide)), if_pos (by decide),
    Nat.and_or_distrib_right]
  exact fun h0 => absurd (Nat.or_eq_zero_iff.mp h0).2 (by decide)

theorem givenFile_fits (bytes : List UInt8) : (LoadContract.givenFile bytes).Fits := by
  intro size fd f r f' h
  obtain ⟨rfl, -⟩ := ok_inj h
  exact List.length_take_le size bytes

theorem waiting_task_keeps_sample : ∃ (s₀ s s' : KernelState) (t u q : ℕ) (a c a' : Task)
    (ram : ℕ → UInt8), exec step s₀ [loadByte, loadByte, .switch u] = some s ∧ t ≠ u ∧
      s.tasks t = some a ∧ s.tasks u = some c ∧ pageOf q ∈ writeableFrames s c ∧
      ram q ≠ s.ram q ∧ exec step s [.syscall 0 bottomFrame ram, loadByte, .switch t] = some s' ∧
      s'.tasks t = some a' ∧ a'.content = a.content ∧ ∀ v < 4294967296,
        ∃ p, (s.toTaskLayer.onTask a).translate v = some p ∧
          (s'.toTaskLayer.onTask a').translate v = some p ∧
          (s.entryAt a.pageDirectory v &&& pagingIsWriteable ≠ 0 → s'.ram p = s.ram p) := by
  obtain ⟨s₀, hunloaded, hstart⟩ := populated_exists
  obtain ⟨s, t, u, a, c, hloads, hs, hne, hcurrent, ha, hc⟩ := populated_two hstart (by decide)
  obtain ⟨c', x, hc', -, hmapped⟩ := hs.object (t := u) (by simp)
  obtain rfl := Option.some.inj (hc.symm.trans hc')
  have hpage := pageOf_translate (translate_mapped hmapped (by decide)) (by decide)
    (stack_writeable hmapped)
  generalize entryTable _ + _ = q at hpage
  set ram := Function.update s.ram q (s.ram q + 1) with hram
  obtain ⟨s₁, hcall, hs₁, -⟩ := hs.syscall (hcurrent ▸ by simp) ram
  obtain ⟨w, s₂, hload, hs₂⟩ := hs₁.load (show 2 < 12 by decide) (by decide)
  obtain ⟨s', hswitch, hs', -⟩ := hs₂.switch (t := t) (by simp)
  have hafter : exec step s [.syscall 0 bottomFrame ram, loadByte, .switch t] = some s' :=
    exec_cons_some.mpr ⟨s₁, hcall, exec_cons_some.mpr ⟨s₂, hload,
      exec_cons_some.mpr ⟨s', hswitch, rfl⟩⟩⟩
  have hproper : (Op.syscall 0 bottomFrame ram).Proper s := by
    intro a' ha' p hp
    rw [hcurrent] at ha'
    obtain rfl := Option.some.inj (hc.symm.trans ha')
    by_cases hpq : p = q
    · exact hpq ▸ hpage
    · exact absurd (Function.update_of_ne hpq _ _) hp
  have hops : Along step (fun s op => op.Proper s ∧ op.LeavesOut t s) s
      [.syscall 0 bottomFrame ram, loadByte, .switch t] := by
    refine fun _ _ => ⟨⟨hproper, ?_⟩, fun _ _ => ⟨⟨givenFile_fits _, trivial⟩, fun _ _ =>
      ⟨⟨trivial, trivial⟩, trivial⟩⟩⟩
    exact fun heq => hne (heq.symm.trans hcurrent)
  obtain ⟨a', ha', hcontent, hkeeps⟩ :=
    waiting_task_keeps hunloaded (hloads []) ha hops hafter hs'.long
  refine ⟨s₀, s, s', t, u, q, a, c, a', ram, hloads [], hne, ha, hc, hpage, ?_, hafter, ha',
    hcontent, hkeeps⟩
  rw [hram, Function.update_self]
  exact fun heq => absurd (add_eq_left.mp heq) (by decide)

end Dexter.ProcessRuns
