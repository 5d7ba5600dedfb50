import Dexter.Fs.Streams
import Dexter.Fs.FileRead
import Dexter.Fs.FileRuns

/-!
# Open files side by side

Every read seeks its stream first, so what a read requests of the disk depends on the
descriptor and on the volume only, and not on where others have left the streams, nor on
what lies on the stack or behind a loaded directory. The calls on another descriptor do
not touch the descriptor: `fopen` fills a free slot and `fclose` empties its own one.
-/

namespace Dexter.Streamed
open Lib.Programs Lib.TwoRuns Lib.Runs KernelHeap FileState

/-- The same volume, with something else on the stack and behind a loaded directory. -/
def elsewhere (disk : Disk) (stack : ℤ → UInt8) (past : ℕ → UInt8) : Disk :=
  { disk with image := { disk.image with stack := stack }, past := past }

section Alike
variable {disk : Disk} {stack : ℤ → UInt8} {past : ℕ → UInt8} {fatPrivate : FatPrivate}

theorem seek_read_alike {d d' : DiskImage} {stream : StreamId} {pos total : ℤ} {α : Type}
    {R : α → α → Prop} {f f' : List UInt8 → Prog Crash Streams α}
    (hf : Alike Streams.requests R (f (Dexter.diskstreamerRead d pos total).1)
      (f' (Dexter.diskstreamerRead d' pos total).1)) :
    Alike Streams.requests R (do
      diskstreamerSeek stream pos
      let out ← diskstreamerRead d stream total
      f out) (do
      diskstreamerSeek stream pos
      let out ← diskstreamerRead d' stream total
      f' out) := by
  have hread : Alike Streams.requests (fun a b => a = (Dexter.diskstreamerRead d pos total).1 ∧
      b = (Dexter.diskstreamerRead d' pos total).1)
      (do diskstreamerSeek stream pos; diskstreamerRead d stream total)
      (do diskstreamerSeek stream pos; diskstreamerRead d' stream total) := by
    intro s t
    rw [seek_read_run, seek_read_run]
    exact .returns _ ⟨rfl, rfl⟩ rfl rfl
  rw [← prog_bind_assoc, ← prog_bind_assoc]
  refine hread.bind fun a b hab => ?_
  rw [hab.1, hab.2]
  exact hf

theorem dvd_i32 {x : ℤ} (h : 512 ∣ x) : 512 ∣ i32 x := by
  unfold i32
  omega

theorem dvd_u32 {x : ℤ} (h : 512 ∣ x) : (512 : ℤ) ∣ u32 x := by
  unfold u32
  omega

theorem two_bytes_eq {d : DiskImage} {pos : ℤ} (hpos : 512 ∣ pos) :
    (Dexter.diskstreamerRead d pos 2).1 =
      [d.sector (pos.tdiv 512) 0, d.sector (pos.tdiv 512) 1] := by
  have hoffset : pos.tmod 512 = 0 := Int.tmod_eq_zero_of_dvd hpos
  have hread : (Dexter.diskstreamerRead d pos 2).1 =
      [d.buf (pos.tdiv 512) (pos.tmod 512 + 0), d.buf (pos.tdiv 512) (pos.tmod 512 + 1)] := rfl
  rw [hread, hoffset]
  rfl

/-- An entry of the table is not read past the end of a sector. -/
theorem fat16GetFatEntry_alike (cluster : ℤ) :
    Alike Streams.requests Eq (fat16GetFatEntry disk fatPrivate cluster)
      (fat16GetFatEntry (elsewhere disk stack past) fatPrivate cluster) := by
  have hpos : (512 : ℤ) ∣ i32 (u32 ((u32 (fat16GetFirstFatSector fatPrivate * dexterSectorSize) : ℤ)
      * u32 (i32 (cluster * 2)))) :=
    dvd_i32 (dvd_u32 (dvd_mul_of_dvd_left (dvd_u32 (Dvd.intro_left _ rfl)) _))
  refine Alike.ite (fun _ => Alike.pure rfl) fun _ => seek_read_alike (Alike.pure ?_)
  rw [two_bytes_eq hpos, two_bytes_eq hpos]
  rfl

theorem fat16ClusterAhead_alike (clustersAhead : ℕ) (clusterToUse : ℤ) :
    Alike Streams.requests Eq (fat16ClusterAhead disk fatPrivate clustersAhead clusterToUse)
      (fat16ClusterAhead (elsewhere disk stack past) fatPrivate clustersAhead clusterToUse) := by
  induction clustersAhead generalizing clusterToUse with
  | zero => exact Alike.pure rfl
  | succ clustersAhead ih =>
    refine (fat16GetFatEntry_alike clusterToUse).bind fun entry entry' heq => ?_
    subst heq
    refine Alike.ite (fun _ => Alike.pure rfl) fun _ => Alike.ite (fun _ => Alike.pure rfl)
      fun _ => Alike.ite (fun _ => Alike.pure rfl) fun _ => Alike.ite (fun _ => Alike.pure rfl)
        fun _ => ih entry

theorem fat16GetClusterForOffset_alike (startingCluster offset : ℤ) :
    Alike Streams.requests Eq (fat16GetClusterForOffset disk fatPrivate startingCluster offset)
      (fat16GetClusterForOffset (elsewhere disk stack past) fatPrivate startingCluster offset) :=
  Alike.ite (fun _ => Alike.abort _) fun _ => fat16ClusterAhead_alike _ _

def SameValue (r r' : ℤ × List UInt8) : Prop := r.1 = r'.1

theorem fat16ReadCluster_alike (stream : StreamId) (cluster offset total : ℤ)
    {next next' : List UInt8 → Prog Crash Streams (ℤ × List UInt8)}
    (hnext : ∀ out out', Alike Streams.requests SameValue (next out) (next' out')) :
    Alike Streams.requests SameValue
      (fat16ReadCluster disk fatPrivate stream cluster offset total next)
      (fat16ReadCluster (elsewhere disk stack past) fatPrivate stream cluster offset total next') := by
  refine (fat16GetClusterForOffset_alike cluster offset).bind fun clusterToUse c heq => ?_
  subst heq
  exact Alike.ite (fun _ => Alike.pure rfl) fun _ => seek_read_alike (hnext _ _)

theorem fat16ReadInternalFromStream_alike (stream : StreamId) (k : ℕ)
    (cluster offset total : ℤ) :
    Alike Streams.requests SameValue
      (fat16ReadInternalFromStream disk fatPrivate stream k cluster offset total)
      (fat16ReadInternalFromStream (elsewhere disk stack past) fatPrivate stream k cluster offset
        total) := by
  induction k generalizing offset total with
  | zero => exact fat16ReadCluster_alike _ _ _ _ fun out out' => Alike.pure rfl
  | succ k ih =>
    exact fat16ReadCluster_alike _ _ _ _ fun out out' =>
      (ih _ _).bind fun rest rest' hrest => Alike.pure hrest

theorem fat16ReadInternal_alike (startingCluster offset total : ℤ) :
    Alike Streams.requests SameValue (fat16ReadInternal disk startingCluster offset total)
      (fat16ReadInternal (elsewhere disk stack past) startingCluster offset total) := by
  have hprivate : Alike Streams.requests Eq (ofExcept disk.privateData)
      (ofExcept (elsewhere disk stack past).privateData) := Alike.ofExcept _ fun _ => rfl
  refine hprivate.bind fun fatPrivate p heq => ?_
  subst heq
  exact fat16ReadInternalFromStream_alike _ _ _ _ _

theorem fat16ReadLoop_alike (item : FatDirectoryItem) (size nmemb k : ℕ) (offset : ℤ) :
    Alike Streams.requests SameValue (fat16ReadLoop disk item size nmemb k offset)
      (fat16ReadLoop (elsewhere disk stack past) item size nmemb k offset) := by
  induction k generalizing offset with
  | zero => exact Alike.pure rfl
  | succ k ih =>
    refine (fat16ReadInternal_alike _ _ _).bind fun r r' hr => ?_
    have hsame : r.1 = r'.1 := hr
    rw [← hsame]
    exact Alike.ite (fun _ => Alike.pure hr) fun _ =>
      (ih _).bind fun rest rest' hrest => Alike.pure hrest

theorem fat16Read_alike (descriptor : FatFileDescriptor) (size nmemb : ℕ) :
    Alike Streams.requests SameValue (fat16Read disk descriptor size nmemb)
      (fat16Read (elsewhere disk stack past) descriptor size nmemb) := by
  unfold fat16Read
  cases descriptor.item.body with
  | directory d => exact Alike.abort _
  | file addr item =>
    exact Alike.ite (fun _ => Alike.abort _) fun _ => fat16ReadLoop_alike _ _ _ _ _

end Alike

def Uses (b : ℤ) : FileCall → Prop
  | .fopen _ _ => False
  | .fread _ _ fd => fd = b
  | .fseek fd _ _ => fd = b
  | .fstat fd => fd = b
  | .fclose fd => fd = b

def Opens : FileCall → Prop
  | .fopen _ _ => True
  | _ => False

theorem Uses.unique {a b : ℤ} {call : FileCall} (ha : Uses a call) (hb : Uses b call) : a = b := by
  cases call with
  | fopen filename modeStr => exact ha.elim
  | fread size nmemb fd => exact Eq.trans (Eq.symm ha) hb
  | fseek fd offset whence => exact Eq.trans (Eq.symm ha) hb
  | fstat fd => exact Eq.trans (Eq.symm ha) hb
  | fclose fd => exact Eq.trans (Eq.symm ha) hb

theorem not_uses {a b : ℤ} {call : FileCall} (hab : a ≠ b) (h : Opens call ∨ Uses b call) :
    ¬Uses a call := by
  intro ha
  rcases h with hopens | hb
  · cases call with
    | fopen filename modeStr => exact ha
    | _ => exact hopens
  · exact hab (ha.unique hb)

def Indexed (s : FileState) : Prop := ∀ i d, s.fileDescriptors i = some d → d.index = i + 1

def Leaves (B : Set ℤ) (s s' : FileState) : Prop :=
  ∀ a ∉ B, ∀ d, fileGetDescriptor s a = some d → fileGetDescriptor s' a = some d

section Calls
variable {disk : Disk} {s s' : FileState} {b : ℤ} {r : ℤ}

theorem Leaves.refl (B : Set ℤ) (s : FileState) : Leaves B s s := fun _ _ _ h => h

theorem Leaves.update {i : ℕ} {x : Option FileDescriptor}
    (h : s'.fileDescriptors = Function.update s.fileDescriptors i x) :
    Leaves {(i : ℤ) + 1} s s' := by
  intro a ha d hd
  rw [FileRuns.fileGetDescriptor_update h ha, hd]

theorem Indexed.update {i : ℕ} {x : Option FileDescriptor} (h : Indexed s)
    (htable : s'.fileDescriptors = Function.update s.fileDescriptors i x)
    (hx : ∀ e, x = some e → e.index = i + 1) : Indexed s' := by
  intro j e hj
  rw [htable, Function.update_apply] at hj
  split_ifs at hj with hji
  · rw [hji]
    exact hx e hj
  · exact h j e hj

theorem fopen_leaves {filename modeStr : CString} (hs : Indexed s)
    (h : Dexter.fopen disk filename modeStr s = .ok (r, s')) : Indexed s' ∧ Leaves ∅ s s' := by
  have hkept : KernelHeap.Kept ∅ True s.heap :=
    ⟨fun p hp => absurd hp (Set.notMem_empty p), fun _ => trivial⟩
  obtain ⟨r₀, desc, -, hspec⟩ := fopen_spec hkept h
  cases hspec with
  | fails _ why table kept =>
    refine ⟨fun i e hi => hs i e (table ▸ hi), fun a _ d hd => ?_⟩
    rw [fileGetDescriptor, table]
    exact hd
  | opens i desc _ opened slot index object table built =>
    refine ⟨hs.update table fun e he => Option.some.inj he ▸ index, fun a _ d hd => ?_⟩
    refine Leaves.update table a (fun heq => ?_) d hd
    -- the slot of `a` is taken, and a free one was filled
    obtain ⟨-, -, hslot⟩ := FileRuns.fileGetDescriptor_some hd
    have ha : a = i + 1 := heq
    have hi : (a - 1).toNat = i := by omega
    rw [hi, (freeSlot_some.mp slot).2.1] at hslot
    cases hslot

theorem fseek_leaves {offset : ℤ} {whence : FileSeekMode} (hs : Indexed s)
    (h : fseek b offset whence s = .ok (r, s')) : Indexed s' ∧ Leaves {b} s s' := by
  cases fseek_spec h with
  | rejects unknown => exact ⟨hs, Leaves.refl _ s⟩
  | moves desc x found pointers =>
    obtain ⟨hpos, -, hslot⟩ := FileRuns.fileGetDescriptor_some found
    have hb : (((b - 1).toNat : ℕ) : ℤ) + 1 = b := by omega
    have hleaves : Leaves {(((b - 1).toNat : ℕ) : ℤ) + 1} s
        (putSlot (b - 1).toNat (some { desc with privateData := x }) s) := Leaves.update rfl
    rw [hb] at hleaves
    refine ⟨hs.update rfl fun e he => ?_, hleaves⟩
    rw [← Option.some.inj he]
    exact hs _ desc hslot

theorem fclose_leaves (hs : Indexed s) (h : fclose b s = .ok (r, s')) :
    Indexed s' ∧ Leaves {b} s s' := by
  cases fclose_spec h with
  | rejects unknown => exact ⟨hs, Leaves.refl _ s⟩
  | closes desc _ found table kept =>
    obtain ⟨hpos, -, hslot⟩ := FileRuns.fileGetDescriptor_some found
    have hindex := hs _ desc hslot
    have hb : (((desc.index - 1).toNat : ℕ) : ℤ) + 1 = b := by omega
    exact ⟨hs.update table fun e he => (by cases he), hb ▸ Leaves.update table⟩

theorem call_leaves {call : FileCall} (hs : Indexed s) (h : call.run disk s = .ok ((), s')) :
    Indexed s' ∧ Leaves {b | Uses b call} s s' := by
  have hfd : ∀ {b}, Uses b call → Leaves {b} s s' → Leaves {b | Uses b call} s s' :=
    fun hb h a ha => h a fun heq => ha (heq ▸ hb)
  cases call with
  | fopen filename modeStr =>
    obtain ⟨r, s₁, hrun, hpure⟩ := bind_ok.mp h
    obtain ⟨-, rfl⟩ := ok_inj hpure
    obtain ⟨hs', hleaves⟩ := fopen_leaves hs hrun
    exact ⟨hs', fun a _ => hleaves a (Set.notMem_empty a)⟩
  | fread size nmemb fd =>
    obtain ⟨r, s₁, hrun, hpure⟩ := bind_ok.mp h
    obtain ⟨-, rfl⟩ := ok_inj hpure
    obtain rfl := fread_same hrun
    exact ⟨hs, Leaves.refl _ s₁⟩
  | fseek fd offset whence =>
    obtain ⟨r, s₁, hrun, hpure⟩ := bind_ok.mp h
    obtain ⟨-, rfl⟩ := ok_inj hpure
    obtain ⟨hs', hleaves⟩ := fseek_leaves hs hrun
    exact ⟨hs', hfd rfl hleaves⟩
  | fstat fd =>
    obtain ⟨r, s₁, hrun, hpure⟩ := bind_ok.mp h
    obtain ⟨-, rfl⟩ := ok_inj hpure
    obtain rfl := fstat_same hrun
    exact ⟨hs, Leaves.refl _ s₁⟩
  | fclose fd =>
    obtain ⟨r, s₁, hrun, hpure⟩ := bind_ok.mp h
    obtain ⟨-, rfl⟩ := ok_inj hpure
    obtain ⟨hs', hleaves⟩ := fclose_leaves hs hrun
    exact ⟨hs', hfd rfl hleaves⟩

end Calls

def callStep (disk : Disk) (c : FileState × Streams) (call : FileCall) :
    Option (FileState × Streams) :=
  match run disk call c with
  | .ok (_, c') => some c'
  | .error _ => none

def shown (disk : Disk) (size nmemb : ℕ) (fd : ℤ) (c : FileState × Streams) :
    Except Crash (ℤ × List Request) :=
  (fread disk size nmemb fd c).map fun r =>
    (r.1.1, r.2.2.requests.drop c.2.requests.length)

section Runs
variable {disk : Disk} {c c' : FileState × Streams} {a b : ℤ} {d : FileDescriptor}
  {calls : List FileCall}

theorem callStep_some {call : FileCall} (h : callStep disk c call = some c') :
    call.run disk c.1 = .ok ((), c'.1) := by
  unfold callStep at h
  cases hrun : run disk call c with
  | error e =>
    rw [hrun] at h
    cases h
  | ok r =>
    rw [hrun] at h
    obtain rfl := Option.some.inj h
    exact (run_erases call).run hrun

theorem exec_indexed (hs : Indexed c.1) (h : exec (callStep disk) c calls = some c') :
    Indexed c'.1 :=
  exec_invariant (I := fun c => Indexed c.1)
    (fun _ _ _ hI hstep => (call_leaves hI (callStep_some hstep)).1) hs h

theorem exec_leaves (hcalls : ∀ call ∈ calls, Opens call ∨ Uses b call) (hs : Indexed c.1)
    (hab : a ≠ b) (ha : fileGetDescriptor c.1 a = some d)
    (h : exec (callStep disk) c calls = some c') : fileGetDescriptor c'.1 a = some d := by
  induction calls generalizing c with
  | nil =>
    obtain rfl := Option.some.inj h
    exact ha
  | cons call rest ih =>
    obtain ⟨c₁, hstep, hrest⟩ := exec_cons_some.mp h
    obtain ⟨hs₁, hleaves⟩ := call_leaves hs (callStep_some hstep)
    have ha₁ := hleaves a (not_uses hab (hcalls call List.mem_cons_self)) d ha
    exact ih (fun x hx => hcalls x (List.mem_cons_of_mem call hx)) hs₁ ha₁ hrest

theorem fread_open (size nmemb : ℕ) (ha : fileGetDescriptor c.1 a = some d) :
    fread disk size nmemb a c =
      if size = 0 ∨ nmemb = 0 ∨ a < 1 then .ok ((-eInvArg, []), c)
      else onStreams (fat16Read disk d.privateData size nmemb) c := by
  have hget : onFiles get c = .ok (c.1, c) := rfl
  rw [fread, bind_of_ok hget, ha, Lib.Programs.ite_apply]
  rfl

theorem shown_eq (size nmemb : ℕ) (stack : ℤ → UInt8) (past : ℕ → UInt8)
    (ha : fileGetDescriptor c.1 a = some d) (ha' : fileGetDescriptor c'.1 a = some d) :
    shown (elsewhere disk stack past) size nmemb a c' = shown disk size nmemb a c := by
  rw [shown, shown, fread_open size nmemb ha, fread_open size nmemb ha']
  split_ifs with hargs
  · simp [Except.map]
  · have halike := @fat16Read_alike disk stack past d.privateData size nmemb c.2 c'.2
    simp only [onStreams, zoom]
    generalize fat16Read disk d.privateData size nmemb c.2 = x at halike
    generalize fat16Read (elsewhere disk stack past) d.privateData size nmemb c'.2 = y at halike
    cases halike with
    | fails e => rfl
    | @returns r r' s t entries value left right =>
      have hvalue : r.1 = r'.1 := value
      simp [Except.map, left, right, hvalue]

/-- In every run of the file layer, calls on another descriptor and further openings change
nothing about what a read of `a` requests and returns. -/
theorem open_files_undisturbed (disk : Disk) (heap : KernelHeap) (streams : Streams)
    (before : List FileCall) (hreach : exec (callStep disk) (⟨heap, fun _ => none⟩, streams) before =
      some c) (hab : a ≠ b) (ha : fileGetDescriptor c.1 a ≠ none)
    (hcalls : ∀ call ∈ calls, Opens call ∨ Uses b call) (hrun : exec (callStep disk) c calls = some c')
    (size nmemb : ℕ) (stack : ℤ → UInt8) (past : ℕ → UInt8) :
    shown (elsewhere disk stack past) size nmemb a c' = shown disk size nmemb a c := by
  obtain ⟨d, hd⟩ := Option.ne_none_iff_exists'.mp ha
  have hempty : Indexed (⟨heap, fun _ => none⟩ : FileState) := fun i d hi => by cases hi
  have hs := exec_indexed hempty hreach
  exact shown_eq size nmemb stack past hd (exec_leaves hcalls hs hab hd hrun)

end Runs

theorem callStep_of_run {disk : Disk} {call : FileCall} {s s' : FileState}
    (h : call.run disk s = .ok ((), s')) (t : Streams) :
    ∃ t', callStep disk (s, t) call = some (s', t') := by
  have herased := @run_erases disk call s t
  rw [h] at herased
  cases hrun : run disk call (s, t) with
  | error e =>
    rw [hrun] at herased
    cases herased
  | ok r =>
    rw [hrun] at herased
    obtain ⟨u, s₁, t₁⟩ := r
    obtain rfl := (ok_inj herased).2
    exact ⟨t₁, by rw [callStep, hrun]⟩

section Sample
variable {dir s₁ s₂ s₃ m n : ℕ} {s : FileState}

structure OpenedOften (n m : ℕ) (s : FileState) : Prop where
  opened : ∀ j < n, ∃ d, s.fileDescriptors j = some d ∧ AtStart sampleItem d ∧ d.index = j + 1
  free : ∀ j, n ≤ j → s.fileDescriptors j = none
  room : Room m s.heap

theorem OpenedOften.fopen (h : OpenedOften n m s) (hn : n < 511) (hm : m + 8 ≤ 25600)
    (t : Streams) : ∃ c, callStep (sampleDisk (some (samplePrivate dir s₁ s₂ s₃))) (s, t)
      (.fopen samplePath [0x72]) = some c ∧ OpenedOften (n + 1) (m + 8) c.1 := by
  have hslot : freeSlot s.fileDescriptors = some n := by
    refine freeSlot_some.mpr ⟨hn.trans (by decide), h.free n le_rfl, fun j hj => ?_⟩
    obtain ⟨d, hd, -⟩ := h.opened j hj
    simp [hd]
  obtain ⟨r, s', hopen, ⟨-, desc, hdesc, hindex, htable⟩, hroom⟩ :=
    @fopen_room m (sampleDisk (some (samplePrivate dir s₁ s₂ s₃))) _ _ _ _ samplePath_names hm rfl rfl
      (sample_oneFile dir s₁ s₂ s₃) _ n hslot s ⟨rfl, h.room⟩
  have hrun : (FileCall.fopen samplePath [0x72]).run
      (sampleDisk (some (samplePrivate dir s₁ s₂ s₃))) s = .ok ((), s') := by
    rw [FileCall.run, bind_of_ok hopen, pure_apply]
  obtain ⟨t', hstep⟩ := callStep_of_run hrun t
  refine ⟨(s', t'), hstep, fun j hj => ?_, fun j hj => ?_, hroom⟩
  · cases Nat.lt_succ_iff_lt_or_eq.mp hj with
    | inl hlt => simpa [htable, Function.update_of_ne hlt.ne] using h.opened j hlt
    | inr heq =>
      subst heq
      exact ⟨desc, by rw [htable, Function.update_self], hdesc, hindex⟩
  · rw [htable, Function.update_of_ne (by omega)]
    exact h.free j (by omega)

theorem fseek_atStart {fd : ℤ} {d : FileDescriptor} (hfd : fileGetDescriptor s fd = some d)
    (hd : AtStart sampleItem d) : fseek fd 1 .set s = .ok (0, putSlot (fd - 1).toNat
      (some { d with privateData := { d.privateData with pos := 1 } }) s) := by
  obtain ⟨addr, fItem, copy, hdata, hcopy⟩ := hd
  have hone : u32 1 = 1 := by decide
  have hsize : ¬ 1 ≥ sampleItem.filesize := by decide +kernel
  have hseek : fat16Seek d.privateData (u32 1) .set =
      .ok (0, { d.privateData with pos := 1 }) := by
    rw [fat16Seek, hdata]
    simp only [hcopy, hsize, hone, if_false]
  rw [fseek, bind_of_ok (get_apply _), hfd]
  dsimp only
  rw [hseek]
  rfl

theorem OpenedOften.fread (h : OpenedOften n m s) {j : ℕ} (hj : j < n) (hn : j < 511)
    (hstream : s₂ ≠ 0) (t : Streams) : ∃ t',
    callStep (sampleDisk (some (samplePrivate dir s₁ s₂ s₃))) (s, t) (.fread 600 1 (j + 1)) =
      some (s, t') := by
  obtain ⟨d, hd, ⟨addr, fItem, copy, hdata, hcopy⟩, -⟩ := h.opened j hj
  have hget : fileGetDescriptor s (j + 1) = some d := by rw [fileGetDescriptor_slot hn, hd]
  obtain ⟨bytes, hbytes⟩ := @fat16Read_sample_whole dir s₁ s₂ s₃ addr fItem copy hstream hcopy
  have hread : Dexter.fread (sampleDisk (some (samplePrivate dir s₁ s₂ s₃))) 600 1 (j + 1) s =
      .ok ((1, bytes), s) := by
    rw [Dexter.fread, bind_of_ok (get_apply s), if_neg (by omega), hget]
    dsimp only
    rw [hdata, hbytes]
    rfl
  exact callStep_of_run (by rw [FileCall.run, bind_of_ok hread, pure_apply]) t

theorem OpenedOften.fseek (h : OpenedOften n m s) {j : ℕ} (hj : j < n) (hn : j < 511)
    (t : Streams) : ∃ c, callStep (sampleDisk (some (samplePrivate dir s₁ s₂ s₃))) (s, t)
      (.fseek (j + 1) 1 .set) = some c := by
  obtain ⟨d, hd, hstart, -⟩ := h.opened j hj
  have hget : fileGetDescriptor s (j + 1) = some d := by rw [fileGetDescriptor_slot hn, hd]
  have hrun : ∃ s', (FileCall.fseek (j + 1) 1 .set).run
      (sampleDisk (some (samplePrivate dir s₁ s₂ s₃))) s = .ok ((), s') :=
    ⟨_, by rw [FileCall.run, bind_of_ok (fseek_atStart hget hstart), pure_apply]⟩
  obtain ⟨s', hrun⟩ := hrun
  obtain ⟨t', hstep⟩ := callStep_of_run hrun t
  exact ⟨_, hstep⟩

theorem fclose_step (disk : Disk) (fd : ℤ) (s : FileState) (t : Streams) :
    ∃ c, callStep disk (s, t) (.fclose fd) = some c := by
  obtain ⟨r, s', hclose⟩ := fclose_ok fd s
  have hrun : (FileCall.fclose fd).run disk s = .ok ((), s') := by
    rw [FileCall.run, bind_of_ok hclose, pure_apply]
  obtain ⟨t', hstep⟩ := callStep_of_run hrun t
  exact ⟨_, hstep⟩

end Sample

theorem open_files_undisturbed_sample : ∃ (fatPrivate : FatPrivate) (heap : KernelHeap)
    (c c' : FileState × Streams),
    exec (callStep (sampleDisk fatPrivate)) (⟨heap, fun _ => none⟩, ⟨fun _ => 0, []⟩)
      [.fopen samplePath [0x72], .fopen samplePath [0x72]] = some c ∧
    exec (callStep (sampleDisk fatPrivate)) c
      [.fopen samplePath [0x72], .fread 600 1 2, .fseek 2 1 .set, .fclose 2] = some c' ∧
    shown (sampleDisk fatPrivate) 2 1 1 c' = shown (sampleDisk fatPrivate) 2 1 1 c := by
  have hinit : Room 0 kheapInit := ⟨kheapInit_unused, rfl⟩
  obtain ⟨r, k, -, ⟨dir, s₁, s₂, s₃, rfl, hstream⟩, hk⟩ := fat16Resolve_sample (by decide) hinit
  have h₀ : OpenedOften 0 6 ⟨k, fun _ => none⟩ :=
    ⟨fun j hj => absurd hj (Nat.not_lt_zero j), fun _ _ => rfl, hk⟩
  have hopen := @OpenedOften.fopen dir s₁ s₂ s₃
  obtain ⟨c₁, hstep₁, h₁⟩ := hopen h₀ (by decide) (by decide) ⟨fun _ => 0, []⟩
  obtain ⟨c₂, hstep₂, h₂⟩ := hopen h₁ (by decide) (by decide) c₁.2
  obtain ⟨c₃, hstep₃, h₃⟩ := hopen h₂ (by decide) (by decide) c₂.2
  have htwo : ((1 : ℕ) : ℤ) + 1 = 2 := by decide
  obtain ⟨t, hread⟩ := @OpenedOften.fread dir s₁ s₂ s₃ _ _ _ h₃ 1 (by decide) (by decide) hstream
    c₃.2
  obtain ⟨c₄, hstep₄⟩ := @OpenedOften.fseek dir s₁ s₂ s₃ _ _ _ h₃ 1 (by decide) (by decide) t
  rw [htwo] at hread hstep₄
  obtain ⟨c₅, hstep₅⟩ := fclose_step (sampleDisk (some (samplePrivate dir s₁ s₂ s₃))) 2 c₄.1 c₄.2
  have hbefore : exec (callStep (sampleDisk (some (samplePrivate dir s₁ s₂ s₃))))
      (⟨k, fun _ => none⟩, ⟨fun _ => 0, []⟩)
      [.fopen samplePath [0x72], .fopen samplePath [0x72]] = some c₂ := by
    rw [exec, hstep₁, Option.bind_some, exec, hstep₂, Option.bind_some, exec]
  have hcalls : exec (callStep (sampleDisk (some (samplePrivate dir s₁ s₂ s₃)))) c₂
      [.fopen samplePath [0x72], .fread 600 1 2, .fseek 2 1 .set, .fclose 2] = some c₅ := by
    rw [exec, hstep₃, Option.bind_some, exec, hread, Option.bind_some, exec, hstep₄,
      Option.bind_some, exec, hstep₅, Option.bind_some, exec]
  have hopened : fileGetDescriptor c₂.1 1 ≠ none := by
    obtain ⟨d, hd, -⟩ := h₂.opened 0 (by decide)
    have hget : fileGetDescriptor c₂.1 1 = c₂.1.fileDescriptors 0 := fileGetDescriptor_slot (by decide)
    simp [hget, hd]
  refine ⟨_, k, c₂, c₅, hbefore, hcalls, ?_⟩
  exact open_files_undisturbed _ k _ _ hbefore (by decide : (1 : ℤ) ≠ 2) hopened
    (by simp [Opens, Uses]) hcalls 2 1 _ _

end Dexter.Streamed
