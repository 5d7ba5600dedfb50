import Dexter.Fs.Ata

/-!
# Streams over the controller (`fs/streamer.c`)

`diskstreamer_read` has each sector read into a buffer on its stack and copies its part of it. Here
it runs on memory and the controller; what it copies is what the streams of a disk image deliver.
-/

namespace Dexter
open Lib.Programs

structure DiskStream where
  pos : ℤ
  disk : ℕ
  deriving DecidableEq, Repr

def Drive.image (drive : Drive) (stack : ℤ → UInt8) : DiskImage where
  sector lba i := drive.data (sectorOf (BitVec.ofInt 32 lba)) i
  stack := stack

namespace Ports

def diskReadBlock (disk fuel idisk : ℕ) (lba : BitVec 32) (total : ℤ) (buf : ℕ) :
    Prog Crash Ports ℤ :=
  if idisk ≠ disk then pure (-eIo) else diskReadSector fuel lba total buf

def copyByte (buf : ℕ) (offset : ℤ) (i out : ℕ) : Prog Crash Ports ℕ := do
  modify fun s =>
    { s with ram := Function.update s.ram out (s.ram (u32 (buf + (offset + i)))) }
  pure (out + 1)

/-- `diskstreamer_read` up to the call of itself: the result, the stream and `out`. -/
def readPart (disk fuel buf : ℕ) (stream : DiskStream) (out : ℕ) (total : ℤ) :
    Prog Crash Ports (ℤ × DiskStream × ℕ) := do
  let sector := stream.pos.tdiv dexterSectorSize
  let offset := stream.pos.tmod dexterSectorSize
  let res ← diskReadBlock disk fuel stream.disk (BitVec.ofInt 32 sector) 1 buf
  if res < 0 then pure (res, stream, out)
  else do
    let totalToRead := if total > dexterSectorSize then (dexterSectorSize : ℤ) else total
    let out ← countUp (copyByte buf offset) totalToRead.toNat out
    pure (res, { stream with pos := i32 (stream.pos + totalToRead) }, out)

/-- `diskstreamer_read` with `k` calls of itself still to come. The buffer of the last of them is at
`bufs 0`. -/
def diskstreamerReadLoop (disk fuel : ℕ) (bufs : ℕ → ℕ) :
    ℕ → DiskStream → ℕ → ℤ → Prog Crash Ports (ℤ × DiskStream)
  | 0, stream, out, total => do
    let (res, stream, _) ← readPart disk fuel (bufs 0) stream out total
    pure (res, stream)
  | k + 1, stream, out, total => do
    let (res, stream, out) ← readPart disk fuel (bufs (k + 1)) stream out total
    if res < 0 then pure (res, stream)
    else diskstreamerReadLoop disk fuel bufs k stream out (total - dexterSectorSize)

def diskstreamerRead (disk fuel : ℕ) (bufs : ℕ → ℕ) (stream : DiskStream) (out : ℕ) (total : ℤ) :
    Prog Crash Ports (ℤ × DiskStream) :=
  diskstreamerReadLoop disk fuel bufs ((total - 1) / dexterSectorSize).toNat stream out total

section Parts
variable {k : Controller} {ram : ℕ → UInt8} {disk fuel buf out n q o : ℕ}

theorem copyBytes_apply (hbuf : buf + o + n ≤ 4294967296)
    (hapart : buf + o + n ≤ out ∨ out + n ≤ buf + o) :
    countUp (copyByte buf o) n out ⟨ram, k⟩ =
      .ok (out + n, ⟨filled (fun i => ram (buf + o + i)) out n ram, k⟩) := by
  induction n with
  | zero => rw [countUp, pure_apply, filled_zero, add_zero]
  | succ n ih =>
    have haddress : u32 ((buf : ℤ) + ((o : ℤ) + (n : ℕ))) = buf + o + n := by
      unfold u32
      omega
    have hsource : filled (fun i => ram (buf + o + i)) out n ram (buf + o + n) =
        ram (buf + o + n) :=
      filled_frame (by omega)
    rw [countUp, bind_of_ok (ih (by omega) (by omega)), copyByte, bind_of_ok (modify_apply _ _),
      pure_apply]
    dsimp only
    rw [haddress, hsource]
    refine congrArg (fun m => Except.ok (out + (n + 1), (⟨m, k⟩ : Ports))) (funext fun a => ?_)
    by_cases ha : a = out + n
    · rw [ha, Function.update_self, filled_of_lt n.lt_succ_self]
    · rw [Function.update_of_ne ha]
      unfold filled
      split_ifs <;> first | rfl | omega

theorem sectorOf_small (hq : q < 268435456) :
    sectorOf (BitVec.ofInt 32 q) = q ∧ k.driveOf (BitVec.ofInt 32 q) = some k.master := by
  have hnat : (BitVec.ofInt 32 (q : ℤ)).toNat = q := by
    rw [BitVec.toNat_ofInt]
    omega
  constructor
  · rw [sectorOf, hnat, Nat.mod_eq_of_lt hq]
  · have hbit : (BitVec.ofInt 32 (q : ℤ)).getLsbD 28 = false := by
      rw [BitVec.getLsbD, hnat]
      exact Nat.testBit_lt_two_pow hq
    rw [Controller.driveOf, hbit, if_neg Bool.false_ne_true]

theorem readPart_apply {total : ℤ} (hfree : k.transfer.takesCommands) (hq : q < 268435456)
    (hsectors : q < k.master.sectors) (hlatency : k.latency k.sought < fuel) (hin : o < 512)
    (hn : (if total > (dexterSectorSize : ℤ) then (dexterSectorSize : ℤ) else total) = n)
    (hle : o + n ≤ 512) (hbuf : buf + 512 ≤ 4294967296) (hapart : buf + 512 ≤ out ∨ out + n ≤ buf) :
    readPart disk fuel buf ⟨(512 * q + o : ℕ), disk⟩ out total ⟨ram, k⟩ =
      .ok ((0, ⟨i32 ((512 * q + o : ℕ) + n), disk⟩, out + n),
        ⟨filled (fun i => k.master.data q (o + i)) out n
          (filled (k.master.bytesFrom q) buf 512 ram),
          k.afterRead (BitVec.ofInt 32 q) 1⟩) := by
  obtain ⟨hsector, hdrive⟩ := @sectorOf_small k q hq
  have hdiv : ((512 * q + o : ℕ) : ℤ).tdiv (dexterSectorSize : ℕ) = q := by
    rw [dexterSectorSize, ← Int.ofNat_tdiv]
    exact_mod_cast (by omega : (512 * q + o) / 512 = q)
  have hmod : ((512 * q + o : ℕ) : ℤ).tmod (dexterSectorSize : ℕ) = o := by
    rw [dexterSectorSize, ← Int.ofNat_tmod]
    exact_mod_cast (by omega : (512 * q + o) % 512 = o)
  have hread : diskReadBlock disk fuel disk (BitVec.ofInt 32 q) 1 buf ⟨ram, k⟩ =
      .ok (0, ⟨filled (k.master.bytesFrom q) buf 512 ram, k.afterRead (BitVec.ofInt 32 q) 1⟩) := by
    rw [diskReadBlock, if_neg (not_not.mpr rfl)]
    refine (diskReadSector_ok hfree (le_refl 1)).mpr ⟨k.master, hdrive, by decide, ?_, ?_, rfl, ?_⟩
    · rw [hsector]
      exact hsectors
    · intro i hi
      obtain rfl := Nat.lt_one_iff.mp hi
      exact hlatency
    · rw [hsector]
  have hcopy := @copyBytes_apply (k.afterRead (BitVec.ofInt 32 q) 1)
    (filled (k.master.bytesFrom q) buf 512 ram) buf out n o (by omega) (by omega)
  have hbytes : filled (fun i => filled (k.master.bytesFrom q) buf 512 ram (buf + o + i)) out n
      (filled (k.master.bytesFrom q) buf 512 ram) =
      filled (fun i => k.master.data q (o + i)) out n
        (filled (k.master.bytesFrom q) buf 512 ram) := by
    refine filled_congr (fun i hi => ?_) _ _
    have hat : buf + o + i = buf + (o + i) := by omega
    have hdiv : (o + i) / 512 = 0 := by omega
    have hmod : (o + i) % 512 = o + i := by omega
    rw [hat, filled_of_lt (by omega), Drive.bytesFrom, hdiv, hmod, add_zero]
  rw [readPart, hdiv, hmod, bind_of_ok hread, if_neg (lt_irrefl 0), hn, Int.toNat_natCast,
    bind_of_ok hcopy, pure_apply, hbytes]

end Parts

/-- What a read of `total` bytes at `pos` finds: the parts are those of whole sectors, or there is
one part; the drive has the sectors, and the buffers lie apart from `out`. -/
structure ReadsFrom (k : Controller) (fuel : ℕ) (bufs : ℕ → ℕ) (calls pos out total : ℕ) :
    Prop where
  free : k.transfer.takesCommands
  inside : pos % 512 = 0 ∨ pos % 512 + total ≤ 512
  parts : 512 * calls < total ∨ calls = 0
  bound : total ≤ 512 * (calls + 1)
  range : pos + total ≤ 2147483648
  sectors : pos / 512 + calls < k.master.sectors
  latency : ∀ i ≤ calls, k.latency (k.sought + i) < fuel
  buffers : ∀ i ≤ calls, bufs i + 512 ≤ 4294967296 ∧ (bufs i + 512 ≤ out ∨ out + total ≤ bufs i)

theorem bytesFrom_inside {drive : Drive} {lba i : ℕ} (hi : i < 512) :
    drive.bytesFrom lba i = drive.data lba i := by
  rw [Drive.bytesFrom, Nat.div_eq_of_lt hi, Nat.mod_eq_of_lt hi, add_zero]

theorem bytesFrom_next {drive : Drive} {pos i : ℕ} (hi : 512 ≤ i) :
    drive.bytesFrom ((pos + 512) / 512) ((pos + 512) % 512 + (i - 512)) =
      drive.bytesFrom (pos / 512) (pos % 512 + i) := by
  have hdiv : (pos + 512) / 512 + ((pos + 512) % 512 + (i - 512)) / 512 =
      pos / 512 + (pos % 512 + i) / 512 := by omega
  have hmod : ((pos + 512) % 512 + (i - 512)) % 512 = (pos % 512 + i) % 512 := by omega
  rw [Drive.bytesFrom, Drive.bytesFrom, hdiv, hmod]

section Reads
variable {disk fuel calls pos out total : ℕ} {bufs : ℕ → ℕ} {k : Controller} {ram : ℕ → UInt8}

theorem ReadsFrom.part (h : ReadsFrom k fuel bufs calls pos out total) :
    readPart disk fuel (bufs calls) ⟨pos, disk⟩ out total ⟨ram, k⟩ =
      .ok ((0, ⟨i32 (pos + min total 512), disk⟩, out + min total 512),
        ⟨filled (fun i => k.master.data (pos / 512) (pos % 512 + i)) out (min total 512)
          (filled (k.master.bytesFrom (pos / 512)) (bufs calls) 512 ram),
          k.afterRead (BitVec.ofInt 32 (pos / 512 : ℕ)) 1⟩) := by
  have hbound := h.bound
  have hinside := h.inside
  have hrange := h.range
  have hsectors := h.sectors
  obtain ⟨hbuf, hapart⟩ := h.buffers calls le_rfl
  have hpos : ((512 * (pos / 512) + pos % 512 : ℕ) : ℤ) = pos := by omega
  have hn : (if (total : ℤ) > (dexterSectorSize : ℤ) then (dexterSectorSize : ℤ) else total) =
      (min total 512 : ℕ) := by
    rw [dexterSectorSize]
    split_ifs <;> omega
  have hpart := @readPart_apply k ram disk fuel (bufs calls) out (min total 512) (pos / 512)
    (pos % 512) total h.free (by omega) (by omega) (h.latency 0 (Nat.zero_le calls)) (by omega) hn
    (by omega) hbuf (by omega)
  rw [hpos] at hpart
  exact_mod_cast hpart

theorem ReadsFrom.next (h : ReadsFrom k fuel bufs (calls + 1) pos out total) :
    ReadsFrom (k.afterRead (BitVec.ofInt 32 (pos / 512 : ℕ)) 1) fuel bufs calls (pos + 512)
      (out + 512) (total - 512) where
  free := rfl
  inside := by
    have hinside := h.inside
    have hparts := h.parts
    omega
  parts := by
    have hparts := h.parts
    omega
  bound := by
    have hbound := h.bound
    omega
  range := by
    have hrange := h.range
    have hparts := h.parts
    omega
  sectors := by
    have hsectors : pos / 512 + (calls + 1) < k.master.sectors := h.sectors
    show (pos + 512) / 512 + calls < k.master.sectors
    omega
  latency := by
    intro i hi
    have hlatency := h.latency (i + 1) (by omega)
    rw [Nat.add_comm i 1, ← Nat.add_assoc] at hlatency
    exact hlatency
  buffers := by
    intro i hi
    have hparts := h.parts
    obtain ⟨hlt, hapart⟩ := h.buffers i (by omega)
    exact ⟨hlt, by omega⟩

theorem diskstreamerReadLoop_reads (h : ReadsFrom k fuel bufs calls pos out total) :
    ∃ s', diskstreamerReadLoop disk fuel bufs calls ⟨pos, disk⟩ out total ⟨ram, k⟩ =
        .ok ((0, ⟨i32 (pos + total), disk⟩), s') ∧
      s'.controller.transfer.takesCommands ∧
      (∀ i < total, s'.ram (out + i) = k.master.bytesFrom (pos / 512) (pos % 512 + i)) ∧
      ∀ a, a < out ∨ out + total ≤ a → (∀ i ≤ calls, a < bufs i ∨ bufs i + 512 ≤ a) →
        s'.ram a = ram a := by
  induction calls generalizing pos out total k ram with
  | zero =>
    have hpart := @h.part disk
    have hbound := h.bound
    have hinside := h.inside
    rw [min_eq_left (show total ≤ 512 by omega)] at hpart
    refine ⟨_, (bind_of_ok (hpart ram) _).trans rfl, rfl, ?_, ?_⟩
    · intro i hi
      dsimp only
      rw [filled_of_lt hi, bytesFrom_inside (by omega)]
    · intro a ha hbufs
      dsimp only
      rw [filled_frame ha, filled_frame (hbufs 0 le_rfl)]
  | succ calls ih =>
    have hpart := @h.part disk
    have hparts := h.parts
    have hinside := h.inside
    have hrange := h.range
    have haligned : pos % 512 = 0 := by omega
    rw [min_eq_right (show 512 ≤ total by omega)] at hpart
    obtain ⟨s', hloop, hfree, hbytes, hframe⟩ := ih h.next
    have hnext : i32 ((pos : ℤ) + (512 : ℕ)) = (pos + 512 : ℕ) :=
      i32_natCast (x := pos + 512) (by omega)
    have hleft : (total : ℤ) - dexterSectorSize = (total - 512 : ℕ) := by
      rw [dexterSectorSize]
      omega
    have hend : ((pos + 512 : ℕ) : ℤ) + (total - 512 : ℕ) = pos + total := by omega
    refine ⟨s', ?_, hfree, ?_, ?_⟩
    · rw [hend] at hloop
      refine (bind_of_ok (hpart ram) _).trans ?_
      dsimp only
      rw [if_neg (lt_irrefl 0), hnext, hleft]
      exact hloop
    · intro i hi
      by_cases hin : i < 512
      · -- a byte of this part, and the buffers of the later calls lie apart from it
        have hkept : ∀ j ≤ calls, out + i < bufs j ∨ bufs j + 512 ≤ out + i := by
          intro j hj
          have hapart := (h.buffers j (by omega)).2
          omega
        rw [hframe (out + i) (by omega) hkept]
        rw [filled_of_lt hin, bytesFrom_inside (by omega)]
      · have hat : out + 512 + (i - 512) = out + i := by omega
        rw [← hat, hbytes (i - 512) (by omega)]
        exact bytesFrom_next (by omega)
    · intro a ha hbufs
      rw [hframe a (by omega) fun i hi => hbufs i (by omega)]
      rw [filled_frame (by omega), filled_frame (hbufs (calls + 1) le_rfl)]

end Reads

theorem diskstreamerReadLoop_pos (d : DiskImage) {k : ℕ} {pos total : ℕ}
    (hk : 512 * k < total ∨ k = 0) (hle : total ≤ 512 * (k + 1)) (hlt : pos + total ≤ 2147483648) :
    (Dexter.diskstreamerReadLoop d k pos total).2 = i32 (pos + total) := by
  induction k generalizing pos total with
  | zero =>
    have hmin : min (total : ℤ) dexterSectorSize = total := by
      rw [dexterSectorSize]
      omega
    rw [Dexter.diskstreamerReadLoop, hmin]
    rfl
  | succ k ih =>
    have hnext : i32 ((pos : ℤ) + dexterSectorSize) = (pos + 512 : ℕ) :=
      i32_natCast (x := pos + 512) (by omega)
    have hleft : (total : ℤ) - dexterSectorSize = (total - 512 : ℕ) := by
      rw [dexterSectorSize]
      omega
    have hend : ((pos + 512 : ℕ) : ℤ) + (total - 512 : ℕ) = pos + total := by omega
    rw [Dexter.diskstreamerReadLoop]
    dsimp only
    rw [diskstreamerReadSector_pos, hnext, hleft, ih (by omega) (by omega) (by omega), hend]

/-- `diskstreamer_read` over the controller delivers what the stream of the disk's image does, and
leaves the stream where that one is left, however long the controller takes. -/
theorem diskstreamerRead_refines (disk : ℕ) (bufs : ℕ → ℕ) (pos total out : ℕ) (stack : ℤ → UInt8)
    (s : Ports) (hfree : s.controller.transfer.takesCommands)
    (hinside : pos % 512 = 0 ∨ pos % 512 + total ≤ 512) (hrange : pos + total ≤ 2147483648)
    (hsectors : pos / 512 + (total - 1) / 512 < s.controller.master.sectors)
    (hbufs : ∀ i ≤ (total - 1) / 512,
      bufs i + 512 ≤ 4294967296 ∧ (bufs i + 512 ≤ out ∨ out + total ≤ bufs i)) :
    ∃ fuel stream s', diskstreamerRead disk fuel bufs ⟨pos, disk⟩ out total s =
        .ok ((0, stream), s') ∧
      ((List.range total).map fun i => s'.ram (out + i), stream.pos) =
        Dexter.diskstreamerRead (s.controller.master.image stack) pos total ∧
      s'.controller.transfer.takesCommands ∧
      ∀ a, a < out ∨ out + total ≤ a →
        (∀ i ≤ (total - 1) / 512, a < bufs i ∨ bufs i + 512 ≤ a) → s'.ram a = s.ram a := by
  obtain ⟨ram, k⟩ := s
  have hcalls : (((total : ℤ) - 1) / dexterSectorSize).toNat = (total - 1) / 512 := by
    rw [dexterSectorSize]
    omega
  obtain ⟨fuel, hfuel⟩ := exists_fuel (fun i => k.latency (k.sought + i)) ((total - 1) / 512 + 1)
  have hreads : ReadsFrom k fuel bufs ((total - 1) / 512) pos out total :=
    ⟨hfree, hinside, by omega, by omega, hrange, hsectors, fun i hi => hfuel i (by omega), hbufs⟩
  obtain ⟨s', hrun, hfree', hbytes, hframe⟩ :=
    @diskstreamerReadLoop_reads disk _ _ _ _ _ _ _ _ hreads
  refine ⟨fuel, ⟨i32 (pos + total), disk⟩, s', ?_, ?_, hfree', hframe⟩
  · rw [diskstreamerRead, hcalls]
    exact hrun
  · refine Prod.ext ?_ ?_
    · rw [diskstreamerRead_eq _ hinside hrange]
      refine List.map_congr_left fun i hi => ?_
      rw [List.mem_range] at hi
      have hdiv : pos / 512 + (pos % 512 + i) / 512 = (pos + i) / 512 := by omega
      have hmod : (pos % 512 + i) % 512 = (pos + i) % 512 := by omega
      rw [hbytes i hi, Drive.bytesFrom, hdiv, hmod]
      have hsector := (@sectorOf_small k ((pos + i) / 512) (by omega)).1
      exact (congrArg (fun q => k.master.data q ((pos + i) % 512)) hsector).symm
    · rw [Dexter.diskstreamerRead, hcalls, diskstreamerReadLoop_pos _ (by omega) (by omega) hrange]

theorem diskstreamerRead_refines_sample : ∃ fuel stream s',
    diskstreamerRead 0x9000 fuel (fun _ => 0x7000) ⟨(3 : ℕ), 0x9000⟩ 0x8000 (5 : ℕ)
      ⟨fun _ => 0, oneSector⟩ = .ok ((0, stream), s') ∧
    ((List.range 5).map fun i => s'.ram (0x8000 + i), stream.pos) = ([3, 4, 5, 6, 7], 8) := by
  obtain ⟨fuel, stream, s', hrun, hbytes, -⟩ := diskstreamerRead_refines 0x9000 (fun _ => 0x7000) 3
    5 0x8000 (fun _ => 0) ⟨fun _ => 0, oneSector⟩ rfl (by decide) (by decide) (by decide)
    fun i _ => by decide
  exact ⟨fuel, stream, s', hrun, hbytes.trans (by decide)⟩

end Ports

end Dexter
