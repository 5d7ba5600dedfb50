import Dexter.Fs.FileRead
import Dexter.Fs.Streams
import Dexter.Lib.Pieces

/-!
# Reads from a stream

`diskstreamer_read` cuts a read after every 512 bytes of the request, not where a sector
ends, and takes every piece from one sector buffer. `fat16_get_fat_entry` multiplies the
position of the table by the offset of the entry where it has to add the two.
-/

namespace Dexter.Streamed
open Lib.Programs Lib.Pieces KernelHeap

def Request.Inside (r : Request) : Prop :=
  ∀ i : ℤ, 0 ≤ i → i < r.count → 0 ≤ r.offset + i ∧ r.offset + i < dexterSectorSize

def ofPiece (p : Piece) : Request :=
  ⟨(p.start / dexterSectorSize : ℕ), (p.start % dexterSectorSize : ℕ), p.length⟩

theorem ofPiece_inside (p : Piece) : (ofPiece p).Inside ↔ p.Inside dexterSectorSize := by
  have hmod := Nat.mod_lt p.start (by decide : 0 < 512)
  simp only [Request.Inside, ofPiece, Piece.Inside, dexterSectorSize]
  constructor
  · intro h
    have hlast := h (p.length - 1)
    omega
  · intro h i h0 hi
    omega

theorem requestsFrom_eq {k start total : ℕ} (hlower : 512 * k < total ∨ k = 0)
    (hle : total ≤ 512 * (k + 1)) (hlt : start + total ≤ 2147483648) :
    requestsFrom k start total = (cut dexterSectorSize k start total).map ofPiece := by
  have hsector : ∀ p : ℕ, (p : ℤ).tdiv (dexterSectorSize : ℕ) = (p / dexterSectorSize : ℕ) :=
    fun p => (Int.ofNat_tdiv p dexterSectorSize).symm
  have hoffset : ∀ p : ℕ, (p : ℤ).tmod (dexterSectorSize : ℕ) = (p % dexterSectorSize : ℕ) :=
    fun p => (Int.ofNat_tmod p dexterSectorSize).symm
  induction k generalizing start total with
  | zero =>
    have hmin : min (total : ℤ) (dexterSectorSize : ℕ) = total := by
      simp only [dexterSectorSize]
      omega
    rw [requestsFrom, hmin, hsector, hoffset]
    rfl
  | succ k ih =>
    have hnext : i32 ((start : ℤ) + (dexterSectorSize : ℕ)) = (start + 512 : ℕ) :=
      i32_natCast (x := start + 512) (by omega)
    have hrest : (total : ℤ) - (dexterSectorSize : ℕ) = (total - 512 : ℕ) := by
      simp only [dexterSectorSize]
      omega
    rw [requestsFrom, hnext, hrest, ih (by omega) (by omega) (by omega), cut, List.map_cons,
      hsector, hoffset]
    rfl

theorem diskstreamerReadLoop_pos (d : DiskImage) {k start total : ℕ}
    (hlower : 512 * k < total ∨ k = 0) (hle : total ≤ 512 * (k + 1))
    (hlt : start + total < 2147483648) :
    (Dexter.diskstreamerReadLoop d k start total).2 = (start + total : ℕ) := by
  induction k generalizing start total with
  | zero =>
    have hmin : min (total : ℤ) (dexterSectorSize : ℕ) = total := by
      simp only [dexterSectorSize]
      omega
    rw [Dexter.diskstreamerReadLoop, hmin, diskstreamerReadSector_pos, ← Nat.cast_add]
    exact i32_natCast hlt
  | succ k ih =>
    have hnext : i32 ((start : ℤ) + (dexterSectorSize : ℕ)) = (start + 512 : ℕ) :=
      i32_natCast (x := start + 512) (by omega)
    have hrest : (total : ℤ) - (dexterSectorSize : ℕ) = (total - 512 : ℕ) := by
      simp only [dexterSectorSize]
      omega
    have hsum : start + 512 + (total - 512) = start + total := by omega
    simp only [Dexter.diskstreamerReadLoop, diskstreamerReadSector_pos, hnext, hrest]
    rw [ih (by omega) (by omega) (by omega), hsum]

structure ReadsExactly (d : DiskImage) (stream : StreamId) (total : ℕ) (s s' : Streams)
    (out : List UInt8) : Prop where
  stored : out = (List.range total).map fun i => d.byteAt ((s.pos stream).toNat + i)
  inside : ∃ made, s'.requests = s.requests ++ made ∧ ∀ r ∈ made, r.Inside
  position : s'.pos stream = s.pos stream + total

/-- A read is exact if and only if it starts a sector or ends inside the one it starts in. -/
theorem diskstreamerRead_exact_iff (d : DiskImage) (stream : StreamId) (s : Streams)
    {pos total : ℕ} (hpos : s.pos stream = pos) (hlt : pos + total < 2147483648) :
    (∃ out s', diskstreamerRead d stream total s = .ok (out, s') ∧
      ReadsExactly d stream total s s' out) ↔ pos % 512 = 0 ∨ pos % 512 + total ≤ 512 := by
  have hlower := cuts_lower 512 total
  have hupper := cuts_upper (by decide : 0 < 512) total
  have hcuts : (((total : ℤ) - 1) / (dexterSectorSize : ℕ)).toNat = cuts 512 total := by
    simp only [dexterSectorSize, cuts]
    omega
  have hrun := @diskstreamerRead_run d stream s total
  rw [hpos, hcuts, requestsFrom_eq hlower hupper hlt.le] at hrun
  have hend : (Dexter.diskstreamerRead d pos total).2 = (pos : ℤ) + total := by
    rw [Dexter.diskstreamerRead, hcuts]
    exact diskstreamerReadLoop_pos d hlower hupper hlt
  have hinside : (∀ r ∈ (cut 512 (cuts 512 total) pos total).map ofPiece, r.Inside) ↔
      pos % 512 = 0 ∨ pos % 512 + total ≤ 512 := by
    rw [← cut_inside_iff hlower hupper, List.forall_mem_map]
    exact forall₂_congr fun p _ => ofPiece_inside p
  constructor
  · rintro ⟨out, s', hread, hexact⟩
    obtain ⟨made, hmade, hall⟩ := hexact.inside
    rw [hrun] at hread
    obtain ⟨-, rfl⟩ := ok_inj hread
    rw [← List.append_cancel_left hmade] at hall
    exact hinside.mp hall
  · intro h
    refine ⟨_, _, hrun, ?_, ⟨_, rfl, hinside.mpr h⟩, ?_⟩
    · rw [hpos, Int.toNat_natCast]
      exact diskstreamerRead_eq d h hlt.le
    · simp only [Function.update_self, hend, hpos]

def streamsAt (pos : ℤ) : Streams := ⟨fun _ => pos, []⟩

theorem header_read_exact : ∃ out s',
    diskstreamerRead sampleImage .clusterReadStream (62 : ℕ) (streamsAt 0) = .ok (out, s') ∧
      ReadsExactly sampleImage .clusterReadStream 62 (streamsAt 0) s' out :=
  (@diskstreamerRead_exact_iff sampleImage .clusterReadStream (streamsAt 0) 0 62 rfl
    (by decide)).mpr (Or.inl rfl)

/-- The second byte comes from behind the buffer. -/
theorem read_across_sectors_not_exact :
    (diskstreamerRead sampleImage .clusterReadStream (2 : ℕ) (streamsAt 1535)).map Prod.fst =
      .ok [0, 0] ∧ [1535, 1536].map sampleImage.byteAt = [0, 2] ∧
    ¬∃ out s', diskstreamerRead sampleImage .clusterReadStream (2 : ℕ) (streamsAt 1535) =
        .ok (out, s') ∧
      ReadsExactly sampleImage .clusterReadStream 2 (streamsAt 1535) s' out := by
  have hbytes : [1535, 1536].map sampleImage.byteAt = [0, 2] := by decide +kernel
  have hread : (diskstreamerRead sampleImage .clusterReadStream (2 : ℕ) (streamsAt 1535)).map
      Prod.fst = .ok [0, 0] := by decide +kernel
  refine ⟨hread, hbytes, ?_⟩
  intro ⟨out, s', hrun, hexact⟩
  have hout : out = [0, 0] := by
    rw [hrun] at hread
    exact Except.ok.inj hread
  have hstored : out = [0, 2] := hexact.stored.trans hbytes
  rw [hout] at hstored
  exact absurd hstored (by decide)

section FatEntry
variable {disk : Disk} {fatPrivate : FatPrivate}

/-- The entry of `c` is returned, and the two bytes of its place are what is read. -/
def ReadsEntry (disk : Disk) (fatPrivate : FatPrivate) (c : ℕ) (s : Streams) : Prop :=
  ∃ s', fat16GetFatEntry disk fatPrivate c s = .ok (disk.image.fatEntry c, s') ∧
    s'.requests = s.requests ++ [ofPiece ⟨disk.image.header.reservedSectors * 512 + 2 * c, 2⟩]

def entryPosition (fatPrivate : FatPrivate) (c : ℕ) : ℤ :=
  i32 (u32 ((u32 (fat16GetFirstFatSector fatPrivate * dexterSectorSize) : ℤ) *
    u32 (i32 (c * 2))))

theorem fat16GetFatEntry_run (hstream : fatPrivate.fatReadStream ≠ 0) (c : ℕ) (s : Streams) :
    ∃ s', fat16GetFatEntry disk fatPrivate c s =
      .ok (le16 (fun i => (Dexter.diskstreamerRead disk.image
        (entryPosition fatPrivate c) 2).1.getD i 0) 0, s') ∧
      s'.requests = s.requests ++ [⟨(entryPosition fatPrivate c).tdiv 512,
        (entryPosition fatPrivate c).tmod 512, 2⟩] := by
  rw [fat16GetFatEntry, if_neg hstream, ← prog_bind_assoc, bind_of_ok (seek_read_run _ _)]
  exact ⟨_, rfl, rfl⟩

theorem two_byte_read_eq (d : DiskImage) {place : ℕ} (heven : place % 2 = 0)
    (hlt : place + 2 ≤ 2147483648) :
    le16 (fun i => (Dexter.diskstreamerRead d place 2).1.getD i 0) 0 = le16 d.byteAt place := by
  have hread := @diskstreamerRead_eq d place 2 (by omega) hlt
  rw [Nat.cast_ofNat] at hread
  rw [hread]
  rfl

/-- The product of the two offsets is their sum modulo `2^32` for at most one cluster, which the
number of reserved sectors determines. -/
theorem product_eq_sum_iff (r c : ℤ) :
    4294967296 ∣ 512 * r * (2 * c) - (512 * r + 2 * c) ↔
      4294967296 ∣ 2 * c + 512 * r + 262144 * r ^ 2 + 134217728 * r ^ 3 := by
  constructor
  · intro ⟨q, hq⟩
    exact ⟨-(1 + 512 * r + 262144 * r ^ 2 + 134217728 * r ^ 3) * q - 16 * r ^ 4 * (1 - 2 * c), by
      linear_combination -(1 + 512 * r + 262144 * r ^ 2 + 134217728 * r ^ 3) * hq⟩
  · intro ⟨q, hq⟩
    exact ⟨(512 * r - 1) * q - 16 * r ^ 4, by linear_combination (512 * r - 1) * hq⟩

theorem entryPosition_eq_iff {r c : ℕ} (hr : fat16GetFirstFatSector fatPrivate = r)
    (hr' : r < 65536) (hc : c < 16777216) :
    entryPosition fatPrivate c = (r * 512 + 2 * c : ℕ) ↔
      (2 * c + 512 * r + 262144 * r ^ 2 + 134217728 * r ^ 3) % 4294967296 = 0 := by
  have htable : (u32 (r * (dexterSectorSize : ℕ)) : ℤ) = 512 * r := by
    rw [u32_of_range] <;> simp only [dexterSectorSize] <;> omega
  have hentry : (u32 (i32 (c * 2)) : ℤ) = 2 * c := by
    have hsigned : i32 ((c : ℤ) * 2) = 2 * c := by
      rw [i32_of_range (by omega) (by omega), mul_comm]
    rw [hsigned, u32_of_range (by omega) (by omega)]
  have hcast : (2 * c + 512 * r + 262144 * r ^ 2 + 134217728 * r ^ 3) % 4294967296 = 0 ↔
      (4294967296 : ℤ) ∣ 2 * c + 512 * r + 262144 * r ^ 2 + 134217728 * r ^ 3 := by
    rw [← Nat.dvd_iff_mod_eq_zero, ← Int.natCast_dvd_natCast]
    push_cast
    rfl
  have hsum : ((r * 512 + 2 * c : ℕ) : ℤ) = 512 * r + 2 * c := by
    push_cast
    ring
  rw [entryPosition, hr, htable, hentry, hsum, i32_u32_eq_iff (by omega) (by omega),
    product_eq_sum_iff, hcast]

/-- The entry of a cluster is read from its place if and only if the product happens to be the
sum: `2c = -(512r + (512r)^2 + (512r)^3)` modulo `2^32`, for `r` reserved sectors. -/
theorem fat16GetFatEntry_reads_iff {k k' : KernelHeap}
    (hresolve : fat16Resolve disk k = .ok ((0, some fatPrivate), k')) {c : ℕ}
    (hc : c < 256 * disk.image.header.sectorsPerFat) (s : Streams) :
    ReadsEntry disk fatPrivate c s ↔
      (2 * c + 512 * disk.image.header.reservedSectors +
        262144 * disk.image.header.reservedSectors ^ 2 +
        134217728 * disk.image.header.reservedSectors ^ 3) % 4294967296 = 0 := by
  obtain ⟨total, dir, s₁, s₂, s₃, hs₂, -, rfl⟩ := fat16Resolve_ok hresolve
  have hr : disk.image.header.reservedSectors < 65536 := le16_lt _ _
  have hspf : disk.image.header.sectorsPerFat < 65536 := le16_lt _ _
  have hplace := @entryPosition_eq_iff (resolvedPrivate disk total dir s₁ s₂ s₃)
    disk.image.header.reservedSectors c rfl hr (by omega)
  obtain ⟨s', hrun, hreq⟩ := @fat16GetFatEntry_run disk (resolvedPrivate disk total dir s₁ s₂ s₃)
    hs₂ c s
  generalize hp : entryPosition (resolvedPrivate disk total dir s₁ s₂ s₃) c = pos at *
  rw [← hplace]
  constructor
  · intro ⟨t, ht, hmade⟩
    rw [hrun] at ht
    obtain ⟨-, rfl⟩ := ok_inj ht
    have hone := List.append_cancel_left (hreq.symm.trans hmade)
    obtain ⟨hsector, hoffset, -⟩ := Request.mk.inj (List.cons.inj hone).1
    rw [← Int.mul_tdiv_add_tmod pos 512, hsector, hoffset]
    exact_mod_cast Nat.div_add_mod _ 512
  · intro h
    rw [h] at hrun hreq
    rw [two_byte_read_eq disk.image (by omega) (by omega)] at hrun
    exact ⟨s', hrun, hreq⟩

theorem sample_entries_misread : ∃ fatPrivate k,
    fat16Resolve (sampleDisk none) kheapInit = .ok ((0, some fatPrivate), k) ∧
      ∀ c < 256, ∀ s, ¬ReadsEntry (sampleDisk none) fatPrivate c s := by
  obtain ⟨r, k, hresolve, ⟨dir, s₁, s₂, s₃, rfl, -⟩, -⟩ :=
    fat16Resolve_sample (by decide) ⟨kheapInit_unused, rfl⟩
  have hheader : (sampleDisk none).image.header = ⟨1, 1, 1, 16, 1, 0x29⟩ := by decide +kernel
  refine ⟨_, k, hresolve, ?_⟩
  intro c hc s
  rw [fat16GetFatEntry_reads_iff hresolve (by rw [hheader]; exact hc), hheader]
  simp only [one_pow]
  omega

/-- The entry of cluster 2 is 4, but the first word of the data of cluster 3 is returned. -/
theorem sample_entry_two_misread : ∃ fatPrivate k,
    fat16Resolve (sampleDisk none) kheapInit = .ok ((0, some fatPrivate), k) ∧
      2 < 256 * sampleImage.header.sectorsPerFat ∧ sampleImage.fatEntry 2 = 4 ∧
      ∀ s, (fat16GetFatEntry (sampleDisk none) fatPrivate (2 : ℕ) s).map Prod.fst = .ok 771 ∧
        ¬ReadsEntry (sampleDisk none) fatPrivate 2 s := by
  obtain ⟨r, k, hresolve, ⟨dir, s₁, s₂, s₃, rfl, hs₂⟩, -⟩ :=
    fat16Resolve_sample (by decide) ⟨kheapInit_unused, rfl⟩
  have hentry : sampleImage.fatEntry 2 = 4 := by decide +kernel
  refine ⟨_, k, hresolve, by decide +kernel, hentry, ?_⟩
  intro s
  have hvalue : (fat16GetFatEntry (sampleDisk none) (samplePrivate dir s₁ s₂ s₃) (2 : ℕ) s).map
      Prod.fst = .ok 771 :=
    (fat16GetFatEntry_yields _ s).trans (congrArg Except.ok (fat16GetFatEntry_sample hs₂))
  refine ⟨hvalue, ?_⟩
  intro ⟨s', hrun, _⟩
  have himage : (sampleDisk none).image = sampleImage := rfl
  rw [hrun, himage, hentry] at hvalue
  have hfour : ((4 : ℕ) : ℤ) = 771 := Except.ok.inj hvalue
  exact absurd hfour (by decide)

end FatEntry

end Dexter.Streamed
