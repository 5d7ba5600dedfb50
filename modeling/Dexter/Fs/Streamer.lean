import Dexter.Machine

/-!
# The disk and its streams (`fs/disk.c`, `fs/streamer.c`)

`sector lba i` is byte `i` of the sector the controller delivers for `lba`, and
`stack i` the byte that lies at `buf + i` outside the sector buffer of
`diskstreamer_read`. Every stream is sought right before it is read, so its
position is handed from the seek to the reads behind it.
-/

namespace Dexter

structure DiskImage where
  sector : ℤ → ℕ → UInt8
  stack : ℤ → UInt8

namespace DiskImage

def buf (d : DiskImage) (lba i : ℤ) : UInt8 :=
  if 0 ≤ i ∧ i < dexterSectorSize then d.sector lba i.toNat else d.stack i

def byteAt (d : DiskImage) (a : ℕ) : UInt8 :=
  d.sector (a / dexterSectorSize : ℕ) (a % dexterSectorSize)

end DiskImage

def diskstreamerReadSector (d : DiskImage) (pos : ℤ) (totalToRead : ℤ) : List UInt8 × ℤ :=
  let sector := pos.tdiv dexterSectorSize
  let offset := pos.tmod dexterSectorSize
  ((List.range totalToRead.toNat).map fun i : ℕ => d.buf sector (offset + i), i32 (pos + totalToRead))

/-- `diskstreamer_read` with `k` calls of itself still to come. -/
def diskstreamerReadLoop (d : DiskImage) : ℕ → ℤ → ℤ → List UInt8 × ℤ
  | 0, pos, total => diskstreamerReadSector d pos (min total dexterSectorSize)
  | k + 1, pos, total =>
    let r := diskstreamerReadSector d pos dexterSectorSize
    let rest := diskstreamerReadLoop d k r.2 (total - dexterSectorSize)
    (r.1 ++ rest.1, rest.2)

def diskstreamerRead (d : DiskImage) (pos total : ℤ) : List UInt8 × ℤ :=
  diskstreamerReadLoop d ((total - 1) / dexterSectorSize).toNat pos total

theorem diskstreamerReadSector_length (d : DiskImage) (pos n : ℤ) :
    (diskstreamerReadSector d pos n).1.length = n.toNat := by
  simp [diskstreamerReadSector]

theorem diskstreamerReadSector_pos (d : DiskImage) (pos n : ℤ) :
    (diskstreamerReadSector d pos n).2 = i32 (pos + n) := rfl

theorem diskstreamerReadSector_getElem (d : DiskImage) {pos n i : ℕ}
    (hin : pos % 512 + n ≤ 512) (hi : i < n) :
    (diskstreamerReadSector d pos n).1[i]? = some (d.byteAt (pos + i)) := by
  have hsec : (pos : ℤ).tdiv ((512 : ℕ) : ℤ) = (pos / 512 : ℕ) := by
    rw [← Int.ofNat_tdiv]
  have hoff : (pos : ℤ).tmod ((512 : ℕ) : ℤ) = (pos % 512 : ℕ) := by
    rw [← Int.ofNat_tmod]
  have hrange : (List.range n)[i]? = some i := List.getElem?_range hi
  have hbuf : d.buf (pos / 512 : ℕ) ((pos % 512 : ℕ) + (i : ℤ)) = d.byteAt (pos + i) := by
    have hdiv : (pos + i) / 512 = pos / 512 := by omega
    have hmod : (pos + i) % 512 = pos % 512 + i := by omega
    have hnat : ((pos % 512 : ℕ) + (i : ℤ)).toNat = pos % 512 + i := by omega
    rw [DiskImage.buf, if_pos (by simp only [dexterSectorSize]; omega), DiskImage.byteAt,
      dexterSectorSize, hdiv, hmod, hnat]
  simp only [diskstreamerReadSector, List.getElem?_map, Int.toNat_natCast, hrange,
    Option.map_some, dexterSectorSize, hsec, hoff, hbuf]

theorem diskstreamerReadLoop_length (d : DiskImage) {k : ℕ} {pos total : ℤ}
    (hk : 512 * k < total ∨ k = 0) (hle : total ≤ 512 * (k + 1)) :
    (diskstreamerReadLoop d k pos total).1.length = total.toNat := by
  induction k generalizing pos total with
  | zero =>
    rw [diskstreamerReadLoop, diskstreamerReadSector_length, dexterSectorSize]
    omega
  | succ k ih =>
    have hrest : (diskstreamerReadLoop d k (diskstreamerReadSector d pos dexterSectorSize).2
        (total - dexterSectorSize)).1.length = (total - dexterSectorSize).toNat := by
      apply ih
      · simp only [dexterSectorSize]
        omega
      · simp only [dexterSectorSize]
        omega
    simp only [diskstreamerReadLoop, List.length_append, hrest, diskstreamerReadSector_length,
      dexterSectorSize]
    omega

theorem diskstreamerRead_length (d : DiskImage) (pos total : ℤ) :
    (diskstreamerRead d pos total).1.length = total.toNat := by
  apply diskstreamerReadLoop_length <;> simp only [dexterSectorSize] <;> omega

theorem diskstreamerReadLoop_getElem (d : DiskImage) {k pos total i : ℕ} (hal : pos % 512 = 0)
    (hk : 512 * k < total ∨ k = 0) (hle : total ≤ 512 * (k + 1))
    (hlt : pos + total ≤ 2147483648) (hi : i < total) :
    (diskstreamerReadLoop d k pos total).1[i]? = some (d.byteAt (pos + i)) := by
  induction k generalizing pos total i with
  | zero =>
    have hmin : min (total : ℤ) dexterSectorSize = (total : ℕ) := by
      simp only [dexterSectorSize]
      omega
    rw [diskstreamerReadLoop, hmin]
    exact diskstreamerReadSector_getElem d (by omega) hi
  | succ k ih =>
    have hpos : (diskstreamerReadSector d pos dexterSectorSize).2 = (pos + 512 : ℕ) := by
      rw [diskstreamerReadSector_pos, dexterSectorSize, i32_of_range (by omega) (by omega)]
      omega
    have htot : (total : ℤ) - dexterSectorSize = (total - 512 : ℕ) := by
      simp only [dexterSectorSize]
      omega
    have hlen : (diskstreamerReadSector d pos dexterSectorSize).1.length = 512 := by
      rw [diskstreamerReadSector_length]
      rfl
    simp only [diskstreamerReadLoop, hpos, htot]
    by_cases hin : i < 512
    · rw [List.getElem?_append_left (by omega)]
      exact diskstreamerReadSector_getElem d (n := 512) (by omega) hin
    · have hadd : pos + 512 + (i - 512) = pos + i := by omega
      have hrest := @ih (pos + 512) (total - 512) (i - 512) (by omega) (by omega) (by omega)
        (by omega) (by omega)
      rw [List.getElem?_append_right (by omega), hlen, hrest, hadd]

/-- A read delivers the bytes of the disk if it starts a sector or stays inside one. -/
theorem diskstreamerRead_eq (d : DiskImage) {pos total : ℕ}
    (hin : pos % 512 = 0 ∨ pos % 512 + total ≤ 512) (hlt : pos + total ≤ 2147483648) :
    (diskstreamerRead d pos total).1 = (List.range total).map fun i => d.byteAt (pos + i) := by
  apply List.ext_getElem?
  intro i
  by_cases hi : i < total
  · have hrhs : ((List.range total).map fun i => d.byteAt (pos + i))[i]? =
        some (d.byteAt (pos + i)) := by simp [hi]
    rw [hrhs]
    unfold diskstreamerRead
    generalize hk : (((total : ℤ) - 1) / dexterSectorSize).toNat = k
    have hk₁ : 512 * k < total ∨ k = 0 := by
      simp only [dexterSectorSize] at hk
      omega
    have hk₂ : total ≤ 512 * (k + 1) := by
      simp only [dexterSectorSize] at hk
      omega
    rcases hin with hal | hin
    · exact diskstreamerReadLoop_getElem d hal hk₁ hk₂ hlt hi
    · have hk0 : k = 0 := by omega
      have hmin : min (total : ℤ) dexterSectorSize = (total : ℕ) := by
        simp only [dexterSectorSize]
        omega
      rw [hk0, diskstreamerReadLoop, hmin]
      exact diskstreamerReadSector_getElem d hin hi
  · have hlen := diskstreamerRead_length d pos total
    rw [List.getElem?_eq_none (by omega), List.getElem?_eq_none (by simp; omega)]

end Dexter
