import Dexter.Fs.ChainWalk
import Dexter.Fs.DescriptorCalls
import Dexter.Fs.HeaderSafety

/-!
# Reads and the end of the file (`fs/fat16.c`, `fs/file.c`)

The size in the directory entry is not looked at by `fat16_read`: what ends a read early
is only a lookup of a cluster that fails. A read stores all its members, or it stores
what lies before the first piece whose cluster is not found.
-/

namespace Dexter
open Lib.Programs Lib.Pieces

def LookupFails (disk : Disk) (fatPrivate : FatPrivate) (cluster offset : ℤ) : Prop :=
  ∃ e < 0, fat16GetClusterForOffset disk fatPrivate cluster (i32 offset) = .ok e

/-- The number of bytes that are stored for a member of `size` bytes; it is read as an `int`. -/
def storedSize (size : ℕ) : ℕ := (i32 size).toNat

/-- A read of `nmemb` members, each in `pieces` pieces, stores `length` bytes for each of them; or
it ends at the first piece that fails, and stores what comes before it. -/
inductive ReadEnds (fails : ℕ → ℕ → Prop) (nmemb pieces length size : ℕ) (done : ℤ)
    (x : ℤ × List UInt8) : Prop
  | all (clear : ∀ i < nmemb, ∀ j < pieces, ¬fails i j) (result : x.1 = done)
      (stored : x.2.length = nmemb * length)
  | stops (i j : ℕ) (hi : i < nmemb) (hj : j < pieces) (failed : fails i j) (result : x.1 < 0)
      (stored : x.2.length = i * length + j * size)
      (first : ∀ i' < nmemb, ∀ j' < pieces, fails i' j' →
        i * length + j * size ≤ i' * length + j' * size)

section Loops
variable {disk : Disk} {fatPrivate : FatPrivate} {cluster : ℤ}

theorem lookup_cases (h : 0 < fat16SizeOfClusterBytes fatPrivate) (offset : ℤ) :
    (LookupFails disk fatPrivate cluster offset ∧ ∃ e < 0,
      fat16GetClusterForOffset disk fatPrivate cluster (i32 offset) = .ok e) ∨
    (¬LookupFails disk fatPrivate cluster offset ∧ ∃ c, ¬c < 0 ∧
      fat16GetClusterForOffset disk fatPrivate cluster (i32 offset) = .ok c) := by
  have hlookup : ∃ c, fat16GetClusterForOffset disk fatPrivate cluster (i32 offset) = .ok c := by
    unfold fat16GetClusterForOffset
    rw [if_neg h.ne']
    exact ⟨_, rfl⟩
  obtain ⟨c, hc⟩ := hlookup
  by_cases hneg : c < 0
  · exact Or.inl ⟨⟨c, hneg, hc⟩, c, hneg, hc⟩
  · refine Or.inr ⟨?_, c, hneg, hc⟩
    rintro ⟨e, he, hlookup⟩
    rw [hc] at hlookup
    exact hneg (Except.ok.inj hlookup ▸ he)

theorem readStream_fails {k : ℕ} {offset total e : ℤ} (he : e < 0)
    (hlookup : fat16GetClusterForOffset disk fatPrivate cluster offset = .ok e) :
    fat16ReadInternalFromStream disk fatPrivate k cluster offset total = .ok (e, []) := by
  rw [fat16ReadInternalFromStream, hlookup]
  simp only [bind, Except.bind, if_pos he]
  rfl

theorem readStream_last {offset total c : ℤ} (hc : ¬c < 0)
    (hlookup : fat16GetClusterForOffset disk fatPrivate cluster offset = .ok c)
    (hwhole : ¬total > fat16SizeOfClusterBytes fatPrivate) :
    ∃ out, fat16ReadInternalFromStream disk fatPrivate 0 cluster offset total = .ok (0, out) ∧
      out.length = total.toNat := by
  rw [fat16ReadInternalFromStream, hlookup]
  simp only [bind, Except.bind, if_neg hc, if_neg hwhole]
  exact ⟨_, rfl, diskstreamerRead_length ..⟩

theorem readStream_more {k : ℕ} {offset total c : ℤ} {x : ℤ × List UInt8} (hc : ¬c < 0)
    (hlookup : fat16GetClusterForOffset disk fatPrivate cluster offset = .ok c)
    (hlong : total > fat16SizeOfClusterBytes fatPrivate)
    (hrest : fat16ReadInternalFromStream disk fatPrivate k cluster
      (i32 (offset + fat16SizeOfClusterBytes fatPrivate))
      (total - fat16SizeOfClusterBytes fatPrivate) = .ok x) :
    ∃ out, fat16ReadInternalFromStream disk fatPrivate (k + 1) cluster offset total = .ok (x.1, out) ∧
      out.length = fat16SizeOfClusterBytes fatPrivate + x.2.length := by
  rw [fat16ReadInternalFromStream, hlookup]
  simp only [bind, Except.bind, if_neg hc, if_pos hlong, hrest]
  refine ⟨_, rfl, ?_⟩
  rw [List.length_append, diskstreamerRead_length, Int.toNat_natCast]

theorem ReadEnds.at_once {fails : ℕ → ℕ → Prop} {pieces length size : ℕ} {done e : ℤ} (he : e < 0)
    (h : fails 0 0) : ReadEnds fails 1 (pieces + 1) length size done (e, []) := by
  refine .stops 0 0 Nat.one_pos (Nat.succ_pos _) h he ?_ fun _ _ _ _ _ => ?_
  · rw [Nat.zero_mul, Nat.zero_mul]
    rfl
  · rw [Nat.zero_mul, Nat.zero_mul]
    exact Nat.zero_le _

theorem ReadEnds.piece {fails : ℕ → ℕ → Prop} {pieces length size : ℕ} {done : ℤ}
    {x : ℤ × List UInt8} {out : List UInt8} (hclear : ¬fails 0 0)
    (h : ReadEnds (fun i j => fails i (j + 1)) 1 pieces length size done x)
    (hlength : out.length = size + x.2.length) :
    ReadEnds fails 1 (pieces + 1) (size + length) size done (x.1, out) := by
  cases h with
  | all clear result stored =>
    refine .all ?_ result ?_
    · intro i hi j hj
      obtain rfl : i = 0 := by omega
      cases j with
      | zero => exact hclear
      | succ j => exact clear 0 hi j (by omega)
    · dsimp only
      rw [hlength, stored, Nat.one_mul, Nat.one_mul]
  | stops i j hi hj failed result stored first =>
    obtain rfl : i = 0 := by omega
    refine .stops 0 (j + 1) hi (by omega) failed result ?_ ?_
    · dsimp only
      rw [hlength, stored]
      ring
    · intro i' hi' j' hj' hfails
      obtain rfl : i' = 0 := by omega
      cases j' with
      | zero => exact absurd hfails hclear
      | succ j' =>
        have hle := first 0 hi' j' (by omega) hfails
        rw [Nat.succ_mul, Nat.succ_mul]
        omega

theorem ReadEnds.fails_first {fails : ℕ → ℕ → Prop} {k pieces length size : ℕ} {done : ℤ}
    {x : ℤ × List UInt8} (hpieces : ∀ j < pieces, j * size ≤ length)
    (h : ReadEnds (fun _ j => fails 0 j) 1 pieces length size 0 x) (hneg : x.1 < 0) :
    ReadEnds fails (k + 1) pieces length size done x := by
  cases h with
  | all clear result stored => exact absurd result hneg.ne
  | stops i j hi hj failed result stored first =>
    obtain rfl : i = 0 := by omega
    refine .stops 0 j (Nat.succ_pos k) hj failed result stored ?_
    intro i' hi' j' hj' hfails
    cases i' with
    | zero => exact first 0 hi j' hj' hfails
    | succ i' =>
      -- a member that is not the first starts behind all pieces of the first
      have hle := hpieces j hj
      rw [Nat.succ_mul]
      omega

theorem ReadEnds.member {fails : ℕ → ℕ → Prop} {k pieces length size : ℕ} {done : ℤ}
    {x y : ℤ × List UInt8} (h : ReadEnds (fun _ j => fails 0 j) 1 pieces length size 0 x)
    (hdone : ¬x.1 < 0) (hrest : ReadEnds (fun i j => fails (i + 1) j) k pieces length size done y) :
    ReadEnds fails (k + 1) pieces length size done (y.1, x.2 ++ y.2) := by
  cases h with
  | stops i j hi hj failed result stored first => exact absurd result hdone
  | all clear result stored =>
    have hlength : (x.2 ++ y.2).length = length + y.2.length := by
      rw [List.length_append, stored, Nat.one_mul]
    cases hrest with
    | all clear' result' stored' =>
      refine .all ?_ result' ?_
      · intro i hi j hj
        cases i with
        | zero => exact clear 0 Nat.one_pos j hj
        | succ i => exact clear' i (by omega) j hj
      · dsimp only
        rw [hlength, stored', Nat.succ_mul]
        omega
    | stops i j hi hj failed result' stored' first =>
      refine .stops (i + 1) j (by omega) hj failed result' ?_ ?_
      · dsimp only
        rw [hlength, stored', Nat.succ_mul]
        omega
      · intro i' hi' j' hj' hfails
        cases i' with
        | zero => exact absurd hfails (clear 0 Nat.one_pos j' hj')
        | succ i' =>
          have hle := first i' (by omega) j' hj' hfails
          rw [Nat.succ_mul, Nat.succ_mul]
          omega

theorem fat16ReadInternalFromStream_ends (h : 0 < fat16SizeOfClusterBytes fatPrivate) {k : ℕ}
    (offset total : ℤ) (hlower : fat16SizeOfClusterBytes fatPrivate * k < total ∨ k = 0)
    (hupper : total ≤ fat16SizeOfClusterBytes fatPrivate * (k + 1)) :
    ∃ x, fat16ReadInternalFromStream disk fatPrivate k cluster (i32 offset) total = .ok x ∧
      ReadEnds (fun _ j => LookupFails disk fatPrivate cluster
          (offset + j * fat16SizeOfClusterBytes fatPrivate)) 1 (k + 1) total.toNat
        (fat16SizeOfClusterBytes fatPrivate) 0 x := by
  induction k generalizing offset total with
  | zero =>
    have hwhole : ¬total > fat16SizeOfClusterBytes fatPrivate := by simpa using hupper
    rcases @lookup_cases disk fatPrivate cluster h offset with
      ⟨hfails, e, he, hlookup⟩ | ⟨hfound, c, hc, hlookup⟩
    · exact ⟨_, readStream_fails he hlookup, .at_once he (by simpa using hfails)⟩
    · obtain ⟨out, hrun, hlength⟩ := readStream_last hc hlookup hwhole
      refine ⟨_, hrun, .all ?_ rfl (by rw [Nat.one_mul]; exact hlength)⟩
      intro i _ j hj
      obtain rfl : j = 0 := by omega
      simpa using hfound
  | succ k ih =>
    have hmore : (fat16SizeOfClusterBytes fatPrivate : ℤ) * (k + 1) < total := by
      rcases hlower with hlt | h0
      · exact_mod_cast hlt
      · cases h0
    have hk : (0 : ℤ) ≤ fat16SizeOfClusterBytes fatPrivate * k := by positivity
    rw [mul_add, mul_one] at hmore
    push_cast at hupper
    have hlong : total > fat16SizeOfClusterBytes fatPrivate := by linarith
    rcases @lookup_cases disk fatPrivate cluster h offset with
      ⟨hfails, e, he, hlookup⟩ | ⟨hfound, c, hc, hlookup⟩
    · exact ⟨_, readStream_fails he hlookup, .at_once he (by simpa using hfails)⟩
    · obtain ⟨x, hrun, hends⟩ := ih (offset + fat16SizeOfClusterBytes fatPrivate)
        (total - fat16SizeOfClusterBytes fatPrivate) (Or.inl (by linarith)) (by linarith)
      rw [← i32_i32_add] at hrun
      obtain ⟨out, hout, hlength⟩ := readStream_more hc hlookup hlong hrun
      have hshift : ∀ j : ℕ, offset + fat16SizeOfClusterBytes fatPrivate +
          j * fat16SizeOfClusterBytes fatPrivate =
          offset + (j + 1 : ℕ) * fat16SizeOfClusterBytes fatPrivate := by
        intro j
        push_cast
        ring
      simp only [hshift] at hends
      have hmember : total.toNat = fat16SizeOfClusterBytes fatPrivate +
          (total - fat16SizeOfClusterBytes fatPrivate).toNat := by omega
      rw [hmember]
      exact ⟨_, hout, .piece (by simpa using hfound) hends hlength⟩

theorem fat16ReadInternal_ends (hp : disk.fsPrivate = some fatPrivate)
    (h : 0 < fat16SizeOfClusterBytes fatPrivate) (offset total : ℤ) :
    ∃ x, fat16ReadInternal disk cluster (i32 offset) total = .ok x ∧
      ReadEnds (fun _ j => LookupFails disk fatPrivate cluster
          (offset + j * fat16SizeOfClusterBytes fatPrivate)) 1
        (cuts (fat16SizeOfClusterBytes fatPrivate) total.toNat + 1) total.toNat
        (fat16SizeOfClusterBytes fatPrivate) 0 x := by
  have hcuts : ((total - 1) / (fat16SizeOfClusterBytes fatPrivate : ℤ)).toNat =
      cuts (fat16SizeOfClusterBytes fatPrivate) total.toNat := by
    rcases le_or_gt 0 total with h0 | hneg
    · rw [← cuts_eq_toNat h, Int.toNat_of_nonneg h0]
    · have hdiv : (total - 1) / (fat16SizeOfClusterBytes fatPrivate : ℤ) < 0 :=
        Int.ediv_neg_of_neg_of_pos (by omega) (by exact_mod_cast h)
      rw [Int.toNat_of_nonpos hdiv.le, Int.toNat_of_nonpos hneg.le]
      simp [cuts]
  rw [fat16ReadInternal, privateData_of_some hp]
  simp only [bind, Except.bind, hcuts]
  apply fat16ReadInternalFromStream_ends h
  · rcases cuts_lower (fat16SizeOfClusterBytes fatPrivate) total.toNat with hlt | h0
    · have hlt' : (fat16SizeOfClusterBytes fatPrivate : ℤ) *
          cuts (fat16SizeOfClusterBytes fatPrivate) total.toNat < total.toNat := by
        exact_mod_cast hlt
      exact Or.inl (by omega)
    · exact Or.inr h0
  · have hle := cuts_upper h total.toNat
    have hle' : (total.toNat : ℤ) ≤ (fat16SizeOfClusterBytes fatPrivate : ℤ) *
        (cuts (fat16SizeOfClusterBytes fatPrivate) total.toNat + 1) := by
      exact_mod_cast hle
    exact (Int.self_le_toNat total).trans hle'

theorem fat16ReadLoop_ends (hp : disk.fsPrivate = some fatPrivate)
    (h : 0 < fat16SizeOfClusterBytes fatPrivate) (item : FatDirectoryItem) (size nmemb k : ℕ)
    (offset : ℤ) :
    ∃ x, fat16ReadLoop disk item size nmemb k (i32 offset) = .ok x ∧
      ReadEnds (fun i j => LookupFails disk fatPrivate (fat16GetFirstCluster item)
          (offset + i * size + j * fat16SizeOfClusterBytes fatPrivate)) k
        (cuts (fat16SizeOfClusterBytes fatPrivate) (storedSize size) + 1) (storedSize size)
        (fat16SizeOfClusterBytes fatPrivate) (i32 nmemb) x := by
  induction k generalizing offset with
  | zero =>
    refine ⟨(i32 nmemb, []), rfl, .all (fun i hi => absurd hi (Nat.not_lt_zero i)) rfl ?_⟩
    rw [Nat.zero_mul]
    rfl
  | succ k ih =>
    obtain ⟨x, hhead, hends⟩ := @fat16ReadInternal_ends disk fatPrivate (fat16GetFirstCluster item)
      hp h offset (i32 size)
    rw [← storedSize] at hends
    have hfirst : ∀ j : ℕ, offset + j * fat16SizeOfClusterBytes fatPrivate =
        offset + (0 : ℕ) * size + j * fat16SizeOfClusterBytes fatPrivate := by
      intro j
      push_cast
      ring
    simp only [hfirst] at hends
    by_cases hneg : x.1 < 0
    · refine ⟨x, ?_, .fails_first ?_ hends hneg⟩
      · rw [fat16ReadLoop, hhead]
        simp only [bind, Except.bind, if_pos hneg]
        rfl
      · intro j hj
        have hpieces := Nat.mul_le_mul_right (fat16SizeOfClusterBytes fatPrivate)
          (Nat.le_of_lt_succ hj)
        rw [Nat.mul_comm (cuts _ _)] at hpieces
        exact hpieces.trans (cuts_mul_le _ _)
    · obtain ⟨y, hrest, hrestEnds⟩ := ih (offset + size)
      have hshift : ∀ i j : ℕ, offset + size + i * size + j * fat16SizeOfClusterBytes fatPrivate =
          offset + (i + 1 : ℕ) * size + j * fat16SizeOfClusterBytes fatPrivate := by
        intro i j
        push_cast
        ring
      simp only [hshift] at hrestEnds
      refine ⟨(y.1, x.2 ++ y.2), ?_, .member hends hneg hrestEnds⟩
      rw [fat16ReadLoop, hhead]
      simp only [bind, Except.bind, if_neg hneg, i32_i32_add, hrest]
      rfl

end Loops

/-- The read comes back, stores no byte from the end of the file on, and reports no more members
than the file still has, or an error. -/
def StopsAtEnd (disk : Disk) (fd : ℤ) (item : FatDirectoryItem) (s : FileState) (size nmemb : ℕ) :
    Prop :=
  ∃ r bytes, fread disk size nmemb fd s = .ok ((r, bytes), s) ∧
    (∀ k < bytes.length, position s fd + k < item.filesize) ∧
    (r < 0 ∨ r ≤ ((item.filesize - position s fd) / size : ℕ))

/-- Clusters have sectors, and the members lie inside the file, or neither the size nor the number
of them is an `int`, or the lookup fails for a piece that starts inside the file. -/
def EndsInside (disk : Disk) (fatPrivate : FatPrivate) (item : FatDirectoryItem)
    (pos size nmemb : ℕ) : Prop :=
  fat16SizeOfClusterBytes fatPrivate ≠ 0 ∧
    (size * nmemb ≤ item.filesize - pos ∨ (2147483648 ≤ size ∧ 2147483648 ≤ nmemb) ∨
      ∃ i < nmemb, ∃ j ≤ cuts (fat16SizeOfClusterBytes fatPrivate) (storedSize size),
        LookupFails disk fatPrivate (fat16GetFirstCluster item)
          (pos + i * size + j * fat16SizeOfClusterBytes fatPrivate) ∧
        i * storedSize size + j * fat16SizeOfClusterBytes fatPrivate ≤ item.filesize - pos)

section EndOfFile
variable {disk : Disk} {fatPrivate : FatPrivate} {fd : ℤ} {item : FatDirectoryItem} {s : FileState}
  {size nmemb : ℕ}

theorem storedSize_cases (h : size < 4294967296) :
    (size < 2147483648 ∧ storedSize size = size) ∨
      (2147483648 ≤ size ∧ storedSize size = 0) := by
  unfold storedSize i32
  omega

theorem whole_inside_iff {room : ℕ} (hsize : 1 ≤ size ∧ size < 4294967296)
    (hnmemb : 1 ≤ nmemb ∧ nmemb < 4294967296) :
    (nmemb * storedSize size ≤ room ∧ (i32 nmemb < 0 ∨ i32 nmemb ≤ (room / size : ℕ))) ↔
      size * nmemb ≤ room ∨ (2147483648 ≤ size ∧ 2147483648 ≤ nmemb) := by
  have hroom : nmemb ≤ room / size ↔ size * nmemb ≤ room := by
    rw [Nat.le_div_iff_mul_le hsize.1, Nat.mul_comm]
  rcases storedSize_cases hsize.2 with ⟨hlt, hfull⟩ | ⟨hbig, hzero⟩
  · rw [hfull, Nat.mul_comm nmemb]
    have hint : (size * nmemb ≤ room) → i32 nmemb ≤ (room / size : ℕ) := by
      intro hle
      have hmembers := hroom.mpr hle
      unfold i32
      omega
    constructor
    · rintro ⟨hle, -⟩
      exact Or.inl hle
    · rintro (hle | ⟨hbig, -⟩)
      · exact ⟨hle, Or.inr (hint hle)⟩
      · omega
  · rw [hzero, Nat.mul_zero, ← hroom]
    constructor
    · rintro ⟨-, hneg | hle⟩
      · unfold i32 at hneg
        omega
      · unfold i32 at hle
        omega
    · rintro (hle | ⟨-, hmany⟩)
      · refine ⟨Nat.zero_le _, ?_⟩
        unfold i32
        omega
      · refine ⟨Nat.zero_le _, Or.inl ?_⟩
        unfold i32
        omega

/-- What a read that ended in this way has stored and reports, against `room` bytes that the file
still has. -/
theorem ReadEnds.inside_iff {fails : ℕ → ℕ → Prop} {cluster room : ℕ} {x : ℤ × List UInt8}
    (hsize : 1 ≤ size ∧ size < 4294967296) (hnmemb : 1 ≤ nmemb ∧ nmemb < 4294967296)
    (h : ReadEnds fails nmemb (cuts cluster (storedSize size) + 1) (storedSize size) cluster
      (i32 nmemb) x) :
    (x.2.length ≤ room ∧ (x.1 < 0 ∨ x.1 ≤ (room / size : ℕ))) ↔
      size * nmemb ≤ room ∨ (2147483648 ≤ size ∧ 2147483648 ≤ nmemb) ∨
        ∃ i < nmemb, ∃ j ≤ cuts cluster (storedSize size), fails i j ∧
          i * storedSize size + j * cluster ≤ room := by
  cases h with
  | all clear result stored =>
    have hnone : ¬∃ i < nmemb, ∃ j ≤ cuts cluster (storedSize size), fails i j ∧
        i * storedSize size + j * cluster ≤ room := by
      rintro ⟨i, hi, j, hj, hfails, -⟩
      exact clear i hi j (Nat.lt_succ_of_le hj) hfails
    rw [result, stored, or_iff_left hnone]
    exact whole_inside_iff hsize hnmemb
  | stops i j hi hj failed result stored first =>
    rw [stored]
    constructor
    · rintro ⟨hle, -⟩
      exact Or.inr (Or.inr ⟨i, hi, j, Nat.le_of_lt_succ hj, failed, hle⟩)
    · intro h
      refine ⟨?_, Or.inl result⟩
      have hcuts := cuts_mul_le cluster (storedSize size)
      have hpieces := Nat.mul_le_mul_right cluster (Nat.le_of_lt_succ hj)
      rw [Nat.mul_comm] at hcuts
      rcases h with hle | ⟨hbig, -⟩ | ⟨i', hi', j', hj', hfails, hle⟩
      · -- the piece starts inside the members
        have hmembers := Nat.mul_le_mul_right (storedSize size) hi
        rw [Nat.succ_mul] at hmembers
        rcases storedSize_cases hsize.2 with ⟨-, hfull⟩ | ⟨-, hzero⟩
        · rw [hfull, Nat.mul_comm nmemb] at hmembers
          rw [hfull] at hcuts hpieces ⊢
          omega
        · rw [hzero] at hcuts hpieces ⊢
          omega
      · rcases storedSize_cases hsize.2 with ⟨hlt, -⟩ | ⟨-, hzero⟩
        · omega
        · rw [hzero] at hcuts hpieces ⊢
          omega
      · exact (first i' hi' j' (Nat.lt_succ_of_le hj') hfails).trans hle

theorem fread_loop (hopen : OpenFile s fd item) (hfd : fd < dexterMaxFileDescriptors)
    (hsize : 1 ≤ size) (hnmemb : 1 ≤ nmemb) :
    fread disk size nmemb fd s =
      (ofExcept (fat16ReadLoop disk item size nmemb nmemb (i32 (position s fd))) :
        Prog Crash FileState _) s := by
  obtain ⟨desc, addr, hget, -, hpos, hbody, haddr⟩ := hopen.found
  have h1 := hopen.1
  have hargs : ¬(size = 0 ∨ nmemb = 0 ∨ fd < 1) := by omega
  rw [if_pos hfd] at hget
  rw [fread, bind_of_ok (get_apply _), if_neg hargs, hget]
  dsimp only
  rw [fat16Read, hbody]
  dsimp only
  rw [if_neg haddr, hpos]

/-- A read stops at the end of the file exactly if its members lie inside it, or the read fails for
another reason before it gets there. -/
theorem fread_stopsAtEnd_iff (hp : disk.fsPrivate = some fatPrivate) (hopen : OpenFile s fd item)
    (hsize : 1 ≤ size ∧ size < 4294967296) (hnmemb : 1 ≤ nmemb ∧ nmemb < 4294967296) :
    StopsAtEnd disk fd item s size nmemb ↔
      fd = dexterMaxFileDescriptors ∨
        EndsInside disk fatPrivate item (position s fd) size nmemb := by
  by_cases hfd : fd < dexterMaxFileDescriptors
  · have hread := @fread_loop disk fd item s size nmemb hopen hfd hsize.1 hnmemb.1
    rw [or_iff_right hfd.ne]
    by_cases hcluster : fat16SizeOfClusterBytes fatPrivate = 0
    · refine iff_of_false ?_ fun h => h.1 hcluster
      rintro ⟨r, bytes, hrun, -⟩
      obtain ⟨n, rfl⟩ := Nat.exists_eq_add_of_le' hnmemb.1
      rw [hread, (fat16ReadLoop_divides hp item size (n + 1) (n + 1) _).mpr
        ⟨hcluster, Nat.succ_ne_zero n⟩] at hrun
      cases hrun
    · obtain ⟨x, hloop, hends⟩ := fat16ReadLoop_ends hp (Nat.pos_of_ne_zero hcluster) item size
        nmemb nmemb (position s fd)
      rw [hloop] at hread
      have hinside := @ReadEnds.inside_iff size nmemb _ _ (item.filesize - position s fd) x hsize hnmemb hends
      rw [EndsInside, and_iff_right hcluster, ← hinside]
      have hbytes : x.2.length ≤ item.filesize - position s fd ↔
          ∀ k < x.2.length, position s fd + k < item.filesize := by
        constructor
        · intro hlength k hk
          omega
        · intro hall
          by_contra hlong
          have hlast := hall (x.2.length - 1) (by omega)
          omega
      rw [hbytes]
      constructor
      · rintro ⟨r, bytes, hrun, hstored, hresult⟩
        rw [hread] at hrun
        obtain rfl : x = (r, bytes) := Except.ok.inj (ofExcept_ok.mp hrun).1
        exact ⟨hstored, hresult⟩
      · rintro ⟨hstored, hresult⟩
        exact ⟨x.1, x.2, hread.trans rfl, hstored, hresult⟩
  · have hlast : fd = dexterMaxFileDescriptors := le_antisymm hopen.2.1 (not_lt.mp hfd)
    have hargs : ¬(size = 0 ∨ nmemb = 0 ∨ fd < 1) := by
      have h1 := hopen.1
      omega
    obtain ⟨desc, addr, hget, -⟩ := hopen.found
    rw [if_neg hfd] at hget
    refine iff_of_true ⟨-eInvArg, [], ?_, fun k hk => absurd hk (Nat.not_lt_zero k),
      Or.inl (by decide)⟩ (Or.inl hlast)
    rw [fread, bind_of_ok (get_apply _), if_neg hargs, hget]
    rfl

theorem fread_stopsAtEnd_sample : ∃ fatPrivate k s,
    fopen (sampleDisk (some fatPrivate)) samplePath [0x72] ⟨k, fun _ => none⟩ = .ok (1, s) ∧
    StopsAtEnd (sampleDisk (some fatPrivate)) 1 sampleItem s 1 1 := by
  obtain ⟨dir, s₁, s₂, s₃, k, s, desc, h⟩ := sampleOpened_exists
  obtain ⟨hopen, hpos⟩ := Seeks.sample_openFile h
  have hsize : sampleItem.filesize = 600 := by decide +kernel
  refine ⟨_, k, s, h.opened, (@fread_stopsAtEnd_iff _ (samplePrivate dir s₁ s₂ s₃) 1 sampleItem s
    1 1 rfl hopen (by decide) (by decide)).mpr (Or.inr ⟨?_, Or.inl ?_⟩)⟩
  · have hsectors : (samplePrivate dir s₁ s₂ s₃).header.sectorsPerCluster = 1 := rfl
    rw [fat16SizeOfClusterBytes, hsectors]
    decide
  · omega

/-- At the last byte of the small volume's file a member of two bytes is read and reported. -/
theorem fread_passes_end : ∃ fatPrivate k s s',
    fat16Resolve (sampleDisk none) kheapInit = .ok ((0, some fatPrivate), k) ∧
    fopen (sampleDisk (some fatPrivate)) samplePath [0x72] ⟨k, fun _ => none⟩ = .ok (1, s) ∧
    fseek 1 599 .set s = .ok (0, s') ∧
    OpenFile s' 1 sampleItem ∧ sampleItem.filesize = 600 ∧ position s' 1 = 599 ∧
    ¬StopsAtEnd (sampleDisk (some fatPrivate)) 1 sampleItem s' 2 1 := by
  obtain ⟨dir, s₁, s₂, s₃, k, s, desc, h⟩ := sampleOpened_exists
  obtain ⟨hopen, hpos⟩ := Seeks.sample_openFile h
  have hsize : sampleItem.filesize = 600 := by decide +kernel
  obtain ⟨s', hseek, hopen', hpos'⟩ := fseek_open hopen (by decide) ⟨599, .set, by decide⟩
  have hresult : (⟨599, .set, by decide⟩ : Seek).result sampleItem.filesize (position s 1) =
      (0, 599) := by
    rw [hsize]
    rfl
  rw [hresult] at hseek hpos'
  refine ⟨_, k, s, s', h.resolved, h.opened, hseek, hopen', hsize, hpos', ?_⟩
  have hbytes : fat16SizeOfClusterBytes (samplePrivate dir s₁ s₂ s₃) = 512 := by
    have hsectors : (samplePrivate dir s₁ s₂ s₃).header.sectorsPerCluster = 1 := rfl
    rw [fat16SizeOfClusterBytes, hsectors, Nat.one_mul]
  have hfirst : (fat16GetFirstCluster sampleItem : ℤ) = 2 := by decide +kernel
  have hlookup : ¬LookupFails (sampleDisk (some (samplePrivate dir s₁ s₂ s₃)))
      (samplePrivate dir s₁ s₂ s₃) 2 599 := by
    have hoffset : i32 599 = 599 := by decide
    have hahead : ((599 : ℤ).tdiv (512 : ℕ)).toNat = 1 := by decide
    rintro ⟨e, he, hrun⟩
    unfold fat16GetClusterForOffset at hrun
    rw [hbytes, hoffset] at hrun
    dsimp only at hrun
    rw [if_neg (by decide), hahead, fat16ClusterAhead, fat16GetFatEntry_sample h.stream,
      fat16ClusterAhead] at hrun
    rw [← Except.ok.inj hrun] at he
    exact absurd he (by decide)
  obtain ⟨x, hloop, hends⟩ := @fat16ReadLoop_ends (sampleDisk (some (samplePrivate dir s₁ s₂ s₃)))
    (samplePrivate dir s₁ s₂ s₃) rfl (by rw [hbytes]; decide) sampleItem 2 1 1 599
  have hlength : x.2.length = 2 := by
    cases hends with
    | all clear result stored => exact stored
    | stops i j hi hj failed result stored first =>
      have hone : cuts 512 (storedSize 2) = 0 := by decide
      rw [hbytes, hone] at hj
      obtain rfl : i = 0 := by omega
      obtain rfl : j = 0 := by omega
      rw [hfirst] at failed
      exact absurd (by simpa using failed) hlookup
  rintro ⟨r, bytes, hrun, hstored, -⟩
  have hposition : ((position s' 1 : ℕ) : ℤ) = 599 := by
    rw [hpos']
    rfl
  rw [fread_loop hopen' (by decide) (by decide) (by decide), hposition, hloop] at hrun
  obtain rfl : x = (r, bytes) := Except.ok.inj (ofExcept_ok.mp hrun).1
  have htwo : bytes.length = 2 := hlength
  have hlast := hstored 1 (by omega)
  omega

end EndOfFile

end Dexter
