import Dexter.Fs.FileRead
import Dexter.Lib.Loops
import Dexter.Lib.Pieces

/-!
# Along the chain

`fat16_get_cluster_for_offset` and `fat16_read_internal_from_stream` over what they call:
the first over any file allocation table, the second over any lookup of a cluster and any
read from it. The first one knows the end of a chain, a bad and a reserved cluster by
markers of 12 bits. The second cuts a read after every cluster's length of the request and
not where a cluster ends.
-/

namespace Dexter
open Lib.Loops Lib.Pieces

def clusterAhead (entryOf : ℤ → ℤ) : ℕ → ℤ → ℤ
  | 0, clusterToUse => clusterToUse
  | clustersAhead + 1, clusterToUse =>
    let entry := entryOf clusterToUse
    if entry = 0xFF8 ∨ entry = 0xFFF then -eIo
    else if entry = 0xFF7 then -eIo
    else if entry = 0xFF0 ∨ entry = 0xFF6 then -eIo
    else if entry = 0x00 then -eIo
    else clusterAhead entryOf clustersAhead entry

def clusterForOffset (entryOf : ℤ → ℤ) (sizeOfClusterBytes : ℕ) (startingCluster offset : ℤ) :
    Except Crash ℤ :=
  if sizeOfClusterBytes = 0 then .error .divideByZero
  else
    let clustersAhead := offset.tdiv sizeOfClusterBytes
    .ok (clusterAhead entryOf clustersAhead.toNat startingCluster)

section Links
variable {disk : Disk} {fatPrivate : FatPrivate}

theorem fat16ClusterAhead_eq (n : ℕ) (c : ℤ) :
    fat16ClusterAhead disk fatPrivate n c = clusterAhead (fat16GetFatEntry disk fatPrivate) n c := by
  induction n generalizing c with
  | zero => rfl
  | succ n ih => simp only [fat16ClusterAhead, clusterAhead, ih]

theorem fat16GetClusterForOffset_eq (startingCluster offset : ℤ) :
    fat16GetClusterForOffset disk fatPrivate startingCluster offset =
      clusterForOffset (fat16GetFatEntry disk fatPrivate) (fat16SizeOfClusterBytes fatPrivate)
        startingCluster offset := by
  simp only [fat16GetClusterForOffset, clusterForOffset, fat16ClusterAhead_eq]

end Links

def IsData (entry : ℕ) : Prop := 0x0002 ≤ entry ∧ entry ≤ 0xFFEF

instance : DecidablePred IsData := fun _ => inferInstanceAs (Decidable (_ ∧ _))

def Rejected (entry : ℕ) : Prop :=
  entry = 0 ∨ entry = 0xFF0 ∨ entry = 0xFF6 ∨ entry = 0xFF7 ∨ entry = 0xFF8 ∨ entry = 0xFFF

instance : DecidablePred Rejected := fun _ => inferInstanceAs (Decidable (_ ∨ _))

def link (fat : ℕ → UInt16) (c : ℕ) : ℕ := (fat c).toNat

def entryIn (fat : ℕ → UInt16) (c : ℤ) : ℤ := link fat c.toNat

section Chains
variable {fat : ℕ → UInt16} {n size start offset : ℕ}

theorem clusterAhead_eq (n start : ℕ) : clusterAhead (entryIn fat) n start =
    match follow (link fat) Rejected n start with
    | some c => (c : ℤ)
    | none => -eIo := by
  induction n generalizing start with
  | zero => rfl
  | succ n ih =>
    have hentry : entryIn fat (start : ℤ) = link fat start := rfl
    rw [clusterAhead, follow, hentry]
    by_cases hrejected : Rejected (link fat start)
    · rw [if_pos hrejected]
      unfold Rejected at hrejected
      split_ifs <;> first | rfl | omega
    · rw [if_neg hrejected, ← ih]
      unfold Rejected at hrejected
      split_ifs <;> first | rfl | omega

theorem clusterForOffset_eq (hsize : 0 < size) (start offset : ℕ) :
    clusterForOffset (entryIn fat) size start offset =
      .ok (match follow (link fat) Rejected (offset / size) start with
        | some c => (c : ℤ)
        | none => -eIo) := by
  have hahead : (offset : ℤ).tdiv (size : ℕ) = (offset / size : ℕ) := by
    rw [← Int.ofNat_tdiv]
  rw [clusterForOffset, if_neg hsize.ne', hahead, ← clusterAhead_eq]
  rfl

/-- What a walk of `offset / size` links has to come to: the cluster there, or an error where the
chain is not so long. -/
def WalksRightly (fat : ℕ → UInt16) (size start offset : ℕ) : Prop :=
  match follow (link fat) (fun entry => ¬IsData entry) (offset / size) start with
  | some c => clusterForOffset (entryIn fat) size start offset = .ok (c : ℤ)
  | none => ∃ r < 0, clusterForOffset (entryIn fat) size start offset = .ok r

theorem walksRightly_iff_follow (hsize : 0 < size) : WalksRightly fat size start offset ↔
    follow (link fat) (fun entry => ¬IsData entry) (offset / size) start =
      follow (link fat) Rejected (offset / size) start := by
  rw [WalksRightly, clusterForOffset_eq hsize]
  generalize follow (link fat) Rejected (offset / size) start = code
  cases follow (link fat) (fun entry => ¬IsData entry) (offset / size) start with
  | none =>
    cases code with
    | none => simp
    | some c' => simp
  | some c =>
    cases code with
    | none =>
      simp only [reduceCtorEq, iff_false]
      intro h
      have hneg : -eIo = (c : ℤ) := Except.ok.inj h
      simp only [eIo] at hneg
      omega
    | some c' => simp [eq_comm]

/-- A walk is right if and only if it meets a data cluster that is none of the markers at every
link, or both something else than a data cluster and a marker. -/
theorem clusterForOffset_right_iff (fat : ℕ → UInt16) {size : ℕ} (hsize : 0 < size)
    (start offset : ℕ) : WalksRightly fat size start offset ↔
      (∀ i < offset / size, IsData ((link fat)^[i + 1] start) ∧
        ¬Rejected ((link fat)^[i + 1] start)) ∨
      (∃ i < offset / size, ¬IsData ((link fat)^[i + 1] start)) ∧
        ∃ i < offset / size, Rejected ((link fat)^[i + 1] start) := by
  rw [walksRightly_iff_follow hsize, follow_eq_iff,
    ← @not_clear _ (link fat) (fun entry => ¬IsData entry), ← not_clear]
  have hboth : (∀ i < offset / size, IsData ((link fat)^[i + 1] start) ∧
      ¬Rejected ((link fat)^[i + 1] start)) ↔
      Clear (link fat) (fun entry => ¬IsData entry) (offset / size) start ∧
        Clear (link fat) Rejected (offset / size) start := by
    simp only [Clear, not_not]
    exact ⟨fun h => ⟨fun i hi => (h i hi).1, fun i hi => (h i hi).2⟩,
      fun h i hi => ⟨h.1 i hi, h.2 i hi⟩⟩
  rw [hboth]
  exact iff_iff_and_or_not_and_not

theorem two_links_right : WalksRightly (fun c => UInt16.ofNat (c + 1)) 512 2 1024 :=
  (clusterForOffset_right_iff (fun c => UInt16.ofNat (c + 1)) (by decide : 0 < 512) 2 1024).mpr
    (Or.inl (by decide))

/-- The end of a chain is taken for a cluster, and the cluster `0xFF8` for the end of a chain. -/
theorem markers_not_recognised :
    clusterForOffset (entryIn fun _ => 0xFFFF) 512 2 512 = .ok 0xFFFF ∧
      ¬WalksRightly (fun _ => 0xFFFF) 512 2 512 ∧
    clusterForOffset (entryIn fun _ => 0xFF8) 512 2 512 = .ok (-eIo) ∧
      ¬WalksRightly (fun _ => 0xFF8) 512 2 512 := by
  have hpast : clusterForOffset (entryIn fun _ => 0xFFFF) 512 2 512 = .ok 0xFFFF := by decide
  have hshort : clusterForOffset (entryIn fun _ => 0xFF8) 512 2 512 = .ok (-eIo) := by decide
  refine ⟨hpast, ?_, hshort, ?_⟩
  · intro ⟨r, hneg, hr⟩
    have hend : (0xFFFF : ℤ) = r := Except.ok.inj (hpast.symm.trans hr)
    omega
  · intro h
    have hcluster : (-eIo : ℤ) = (0xFF8 : ℕ) := Except.ok.inj (hshort.symm.trans h)
    exact absurd hcluster (by decide)

end Chains

/-- What one call of `fat16_read_internal_from_stream` reads: `count` bytes from the place `start`
of a cluster, for the bytes of the file from `offset` on. -/
structure ReadStep where
  offset : ℤ
  cluster : ℤ
  start : ℤ
  count : ℤ
  deriving DecidableEq, Repr

def readFromStream {β : Type} (lookup : ℤ → Except Crash ℤ) (read : ReadStep → List β)
    (sizeOfClusterBytes : ℕ) : ℕ → ℤ → ℤ → Except Crash (ℤ × List β)
  | 0, _, _ => .error .hang
  | fuel + 1, offset, total => do
    let clusterToUse ← lookup offset
    if clusterToUse < 0 then pure (clusterToUse, [])
    else
      let totalToRead := if total > sizeOfClusterBytes then (sizeOfClusterBytes : ℤ) else total
      let out := read ⟨offset, clusterToUse, offset.tmod sizeOfClusterBytes, totalToRead⟩
      if total - totalToRead > 0 then do
        let rest ← readFromStream lookup read sizeOfClusterBytes fuel (i32 (offset + totalToRead))
          (total - totalToRead)
        pure (rest.1, out ++ rest.2)
      else pure (0, out)

def streamRead (disk : Disk) (fatPrivate : FatPrivate) (step : ReadStep) : List UInt8 :=
  (diskstreamerRead disk.image (i32 (i32 (fat16ClusterToSector fatPrivate step.cluster *
    dexterSectorSize) + step.start)) step.count).1

section Steps
variable {disk : Disk} {fatPrivate : FatPrivate} {lookup : ℤ → Except Crash ℤ} {size : ℕ}

theorem fat16ReadInternalFromStream_eq {k : ℕ} {cluster offset total : ℤ}
    (hlower : fat16SizeOfClusterBytes fatPrivate * k < total ∨ k = 0)
    (hupper : total ≤ fat16SizeOfClusterBytes fatPrivate * (k + 1)) :
    fat16ReadInternalFromStream disk fatPrivate k cluster offset total =
      readFromStream (fat16GetClusterForOffset disk fatPrivate cluster)
        (streamRead disk fatPrivate) (fat16SizeOfClusterBytes fatPrivate) (k + 1) offset total := by
  induction k generalizing offset total with
  | zero =>
    have hwhole : ¬total > fat16SizeOfClusterBytes fatPrivate := by simpa using hupper
    have hlast : ¬total - total > 0 := by simp
    rw [fat16ReadInternalFromStream, readFromStream]
    cases fat16GetClusterForOffset disk fatPrivate cluster offset with
    | error e => rfl
    | ok c => simp only [bind, Except.bind, if_neg hwhole, if_neg hlast, streamRead]
  | succ k ih =>
    have hmore : (fat16SizeOfClusterBytes fatPrivate : ℤ) * (k + 1) < total := by
      rcases hlower with hlt | h0
      · exact_mod_cast hlt
      · cases h0
    have hk : (0 : ℤ) ≤ fat16SizeOfClusterBytes fatPrivate * k := by positivity
    rw [mul_add, mul_one] at hmore
    push_cast at hupper
    have hlong : total > fat16SizeOfClusterBytes fatPrivate := by linarith
    have hrest : total - fat16SizeOfClusterBytes fatPrivate > 0 := by linarith
    rw [fat16ReadInternalFromStream, readFromStream]
    cases fat16GetClusterForOffset disk fatPrivate cluster offset with
    | error e => rfl
    | ok c =>
      simp only [bind, Except.bind, if_pos hlong, if_pos hrest, streamRead]
      rw [ih (Or.inl (by linarith)) (by linarith)]

theorem fat16ReadInternal_eq_readFromStream (hp : disk.fsPrivate = some fatPrivate)
    (hsize : 0 < fat16SizeOfClusterBytes fatPrivate) (cluster offset : ℤ) (total : ℕ) :
    fat16ReadInternal disk cluster offset total =
      readFromStream (fat16GetClusterForOffset disk fatPrivate cluster)
        (streamRead disk fatPrivate) (fat16SizeOfClusterBytes fatPrivate)
        (cuts (fat16SizeOfClusterBytes fatPrivate) total + 1) offset total := by
  have hdata := privateData_of_some hp
  have hcuts := @cuts_eq_toNat _ total hsize
  rw [fat16ReadInternal, hdata]
  simp only [bind, Except.bind, hcuts]
  apply fat16ReadInternalFromStream_eq
  · exact_mod_cast cuts_lower _ total
  · exact_mod_cast cuts_upper hsize total

theorem readFromStream_trace {β : Type} (read : ReadStep → List β) (fuel : ℕ) (offset total : ℤ) :
    readFromStream lookup read size fuel offset total =
      (readFromStream lookup (fun step => [step]) size fuel offset total).map fun r =>
        (r.1, r.2.flatMap read) := by
  induction fuel generalizing offset total with
  | zero => rfl
  | succ fuel ih =>
    rw [readFromStream, readFromStream]
    cases lookup offset with
    | error e => rfl
    | ok c =>
      simp only [bind, Except.bind]
      generalize (if total > (size : ℤ) then (size : ℤ) else total) = totalToRead
      split_ifs with hneg hmore
      · rfl
      · rw [ih]
        cases readFromStream lookup (fun step => [step]) size fuel _ _ with
        | error e => rfl
        | ok r => simp [Except.map, pure, Except.pure]
      · simp [Except.map, pure, Except.pure]

/-- The chain lookup, taken as right: a file of `n` clusters. -/
structure LooksUp (lookup : ℤ → Except Crash ℤ) (chain : ℕ → ℕ) (n size : ℕ) : Prop where
  inside : ∀ o : ℕ, o < n * size → lookup o = .ok (chain (o / size))
  behind : ∀ o : ℕ, n * size ≤ o → ∃ e < 0, lookup o = .ok e

def stepOf (chain : ℕ → ℕ) (size : ℕ) (p : Piece) : ReadStep :=
  ⟨p.start, chain (p.start / size), (p.start % size : ℕ), p.length⟩

/-- The steps follow each other in the file and make up the request, and each one reads from the
one cluster that holds its bytes. -/
def StaysInClusters (chain : ℕ → ℕ) (size offset total : ℕ) (steps : List ReadStep) : Prop :=
  ∃ pieces, steps = pieces.map (stepOf chain size) ∧ Consecutive pieces offset total ∧
    ∀ p ∈ pieces, p.Inside size

variable {chain : ℕ → ℕ} {n k offset total : ℕ}

/-- Where the end of the chain is a marker the loop knows and no cluster is one, it looks up right. -/
theorem clusterForOffset_looksUp {fat : ℕ → UInt16} {start : ℕ} (hsize : 0 < size) (hn : 0 < n)
    (hlinks : ∀ i, i + 1 < n → ¬Rejected ((link fat)^[i + 1] start))
    (hend : Rejected ((link fat)^[n] start)) :
    LooksUp (clusterForOffset (entryIn fat) size start) (fun i => (link fat)^[i] start) n size where
  inside o ho := by
    have hdiv : o / size < n := Nat.div_lt_of_lt_mul (by rwa [Nat.mul_comm])
    have hclear : Clear (link fat) Rejected (o / size) start := fun i hi => hlinks i (by omega)
    rw [clusterForOffset_eq hsize, follow_of_clear hclear]
  behind o ho := by
    have hdiv : n ≤ o / size := (Nat.le_div_iff_mul_le hsize).mpr ho
    have hstop : ¬Clear (link fat) Rejected (o / size) start := fun h =>
      h (n - 1) (by omega) (by rwa [Nat.sub_add_cancel hn])
    rw [clusterForOffset_eq hsize, follow_of_not_clear hstop]
    exact ⟨-eIo, by decide, rfl⟩

theorem readFromStream_succ {β : Type} {read : ReadStep → List β} (h : LooksUp lookup chain n size)
    (hoffset : offset < n * size) (fuel : ℕ) :
    readFromStream lookup read size (fuel + 1) offset total =
      if size < total then
        (readFromStream lookup read size fuel (i32 (offset + size : ℕ)) (total - size : ℕ)).map
          fun r => (r.1, read (stepOf chain size ⟨offset, size⟩) ++ r.2)
      else .ok (0, read (stepOf chain size ⟨offset, total⟩)) := by
  have hnonneg : ¬((chain (offset / size) : ℕ) : ℤ) < 0 := by omega
  have hstart : (offset : ℤ).tmod (size : ℕ) = (offset % size : ℕ) := by
    rw [← Int.ofNat_tmod]
  rw [readFromStream, h.inside offset hoffset]
  simp only [bind, Except.bind, if_neg hnonneg, hstart]
  by_cases hlong : size < total
  · have hgt : (total : ℤ) > (size : ℕ) := by exact_mod_cast hlong
    have hrest : (total : ℤ) - (size : ℕ) > 0 := by omega
    have hsub : (total : ℤ) - (size : ℕ) = (total - size : ℕ) := by omega
    rw [if_pos hlong]
    simp only [if_pos hgt, if_pos hrest]
    rw [hsub, ← Nat.cast_add]
    rfl
  · have hle : ¬(total : ℤ) > (size : ℕ) := by exact_mod_cast hlong
    have hlast : ¬(total : ℤ) - total > 0 := by simp
    rw [if_neg hlong]
    simp only [if_neg hle, if_neg hlast]
    rfl

theorem readFromStream_steps {β : Type} {read : ReadStep → List β} (h : LooksUp lookup chain n size)
    (hoffset : offset < n * size) (hlower : size * k < total ∨ k = 0)
    (hupper : total ≤ size * (k + 1)) (hin : offset + total ≤ n * size)
    (hsigned : offset + size * k < 2147483648) :
    readFromStream lookup read size (k + 1) offset total =
      .ok (0, ((cut size k offset total).map (stepOf chain size)).flatMap read) := by
  induction k generalizing offset total with
  | zero =>
    have hle : ¬size < total := by simpa using hupper
    rw [readFromStream_succ h hoffset, if_neg hle]
    simp [cut]
  | succ k ih =>
    have hmul : size * (k + 1) = size * k + size := Nat.mul_succ size k
    have hmore : size * k + size < total := by
      rcases hlower with hlt | h0
      · rwa [hmul] at hlt
      · cases h0
    rw [Nat.mul_succ] at hupper
    have hnext : i32 ((offset + size : ℕ) : ℤ) = (offset + size : ℕ) := i32_natCast (by omega)
    rw [readFromStream_succ h hoffset, if_pos (by omega), hnext,
      ih (by omega) (Or.inl (by omega)) (by omega) (by omega) (by omega)]
    simp [cut, Except.map]

theorem readFromStream_first {fuel : ℕ} {o t : ℤ} {r : ℤ × List ReadStep} {step : ReadStep}
    {steps : List ReadStep}
    (hrun : readFromStream lookup (fun step => [step]) size fuel o t = .ok r)
    (hr : r.2 = step :: steps) : step.offset = o := by
  cases fuel with
  | zero => cases hrun
  | succ fuel =>
    rw [readFromStream] at hrun
    cases hlookup : lookup o with
    | error e =>
      rw [hlookup] at hrun
      cases hrun
    | ok c =>
      rw [hlookup] at hrun
      simp only [bind, Except.bind] at hrun
      generalize (if t > (size : ℤ) then (size : ℤ) else t) = totalToRead at hrun
      split_ifs at hrun with hneg hmore
      · rw [← Except.ok.inj hrun] at hr
        cases hr
      · cases hrest : readFromStream lookup (fun step => [step]) size fuel (i32 (o + totalToRead))
            (t - totalToRead) with
        | error e =>
          rw [hrest] at hrun
          cases hrun
        | ok rest =>
          rw [hrest] at hrun
          rw [← Except.ok.inj hrun] at hr
          rw [← (List.cons.inj hr).1]
      · rw [← Except.ok.inj hrun] at hr
        rw [← (List.cons.inj hr).1]

theorem stepOf_injective (chain : ℕ → ℕ) (size : ℕ) : Function.Injective (stepOf chain size) := by
  intro p q h
  obtain ⟨hstart, -, -, hlength⟩ := ReadStep.mk.inj h
  cases p
  cases q
  simp_all

theorem readFromStream_covers (h : LooksUp lookup chain n size) {fuel : ℕ}
    {r : ℤ × List ReadStep} {pieces : List Piece} (hpos : 0 < total)
    (hlower : size * k < total ∨ k = 0) (hupper : total ≤ size * (k + 1))
    (hoffset : offset < 2147483648) (hin : offset + total ≤ n * size)
    (hrun : readFromStream lookup (fun step => [step]) size fuel offset total = .ok r)
    (hr : r.2 = pieces.map (stepOf chain size)) (hpieces : Consecutive pieces offset total) :
    pieces = cut size k offset total ∧ offset + size * k < 2147483648 := by
  induction k generalizing offset total pieces fuel r with
  | zero =>
    cases fuel with
    | zero => cases hrun
    | succ fuel =>
      have hle : ¬size < total := by simpa using hupper
      rw [readFromStream_succ h (by omega), if_neg hle] at hrun
      rw [← Except.ok.inj hrun] at hr
      have hone : [⟨offset, total⟩] = pieces :=
        (stepOf_injective chain size).list_map hr
      exact ⟨hone.symm, by simpa using hoffset⟩
  | succ k ih =>
    cases fuel with
    | zero => cases hrun
    | succ fuel =>
      have hmul : size * (k + 1) = size * k + size := Nat.mul_succ size k
      have hmore : size * k + size < total := by
        rcases hlower with hlt | h0
        · rwa [hmul] at hlt
        · cases h0
      rw [Nat.mul_succ] at hupper
      rw [readFromStream_succ h (by omega), if_pos (by omega)] at hrun
      cases hrest : readFromStream lookup (fun step => [step]) size fuel
          (i32 (offset + size : ℕ)) (total - size : ℕ) with
      | error e =>
        rw [hrest] at hrun
        cases hrun
      | ok rest =>
        rw [hrest] at hrun
        rw [← Except.ok.inj hrun] at hr
        cases pieces with
        | nil => cases hr
        | cons p ps =>
          obtain ⟨hp, hps⟩ := List.cons.inj hr
          obtain ⟨-, -, hconsecutive⟩ := hpieces
          rw [← stepOf_injective chain size hp] at hconsecutive ⊢
          cases ps with
          | nil =>
            have hnone : total - size = 0 := hconsecutive
            omega
          | cons q qs =>
            -- the next call is for the offset behind the piece, so this has not wrapped
            have hnext : ((offset + size : ℕ) : ℤ) = i32 (offset + size : ℕ) := by
              rw [← readFromStream_first hrest hps, ← hconsecutive.1]
              rfl
            have hlt : offset + size < 2147483648 := by
              have hi32 := i32_lt ((offset + size : ℕ) : ℤ)
              omega
            rw [← hnext] at hrest
            obtain ⟨hcut, hsigned⟩ := ih (by omega) (Or.inl (by omega)) (by omega) hlt (by omega)
              hrest hps hconsecutive
            exact ⟨by rw [hcut, cut], by omega⟩

/-- The steps stay inside their clusters and cover the request if and only if the read starts a
cluster or ends inside the one it starts in, and the last step starts below `2^31`. -/
theorem readFromStream_stays_iff (chain : ℕ → ℕ) {n size : ℕ} (hsize : 0 < size)
    {lookup : ℤ → Except Crash ℤ} (h : LooksUp lookup chain n size) {offset total : ℕ}
    (hoffset : offset < 2147483648) (hin : offset + total ≤ n * size) :
    (∃ fuel r, readFromStream lookup (fun step => [step]) size fuel offset total = .ok r ∧
      StaysInClusters chain size offset total r.2) ↔
      (offset % size = 0 ∨ offset % size + total ≤ size) ∧
        offset + size * ((total - 1) / size) < 2147483648 := by
  have hlower := cuts_lower size total
  have hupper := cuts_upper hsize total
  have hmod := Nat.mod_lt offset hsize
  have hstays (hend : offset < n * size) (hright : (offset % size = 0 ∨ offset % size + total ≤ size) ∧
      offset + size * ((total - 1) / size) < 2147483648) :
      ∃ fuel r, readFromStream lookup (fun step => [step]) size fuel offset total = .ok r ∧
        StaysInClusters chain size offset total r.2 := by
    have hrun := @readFromStream_steps lookup size chain n (cuts size total) offset total _
      (fun step => [step]) h hend hlower hupper hin hright.2
    exact ⟨_, _, hrun, cut size (cuts size total) offset total, by simp,
      cut_consecutive (cuts_mul_le size total), (cut_inside_iff hlower hupper).mpr hright.1⟩
  rcases Nat.eq_zero_or_pos total with h0 | hpos
  · have hright : (offset % size = 0 ∨ offset % size + total ≤ size) ∧
        offset + size * ((total - 1) / size) < 2147483648 :=
      ⟨Or.inr (by omega), by simpa [h0] using hoffset⟩
    refine ⟨fun _ => hright, fun _ => ?_⟩
    by_cases hend : offset < n * size
    · exact hstays hend hright
    · -- nothing is read at the end of the file
      obtain ⟨e, hneg, he⟩ := h.behind offset (by omega)
      refine ⟨1, (e, []), ?_, [], rfl, h0, by simp⟩
      rw [readFromStream, he]
      exact if_pos hneg
  · constructor
    · intro ⟨fuel, r, hrun, pieces, hr, hpieces, hinside⟩
      obtain ⟨rfl, hsigned⟩ := readFromStream_covers h hpos hlower hupper hoffset hin hrun hr hpieces
      exact ⟨(cut_inside_iff hlower hupper).mp hinside, hsigned⟩
    · exact hstays (by omega)

theorem readFromStream_reads {β : Type} (file : ℕ → β) {read : ReadStep → List β} (hsize : 0 < size)
    (h : LooksUp lookup chain n size)
    (hread : ∀ p : Piece, p.Inside size → read (stepOf chain size p) =
      (List.range p.length).map fun i => file (p.start + i))
    (hoffset : offset < n * size) (hin : offset + total ≤ n * size)
    (hal : offset % size = 0 ∨ offset % size + total ≤ size)
    (hsigned : offset + size * ((total - 1) / size) < 2147483648) :
    readFromStream lookup read size (cuts size total + 1) offset total =
      .ok (0, (List.range total).map fun i => file (offset + i)) := by
  have hlower := cuts_lower size total
  have hupper := cuts_upper hsize total
  have hinside := (@cut_inside_iff size _ offset _ hlower hupper).mpr hal
  have hpieces : (cut size (cuts size total) offset total).flatMap
      (fun p => read (stepOf chain size p)) =
      (cut size (cuts size total) offset total).flatMap fun p =>
        (List.range p.length).map fun i => file (p.start + i) :=
    List.flatMap_congr fun p hp => hread p (hinside p hp)
  rw [readFromStream_steps h hoffset hlower hupper hin hsigned, List.flatMap_map, hpieces,
    (cut_consecutive (cuts_mul_le size total)).flatMap file]

def twoClusters (o : ℤ) : Except Crash ℤ := if o < 1024 then .ok (2 + o.tdiv 512) else .ok (-eIo)

theorem twoClusters_looksUp : LooksUp twoClusters (fun i => 2 + i) 2 512 where
  inside o ho := by
    have hlt : (o : ℤ) < 1024 := by omega
    have hdiv : (o : ℤ).tdiv 512 = (o / 512 : ℕ) := (Int.ofNat_tdiv o 512).symm
    rw [twoClusters, if_pos hlt, hdiv, Nat.cast_add]
    rfl
  behind o ho := ⟨-eIo, by decide, if_neg (by omega)⟩

theorem whole_file_stays : ∃ fuel r,
    readFromStream twoClusters (fun step => [step]) 512 fuel (0 : ℕ) (1024 : ℕ) = .ok r ∧
      StaysInClusters (fun i => 2 + i) 512 0 1024 r.2 :=
  (readFromStream_stays_iff (fun i => 2 + i) (by decide : 0 < 512) twoClusters_looksUp
    (by decide : 0 < 2147483648) (by decide : 0 + 1024 ≤ 2 * 512)).mpr (by decide)

/-- The first step reads the byte behind the cluster 2. -/
theorem unaligned_read_leaves_cluster :
    readFromStream twoClusters (fun step => [step]) 512 1 (1 : ℕ) (512 : ℕ) =
      .ok (0, [⟨1, 2, 1, 512⟩]) ∧
    ¬∃ fuel r, readFromStream twoClusters (fun step => [step]) 512 fuel (1 : ℕ) (512 : ℕ) = .ok r ∧
      StaysInClusters (fun i => 2 + i) 512 1 512 r.2 := by
  refine ⟨by decide, ?_⟩
  intro ⟨fuel, r, hrun, pieces, hr, hpieces, hinside⟩
  obtain ⟨rfl, -⟩ := readFromStream_covers twoClusters_looksUp (k := 0) (by decide) (Or.inr rfl)
    (by decide) (by decide) (by decide) hrun hr hpieces
  have hfirst : 1 % 512 + 512 ≤ 512 := hinside ⟨1, 512⟩ (List.mem_singleton_self _)
  omega

end Steps

end Dexter
