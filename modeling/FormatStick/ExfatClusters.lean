import FormatStick.ExfatRuns
import Mathlib.Data.Nat.Log
import Mathlib.Order.Bounds.Basic

/-!
# The cluster size of an exFAT volume

`setup_spc_bits` searches for the power of two and terminates. Its result is a cluster size that
an `int` holds up to 1 GB. The check against the last data cluster is gone: only clusters of one
sector on a volume of almost 2 TiB exceed it.
-/
namespace FormatStick.Exfat
open Prog

section Search

variable {u : ℕ}

/-- The search ends at the least exponent whose power is not below `u`, if it has the passes. -/
theorem spcBitsLoop_eq (hu : u ≤ 2 ^ 30) (fuel : ℕ) {bits : ℕ} (hbits : bits ≤ Nat.clog 2 u) :
    spcBitsLoop u fuel bits = if Nat.clog 2 u < fuel + bits then some (Nat.clog 2 u) else none := by
  have hclog : Nat.clog 2 u ≤ 30 := (Nat.clog_le_iff_le_pow Nat.one_lt_two).mpr hu
  induction fuel generalizing bits with
  | zero =>
    rw [if_neg (by omega)]
    rfl
  | succ fuel ih =>
    rw [spcBitsLoop, shiftOne_of_lt (by omega)]
    by_cases hlt : bits < Nat.clog 2 u
    · have hnext : fuel + (bits + 1) = fuel + 1 + bits := by omega
      rw [if_pos (Int.ofNat_lt.mpr ((Nat.lt_clog_iff_pow_lt Nat.one_lt_two).mp hlt)), ih hlt, hnext]
    · have hge : ¬2 ^ bits < u := mt (Nat.lt_clog_iff_pow_lt Nat.one_lt_two).mpr hlt
      rw [if_neg (by omega), if_pos (by omega), Nat.le_antisymm hbits (Nat.not_lt.mp hlt)]

end Search

/-- The exponent that the bridge chooses for a volume of `usable` sectors. -/
def chosenBits (clusterSize usable : ℕ) : ℕ :=
  if 512 ≤ clusterSize then Nat.clog 2 (clusterSize / 512) else if usable < 524288 then 3 else 6

section Chosen

variable {clusterSize usable : ℕ}

/-- Whatever the bound on the loop, no other exponent is chosen. -/
theorem setupSpcBits_cases (hcs : clusterSize < 2 ^ 32) (husable : usable ≤ 2 ^ 32) (fuel : ℕ) :
    setupSpcBits fuel 9 (clusterSize / 512 : ℕ) (i64 usable * 512) = some (chosenBits clusterSize usable) ∨
      setupSpcBits fuel 9 (clusterSize / 512 : ℕ) (i64 usable * 512) = none ∧ fuel ≤ 30 := by
  have hu : clusterSize / 512 ≤ 2 ^ 30 := by omega
  have hclog : Nat.clog 2 (clusterSize / 512) ≤ 30 := (Nat.clog_le_iff_le_pow Nat.one_lt_two).mpr hu
  rw [setupSpcBits, chosenBits, i64_of_lt (by omega)]
  by_cases h : 512 ≤ clusterSize
  · rw [if_pos (by omega), if_pos h, spcBitsLoop_eq hu fuel (Nat.zero_le _)]
    by_cases hfuel : Nat.clog 2 (clusterSize / 512) < fuel + 0
    · exact .inl (if_pos hfuel)
    · exact .inr ⟨if_neg hfuel, by omega⟩
  · rw [if_neg (by omega), if_neg h]
    left
    split_ifs <;> first | rfl | omega

theorem setupSpcBits_eq (hcs : clusterSize < 2 ^ 32) (husable : usable ≤ 2 ^ 32) {fuel : ℕ}
    (hfuel : 30 < fuel) :
    setupSpcBits fuel 9 (clusterSize / 512 : ℕ) (i64 usable * 512) = some (chosenBits clusterSize usable) :=
  (setupSpcBits_cases hcs husable fuel).resolve_right fun h => Nat.not_lt.mpr h.2 hfuel

theorem clog_le_21 : Nat.clog 2 (clusterSize / 512) ≤ 21 ↔ clusterSize < 1073742336 := by
  rw [Nat.clog_le_iff_le_pow Nat.one_lt_two]
  omega

end Chosen

section FatEntries

variable {δ : Type} {P : Platform δ} {fuel : ℕ} (hP : Obliging P) (hfuel : 4294967296 ≤ fuel)
include hP hfuel

/-- An entry of the FAT; its cluster is not the last that 32 bits count. -/
theorem attains_fatWriteEntry {cluster : ℕ} (h : cluster + 1 < 4294967296) (value : ℕ) :
    Attains Opened (· = cluster + 1) (fatWriteEntry P fuel cluster value) := by
  refine (attains_exfatWrite hP hfuel _ (by decide)).bind fun res hres => ?_
  rw [if_neg (by omega)]
  exact attains_pure (u32_add h)

theorem attains_fatWriteChain {n cluster : ℕ} (h : cluster + n < 4294967296) :
    Attains Opened (· = cluster + n) (fatWriteChain P fuel n cluster) := by
  induction n generalizing cluster with
  | zero => exact attains_pure rfl
  | succ n ih =>
    refine (attains_fatWriteEntry hP hfuel (by omega) _).bind fun next hnext => ?_
    subst hnext
    rw [if_neg (Nat.succ_ne_zero _), Nat.add_comm n, ← Nat.add_assoc]
    exact ih (by omega)

variable {p : Params}

/-- The entries of an object that takes at least one cluster of one sector. -/
theorem attains_fatWriteEntries (hp : getClusterSize p = 512) {cluster : ℕ} {length : ℤ}
    (hcluster : 0 < cluster ∧ cluster ≤ 1073741824) (hlength : 0 < length ∧ length ≤ 1073741824) :
    Attains Opened (fun next : ℕ => (next : ℤ) = cluster + (length + 511) / 512)
      (fatWriteEntries P fuel p cluster length) := by
  have hclusters : u64 ((u64 length : ℤ) + u64 (getClusterSize p) - 1) / u64 (getClusterSize p) =
      ((length + 511) / 512).toNat := by
    have hsector : u64 512 = 512 := by decide
    have hnum : u64 ((u64 length : ℤ) + (512 : ℕ) - 1) = (length + 511).toNat := by
      unfold u64
      omega
    rw [hp, hsector, hnum]
    omega
  rw [fatWriteEntries, hclusters]
  have hlast : u32 ((u32 ((cluster : ℤ) + ((length + 511) / 512).toNat) : ℤ) - 1) =
      cluster + ((length + 511) / 512).toNat - 1 := by
    unfold u32
    omega
  rw [hlast]
  have hfits : cluster + (cluster + ((length + 511) / 512).toNat - 1 - cluster) < 4294967295 := by omega
  refine (attains_fatWriteChain hP hfuel (by exact hfits.trans (by decide))).bind fun c hc => ?_
  subst hc
  rw [if_neg (by omega)]
  intro s hs
  refine wp_mono (attains_fatWriteEntry hP hfuel (Nat.succ_lt_succ hfits) _ s hs) (fun next t h => ⟨?_, h.2⟩)
    fun _ h => h
  omega

end FatEntries

section Rounding

variable {x d : ℤ}

theorem divRoundUp_eq (hx : 0 ≤ x) (hd : 0 < d) : divRoundUp x d = (x + d - 1) / d := by
  rw [divRoundUp, Int.tdiv_eq_ediv_of_nonneg (by omega)]

theorem le_roundUp (hx : 0 ≤ x) (hd : 0 < d) : x ≤ roundUp x d ∧ roundUp x d < x + d := by
  have hdiv := Int.emod_add_mul_ediv (x + d - 1) d
  have hnonneg := Int.emod_nonneg (x + d - 1) hd.ne'
  have hlt := Int.emod_lt_of_pos (x + d - 1) hd
  rw [roundUp, divRoundUp_eq hx hd, mul_comm]
  omega

end Rounding

/-- A volume of one-sector clusters that has more of them than cluster numbers. -/
structure Overfull (p : Params) : Prop where
  sector : getSectorSize p = 512
  cluster : getClusterSize p = 512
  volume : 4294967287 * 512 ≤ p.volumeSize ∧ p.volumeSize ≤ 4294967296 * 512

section Overfull

variable {p : Params} (h : Overfull p)
include h

theorem Overfull.sectored : Sectored p := by
  refine ⟨h.sector, ?_⟩
  rw [h.cluster]

theorem Overfull.alignment (object : FsObject) :
    getAlignment p object = if object = .fat then 65536 else 512 := by
  cases object with
  | fat =>
    have hfat : getAlignment p .fat = 128 * getSectorSize p := rfl
    rw [hfat, h.sector]
    decide
  | vbr => exact h.sector
  | cbm | uct | rootdir => exact h.cluster

theorem Overfull.vbr : vbrSize p = 6144 := by
  rw [vbrSize, h.sector]
  decide

theorem Overfull.fat : fatSize p = p.volumeSize / 512 * 4 := by
  have hvolume := h.volume
  rw [fatSize, h.cluster, Int.tdiv_eq_ediv_of_nonneg (by omega)]

/-- The bitmap begins behind the boot regions and the FAT. -/
theorem Overfull.position_cbm :
    65536 + p.volumeSize / 512 * 4 ≤ positionOf p (headSize p) .cbm ∧
      positionOf p (headSize p) .cbm < 66048 + p.volumeSize / 512 * 4 := by
  have hvolume := h.volume
  have hbefore : objects.takeWhile (· ≠ .cbm) = [.vbr, .vbr, .fat] := by decide
  have hvbr : headSize p .vbr = 6144 := h.vbr
  have hfat : headSize p .fat = p.volumeSize / 512 * 4 := h.fat
  have hstart : roundUp (roundUp (roundUp 0 512 + 6144) 512 + 6144) 65536 = 65536 := by decide
  rw [positionOf, hbefore]
  simp only [List.foldl_cons, List.foldl_nil, advance, h.alignment, hvbr, hfat, reduceCtorEq, if_false,
    if_true, hstart]
  have hround := le_roundUp (x := 65536 + p.volumeSize / 512 * 4) (d := 512) (by omega) (by decide)
  omega

theorem Overfull.cbm : 0 < cbmSize p ∧ cbmSize p ≤ 536870912 := by
  have hvolume := h.volume
  have hposition := h.position_cbm
  rw [cbmSize, h.cluster, Int.tdiv_eq_ediv_of_nonneg (by omega), divRoundUp_eq (by omega) (by decide)]
  omega

/-- The objects fit. -/
theorem Overfull.checkSize : checkSize p p.volumeSize = true := by
  have hvolume := h.volume
  have hcbm := h.cbm
  have hall : objects.foldl (advance p (getSize p)) 0 =
      roundUp (roundUp (roundUp (65536 + p.volumeSize / 512 * 4) 512 + cbmSize p) 512 + 5836) 512 + 512 := by
    have hfat : roundUp (roundUp (roundUp 0 512 + 6144) 512 + 6144) 65536 = 65536 := by decide
    rw [← hfat]
    simp [objects, advance, getSize, h.vbr, h.fat, h.cluster, h.alignment, upcaseSize]
  rw [Exfat.checkSize, hall, decide_eq_true_eq]
  have h₁ := le_roundUp (x := 65536 + p.volumeSize / 512 * 4) (d := 512) (by omega) (by decide)
  have h₂ := le_roundUp (x := roundUp (65536 + p.volumeSize / 512 * 4) 512 + cbmSize p) (d := 512) (by omega)
    (by decide)
  have h₃ := le_roundUp (x := roundUp (roundUp (65536 + p.volumeSize / 512 * 4) 512 + cbmSize p) 512 + 5836)
    (d := 512) (by omega) (by decide)
  omega

end Overfull

section Mkfs

variable {δ : Type} {P : Platform δ} {fuel : ℕ} (hP : Obliging P) (hfuel : 4294967296 ≤ fuel)

include hP hfuel

theorem succeeds_vbrWrite (p : Params) : Succeeds (vbrWrite P fuel p) := by
  refine (attains_malloc hP).bind fun allocated hallocated => ?_
  rw [if_neg (by simp [hallocated])]
  refine succeeds_writeAll hP hfuel fun x hx => ?_
  obtain ⟨sector, -, rfl⟩ := List.mem_map.mp hx
  dsimp only
  decide

/-- The entries of the FAT end well before the last that 32 bits count. -/
theorem succeeds_fatWrite {p : Params} (h : Overfull p) : Succeeds (fatWrite P fuel p) := by
  have hcbm := h.cbm
  have huct : (upcaseSize : ℤ) = 5836 := rfl
  have hroot : getClusterSize p = 512 := h.cluster
  refine (attains_fatWriteEntry hP hfuel (by decide) _).bind fun c hc => ?_
  rw [if_neg (by omega)]
  refine (attains_fatWriteEntry hP hfuel (by omega) _).bind fun c hc => ?_
  rw [if_neg (by omega)]
  refine (attains_fatWriteEntries hP hfuel hroot (by omega) (by omega)).bind fun c hc => ?_
  rw [if_neg (by omega)]
  refine (attains_fatWriteEntries hP hfuel hroot (by omega) (by omega)).bind fun c hc => ?_
  rw [if_neg (by omega)]
  refine (attains_fatWriteEntries hP hfuel hroot (by omega) (by omega)).bind fun c hc => attains_pure ?_
  rw [hroot] at hc
  rw [if_neg (by omega)]

theorem succeeds_cbmWrite (p : Params) : Succeeds (cbmWrite P fuel p) := by
  refine (attains_malloc hP).bind fun allocated hallocated => ?_
  rw [if_neg (by simp [hallocated])]
  refine succeeds_exfatWrite hP hfuel _ ⟨Int.natCast_nonneg _, ?_⟩
  have hbits := u32_lt ((u32 ((allocatedClusters p : ℤ) + 8 - 1) / 8 * 8 : ℕ))
  omega

theorem succeeds_writeObject {p : Params} (h : Overfull p) (upcaseTable : Buf) (object : FsObject) :
    Succeeds (writeObject P fuel p upcaseTable object) := by
  cases object with
  | vbr => exact succeeds_vbrWrite hP hfuel p
  | fat => exact succeeds_fatWrite hP hfuel h
  | cbm => exact succeeds_cbmWrite hP hfuel p
  | uct => exact succeeds_exfatWrite hP hfuel upcaseTable (by decide)
  | rootdir =>
    refine succeeds_writeAll hP hfuel fun x hx => ?_
    simp only [List.mem_cons, List.not_mem_nil, or_false] at hx
    rcases hx with rfl | rfl | rfl <;> exact ⟨by omega, by omega⟩

/-- The engine formats it. -/
theorem succeeds_mkfs {p : Params} (h : Overfull p) (upcaseTable : Buf) :
    Succeeds (mkfs P fuel p upcaseTable) := by
  unfold mkfs
  rw [if_neg (by simp [h.cluster]), if_neg (by simp [h.checkSize])]
  refine (succeeds_erase hP hfuel h.sectored).bind fun r hr => ?_
  rw [if_neg (by omega)]
  have hcreate : Succeeds (create P fuel p upcaseTable) :=
    succeeds_forObjects h.sectored (fun object position hposition =>
      (succeeds_writeObject hP hfuel h upcaseTable object).after_seek hposition) objects 0
  refine hcreate.bind fun r hr => attains_pure ?_
  rw [if_neg (by omega)]

theorem wp_usbScsiFormatExfat_overfull {clusterSize usable : ℕ} (hcs : 512 ≤ clusterSize ∧ clusterSize < 1024)
    (husable : 4294967287 ≤ usable ∧ usable ≤ 4294967296) (upcaseTable : Buf) (label : List ℕ) {w : World δ}
    (hw : Framed w) (hall : usbScsiGetUsableSectors w.drv = usable) :
    Prog.wp (usbScsiFormatExfat P fuel upcaseTable clusterSize label) (fun r _ => r = 0)
      (fun _ => False) w := by
  have hone : clusterSize / 512 = 1 := by omega
  have hbits : setupSpcBits fuel 9 (clusterSize / 512 : ℕ) (i64 usable * 512) = some 0 := by
    rw [setupSpcBits_eq (by omega) husable.2 (by omega), chosenBits, if_pos hcs.1, hone, Nat.clog_one_right]
  have hrand : Attains Framed (fun _ => True) (rand P) := fun t ht => ⟨trivial, ht.size, ht.offset⟩
  have hmalloc : Attains Framed (· = true) (malloc P) := fun t ht => ⟨hP.malloc t.dev, ht.size, ht.offset⟩
  have hmkfs : ∀ serial, Attains Framed (· = 0)
      ((mkfs P fuel (params usable 0 serial label) upcaseTable).alongside (some 0)) := by
    intro serial t ht
    have hvolume : (params usable 0 serial label).volumeSize = i64 usable * 512 := rfl
    rw [i64_of_lt (by omega)] at hvolume
    have hfull : Overfull (params usable 0 serial label) :=
      ⟨getSectorSize_params, getClusterSize_params (Nat.zero_le _), by omega⟩
    rw [wp_alongside]
    exact wp_mono (succeeds_mkfs hP hfuel hfull upcaseTable (t, some 0) ⟨ht, 0, rfl⟩)
      (fun _ _ h => ⟨h.1, h.2.1⟩) fun _ h => h
  rw [usbScsiFormatExfat, wp_bind, wp_globals, hall]
  dsimp only
  rw [hbits]
  refine wp_mono ((hrand.bind fun serial _ => hmalloc.bind fun allocated hallocated => ?_) w hw)
    (fun _ _ h => h.1)
    fun _ h => h
  rw [if_pos hallocated]
  exact hmkfs serial

end Mkfs

/-- `EXFAT_LAST_DATA_CLUSTER`. -/
def lastDataCluster : ℤ := 0xfffffff6

/-- The bridge does not format a volume of `usable` sectors, on whatever device. -/
def Refuses (clusterSize usable : ℕ) : Prop :=
  ∀ (δ : Type) (P : Platform δ) (fuel : ℕ) (upcaseTable : Buf) (label : List ℕ) (w t : World δ) (r : ℤ),
    w.drv.gSectorSize = 512 → usbScsiGetUsableSectors w.drv = usable →
      usbScsiFormatExfat P fuel upcaseTable clusterSize label w = (some r, t) → r ≠ 0

/-- The exponent and the cluster size that the bridge arrives at are those of a volume that exFAT
can represent. -/
structure Representable (clusterSize usable bits : ℕ) (size : ℤ) : Prop where
  ends : ∃ n, ∀ fuel, n < fuel → setupSpcBits fuel 9 (clusterSize / 512 : ℕ) (i64 usable * 512) = some bits
  chosen : ∀ serial label, getClusterSize (params usable bits serial label) = size
  positive : 0 < size
  power : size = 512 * 2 ^ bits
  least : 512 ≤ clusterSize →
    IsLeast {x : ℤ | (∃ k : ℕ, x = 512 * 2 ^ k) ∧ 512 * (clusterSize / 512 : ℕ) ≤ x} size
  limited : Int.tdiv (i64 usable * 512) size ≤ lastDataCluster ∨ Refuses clusterSize usable

section Sound

variable {clusterSize usable : ℕ}

theorem chosenBits_le (h : clusterSize < 1073742336) : chosenBits clusterSize usable ≤ 21 := by
  rw [chosenBits]
  split_ifs
  · exact clog_le_21.mpr h
  · decide
  · decide

theorem chosenBits_least (h : 512 ≤ clusterSize) :
    IsLeast {x : ℤ | (∃ k : ℕ, x = 512 * 2 ^ k) ∧ 512 * (clusterSize / 512 : ℕ) ≤ x}
      (512 * 2 ^ chosenBits clusterSize usable) := by
  have hcast : ∀ k, ((2 ^ k : ℕ) : ℤ) = 2 ^ k := Int.natCast_pow 2
  rw [chosenBits, if_pos h]
  constructor
  · have hle := Nat.le_pow_clog Nat.one_lt_two (clusterSize / 512)
    refine ⟨⟨_, rfl⟩, ?_⟩
    rw [← hcast]
    omega
  · rintro _ ⟨⟨k, rfl⟩, hk⟩
    rw [← hcast] at hk
    have hclog : Nat.clog 2 (clusterSize / 512) ≤ k := (Nat.clog_le_iff_le_pow Nat.one_lt_two).mpr (by omega)
    have hpow := Nat.pow_le_pow_right Nat.two_pos hclog
    rw [← hcast, ← hcast]
    omega

/-- From clusters of two sectors on, their number has 31 bits. -/
theorem chosenBits_limited (husable : usable ≤ 4294967296)
    (h : 512 ≤ clusterSize → clusterSize < 1024 → usable < 4294967287) :
    Int.tdiv (i64 usable * 512) (512 * 2 ^ chosenBits clusterSize usable) ≤ lastDataCluster := by
  have hcast : ((2 ^ chosenBits clusterSize usable : ℕ) : ℤ) = 2 ^ chosenBits clusterSize usable :=
    Int.natCast_pow 2 _
  have hdiv : Int.tdiv (i64 usable * 512) (512 * 2 ^ chosenBits clusterSize usable) =
      (usable / 2 ^ chosenBits clusterSize usable : ℕ) := by
    rw [i64_of_lt (by omega), ← hcast, mul_comm]
    exact congrArg Nat.cast (Nat.mul_div_mul_left usable _ (by decide))
  have hlimit : usable / 2 ^ chosenBits clusterSize usable ≤ 4294967286 := by
    by_cases hbits : chosenBits clusterSize usable = 0
    · have hone : clusterSize / 512 ≤ 1 ∧ 512 ≤ clusterSize := by
        rw [chosenBits] at hbits
        split_ifs at hbits with hc
        exact ⟨(Nat.clog_le_iff_le_pow Nat.one_lt_two).mp hbits.le, hc⟩
      have hle := Nat.div_le_self usable (2 ^ chosenBits clusterSize usable)
      omega
    · have htwo : 2 ^ 1 ≤ 2 ^ chosenBits clusterSize usable :=
        Nat.pow_le_pow_right Nat.two_pos (Nat.one_le_iff_ne_zero.mpr hbits)
      have hle : usable / 2 ^ chosenBits clusterSize usable ≤ usable / 2 ^ 1 :=
        Nat.div_le_div_left htwo (by decide)
      omega
  rw [hdiv, lastDataCluster]
  omega

end Sound

section Representation

variable {clusterSize usable : ℕ}

/-- The exponent of a size that can be represented is the one that the search gives. -/
theorem Representable.bits_eq {bits : ℕ} {size : ℤ} (h : Representable clusterSize usable bits size)
    (hcs : clusterSize < 2 ^ 31) (husable : usable ≤ 2 ^ 32) : bits = chosenBits clusterSize usable := by
  obtain ⟨n, hends⟩ := h.ends
  have heq := hends (n + 31) (by omega)
  rw [setupSpcBits_eq (by omega) husable (by omega)] at heq
  exact (Option.some.inj heq).symm

theorem Representable.lt {bits : ℕ} {size : ℤ} (h : Representable clusterSize usable bits size)
    (hcs : clusterSize < 2 ^ 31) (husable : usable ≤ 2 ^ 32) : clusterSize < 1073742336 := by
  by_contra hlarge
  have hbits : bits = 22 := by
    have hle : Nat.clog 2 (clusterSize / 512) ≤ 22 := (Nat.clog_le_iff_le_pow Nat.one_lt_two).mpr (by omega)
    have hge := mt clog_le_21.mp hlarge
    rw [h.bits_eq hcs husable, chosenBits, if_pos (by omega)]
    omega
  subst hbits
  have hsize := h.chosen 0 []
  rw [getClusterSize_params_22] at hsize
  have hpos := h.positive
  omega

/-- A volume of too many one-sector clusters is formatted. -/
theorem not_refuses (hcs : 512 ≤ clusterSize ∧ clusterSize < 1024)
    (husable : 4294967287 ≤ usable ∧ usable ≤ 4294967296) :
    ¬Refuses clusterSize usable := by
  intro h
  have hall : usbScsiGetUsableSectors { obligingWorld.drv with gPartitionSectors := usable } = usable := by
    rw [usbScsiGetUsableSectors]
    dsimp only
    rw [if_neg (by omega), if_neg (by omega)]
  obtain ⟨r, t, hrun, hzero⟩ :=
    wp_returns (wp_usbScsiFormatExfat_overfull obliging_obliges (Nat.le_refl _) hcs husable
    zeros [] (w := { obligingWorld with drv := { obligingWorld.drv with gPartitionSectors := usable } })
    ⟨rfl, Nat.zero_le 4096⟩ hall)
  exact h Unit obliging 4294967296 zeros [] _ t r rfl hall hrun hzero

theorem Representable.not_overfull {bits : ℕ} {size : ℤ} (h : Representable clusterSize usable bits size)
    (hcs : clusterSize < 2 ^ 31) (husable : usable ≤ 2 ^ 32) :
    ¬(512 ≤ clusterSize ∧ clusterSize < 1024 ∧ 4294967287 ≤ usable) := by
  rintro ⟨hmin, hmax, hfull⟩
  have hone : clusterSize / 512 = 1 := by omega
  have hbits : bits = 0 := by
    rw [h.bits_eq hcs husable, chosenBits, if_pos hmin, hone, Nat.clog_one_right]
  have hsize : size = 512 := by
    rw [h.power, hbits]
    rfl
  refine h.limited.elim (fun hle => ?_) (not_refuses ⟨hmin, hmax⟩ ⟨hfull, husable⟩)
  rw [hsize, i64_of_lt (by omega), lastDataCluster, Int.tdiv_eq_ediv_of_nonneg (by omega)] at hle
  omega

/-- The bridge arrives at a cluster size for every volume but those of clusters beyond 1 GB, and
those that one-sector clusters overfill. -/
theorem clusterSize_representable_iff (hcs : clusterSize < 2 ^ 31) (husable : usable ≤ 2 ^ 32) :
    (∃ bits size, Representable clusterSize usable bits size) ↔
      clusterSize < 1073742336 ∧ ¬(512 ≤ clusterSize ∧ clusterSize < 1024 ∧ 4294967287 ≤ usable) := by
  constructor
  · rintro ⟨bits, size, h⟩
    exact ⟨h.lt hcs husable, h.not_overfull hcs husable⟩
  · rintro ⟨hlt, hfull⟩
    have hcast : ((512 * 2 ^ chosenBits clusterSize usable : ℕ) : ℤ) =
        512 * 2 ^ chosenBits clusterSize usable := by
      rw [Int.natCast_mul, Int.natCast_pow]
      rfl
    have hpos := Nat.pow_pos (n := chosenBits clusterSize usable) Nat.two_pos
    refine ⟨chosenBits clusterSize usable, (512 * 2 ^ chosenBits clusterSize usable : ℕ),
        ⟨30, fun fuel hfuel =>
      setupSpcBits_eq (by omega) husable hfuel⟩,
        fun serial label => getClusterSize_params (chosenBits_le hlt), by omega, hcast, ?_, ?_⟩
    · intro hmin
      rw [hcast]
      exact chosenBits_least hmin
    · rw [hcast]
      exact .inl (chosenBits_limited husable fun hmin hmax => by omega)

/-- Clusters of 32 KB for a volume of 8 GB. -/
theorem clusterSize_representable_32k : ∃ bits size, Representable 32768 16777216 bits size :=
  (clusterSize_representable_iff (by decide) (by decide)).mpr ⟨by decide, by decide⟩

/-- Clusters of 1 GB and a sector become -2 GB; clusters of 512 bytes overfill a volume of 2 TiB. -/
theorem clusterSize_unrepresentable :
    (¬∃ bits size, Representable 1073742336 4194304 bits size) ∧
      ¬∃ bits size, Representable 512 4294967296 bits size := by
  refine ⟨?_, ?_⟩
  · rintro ⟨bits, size, h⟩
    exact absurd (h.lt (by decide) (by decide)) (by decide)
  · rintro ⟨bits, size, h⟩
    exact h.not_overfull (by decide) (by decide) (by decide)

end Representation

end FormatStick.Exfat
