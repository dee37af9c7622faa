import FormatStick.ExfatFiles

/-!
# A formatted exFAT volume is mounted

What the formatter left at the places of the objects is what `exfat_mount` looks for. The fields
of the super block describe the layout, so that every cluster is found at its place.
-/
namespace FormatStick.Exfat
open Prog Splice Fields

section Fields

variable (g : Geometry) (serial : ℕ) (label : List ℕ)

/-- What a super block says about the volume. -/
structure Describes (g : Geometry) (sb : Buf) : Prop where
  oemName : (List.range 8).map (fun i => sb (3 + i)) = [0x45, 0x58, 0x46, 0x41, 0x54, 0x20, 0x20, 0x20]
  version : sb 0x68 = 0 ∧ sb 0x69 = 1
  fatCount : sb 0x6e = 1
  sectorBits : sbSectorBits sb = 9
  spcBits : sbSpcBits sb = g.bits
  fatSectorStart : sbFatSectorStart sb = 128
  clusterSectorStart : sbClusterSectorStart sb = g.heap * 2 ^ g.bits
  clusterCount : sbClusterCount sb = g.clusters - g.heap
  rootdirCluster : sbRootdirCluster sb = 2 + g.bitmapClusters + g.upcaseClusters

variable {g : Geometry} {serial : ℕ} {label : List ℕ}

theorem superBlock_bytes :
    (List.range 8).map (fun i => superBlock (g.params serial label) (3 + i)) =
      [0x45, 0x58, 0x46, 0x41, 0x54, 0x20, 0x20, 0x20] ∧
      superBlock (g.params serial label) 0x68 = 0 ∧ superBlock (g.params serial label) 0x69 = 1 ∧
      superBlock (g.params serial label) 0x6e = 1 ∧ superBlock (g.params serial label) 0x6c = 9 ∧
      superBlock (g.params serial label) 0x6d = u8 g.bits := by
  exact ⟨rfl, rfl, rfl, rfl, rfl, rfl⟩

theorem fatSectorStart_params :
    u32 (Int.tdiv (getAlignment (g.params serial label) .fat)
      (getSectorSize (g.params serial label))) = 128 := by
  have halign : (g.alignment .fat : ℤ) = 65536 := rfl
  rw [Geometry.getAlignment_params, Geometry.getSectorSize_params, halign]
  decide

theorem superBlock_fatSectorStart : leNat (superBlock (g.params serial label)) 0x50 4 = 128 := by
  simp (disch := simp only [List.length_cons, List.length_nil, leBytes_length]; omega)
    only [superBlock, leNat_put_of_disjoint, leNat_put, fatSectorStart_params]
  rfl

theorem superBlock_clusterSectorStart (hfits : g.Fits) :
    leNat (superBlock (g.params serial label)) 0x58 4 = g.heap * 2 ^ g.bits := by
  have hheap := hfits.heap_lt
  have hroom : g.heap * 2 ^ g.bits < 4294967296 := by
    have hle : (g.heap + 1) * 2 ^ g.bits ≤ g.clusters * 2 ^ g.bits :=
      Nat.mul_le_mul_right _ (by rw [Geometry.allocated] at hheap; omega)
    have hclusters : g.clusters * 2 ^ g.bits ≤ g.usable := Nat.div_mul_le_self _ _
    have husable := g.usable_le
    have hpow := g.pow_pos
    rw [Nat.succ_mul] at hle
    omega
  have hdiv : Int.tdiv (g.heap * g.cluster : ℕ) 512 = (g.heap * 2 ^ g.bits : ℕ) := by
    have hprod : g.heap * g.cluster = g.heap * 2 ^ g.bits * 512 := by
      rw [Geometry.cluster, Nat.mul_comm 512, Nat.mul_assoc]
    rw [Int.tdiv_eq_ediv_of_nonneg (Int.natCast_nonneg _), hprod, Int.natCast_mul]
    exact Int.mul_ediv_cancel _ (by decide)
  simp (disch := simp only [List.length_cons, List.length_nil, leBytes_length]; omega)
    only [superBlock, leNat_put_of_disjoint, leNat_put]
  rw [Geometry.getPosition_cbm, Geometry.getSectorSize_params, hdiv, u32_of_lt hroom]
  exact Nat.mod_eq_of_lt hroom

theorem superBlock_rootdirCluster (hfits : g.Fits) :
    leNat (superBlock (g.params serial label)) 0x60 4 = 2 + g.bitmapClusters + g.upcaseClusters := by
  have hheap := hfits.heap_lt
  have hallocated := g.allocated_le
  rw [Geometry.allocated] at hallocated hheap
  have hsub : ((((g.heap + g.bitmapClusters + g.upcaseClusters) * g.cluster : ℕ) : ℤ) - (g.heap *
      g.cluster : ℕ)) =
      ((g.bitmapClusters + g.upcaseClusters) * g.cluster : ℕ) := by
    rw [Nat.add_assoc, Nat.add_mul g.heap]
    omega
  have hdiv : Int.tdiv ((g.bitmapClusters + g.upcaseClusters) * g.cluster : ℕ) g.cluster =
      (g.bitmapClusters + g.upcaseClusters : ℕ) := by
    rw [Int.tdiv_eq_ediv_of_nonneg (Int.natCast_nonneg _), ← Int.natCast_ediv,
      Nat.mul_div_cancel _ g.cluster_pos]
  have hsum : ((g.bitmapClusters + g.upcaseClusters : ℕ) : ℤ) + 2 =
    (2 + g.bitmapClusters + g.upcaseClusters : ℕ) := by omega
  simp (disch := simp only [List.length_cons, List.length_nil, leBytes_length]; omega)
    only [superBlock, leNat_put_of_disjoint, leNat_put]
  rw [g.getPosition_cbm, g.getPosition_rootdir serial label (by omega), Geometry.getClusterSize_params, hsub,
    hdiv, hsum,
    u32_of_lt (by omega)]
  exact Nat.mod_eq_of_lt (by omega)

/-- Rounding up twice. -/
theorem ceilDiv_ceilDiv {x a b : ℕ} (ha : 0 < a) (hb : 0 < b) : x ⌈/⌉ a ⌈/⌉ b = x ⌈/⌉ (a * b) := by
  refine eq_of_forall_ge_iff fun c => ?_
  rw [ceilDiv_le_iff_le_mul hb, ceilDiv_le_iff_le_mul ha, ceilDiv_le_iff_le_mul (Nat.mul_pos ha hb),
    Nat.mul_assoc]

/-- The FAT, rounded up to whole clusters, ends where the heap begins. -/
theorem heap_eq : (128 + (4 * g.clusters) ⌈/⌉ 512) ⌈/⌉ 2 ^ g.bits = g.heap := by
  have hfat : 128 + (4 * g.clusters) ⌈/⌉ 512 = (128 * 512 + 4 * g.clusters) ⌈/⌉ 512 :=
    (mul_add_ceilDiv (by decide)).symm
  rw [hfat, ceilDiv_ceilDiv (by decide) g.pow_pos]
  rfl

theorem superBlock_clusterCount (hfits : g.Fits) (hclusters : g.clusters < 4294967296) :
    leNat (superBlock (g.params serial label)) 0x5c 4 = g.clusters - g.heap := by
  have hheap := hfits.heap_lt
  have hpow := g.pow_le
  have hpos := g.pow_pos
  have hmax : u32 (Int.tdiv (g.params serial label).volumeSize
      (getClusterSize (g.params serial label))) = g.clusters := by
    rw [Geometry.getClusterSize_params, Geometry.tdiv_volumeSize, u32_of_lt hclusters]
  have hsectors : u32 (divRoundUp (g.clusters * 4) (getSectorSize (g.params serial label))) =
      4 * g.clusters ⌈/⌉ 512 := by
    have hcast : (g.clusters : ℤ) * 4 = (4 * g.clusters : ℕ) := by omega
    have hsector : (512 : ℤ) = (512 : ℕ) := rfl
    rw [Geometry.getSectorSize_params, hcast, hsector, divRoundUp_natCast (by decide), u32_of_lt]
    rw [Nat.ceilDiv_eq_add_pred_div]
    omega
  have hspc : u32 (shiftOne (g.params serial label).spcBits) = 2 ^ g.bits := by
    have hbits : (g.params serial label).spcBits = g.bits := rfl
    rw [hbits, shiftOne_of_lt (Nat.lt_of_le_of_lt g.bits_le (by decide)), u32_of_lt (by omega)]
  have hsum : 4 * g.clusters ⌈/⌉ 512 ≤ 33554432 := by
    rw [ceilDiv_le_iff_le_mul (by decide)]
    omega
  have hheapEq := heap_eq (g := g)
  have hround := ceilDiv_mul_lt (x := 128 + 4 * g.clusters ⌈/⌉ 512) g.pow_pos
  have hle := le_ceilDiv_mul (x := 128 + 4 * g.clusters ⌈/⌉ 512) g.pow_pos
  have hrounded : u32 ((u32
      ((u32 (((128 : ℕ) : ℤ) + (4 * g.clusters ⌈/⌉ 512 : ℕ)) : ℤ) + (2 ^ g.bits : ℕ) - 1) / 2 ^ g.bits *
      2 ^ g.bits : ℕ)) = g.heap * 2 ^ g.bits := by
    have hpred : ((128 + 4 * g.clusters ⌈/⌉ 512 : ℕ) : ℤ) + (2 ^ g.bits : ℕ) - 1 =
        (128 + 4 * g.clusters ⌈/⌉ 512 + 2 ^ g.bits - 1 : ℕ) := by omega
    have hsmall : u32 ((128 + 4 * g.clusters ⌈/⌉ 512 + 2 ^ g.bits - 1 : ℕ) : ℤ) =
        128 + 4 * g.clusters ⌈/⌉ 512 + 2 ^ g.bits - 1 :=
      u32_of_lt (by omega)
    rw [u32_add (by omega), hpred, hsmall, ← Nat.ceilDiv_eq_add_pred_div, u32_of_lt (by omega), hheapEq]
  rw [hheapEq] at hround hle
  have hcount : u32 (((g.heap * 2 ^ g.bits : ℕ) : ℤ) - (128 : ℕ)) = g.heap * 2 ^ g.bits - 128 := by
    unfold u32
    omega
  have hend : u32 (((128 : ℕ) : ℤ) + (g.heap * 2 ^ g.bits - 128 : ℕ)) = g.heap * 2 ^ g.bits := by
    rw [u32_add (by omega)]
    omega
  have hshift : (g.heap * 2 ^ g.bits) >>> (g.params serial label).spcBits = g.heap := by
    have hbits : (g.params serial label).spcBits = g.bits := rfl
    rw [hbits, Nat.shiftRight_eq_div_pow, Nat.mul_div_cancel _ g.pow_pos]
  have hsub : u32 ((g.clusters : ℤ) - g.heap) = g.clusters - g.heap := by
    unfold u32
    omega
  simp (disch := simp only [List.length_cons, List.length_nil, leBytes_length]; omega)
    only [superBlock, leNat_put_of_disjoint, leNat_put, hmax, hsectors, hspc, fatSectorStart_params,
    hrounded, hcount, hend, hshift, hsub]
  exact Nat.mod_eq_of_lt (by omega)

/-- A boot sector with the bytes of the super block describes the volume. -/
theorem describes_superBlock (hfits : g.Fits) (hclusters : g.clusters < 4294967296) {sb : Buf}
    (hsb : ∀ i < 512, sb i = superBlock (g.params serial label) i) : Describes g sb := by
  have hfield : ∀ o n, o + n ≤ 512 → leNat sb o n = leNat (superBlock (g.params serial label)) o n :=
    fun o n h => leNat_congr fun i hi => hsb (o + i) (by omega)
  obtain ⟨hoem, hminor, hmajor, hcount, hsector, hspc⟩ := @superBlock_bytes g serial label
  have hbits := g.bits_le
  refine ⟨?_, ⟨?_, ?_⟩, ?_, ?_, ?_, ?_, ?_, ?_, ?_⟩
  · rw [← hoem]
    exact List.map_congr_left fun i hi => hsb _ (by have h := List.mem_range.mp hi; omega)
  · rw [hsb _ (by decide), hminor]
  · rw [hsb _ (by decide), hmajor]
  · rw [hsb _ (by decide), hcount]
  · rw [sbSectorBits, hsb _ (by decide), hsector]
    rfl
  · rw [sbSpcBits, hsb _ (by decide), hspc]
    exact Nat.mod_eq_of_lt (by omega)
  · rw [sbFatSectorStart, hfield _ _ (by decide), superBlock_fatSectorStart]
  · rw [sbClusterSectorStart, hfield _ _ (by decide), superBlock_clusterSectorStart hfits]
  · rw [sbClusterCount, hfield _ _ (by decide), superBlock_clusterCount hfits hclusters]
  · rw [sbRootdirCluster, hfield _ _ (by decide), superBlock_rootdirCluster hfits]

end Fields

section Described

variable {d : ℕ} {g : Geometry} {sb : Buf} (hsb : Describes g sb)
include hsb

theorem Describes.clusterSize : clusterSize sb = g.cluster := by
  rw [Exfat.clusterSize, hsb.sectorBits, hsb.spcBits]
  rfl

theorem Describes.sectorSize : sectorSize sb = 512 := by
  rw [Exfat.sectorSize, hsb.sectorBits]
  rfl

/-- The clusters of the heap follow each other behind the FAT. -/
theorem Describes.exfatC2o (k : ℕ) : exfatC2o sb (2 + k) = (g.heap + k) * g.cluster := by
  rw [Exfat.exfatC2o, s2o, hsb.clusterSectorStart, hsb.spcBits, hsb.sectorBits, Nat.add_sub_cancel_left,
    ← Nat.add_mul,
    Geometry.cluster, Nat.mul_assoc, Nat.mul_comm 512]
  rfl

theorem Describes.fatOffset : s2o sb (sbFatSectorStart sb) = 65536 := by
  rw [s2o, hsb.fatSectorStart, hsb.sectorBits]
  rfl

theorem Describes.clusterInvalid_iff (k : ℕ) : clusterInvalid sb (2 + k) ↔ g.clusters - g.heap ≤ k := by
  rw [clusterInvalid, hsb.clusterCount, Nat.add_sub_cancel_left]
  omega

theorem Describes.inReach (hbits : g.bits ≤ 16) (hfits : g.Fits) (hroom : d + g.usable ≤ 4294967296) :
    InReach d sb := by
  have hheap := g.le_heap
  have hend := hfits.end_le
  have hcluster := g.cluster_bounds
  have hall := hfits.heap_lt
  refine ⟨?_, fun cluster hvalid => ?_, fun cluster hvalid => ?_⟩
  · rw [hsb.sectorBits, hsb.spcBits]
    omega
  · obtain ⟨k, rfl⟩ : ∃ k, cluster = 2 + k := Nat.exists_eq_add_of_le (Nat.not_lt.mp fun h => hvalid (.inl h))
    rw [hsb.clusterInvalid_iff] at hvalid
    have hle : (g.heap + k + 1) * g.cluster ≤ g.clusters * g.cluster := Nat.mul_le_mul_right _ (by omega)
    have hvolume := g.clusters_mul_le
    rw [Nat.succ_mul] at hle
    rw [hsb.exfatC2o, hsb.clusterSize]
    omega
  · obtain ⟨k, rfl⟩ : ∃ k, cluster = 2 + k := Nat.exists_eq_add_of_le (Nat.not_lt.mp fun h => hvalid (.inl h))
    rw [hsb.clusterInvalid_iff] at hvalid
    have hpos := g.heap_pos
    rw [Nat.add_mul, Geometry.allocated, Nat.add_mul, Nat.one_mul] at hend
    rw [hsb.fatOffset]
    omega

end Described

/-- The entry at `k` in the root directory. -/
def Geometry.entry (g : Geometry) (serial : ℕ) (label : List ℕ) (upcaseTable : Buf) (k : ℕ) : Buf :=
  if k = 0 then labelEntry (g.params serial label)
  else if k = 1 then bitmapEntry (g.params serial label)
  else if k = 2 then upcaseEntry (g.params serial label) upcaseTable
  else zeros

section Image

variable {g : Geometry} {serial : ℕ} {label : List ℕ} {upcaseTable : Buf} {a b : ℕ → UInt8}
  (himage : Imaged g (g.content serial label upcaseTable) a b)
include himage

/-- The sectors of the boot region. -/
theorem Imaged.vbr {k : ℕ} {sector : Buf} (hk : (vbrSectors (g.params serial label))[k]? = some sector)
    {i : ℕ} (hi : i < 512) :
    b (k * 512 + i) = sector i := by
  have hlt : k < 12 := by
    have h := (List.getElem?_eq_some_iff.mp hk).1
    simpa [vbrSectors] using h
  have hmem : (FsObject.vbr, 0) ∈ g.places := List.mem_cons_self
  have hreserved : g.reserved .vbr = 6144 := rfl
  have hbyte := himage.objects _ hmem (k * 512 + i) (by dsimp only; omega)
  dsimp only at hbyte
  rw [Nat.zero_add] at hbyte
  have hlen : ∀ sector : Buf, (bytes sector 512).length = 512 := fun sector => by simp [bytes]
  rw [hbyte, Geometry.content, getD_flatMap hlen hk hi, List.getD_eq_getElem?_getD]
  simp [bytes, hi]

/-- The entries of the FAT. -/
theorem Imaged.fat (hfits : g.Fits) {k value : ℕ} (hk : g.fatEntries[k]? = some value)
    (hvalue : value < 4294967296) :
    leNat b (65536 + k * 4) 4 = value := by
  have hlt : k < 2 + g.allocated := by
    have h := (List.getElem?_eq_some_iff.mp hk).1
    rwa [g.fatEntries_length hfits] at h
  have hmem : (FsObject.fat, 65536) ∈ g.places := by simp [Geometry.places]
  have hreserved : g.written .fat ≤ g.reserved .fat := le_max_right _ _
  have hwritten : g.written .fat = 4 * (2 + g.allocated) := rfl
  have hbytes : ∀ i < 4, b (65536 + k * 4 + i) = (leBytes 4 value).getD i 0 := by
    intro i hi
    have hbyte := himage.objects _ hmem (k * 4 + i) (by dsimp only; omega)
    dsimp only at hbyte
    rw [Nat.add_assoc, hbyte, Geometry.content, getD_flatMap (leBytes_length 4) hk hi]
  have hfield : leNat b (65536 + k * 4) 4 = leNat (fun i => (leBytes 4 value).getD i 0) 0 4 := by
    refine leNat_congr fun i hi => ?_
    rw [Nat.zero_add]
    exact hbytes i hi
  rw [hfield, leNat_leBytes]
  exact Nat.mod_eq_of_lt hvalue

/-- The bitmap of the clusters, up to the end of its clusters. -/
theorem Imaged.cbm {i : ℕ} (hi : i < g.bitmapBytes) :
    b (g.heap * g.cluster + i) = if i < g.allocated ⌈/⌉ 8 then bitmap g.allocated i else 0 := by
  have hmem : (FsObject.cbm, g.heap * g.cluster) ∈ g.places := by simp [Geometry.places]
  have hsize : g.size .cbm ≤ g.reserved .cbm := le_max_left _ _
  have hbitmap : g.size .cbm = g.bitmapBytes := rfl
  have hbyte := himage.objects _ hmem i (by dsimp only; omega)
  dsimp only at hbyte
  rw [hbyte, Geometry.content, List.getD_eq_getElem?_getD]
  by_cases hin : i < g.allocated ⌈/⌉ 8
  · simp [bytes, hin]
  · simp [bytes, hin]

theorem Imaged.uct {i : ℕ} (hi : i < upcaseSize) :
    b ((g.heap + g.bitmapClusters) * g.cluster + i) = upcaseTable i := by
  have hmem : (FsObject.uct, (g.heap + g.bitmapClusters) * g.cluster) ∈ g.places := by simp [Geometry.places]
  have hsize : g.size .uct ≤ g.reserved .uct := le_max_left _ _
  have hbyte := himage.objects _ hmem i (Nat.lt_of_lt_of_le hi hsize)
  dsimp only at hbyte
  rw [hbyte, Geometry.content, List.getD_eq_getElem?_getD]
  simp [bytes, hi]

/-- The entries of the root directory; behind the three of the formatter they are zero. -/
theorem Imaged.rootdir {k i : ℕ} (hk : 32 * k + i < g.cluster) (hi : i < 32) :
    b ((g.heap + g.bitmapClusters + g.upcaseClusters) * g.cluster + (32 * k + i)) =
      g.entry serial label upcaseTable k i := by
  have hmem : (FsObject.rootdir, (g.heap + g.bitmapClusters + g.upcaseClusters) * g.cluster) ∈ g.places := by
    simp [Geometry.places]
  have hsize : g.size .rootdir ≤ g.reserved .rootdir := le_max_left _ _
  have hcluster : g.size .rootdir = g.cluster := rfl
  have hbyte := himage.objects _ hmem (32 * k + i) (by dsimp only; omega)
  dsimp only at hbyte
  let entries := [labelEntry (g.params serial label), bitmapEntry (g.params serial label),
    upcaseEntry (g.params serial label) upcaseTable]
  have hcontent : g.content serial label upcaseTable .rootdir = entries.flatMap (bytes · 32) := by
    simp [Geometry.content, entries]
  have hlen : ∀ entry : Buf, (bytes entry 32).length = 32 := fun entry => by simp [bytes]
  rw [hbyte, hcontent, Nat.mul_comm 32]
  by_cases hin : k < 3
  · obtain ⟨entry, hget⟩ : ∃ entry, entries[k]? = some entry :=
      ⟨_, List.getElem?_eq_getElem (by simpa [entries] using hin)⟩
    have hentry : entry = g.entry serial label upcaseTable k := by
      obtain rfl | rfl | rfl : k = 0 ∨ k = 1 ∨ k = 2 := by omega
      all_goals exact (Option.some.inj hget).symm
    rw [getD_flatMap hlen hget hi, hentry, List.getD_eq_getElem?_getD]
    simp [bytes, hi]
  · have hbehind : (entries.flatMap (bytes · 32)).length ≤ k * 32 + i := by
      simp [entries, bytes]
      omega
    rw [List.getD_eq_getElem?_getD, List.getElem?_eq_none hbehind, Geometry.entry, if_neg (by omega),
      if_neg (by omega),
      if_neg (by omega)]
    rfl

end Image

section Checksum

variable {d o fuel : ℕ} {front b : ℕ → UInt8}

/-- Sums over equal bytes. -/
theorem rotateSum_congr {f f' : Buf} {is : List ℕ} (h : ∀ i ∈ is, f i = f' i) (sum : BitVec 32) :
    rotateSum sum (is.map f) = rotateSum sum (is.map f') := by
  rw [List.map_congr_left h]

/-- The sectors that are read are added in the order in which they were written. -/
theorem attains_addVbrSectors (hfuel : 2 ^ 32 ≤ fuel) (hroom : d * 512 + 6144 ≤ 2199023255552)
    {sectors : List Buf} {i n : ℕ}
    (hn : sectors.length = n) (hi : i + n ≤ 12) (hsectors : ∀ k sector, sectors[k]? = some sector →
      ∀ j < 512, b ((i + k) * 512 + j) = sector j) (buf : Buf) (sum : BitVec 32) :
    Attains (At front d b o) (fun r => ∃ buf, r = some (buf, sectors.foldl vbrAddChecksum sum))
      (addVbrSectors stick fuel 512 n i buf sum) := by
  induction sectors generalizing i n buf sum with
  | nil =>
    subst hn
    exact attains_pure ⟨buf, rfl⟩
  | cons sector sectors ih =>
    subst hn
    rw [List.length_cons] at hi
    have hx : Carried d ⟨false, i * 512, 512⟩ := carried_read.mpr ⟨fun _ => by omega, by omega⟩
    refine (attains_exfatPread hfuel buf hx).bind fun r hr => ?_
    rw [if_neg (by omega)]
    have hbytes : rotateSum sum (bytes r.2 512) = vbrAddChecksum sum sector := by
      refine rotateSum_congr (fun j hj => ?_) sum
      have hj := List.mem_range.mp hj
      have hread := hsectors 0 sector rfl j hj
      rw [hr.2 j hj, ← hread, Nat.add_zero]
    rw [hbytes]
    simp only [List.foldl_cons]
    refine ih rfl (by omega) (fun k sector' hk j hj => ?_) r.2 _
    have hread := hsectors (k + 1) sector' hk j hj
    rwa [← Nat.add_assoc, Nat.add_right_comm] at hread

variable {g : Geometry} {serial : ℕ} {label : List ℕ} {upcaseTable sb : Buf} {a : ℕ → UInt8}

/-- The checksum of a boot region as it was written. -/
theorem attains_verifyVbrChecksum (hfuel : 2 ^ 32 ≤ fuel) (hroom : d * 512 + 6144 ≤ 2199023255552)
    (himage : Imaged g (g.content serial label upcaseTable) a b) (hsb : Describes g sb) (buf : Buf) :
    Attains (At front d b o) (· = true) (verifyVbrChecksum stick fuel sb buf) := by
  have hcarried : ∀ k < 12, Carried d ⟨false, k * 512, 512⟩ :=
    fun k hk => carried_read.mpr ⟨fun _ => by omega, by omega⟩
  have hx := hcarried 0 (by decide)
  have hlast := hcarried 11 (by decide)
  obtain ⟨sectors, checksum, hsectors, hlen, hall⟩ : ∃ sectors checksum, vbrSectors (g.params serial label) =
      superBlock (g.params serial label) :: sectors ++
        [fun i => (leBytes 4 (BitVec.toNat checksum)).getD (i % 4) 0] ∧
        sectors.length = 10 ∧ checksum =
          sectors.foldl vbrAddChecksum (vbrStartChecksum (superBlock (g.params serial label))) :=
    ⟨_, _, rfl, by simp, rfl⟩
  have hfirst : (vbrSectors (g.params serial label))[0]? = some (superBlock (g.params serial label)) := by
    rw [hsectors]; rfl
  rw [verifyVbrChecksum, hsb.sectorSize]
  refine (attains_exfatPread hfuel buf hx).bind fun r hr => ?_
  obtain ⟨hret, hbytes⟩ := hr
  rw [if_neg (by omega)]
  have hstart : exfatVbrStartChecksum r.2 512 = vbrStartChecksum (superBlock (g.params serial label)) := by
    refine rotateSum_congr (fun i hi => ?_) 0
    have hi := List.mem_range.mp (List.mem_of_mem_filter hi)
    have hread := himage.vbr hfirst hi
    rw [hbytes i hi, ← hread, Nat.zero_mul]
  rw [hstart]
  refine (attains_addVbrSectors hfuel hroom hlen (by decide) (fun k sector hk j hj => ?_) r.2 _).bind
    fun sum hsum => ?_
  · refine himage.vbr ?_ hj
    have hlt : k < sectors.length := (List.getElem?_eq_some_iff.mp hk).1
    rw [hsectors, Nat.add_comm 1 k, List.cons_append, List.getElem?_cons_succ,
      List.getElem?_append_left hlt, hk]
  obtain ⟨buf', rfl⟩ := hsum
  dsimp only
  refine (attains_exfatPread hfuel buf' hlast).bind fun r' hr' => ?_
  obtain ⟨hret', hbytes'⟩ := hr'
  rw [if_neg (by omega), ← hall]
  refine attains_pure (List.all_eq_true.mpr fun i hi => decide_eq_true ?_)
  have hi := List.mem_range.mp hi
  have hend : (vbrSectors (g.params serial label))[11]? = some fun i =>
      (leBytes 4 checksum.toNat).getD (i % 4) 0 := by
    rw [hsectors, List.getElem?_append_right (by rw [List.length_cons, hlen]), List.length_cons, hlen]
    rfl
  have hword : leNat r'.2 (4 * i) 4 = leNat (fun i => (leBytes 4 checksum.toNat).getD i 0) 0 4 := by
    refine leNat_congr fun j hj => ?_
    have hread := himage.vbr hend (i := 4 * i + j) (by omega)
    have hmod : (4 * i + j) % 4 = 0 + j := by omega
    rw [hbytes' _ (by omega), hread, hmod]
  rw [hword, leNat_leBytes]
  exact Nat.mod_eq_of_lt checksum.isLt

end Checksum

end FormatStick.Exfat
