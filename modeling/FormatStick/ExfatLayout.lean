import FormatStick.ExfatClusters
import Mathlib.Algebra.Order.Floor.Div

/-!
# The layout of an exFAT volume

The walk over the objects in whole clusters: two boot regions and the FAT in front, then the
bitmap, the upcase table and the root directory, each at the first cluster that is free. The
walk of `check_size` ends inside the volume exactly if the clusters suffice.
-/
namespace FormatStick.Exfat
open Prog

section Rounding

variable {x y d : ℕ}

theorem divRoundUp_natCast (hd : 0 < d) : divRoundUp x d = (x ⌈/⌉ d : ℕ) := by
  have hsum : (x : ℤ) + d - 1 = (x + d - 1 : ℕ) := by omega
  rw [divRoundUp_eq (Int.natCast_nonneg x) (Int.natCast_pos.mpr hd), Nat.ceilDiv_eq_add_pred_div, hsum,
    Int.natCast_ediv]

theorem roundUp_natCast (hd : 0 < d) : roundUp x d = (x ⌈/⌉ d * d : ℕ) := by
  rw [roundUp, divRoundUp_natCast hd, Int.natCast_mul]

theorem mul_add_ceilDiv (hd : 0 < d) : (y * d + x) ⌈/⌉ d = y + x ⌈/⌉ d := by
  rw [Nat.ceilDiv_eq_add_pred_div, Nat.ceilDiv_eq_add_pred_div, Nat.add_assoc, Nat.add_sub_assoc (by omega),
    Nat.mul_comm y d, Nat.mul_add_div hd]

theorem le_ceilDiv_mul (hd : 0 < d) : x ≤ x ⌈/⌉ d * d := by
  have h := le_smul_ceilDiv (b := x) hd
  rwa [smul_eq_mul, Nat.mul_comm] at h

theorem ceilDiv_mul_lt (hd : 0 < d) : x ⌈/⌉ d * d < x + d := by
  have h := Nat.div_mul_le_self (x + d - 1) d
  rw [Nat.ceilDiv_eq_add_pred_div]
  omega

theorem ceilDiv_pos (hx : 0 < x) (hd : 0 < d) : 0 < x ⌈/⌉ d := by
  rw [Nat.ceilDiv_eq_add_pred_div]
  exact Nat.div_pos (by omega) hd

/-- A negative number is not divided below itself. -/
theorem neg_le_divRoundUp (x : ℕ) : -(x : ℤ) ≤ divRoundUp (-x) 8 := by
  rw [divRoundUp]
  by_cases h : x ≤ 7
  · have hnonneg : 0 ≤ Int.tdiv (-(x : ℤ) + 8 - 1) 8 := Int.tdiv_nonneg (by omega) (by decide)
    omega
  · have hneg : -(x : ℤ) + 8 - 1 = -(x - 7 : ℕ) := by omega
    rw [hneg, Int.neg_tdiv, Int.tdiv_eq_ediv_of_nonneg (Int.natCast_nonneg _)]
    omega

/-- Two more rounded steps do not lead back. -/
theorem lt_roundUp_roundUp {v x d : ℤ} {size : ℕ} (hv : 0 ≤ v) (hd : 0 < d) (h : v ≤ x) :
    v < roundUp (roundUp x d + size) d + d := by
  have hfirst := le_roundUp (x := x) (d := d) (by omega) hd
  have hsecond := le_roundUp (x := roundUp x d + size) (d := d) (by omega) hd
  omega

end Rounding

/-- A volume of `usable` sectors in clusters of `2 ^ bits` of them. -/
structure Geometry where
  usable : ℕ
  bits : ℕ
  usable_le : usable ≤ 4294967296
  bits_le : bits ≤ 21

namespace Geometry

variable (g : Geometry)

/-- The bytes of a cluster. -/
def cluster : ℕ := 512 * 2 ^ g.bits

/-- The whole clusters of the volume. -/
def clusters : ℕ := g.usable / 2 ^ g.bits

/-- The clusters in front of the cluster heap. -/
def heap : ℕ := (65536 + 4 * g.clusters) ⌈/⌉ g.cluster

def bitmapBytes : ℕ := (g.clusters - g.heap) ⌈/⌉ 8

def bitmapClusters : ℕ := g.bitmapBytes ⌈/⌉ g.cluster

def upcaseClusters : ℕ := upcaseSize ⌈/⌉ g.cluster

/-- The clusters of the heap that the formatter gives out. -/
def allocated : ℕ := g.bitmapClusters + g.upcaseClusters + 1

/-- The objects fit. -/
def Fits : Prop := g.heap + g.allocated ≤ g.clusters

instance : Decidable g.Fits := inferInstanceAs (Decidable (_ ≤ _))

def size : FsObject → ℕ
  | .vbr => 6144
  | .fat => 4 * g.clusters
  | .cbm => g.bitmapBytes
  | .uct => upcaseSize
  | .rootdir => g.cluster

/-- The objects with their places, the boot region twice. -/
def places : List (FsObject × ℕ) :=
  [(.vbr, 0), (.vbr, 6144), (.fat, 65536), (.cbm, g.heap * g.cluster),
    (.uct, (g.heap + g.bitmapClusters) * g.cluster),
    (.rootdir, (g.heap + g.bitmapClusters + g.upcaseClusters) * g.cluster)]

theorem pow_pos : 0 < 2 ^ g.bits := Nat.pow_pos Nat.two_pos

theorem pow_le : 2 ^ g.bits ≤ 2097152 := Nat.pow_le_pow_right Nat.two_pos g.bits_le

theorem cluster_bounds : 512 ≤ g.cluster ∧ g.cluster ≤ 1073741824 := by
  have hpos := g.pow_pos
  have hle := g.pow_le
  rw [cluster]
  omega

theorem cluster_pos : 0 < g.cluster := Nat.lt_of_lt_of_le (by decide) g.cluster_bounds.1

theorem dvd_cluster : 512 ∣ g.cluster := Nat.dvd_mul_right 512 _

theorem clusters_le : g.clusters ≤ 4294967296 := Nat.le_trans (Nat.div_le_self _ _) g.usable_le

/-- The whole clusters of the volume are the clusters of its bytes. -/
theorem clusters_eq : g.usable * 512 / g.cluster = g.clusters := by
  rw [cluster, Nat.mul_comm, Nat.mul_div_mul_left _ _ (by decide)]
  rfl

theorem clusters_mul_le : g.clusters * g.cluster ≤ g.usable * 512 := by
  rw [← g.clusters_eq]
  exact Nat.div_mul_le_self _ _

theorem le_heap : 65536 + 4 * g.clusters ≤ g.heap * g.cluster := le_ceilDiv_mul g.cluster_pos

theorem heap_pos : 0 < g.heap := ceilDiv_pos (by omega) g.cluster_pos

theorem bitmapBytes_bounds : g.clusters - g.heap ≤ 8 * g.bitmapBytes ∧
      8 * g.bitmapBytes < g.clusters - g.heap + 8 := by
  have hle := le_ceilDiv_mul (x := g.clusters - g.heap) (d := 8) (by decide)
  have hlt := ceilDiv_mul_lt (x := g.clusters - g.heap) (d := 8) (by decide)
  rw [bitmapBytes]
  omega

theorem bitmapBytes_le : g.bitmapBytes ≤ g.bitmapClusters * g.cluster := le_ceilDiv_mul g.cluster_pos

theorem upcaseSize_le : upcaseSize ≤ g.upcaseClusters * g.cluster := le_ceilDiv_mul g.cluster_pos

theorem upcaseClusters_bounds : 0 < g.upcaseClusters ∧ g.upcaseClusters ≤ 12 := by
  have hcluster := g.cluster_bounds
  refine ⟨ceilDiv_pos (by decide) g.cluster_pos, ?_⟩
  rw [upcaseClusters, ceilDiv_le_iff_le_mul g.cluster_pos, upcaseSize]
  omega

theorem bitmapClusters_le : g.bitmapClusters ≤ 1048576 := by
  have hcluster := g.cluster_bounds
  have hclusters := g.clusters_le
  have hbytes := g.bitmapBytes_bounds
  rw [bitmapClusters, ceilDiv_le_iff_le_mul g.cluster_pos]
  omega

theorem allocated_le : g.allocated ≤ 1048589 := by
  have hbitmap := g.bitmapClusters_le
  have hupcase := g.upcaseClusters_bounds
  rw [allocated]
  omega

section Fits

variable {g} (hfits : g.Fits)
include hfits

theorem Fits.heap_lt : g.heap + g.allocated ≤ g.clusters := hfits

theorem Fits.bitmapClusters_pos : 0 < g.bitmapClusters := by
  have hle := hfits.heap_lt
  have hbytes := g.bitmapBytes_bounds
  rw [allocated] at hle
  exact ceilDiv_pos (by omega) g.cluster_pos

/-- The whole heap area that is given out lies in the volume. -/
theorem Fits.end_le : (g.heap + g.allocated) * g.cluster ≤ g.usable * 512 :=
  Nat.le_trans (Nat.mul_le_mul_right _ hfits.heap_lt) g.clusters_mul_le

/-- The bits of the clusters that are given out lie in the bitmap. -/
theorem Fits.allocated_bits : g.allocated ⌈/⌉ 8 ≤ g.bitmapBytes := by
  have hle := hfits.heap_lt
  have hbytes := g.bitmapBytes_bounds
  rw [ceilDiv_le_iff_le_mul (by decide)]
  omega

/-- The entries of the FAT that are written end in front of the heap. With a heap in the second
cluster they can be one entry more than the clusters of the volume. -/
theorem Fits.fat_entries : 65536 + 4 * (2 + g.allocated) ≤ g.heap * g.cluster := by
  have hle := hfits.heap_lt
  have hheap := g.le_heap
  have hpos := g.heap_pos
  by_cases hroom : 2 + g.allocated ≤ g.clusters
  · omega
  · have hone : g.heap = 1 := by omega
    have hdvd := g.dvd_cluster
    have hcluster := g.cluster_bounds
    rw [hone, Nat.one_mul] at hheap ⊢
    have hbitmap : g.bitmapClusters ≤ 1 := by
      have hbytes := g.bitmapBytes_bounds
      rw [bitmapClusters, ceilDiv_le_iff_le_mul g.cluster_pos]
      omega
    have hupcase : g.upcaseClusters ≤ 1 := by
      rw [upcaseClusters, ceilDiv_le_iff_le_mul g.cluster_pos, upcaseSize]
      omega
    rw [allocated] at hroom ⊢
    omega

end Fits

section Params

variable (serial : ℕ) (label : List ℕ)

/-- The parameters of the volume. -/
def params : Params := Exfat.params g.usable g.bits serial label

@[simp] theorem getSectorSize_params :
    getSectorSize (g.params serial label) = 512 := Exfat.getSectorSize_params

@[simp] theorem getClusterSize_params : getClusterSize (g.params serial label) = g.cluster :=
  Exfat.getClusterSize_params g.bits_le

@[simp] theorem volumeSize_params : (g.params serial label).volumeSize = (g.usable * 512 : ℕ) := by
  have hle := g.usable_le
  have hvolume : (g.params serial label).volumeSize = i64 g.usable * 512 := rfl
  rw [hvolume, i64_of_lt (by omega)]
  rfl

/-- `get_alignment`. -/
def alignment : FsObject → ℕ
  | .vbr => 512
  | .fat => 65536
  | _ => g.cluster

@[simp] theorem getAlignment_params (object : FsObject) :
    getAlignment (g.params serial label) object = g.alignment object := by
  cases object with
  | vbr => exact g.getSectorSize_params serial label
  | fat =>
    have hfat : getAlignment (g.params serial label) .fat = 128 * getSectorSize (g.params serial label) := rfl
    rw [hfat, getSectorSize_params]
    rfl
  | cbm | uct | rootdir => exact g.getClusterSize_params serial label

@[simp] theorem vbrSize_params : vbrSize (g.params serial label) = 6144 := by
  rw [vbrSize, getSectorSize_params]
  rfl

@[simp] theorem tdiv_volumeSize : Int.tdiv (g.params serial label).volumeSize g.cluster = g.clusters := by
  rw [volumeSize_params, Int.tdiv_eq_ediv_of_nonneg (Int.natCast_nonneg _), ← Int.natCast_ediv, clusters_eq]

@[simp] theorem fatSize_params : fatSize (g.params serial label) = (4 * g.clusters : ℕ) := by
  rw [fatSize, getClusterSize_params, tdiv_volumeSize]
  omega

theorem positionOf_cbm {size : FsObject → ℤ} (hvbr : size .vbr = 6144)
    (hfat : size .fat = (4 * g.clusters : ℕ)) :
    positionOf (g.params serial label) size .cbm = (g.heap * g.cluster : ℕ) := by
  have hbefore : objects.takeWhile (· ≠ .cbm) = [.vbr, .vbr, .fat] := by decide
  have hstart : roundUp (roundUp (roundUp 0 512 + 6144) 512 + 6144) 65536 = 65536 := by decide
  have hsum : (65536 : ℤ) + (4 * g.clusters : ℕ) = (65536 + 4 * g.clusters : ℕ) := by omega
  rw [positionOf, hbefore]
  simp only [List.foldl_cons, List.foldl_nil, advance, getAlignment_params, alignment, hvbr, hfat,
    Nat.cast_ofNat, hstart]
  rw [hsum, roundUp_natCast g.cluster_pos, heap]

theorem getPosition_cbm : getPosition (g.params serial label) .cbm = (g.heap * g.cluster : ℕ) :=
  g.positionOf_cbm serial label (g.vbrSize_params serial label) (g.fatSize_params serial label)

/-- The next object begins at the first cluster behind the one before. -/
theorem roundUp_clusters (y x : ℕ) :
    roundUp ((y * g.cluster : ℕ) + (x : ℤ)) g.cluster = ((y + x ⌈/⌉ g.cluster) * g.cluster : ℕ) := by
  rw [← Int.natCast_add, roundUp_natCast g.cluster_pos, mul_add_ceilDiv g.cluster_pos]

variable (hheap : g.heap ≤ g.clusters)
include hheap

theorem cbmSize_params : cbmSize (g.params serial label) = g.bitmapBytes := by
  have hinside := Nat.le_trans (Nat.mul_le_mul_right g.cluster hheap) g.clusters_mul_le
  have hrest : (g.usable * 512 - g.heap * g.cluster) / g.cluster = g.clusters - g.heap := by
    rw [Nat.mul_comm g.heap, Nat.sub_mul_div, clusters_eq]
  have hsub : ((g.usable * 512 : ℕ) : ℤ) - (g.heap * g.cluster : ℕ) =
      (g.usable * 512 - g.heap * g.cluster : ℕ) :=
    (Int.ofNat_sub hinside).symm
  rw [cbmSize, ← Exfat.getPosition_cbm, g.getPosition_cbm, volumeSize_params, hsub, getClusterSize_params,
    Int.tdiv_eq_ediv_of_nonneg (Int.natCast_nonneg _), ← Int.natCast_ediv, hrest]
  exact divRoundUp_natCast (by decide)

theorem getSize_params (object : FsObject) : getSize (g.params serial label) object = g.size object := by
  cases object with
  | vbr => exact g.vbrSize_params serial label
  | fat => exact g.fatSize_params serial label
  | cbm => exact g.cbmSize_params serial label hheap
  | uct => rfl
  | rootdir => exact g.getClusterSize_params serial label

theorem getPosition_uct :
    getPosition (g.params serial label) .uct = ((g.heap + g.bitmapClusters) * g.cluster : ℕ) := by
  have hbefore : objects.takeWhile (· ≠ .uct) = objects.takeWhile (· ≠ .cbm) ++ [.cbm] := by decide
  have hcbm := g.getPosition_cbm serial label
  rw [getPosition, positionOf, getAlignment_params] at hcbm ⊢
  rw [hbefore, List.foldl_append, List.foldl_cons, List.foldl_nil, advance, getAlignment_params]
  have halign : (g.alignment .uct : ℤ) = g.cluster := rfl
  rw [hcbm, getSize_params g serial label hheap, halign]
  exact g.roundUp_clusters g.heap g.bitmapBytes

theorem getPosition_rootdir : getPosition (g.params serial label) .rootdir =
    ((g.heap + g.bitmapClusters + g.upcaseClusters) * g.cluster : ℕ) := by
  have hbefore : objects.takeWhile (· ≠ .rootdir) = objects.takeWhile (· ≠ .uct) ++ [.uct] := by decide
  have huct := g.getPosition_uct serial label hheap
  rw [getPosition, positionOf, getAlignment_params] at huct ⊢
  rw [hbefore, List.foldl_append, List.foldl_cons, List.foldl_nil, advance, getAlignment_params]
  have halign : (g.alignment .rootdir : ℤ) = g.cluster := rfl
  rw [huct, getSize_params g serial label hheap, halign]
  exact g.roundUp_clusters (g.heap + g.bitmapClusters) upcaseSize

/-- The walk ends behind the root directory. -/
theorem foldl_advance : objects.foldl (advance (g.params serial label) (getSize (g.params serial label))) 0 =
    ((g.heap + g.allocated) * g.cluster : ℕ) := by
  have hall : objects = objects.takeWhile (· ≠ .rootdir) ++ [.rootdir] := by decide
  have hroot := g.getPosition_rootdir serial label hheap
  have hsum : g.heap + g.allocated = g.heap + g.bitmapClusters + g.upcaseClusters + 1 := by
    rw [allocated]
    omega
  rw [getPosition, positionOf] at hroot
  rw [hall, List.foldl_append, List.foldl_cons, List.foldl_nil, advance, hroot, hsum, Nat.succ_mul,
    Int.natCast_add,
    getSize_params g serial label hheap, size]

omit hheap in
/-- A heap behind the end of the volume does not fit; its bitmap would have a negative size. -/
theorem foldl_advance_gt (h : g.clusters < g.heap) : (g.params serial label).volumeSize <
    objects.foldl (advance (g.params serial label) (getSize (g.params serial label))) 0 := by
  have hcluster := g.cluster_bounds
  have hbehind : g.usable * 512 < g.heap * g.cluster := by
    rwa [← Nat.div_lt_iff_lt_mul g.cluster_pos, clusters_eq]
  -- the size is the number of missing clusters, divided by 8
  have hsize : (g.usable * 512 : ℕ) ≤ ((g.heap * g.cluster : ℕ) : ℤ) + cbmSize (g.params serial label) := by
    have hsub : ((g.usable * 512 : ℕ) : ℤ) - (g.heap * g.cluster : ℕ) =
      -(g.heap * g.cluster - g.usable * 512 : ℕ) := by omega
    have hmissing := Nat.div_le_self (g.heap * g.cluster - g.usable * 512) g.cluster
    have hdiv : -((g.heap * g.cluster - g.usable * 512) / g.cluster : ℕ) ≤
        cbmSize (g.params serial label) := by
      rw [cbmSize, ← Exfat.getPosition_cbm, g.getPosition_cbm, volumeSize_params, hsub,
        getClusterSize_params, Int.neg_tdiv, Int.tdiv_eq_ediv_of_nonneg (Int.natCast_nonneg _),
        ← Int.natCast_ediv]
      exact neg_le_divRoundUp _
    omega
  have hall : objects = objects.takeWhile (· ≠ .cbm) ++ [.cbm, .uct, .rootdir] := by decide
  have hcbm := g.getPosition_cbm serial label
  have hroot : getSize (g.params serial label) .rootdir = g.cluster := g.getClusterSize_params serial label
  rw [getPosition, positionOf] at hcbm
  rw [hall, List.foldl_append, List.foldl_cons, advance, hcbm, List.foldl_cons, advance,
    List.foldl_cons, advance,
    List.foldl_nil, getAlignment_params, getAlignment_params, hroot, volumeSize_params]
  exact lt_roundUp_roundUp (Int.natCast_nonneg _) (Int.natCast_pos.mpr g.cluster_pos) hsize

end Params

/-- `check_size` accepts exactly the volumes that have the clusters. -/
theorem checkSize_params (serial : ℕ) (label : List ℕ) :
    checkSize (g.params serial label) (g.params serial label).volumeSize = decide g.Fits := by
  rw [checkSize, decide_eq_decide]
  by_cases hheap : g.heap ≤ g.clusters
  · rw [foldl_advance g serial label hheap, volumeSize_params, Int.ofNat_le,
      ← Nat.le_div_iff_mul_le g.cluster_pos, clusters_eq]
    rfl
  · have hgt := g.foldl_advance_gt serial label (Nat.not_le.mp hheap)
    constructor
    · intro hle
      omega
    · intro hfits
      have hle := hfits.heap_lt
      omega

/-- The walk over the objects from `position` on meets each at its place. -/
def Walk (p : Params) : ℤ → List (FsObject × ℕ) → Prop
  | _, [] => True
  | position, x :: xs => roundUp position (getAlignment p x.1) = x.2 ∧ Walk p (x.2 + getSize p x.1) xs

theorem walk_places (serial : ℕ) (label : List ℕ) (hheap : g.heap ≤ g.clusters) :
    Walk (g.params serial label) 0 g.places := by
  have hsize := g.getSize_params serial label hheap
  have hfront : roundUp 0 512 = 0 ∧ roundUp 6144 512 = 6144 ∧ roundUp 12288 65536 = 65536 := by decide
  have hfat : (65536 : ℤ) + (4 * g.clusters : ℕ) = (65536 + 4 * g.clusters : ℕ) := by omega
  simp only [places, Walk, getAlignment_params, hsize, and_true]
  refine ⟨hfront.1, hfront.2.1, hfront.2.2, ?_, g.roundUp_clusters g.heap g.bitmapBytes,
    g.roundUp_clusters (g.heap + g.bitmapClusters) upcaseSize⟩
  exact (congrArg (roundUp · g.cluster) hfat).trans (roundUp_natCast g.cluster_pos)

theorem places_objects : g.places.map Prod.fst = objects := rfl

end Geometry

end FormatStick.Exfat
