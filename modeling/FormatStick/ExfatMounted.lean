import FormatStick.ExfatRoundTrip

/-!
# The directory of a formatted exFAT volume

The FAT links the clusters of the three objects in the heap, and the bitmap marks exactly these
clusters. The root directory is one cluster. The mount reads its entries one by one: the label,
the bitmap and the upcase table, and behind them only unused entries up to the end.
-/
namespace FormatStick.Exfat
open Prog Splice Fields

/-- The entries of a chain: each links to the next cluster, the last ends it. -/
theorem chain_getElem? (cluster : ℕ) {n k : ℕ} (hk : k < n) :
    (chain cluster n)[k]? = some (if k + 1 < n then cluster + k + 1 else clusterEnd) := by
  by_cases hmore : k + 1 < n
  · rw [if_pos hmore, chain, List.getElem?_append_left (by rw [List.length_range']; omega),
      List.getElem?_range' (show k < n - 1 by omega)]
    simp only [Option.some.injEq]
    omega
  · have hlen : (List.range' (cluster + 1) (n - 1)).length = k := by
      rw [List.length_range']
      omega
    rw [if_neg hmore, chain, List.getElem?_append_right hlen.le, hlen, Nat.sub_self]
    rfl

namespace Geometry

variable (g : Geometry)

/-- The objects in the heap, which are the bitmap, the upcase table and the root directory: the
cluster where each starts and the number of its clusters. -/
def heapObjects : List (ℕ × ℕ) :=
  [(2, g.bitmapClusters), (2 + g.bitmapClusters, g.upcaseClusters),
    (2 + g.bitmapClusters + g.upcaseClusters, 1)]

theorem mem_heapObjects {x : ℕ × ℕ} : x ∈ g.heapObjects ↔ x = (2, g.bitmapClusters) ∨
    x = (2 + g.bitmapClusters, g.upcaseClusters) ∨ x = (2 + g.bitmapClusters + g.upcaseClusters, 1) := by
  simp [heapObjects]

/-- The clusters of the objects are the first of the heap. -/
theorem heapObjects_bounds {x : ℕ × ℕ} (hx : x ∈ g.heapObjects) : 2 ≤ x.1 ∧ x.1 + x.2 ≤ 2 + g.allocated := by
  rw [mem_heapObjects] at hx
  rw [allocated]
  rcases hx with rfl | rfl | rfl <;> dsimp only <;> omega

/-- Each of them belongs to one object. -/
theorem exists_heapObject {k : ℕ} : k < g.allocated ↔
      ∃ x ∈ g.heapObjects, x.1 ≤ 2 + k ∧ 2 + k < x.1 + x.2 := by
  constructor
  · intro hk
    rw [allocated] at hk
    by_cases hcbm : k < g.bitmapClusters
    · exact ⟨_, g.mem_heapObjects.mpr (.inl rfl), by dsimp only; omega, by dsimp only; omega⟩
    by_cases huct : k < g.bitmapClusters + g.upcaseClusters
    · exact ⟨_, g.mem_heapObjects.mpr (.inr (.inl rfl)), by dsimp only; omega, by dsimp only; omega⟩
    · exact ⟨_, g.mem_heapObjects.mpr (.inr (.inr rfl)), by dsimp only; omega, by dsimp only; omega⟩
  · rintro ⟨x, hx, -, hlt⟩
    have hbounds := g.heapObjects_bounds hx
    omega

/-- And to one only. -/
theorem heapObjects_pairwise : g.heapObjects.Pairwise fun x y => x.1 + x.2 ≤ y.1 := by
  simp only [heapObjects, List.pairwise_cons, List.mem_cons, List.not_mem_nil, or_false,
    forall_eq_or_imp, forall_eq]
  exact ⟨⟨Nat.le_refl _, Nat.le_add_right _ _⟩, Nat.le_refl _, fun _ h => h.elim, List.Pairwise.nil⟩

/-- The entries of the FAT that belong to an object. -/
theorem fatEntries_object {g : Geometry} (hfits : g.Fits) {x : ℕ × ℕ} (hx : x ∈ g.heapObjects) {k : ℕ}
    (hk : k < x.2) :
    g.fatEntries[x.1 + k]? = some (if k + 1 < x.2 then x.1 + k + 1 else clusterEnd) := by
  have hcbm := chain_length 2 hfits.bitmapClusters_pos
  have huct := chain_length (2 + g.bitmapClusters) g.upcaseClusters_bounds.1
  have hpieces : g.fatEntries = [0xfffffff8, 0xffffffff] ++ (chain 2 g.bitmapClusters ++
      (chain (2 + g.bitmapClusters) g.upcaseClusters ++
        chain (2 + g.bitmapClusters + g.upcaseClusters) 1)) := by
    simp only [fatEntries, List.append_assoc]
  rw [g.mem_heapObjects] at hx
  rcases hx with rfl | rfl | rfl <;> dsimp only at hk ⊢
  · rw [hpieces, List.getElem?_append_right (by simp), List.getElem?_append_left (by simp [hcbm, hk]),
      ← chain_getElem? 2 hk]
    simp
  · have hbehind : 2 + g.bitmapClusters + k - 2 - g.bitmapClusters = k := by omega
    rw [hpieces, List.getElem?_append_right (by simp; omega),
      List.getElem?_append_right (by simp [hcbm]; omega),
      List.getElem?_append_left (by simp [hcbm, huct, hbehind, hk]),
      ← chain_getElem? (2 + g.bitmapClusters) hk]
    simp [hcbm, hbehind]
  · have hbehind : 2 + g.bitmapClusters + g.upcaseClusters + k - 2 - g.bitmapClusters - g.upcaseClusters =
      k := by omega
    rw [hpieces, List.getElem?_append_right (by simp; omega),
      List.getElem?_append_right (by simp [hcbm]; omega),
      List.getElem?_append_right (by simp [hcbm, huct]; omega),
      ← chain_getElem? (2 + g.bitmapClusters + g.upcaseClusters) hk]
    simp [hcbm, huct, hbehind]

end Geometry

section Consistency

variable {d o fuel serial : ℕ} {g : Geometry} {label : List ℕ} {upcaseTable sb : Buf} {front a b : ℕ → UInt8}

theorem Describes.valid (hsb : Describes g sb) (hfits : g.Fits) {k : ℕ} (hk : k < g.allocated) :
    ¬clusterInvalid sb (2 + k) := by
  have hheap := hfits.heap_lt
  rw [hsb.clusterInvalid_iff]
  omega

/-- The link behind a cluster of an object. -/
theorem Imaged.nextCluster (himage : Imaged g (g.content serial label upcaseTable) a b) (hsb : Describes g sb)
    (hfits : g.Fits)
    {x : ℕ × ℕ} (hx : x ∈ g.heapObjects) {k : ℕ} (hk : k < x.2) :
    nextCluster b sb false (x.1 + k) = if k + 1 < x.2 then x.1 + k + 1 else clusterEnd := by
  have hbounds := g.heapObjects_bounds hx
  have hallocated := g.allocated_le
  rw [Exfat.nextCluster, if_neg Bool.false_ne_true, hsb.fatOffset]
  refine himage.fat hfits (Geometry.fatEntries_object hfits hx hk) ?_
  split_ifs
  · omega
  · decide

/-- The clusters of an object are linked one to the next, and the last one ends the chain. -/
theorem Imaged.chained (himage : Imaged g (g.content serial label upcaseTable) a b) (hsb : Describes g sb)
    (hfits : g.Fits)
    {x : ℕ × ℕ} (hx : x ∈ g.heapObjects) : Chain b sb false (List.range' x.1 x.2) ∧
      ∀ k, k + 1 = x.2 → Exfat.nextCluster b sb false (x.1 + k) = clusterEnd := by
  have hbounds := g.heapObjects_bounds hx
  refine ⟨⟨fun cluster hcluster => ?_, fun k cluster next hthis hnext => ?_⟩, fun k hk => ?_⟩
  · rw [List.mem_range'_1] at hcluster
    obtain ⟨k, rfl⟩ : ∃ k, cluster = 2 + k := Nat.exists_eq_add_of_le (by omega)
    exact hsb.valid hfits (by omega)
  · have hlt : k + 1 < x.2 := by
      have h := (List.getElem?_eq_some_iff.mp hnext).1
      rwa [List.length_range'] at h
    rw [List.getElem?_range' (by omega), Option.some.injEq, Nat.one_mul] at hthis hnext
    subst hthis hnext
    rw [himage.nextCluster hsb hfits hx (by omega), if_pos hlt, Nat.add_assoc]
  · rw [himage.nextCluster hsb hfits hx (by omega), if_neg (by omega)]

/-- A bit of the bitmap. -/
theorem testBit_bitmap (allocated i : ℕ) :
    (bitmap allocated (i / 8)).toNat.testBit (i % 8) = decide (i < allocated) := by
  have hmod := Nat.mod_lt i (show 0 < 8 by decide)
  rw [bitmap]
  split_ifs with hfull
  · have hones : (0xff : UInt8).toNat = 2 ^ 8 - 1 := rfl
    rw [hones, Nat.testBit_two_pow_sub_one, decide_eq_decide]
    omega
  · have hpow : 2 ^ (allocated - 8 * (i / 8)) ≤ 2 ^ 8 := Nat.pow_le_pow_right Nat.two_pos (by omega)
    have hpart : (u8 (2 ^ (allocated - 8 * (i / 8)) - 1)).toNat = 2 ^ (allocated - 8 * (i / 8)) - 1 := by
      have hpos := Nat.two_pow_pos (allocated - 8 * (i / 8))
      exact Nat.mod_eq_of_lt (by omega)
    rw [hpart, Nat.testBit_two_pow_sub_one, decide_eq_decide]
    omega

/-- The bitmap marks the clusters of the objects and no others. -/
theorem Imaged.marked (himage : Imaged g (g.content serial label upcaseTable) a b) {k : ℕ}
    (hk : k < g.clusters - g.heap) :
    (b (g.heap * g.cluster + k / 8)).toNat.testBit (k % 8) = decide (k < g.allocated) := by
  have hbytes := g.bitmapBytes_bounds
  rw [himage.cbm (by omega)]
  split_ifs with hwritten
  · exact testBit_bitmap g.allocated k
  · have hceil : g.allocated ⌈/⌉ 8 = (g.allocated + 8 - 1) / 8 := Nat.ceilDiv_eq_add_pred_div _ _
    have hzero : (0 : UInt8).toNat = 0 := rfl
    rw [hzero, Nat.zero_testBit, eq_comm, decide_eq_false_iff_not]
    omega

end Consistency

section Root

variable {d o fuel serial : ℕ} {g : Geometry} {label : List ℕ} {upcaseTable sb : Buf} {front a b : ℕ → UInt8}
  (himage : Imaged g (g.content serial label upcaseTable) a b) (hsb : Describes g sb) (hfits : g.Fits)
include himage hsb hfits

theorem attains_rootdirSize (hfuel : 2 ^ 32 ≤ fuel) (hreach : InReach d sb) :
    Attains (At front d b o) (· = g.cluster) (rootdirSize stick fuel sb) := by
  have hheap := hfits.heap_lt
  have hroot : g.bitmapClusters + g.upcaseClusters < g.allocated := Nat.lt_succ_self _
  have hvalid := hsb.valid hfits hroot
  have hend := himage.nextCluster hsb hfits (g.mem_heapObjects.mpr (.inr (.inr rfl))) Nat.one_pos
  rw [← Nat.add_assoc] at hvalid
  rw [Nat.add_zero, if_neg (Nat.lt_irrefl 1)] at hend
  obtain ⟨n, hn⟩ := Nat.exists_eq_succ_of_ne_zero (show g.clusters - g.heap ≠ 0 by omega)
  rw [rootdirSize, hsb.clusterCount, hn, hsb.rootdirCluster, rootdirClusters, if_neg hvalid, hsb.clusterSize]
  refine Attains.bind (S := (· = 1)) ?_ fun clusters hclusters => ?_
  · refine (attains_exfatNextCluster hfuel hreach false hvalid).bind fun next hnext => ?_
    rw [hnext, hend, if_pos rfl]
    exact attains_pure rfl
  · subst hclusters
    exact attains_pure (Nat.one_mul _)

end Root

section Entries

variable {g : Geometry} {p : Params}

/-- The units of the label, filled up with NULs. -/
theorem labelEntry_units (hne : p.volumeLabel ≠ []) (hlen : p.volumeLabel.length ≤ 15)
    (hunit : ∀ u ∈ p.volumeLabel, u < 65536) :
    (List.range 15).map (fun i => leNat (labelEntry p) (2 + 2 * i) 2) =
      p.volumeLabel ++ List.replicate (15 - p.volumeLabel.length) 0 := by
  have htake : p.volumeLabel.take 15 = p.volumeLabel := List.take_of_length_le hlen
  have hbytes : (p.volumeLabel.flatMap (leBytes 2)).length = p.volumeLabel.length * 2 := by
    simp [List.length_flatMap]
  have hpieces : ∀ u : ℕ, (leBytes 2 u).length = 2 := leBytes_length 2
  apply List.ext_getElem
  · simp
    omega
  · intro i hi hi'
    rw [List.length_map, List.length_range] at hi
    rw [List.getElem_map, List.getElem_range, labelEntry, if_neg hne, htake]
    by_cases hin : i < p.volumeLabel.length
    · rw [List.getElem_append_left hin]
      have hword : leNat (put (put zeros 0 [0x83, u8 p.volumeLabel.length]) 2
          (p.volumeLabel.flatMap (leBytes 2))) (2 + 2 * i) 2 =
          leNat (fun j => (leBytes 2 p.volumeLabel[i]).getD j 0) 0 2 := by
        refine leNat_congr fun j hj => ?_
        rw [Nat.add_assoc, put_at (by omega), Nat.mul_comm,
          getD_flatMap hpieces (List.getElem?_eq_getElem hin) hj, Nat.zero_add]
      rw [hword, leNat_leBytes]
      exact Nat.mod_eq_of_lt (hunit _ (List.getElem_mem hin))
    · rw [List.getElem_append_right (Nat.not_lt.mp hin), List.getElem_replicate,
        leNat_put_of_disjoint _ (.inr (by omega)),
        leNat_put_of_disjoint _ (.inr (by simp))]
      rfl

theorem bitmapEntry_fields (serial : ℕ) (label : List ℕ) (hfits : g.Fits) :
    leNat (bitmapEntry (g.params serial label)) 20 4 = 2 ∧
    leNat (bitmapEntry (g.params serial label)) 24 8 = g.bitmapBytes := by
  have hheap := hfits.heap_lt
  have hbytes := g.bitmapBytes_bounds
  have hclusters := g.clusters_le
  have hsize : u64 (cbmSize (g.params serial label)) = g.bitmapBytes := by
    rw [g.cbmSize_params serial label (by omega), u64_of_lt (by omega)]
  simp (disch := simp only [List.length_cons, List.length_nil, leBytes_length]; omega)
    only [bitmapEntry, leNat_put_of_disjoint, leNat_put, hsize]
  exact ⟨rfl, Nat.mod_eq_of_lt (by omega)⟩

theorem upcaseEntry_fields (serial : ℕ) (label : List ℕ) (upcaseTable : Buf) (hfits : g.Fits) :
    leNat (upcaseEntry (g.params serial label) upcaseTable) 20 4 = 2 + g.bitmapClusters ∧
      leNat (upcaseEntry (g.params serial label) upcaseTable) 24 8 = upcaseSize := by
  have hheap := hfits.heap_lt
  have hbitmap := g.bitmapClusters_le
  have hsub : (((g.heap + g.bitmapClusters) * g.cluster : ℕ) : ℤ) - (g.heap * g.cluster : ℕ) =
      (g.bitmapClusters * g.cluster : ℕ) := by
    rw [Nat.add_mul]
    omega
  have hdiv : Int.tdiv (g.bitmapClusters * g.cluster : ℕ) g.cluster = (g.bitmapClusters : ℕ) := by
    rw [Int.tdiv_eq_ediv_of_nonneg (Int.natCast_nonneg _), ← Int.natCast_ediv,
      Nat.mul_div_cancel _ g.cluster_pos]
  have hsum : (g.bitmapClusters : ℤ) + 2 = (2 + g.bitmapClusters : ℕ) := by omega
  have hstart : u32 (Int.tdiv
      (getPosition (g.params serial label) .uct - getPosition (g.params serial label) .cbm)
      (getClusterSize (g.params serial label)) + 2) = 2 + g.bitmapClusters := by
    rw [g.getPosition_cbm, g.getPosition_uct serial label (by omega), Geometry.getClusterSize_params, hsub,
      hdiv, hsum,
      u32_of_lt (by omega)]
  simp (disch := simp only [List.length_cons, List.length_nil, leBytes_length]; omega)
    only [upcaseEntry, leNat_put_of_disjoint, leNat_put, hstart]
  exact ⟨Nat.mod_eq_of_lt (by omega), rfl⟩

end Entries

/-- The upcase table that the mount makes of the bytes of one. -/
def upcaseOf (upcaseTable : Buf) : ℕ → ℕ :=
  decompressUpcase ((List.range 2918).map fun i => leNat upcaseTable (2 * i) 2) 0 id

/-- What the mount has found after the first `k` entries of the root directory. -/
structure Found (b : ℕ → UInt8) (g : Geometry) (sb : Buf) (cs : List Char) (upcaseTable : Buf) (k : ℕ)
    (fs : Fs) : Prop where
  sb : fs.sb = sb
  label : fs.label = if 0 < k then cs.flatMap String.utf8EncodeChar ++ [0] else [0]
  cmap : 1 < k → fs.cmapStart = 2 ∧ fs.cmapSize = g.clusters - g.heap ∧
    ∃ chunk, fs.chunk = some chunk ∧ ∀ i < bmapSize (g.clusters - g.heap), chunk i =
      b (g.heap * g.cluster + i)
  upcase : fs.upcase = if 2 < k then some (upcaseOf upcaseTable) else none

/-- Entries behind the third one add nothing. -/
theorem Found.step {b : ℕ → UInt8} {g : Geometry} {sb : Buf} {cs : List Char} {upcaseTable : Buf}
    {k : ℕ} {fs : Fs}
    (h : Found b g sb cs upcaseTable k fs) (hk : 2 < k) : Found b g sb cs upcaseTable (k + 1) fs := by
  obtain ⟨hsb, hlabel, hcmap, hupcase⟩ := h
  rw [if_pos (by omega)] at hlabel hupcase
  exact ⟨hsb, by rw [hlabel, if_pos (by omega)],
    fun _ => hcmap (by omega), by rw [hupcase, if_pos (by omega)]⟩

section Reading

variable {d o fuel serial : ℕ} {g : Geometry} {label : List ℕ} {cs : List Char} {upcaseTable sb : Buf}
    {front a b : ℕ → UInt8}
  {fs : Fs} {entry : Buf}

theorem flatMap_utf16Encode_ne_nil (hne : cs ≠ []) : cs.flatMap utf16Encode ≠ [] := by
  rw [Ne, List.flatMap_eq_nil_iff]
  intro h
  obtain ⟨c, hc⟩ := List.exists_mem_of_ne_nil cs hne
  exact utf16Encode_ne_nil c (h c hc)

theorem labelEntry_front {label : List ℕ} (hne : label ≠ []) :
    labelEntry (g.params serial label) 0 = 0x83 ∧ labelEntry (g.params serial label) 1 = u8 label.length := by
  have hvolume : (g.params serial label).volumeLabel = label := rfl
  rw [labelEntry, hvolume, if_neg hne]
  exact ⟨(put_of_lt (by decide)).trans rfl, (put_of_lt (by decide)).trans rfl⟩

/-- The label, as it was given. -/
theorem readLabel_labelEntry (hcs : '\x00' ∉ cs) (hlen : (cs.flatMap utf16Encode).length ≤ 15) (hne : cs ≠ [])
    (hentry : ∀ i < 32, entry i = labelEntry (g.params serial (cs.flatMap utf16Encode)) i) :
    readLabel fs entry = .ok { fs with label := cs.flatMap String.utf8EncodeChar ++ [0] } := by
  obtain ⟨label, hlabel⟩ : ∃ label, label = cs.flatMap utf16Encode := ⟨_, rfl⟩
  have hunit : ∀ u ∈ label, u < 65536 := fun u hu => by
    rw [hlabel] at hu
    obtain ⟨c, -, hc⟩ := List.mem_flatMap.mp hu
    exact utf16Encode_lt hc
  have hnonempty : label ≠ [] := by
    rw [hlabel]
    exact flatMap_utf16Encode_ne_nil hne
  have hutf8 := utf8_length_le cs
  rw [← hlabel] at hlen hentry hutf8
  have hcount : (entry 1).toNat = label.length := by
    rw [hentry 1 (by decide), (labelEntry_front hnonempty).2]
    exact Nat.mod_eq_of_lt (by omega)
  have hunits : (List.range 15).map (fun i => leNat entry (2 + 2 * i) 2) =
      label ++ List.replicate (15 - label.length) 0 := by
    refine Eq.trans (List.map_congr_left fun i hi => leNat_congr fun j hj => ?_)
      (labelEntry_units (p := g.params serial label) hnonempty hlen hunit)
    have hi := List.mem_range.mp hi
    exact hentry _ (by omega)
  have hrest : List.replicate (15 - label.length) 0 = [] ∨ ∃ us, List.replicate (15 - label.length) 0 =
      0 :: us := by
    rcases 15 - label.length with _ | n
    · exact .inl rfl
    · exact .inr ⟨_, rfl⟩
  rw [readLabel, if_neg (by omega), hunits, hlabel, utf16ToUtf8_of_fits hcs (by omega) (hlabel ▸ hrest),
    if_neg (not_not_intro rfl)]

/-- The bitmap, in words of 64 bits. -/
theorem attains_readBitmap (hfuel : 2 ^ 32 ≤ fuel) (hsb : Describes g sb) (hfits : g.Fits)
    (hroom : d + g.usable ≤ 4294967296)
    (hfs : fs.sb = sb) (hentry : ∀ i < 32, entry i = bitmapEntry (g.params serial label) i) :
    Attains (At front d b o)
      (fun r => ∃ chunk,
        r = .ok { fs with cmapStart := 2, cmapSize := g.clusters - g.heap, chunk := some chunk } ∧
        ∀ i < bmapSize (g.clusters - g.heap), chunk i = b (g.heap * g.cluster + i))
      (readBitmap stick fuel fs entry) := by
  have hheap := hfits.heap_lt
  have hbytes := g.bitmapBytes_bounds
  have hclusters := g.clusters_le
  have hstart : leNat entry 20 4 = 2 := by
    rw [← (bitmapEntry_fields serial label hfits).1]
    exact leNat_congr fun i hi => hentry _ (by omega)
  have hsize : leNat entry 24 8 = g.bitmapBytes := by
    rw [← (bitmapEntry_fields serial label hfits).2]
    exact leNat_congr fun i hi => hentry _ (by omega)
  have hpos : 0 < g.allocated := Nat.succ_pos _
  have hc2o : exfatC2o fs.sb 2 = g.heap * g.cluster := by
    rw [hfs]
    exact hsb.exfatC2o 0
  have hvalid : ¬clusterInvalid fs.sb 2 := by
    rw [hfs]
    exact hsb.valid hfits hpos
  have hcount : sbClusterCount fs.sb = g.clusters - g.heap := by rw [hfs, hsb.clusterCount]
  have henough : ¬g.bitmapBytes < u32 (((g.clusters - g.heap : ℕ) : ℤ) + 8 - 1) / 8 := by
    unfold u32
    omega
  rw [readBitmap, hstart, hcount, hsize, if_neg hvalid, if_neg henough, hc2o]
  refine attains_exfat_malloc.bind fun allocated hallocated => ?_
  rw [hallocated, if_neg Bool.true_eq_false.mp]
  have hwords : g.heap * g.cluster + bmapSize (g.clusters - g.heap) ≤ g.usable * 512 := by
    have hend := hfits.end_le
    obtain ⟨n, hn⟩ := g.dvd_cluster
    have hcbm := g.bitmapBytes_le
    have hmul : g.bitmapClusters * g.cluster = 512 * (g.bitmapClusters * n) := by rw [hn, Nat.mul_left_comm]
    rw [Nat.add_mul, Geometry.allocated, Nat.add_mul, Nat.add_mul] at hend
    rw [bmapSize]
    omega
  have hx : Carried d ⟨false, g.heap * g.cluster, bmapSize (g.clusters - g.heap)⟩ :=
    carried_read.mpr ⟨fun _ => by omega, by rw [bmapSize]; omega⟩
  refine (attains_exfatPread hfuel zeros hx).bind fun r hr => ?_
  obtain ⟨hret, hread⟩ := hr
  rw [if_neg (by omega)]
  exact attains_pure ⟨r.2, rfl, hread⟩

/-- The upcase table, which `exfat_cache_directory` keeps decompressed. -/
theorem attains_readUpcase (hfuel : 2 ^ 32 ≤ fuel)
    (himage : Imaged g (g.content serial label upcaseTable) a b)
    (hsb : Describes g sb) (hfits : g.Fits) (hroom : d + g.usable ≤ 4294967296) (hfs : fs.sb = sb)
    (hnone : fs.upcase = none)
    (hentry : ∀ i < 32, entry i = upcaseEntry (g.params serial label) upcaseTable i) :
    Attains (At front d b o) (· = .ok { fs with upcase := some (upcaseOf upcaseTable) })
      (readUpcase stick fuel fs entry) := by
  have hheap := hfits.heap_lt
  have hstart : leNat entry 20 4 = 2 + g.bitmapClusters := by
    rw [← (upcaseEntry_fields serial label upcaseTable hfits).1]
    exact leNat_congr fun i hi => hentry _ (by omega)
  have hsize : leNat entry 24 8 = 5836 := by
    have hfield := (upcaseEntry_fields serial label upcaseTable hfits).2
    rw [upcaseSize] at hfield
    rw [← hfield]
    exact leNat_congr fun i hi => hentry _ (by omega)
  have hlt : g.bitmapClusters < g.allocated := by
    have hupcase := g.upcaseClusters_bounds
    rw [Geometry.allocated]
    omega
  have hc2o : exfatC2o fs.sb (2 + g.bitmapClusters) = (g.heap + g.bitmapClusters) * g.cluster := by
    rw [hfs, hsb.exfatC2o]
  have hvalid : ¬clusterInvalid fs.sb (2 + g.bitmapClusters) := by
    rw [hfs]
    exact hsb.valid hfits hlt
  have hfirst : ¬fs.upcase.isSome = true := by
    rw [hnone]
    exact Bool.false_ne_true
  rw [readUpcase, if_neg hfirst, hstart, hsize]
  dsimp only
  rw [if_neg hvalid, if_neg (by decide), hc2o]
  refine attains_exfat_malloc.bind fun allocated hallocated => ?_
  rw [hallocated, if_neg Bool.true_eq_false.mp]
  have hinside : (g.heap + g.bitmapClusters) * g.cluster + 5836 ≤ g.usable * 512 := by
    have hend := hfits.end_le
    have huct := g.upcaseSize_le
    rw [upcaseSize] at huct
    rw [Nat.add_mul, Geometry.allocated, Nat.add_mul, Nat.add_mul] at hend
    rw [Nat.add_mul]
    omega
  have hx : Carried d ⟨false, (g.heap + g.bitmapClusters) * g.cluster, 5836⟩ :=
    carried_read.mpr ⟨fun _ => by omega, by omega⟩
  refine (attains_exfatPread hfuel zeros hx).bind fun r hr => ?_
  obtain ⟨hret, hread⟩ := hr
  rw [if_neg (by omega)]
  refine attains_exfat_malloc.bind fun allocated hallocated => ?_
  rw [hallocated, if_neg Bool.true_eq_false.mp]
  have hsource : (List.range (5836 / 2)).map (fun i => leNat r.2 (2 * i) 2) =
      (List.range 2918).map fun i => leNat upcaseTable (2 * i) 2 := by
    refine List.map_congr_left fun i hi => leNat_congr fun j hj => ?_
    have hi := List.mem_range.mp hi
    have hin : 2 * i + j < 5836 := by omega
    rw [hread _ hin, himage.uct hin]
  rw [hsource]
  exact attains_pure rfl

end Reading

/-- The node of a root directory of one cluster. -/
def rootNode (cluster size : ℕ) : Node where
  startCluster := cluster
  fptrCluster := cluster
  attrib := 0x10
  validSize := size
  size := size

section Directory

variable {d o fuel serial : ℕ} {g : Geometry} {label : List ℕ} {cs : List Char} {upcaseTable sb : Buf}
    {front a b : ℕ → UInt8} {fs : Fs}

theorem Imaged.root_follows (himage : Imaged g (g.content serial label upcaseTable) a b)
    (hsb : Describes g sb) (hfits : g.Fits) :
    (rootNode (2 + g.bitmapClusters + g.upcaseClusters) g.cluster).Follows b sb
      [2 + g.bitmapClusters + g.upcaseClusters] := by
  obtain ⟨hchain, -⟩ := himage.chained hsb hfits (g.mem_heapObjects.mpr (.inr (.inr rfl)))
  refine ⟨hchain, rfl, rfl, Nat.le_refl _, ?_,
    Nat.lt_of_le_of_lt (Nat.le_of_eq List.length_singleton) (by decide)⟩
  rw [hsb.clusterSize, List.length_singleton, Nat.one_mul]
  exact Nat.le_refl _

/-- An entry of the root directory, or its end. -/
theorem attains_readEntries (hfuel : 2 ^ 32 ≤ fuel)
    (himage : Imaged g (g.content serial label upcaseTable) a b)
    (hsb : Describes g sb) (hfits : g.Fits) (hreach : InReach d sb) {k : ℕ} (hk : 32 * k ≤ g.cluster) :
    Attains (At front d b o)
      (fun r => if 32 * k < g.cluster then r.1 = 0 ∧
        (∀ i < 32, r.2.1 i = g.entry serial label upcaseTable k i) ∧
        r.2.2 = rootNode (2 + g.bitmapClusters + g.upcaseClusters) g.cluster else r.1 = -enoent)
      (readEntries stick fuel sb (rootNode (2 + g.bitmapClusters + g.upcaseClusters) g.cluster) 1
        (32 * k)) := by
  have hfollows := himage.root_follows hsb hfits
  obtain ⟨n, hn⟩ := g.dvd_cluster
  obtain ⟨root, hroot⟩ : ∃ root, root = 2 + g.bitmapClusters + g.upcaseClusters := ⟨_, rfl⟩
  have hplace : exfatC2o sb root = (g.heap + g.bitmapClusters + g.upcaseClusters) * g.cluster := by
    rw [hroot, Nat.add_assoc 2, hsb.exfatC2o, Nat.add_assoc g.heap]
  have hdir : (rootNode root g.cluster).IsDir := by
    rw [Node.IsDir]
    exact (by decide : 0x10 &&& 0x10 ≠ 0)
  have hsize : (rootNode root g.cluster).size = g.cluster := rfl
  have hvalidSize : (rootNode root g.cluster).validSize = g.cluster := rfl
  rw [← hroot] at hfollows ⊢
  rw [readEntries, if_neg (not_not_intro hdir)]
  refine (attains_exfatGenericPread hfuel hreach hfollows zeros (by decide) (32 * k)).bind fun r hr =>
    attains_pure ?_
  have hcount := hr.count
  rw [hsize] at hcount
  by_cases hmore : 32 * k < g.cluster
  · have hwhole : min (32 * 1) (g.cluster - 32 * k) = 32 * 1 := by omega
    rw [hwhole] at hcount
    rw [if_pos hmore, if_pos hcount]
    refine ⟨rfl, fun i hi => ?_, ?_⟩
    · have hbyte := hr.bytes i (by omega)
      have hin : 32 * k + i < g.cluster := by omega
      rw [hbyte, Node.byte, if_pos (hvalidSize ▸ hin), chainByte, hsb.clusterSize, Nat.div_eq_of_lt hin,
        Nat.mod_eq_of_lt hin,
        List.getD_cons_zero, hplace, himage.rootdir hin hi]
    · obtain ⟨index, cluster, hnode, hcached⟩ := hr.cached
      rcases index with _ | index
      · rw [List.getElem?_cons_zero, Option.some.injEq] at hcached
        subst hcached
        exact hnode
      · cases hcached
  · have hnone : min (32 * 1) (g.cluster - 32 * k) = 0 := by omega
    rw [hnone] at hcount
    rw [if_neg hmore, if_neg (by omega), if_pos (by omega)]

/-- The mount at entry `k` of the root directory. -/
structure Listed (b : ℕ → UInt8) (g : Geometry) (sb : Buf) (cs : List Char) (upcaseTable : Buf) (k : ℕ)
    (l : Listing) : Prop where
  found : Found b g sb cs upcaseTable k l.fs
  dir : l.dir = rootNode (2 + g.bitmapClusters + g.upcaseClusters) g.cluster
  offset : l.offset = 32 * k
  children : l.children = []

/-- One entry further. -/
theorem Listed.skip {k : ℕ} {l : Listing} (h : Listed b g sb cs upcaseTable k l) {x : Except ℤ Fs} {fs : Fs}
    (hx : x = .ok fs)
    (hfs : Found b g sb cs upcaseTable (k + 1) fs) :
    ∃ l', l.skip (rootNode (2 + g.bitmapClusters + g.upcaseClusters) g.cluster) x = .inl l' ∧
      Listed b g sb cs upcaseTable (k + 1) l' := by
  subst hx
  exact ⟨_, rfl, hfs, rfl, by rw [h.offset, Nat.mul_succ], h.children⟩

/-- A pass over an entry. -/
theorem attains_readdir (hfuel : 2 ^ 32 ≤ fuel) (hcs : '\x00' ∉ cs)
    (hlen : (cs.flatMap utf16Encode).length ≤ 15)
    (himage : Imaged g (g.content serial (cs.flatMap utf16Encode) upcaseTable) a b) (hsb : Describes g sb)
    (hfits : g.Fits)
    (hroom : d + g.usable ≤ 4294967296) (hreach : InReach d sb) {k : ℕ} (hk : 32 * k < g.cluster)
    {l : Listing}
    (hl : Listed b g sb cs upcaseTable k l) :
    Attains (At front d b o) (fun r => ∃ l', r = .inl l' ∧ Listed b g sb cs upcaseTable (k + 1) l')
      (readdir stick fuel l) := by
  rw [readdir, hl.found.sb, hl.dir, hl.offset]
  refine (attains_readEntries hfuel himage hsb hfits hreach hk.le).bind fun r hr => ?_
  rw [if_pos hk] at hr
  obtain ⟨hret, hbytes, hdir⟩ := hr
  have htype := hbytes 0 (by decide)
  rw [if_neg (not_not_intro hret), hdir]
  dsimp only
  obtain ⟨hfsb, hlabel, hcmap, hupcase⟩ := hl.found
  obtain rfl | rfl | rfl | hbehind : k = 0 ∨ k = 1 ∨ k = 2 ∨ 2 < k := by omega
  · by_cases hne : cs = []
    · -- without a label the entry is unused
      subst hne
      have hunused : g.entry serial ([].flatMap utf16Encode) upcaseTable 0 0 = 0x03 := rfl
      rw [htype, hunused, if_neg (by decide), if_neg (by decide), if_neg (by decide), if_neg (by decide),
        if_pos (by decide)]
      exact attains_pure (hl.skip rfl ⟨hfsb, hlabel, fun h => absurd h (by decide), hupcase⟩)
    · have hlabelType : g.entry serial (cs.flatMap utf16Encode) upcaseTable 0 0 = 0x83 :=
        (labelEntry_front (flatMap_utf16Encode_ne_nil hne)).1
      have hread : readLabel l.fs r.2.1 = _ := readLabel_labelEntry hcs hlen hne hbytes
      rw [htype, hlabelType, if_neg (by decide), if_neg (by decide), if_neg (by decide), if_pos rfl]
      exact attains_pure (hl.skip hread ⟨hfsb, rfl, fun h => absurd h (by decide), hupcase⟩)
  · have hbitmapType : g.entry serial (cs.flatMap utf16Encode) upcaseTable 1 0 = 0x81 := rfl
    rw [htype, hbitmapType, if_neg (by decide), if_neg (by decide), if_pos rfl]
    refine (attains_readBitmap hfuel hsb hfits hroom hfsb hbytes).bind fun x hx => ?_
    obtain ⟨chunk, hx, hchunk⟩ := hx
    exact attains_pure (hl.skip hx ⟨hfsb, hlabel, fun _ => ⟨rfl, rfl, chunk, rfl, hchunk⟩, hupcase⟩)
  · have hupcaseType : g.entry serial (cs.flatMap utf16Encode) upcaseTable 2 0 = 0x82 := rfl
    rw [htype, hupcaseType, if_neg (by decide), if_pos rfl]
    refine (attains_readUpcase hfuel himage hsb hfits hroom hfsb hupcase hbytes).bind fun x hx => ?_
    exact attains_pure (hl.skip hx ⟨hfsb, hlabel, fun _ => hcmap (by decide), rfl⟩)
  · -- unused
    have hzero : g.entry serial (cs.flatMap utf16Encode) upcaseTable k 0 = 0 := by
      rw [Geometry.entry, if_neg (by omega), if_neg (by omega), if_neg (by omega)]
      rfl
    rw [htype, hzero, if_neg (by decide), if_neg (by decide), if_neg (by decide), if_neg (by decide),
      if_pos (by decide)]
    exact attains_pure (hl.skip rfl (hl.found.step hbehind))

/-- All entries up to the end of the directory. -/
theorem attains_exfatCacheDirectory (hfuel : 2 ^ 32 ≤ fuel) (hcs : '\x00' ∉ cs)
    (hlen : (cs.flatMap utf16Encode).length ≤ 15)
    (himage : Imaged g (g.content serial (cs.flatMap utf16Encode) upcaseTable) a b) (hsb : Describes g sb)
    (hfits : g.Fits)
    (hroom : d + g.usable ≤ 4294967296) (hreach : InReach d sb) :
    Attains (At front d b o) (fun r => ∃ l k, r = .ok l ∧ 2 < k ∧ Listed b g sb cs upcaseTable k l)
      (exfatCacheDirectory stick fuel { sb := sb }
        (rootNode (2 + g.bitmapClusters + g.upcaseClusters) g.cluster)) := by
  obtain ⟨hlow, hhigh⟩ := g.cluster_bounds
  rw [exfatCacheDirectory]
  refine Attains.bind (S := fun r => r.1 = -enoent ∧ ∃ k, 2 < k ∧ Listed b g sb cs upcaseTable k r.2)
    (fun s hs => ?_)
    fun r hr => ?_
  · refine wp_loop_cut (fun l t => (∃ k, 32 * k ≤ g.cluster ∧ Listed b g sb cs upcaseTable k l) ∧
      At front d b o t)
      (fun l => g.cluster - l.offset) (fun l t _ hcut => ?_) (fun l t hl => ?_) ⟨⟨0, Nat.zero_le _, ?_⟩, hs⟩
    · have hpassed : fuel ≤ g.cluster := Nat.le_trans hcut (Nat.sub_le _ _)
      omega
    · obtain ⟨⟨k, hk, hl⟩, ht⟩ := hl
      by_cases hmore : 32 * k < g.cluster
      · refine wp_mono (attains_readdir hfuel hcs hlen himage hsb hfits hroom hreach hmore hl t ht)
          (fun r u hu => ?_) fun _ h => h
        obtain ⟨⟨l', rfl, hl'⟩, hu⟩ := hu
        obtain ⟨n, hn⟩ := g.dvd_cluster
        refine ⟨⟨⟨k + 1, by omega, hl'⟩, hu⟩, ?_⟩
        rw [hl.offset, hl'.offset]
        omega
      · have hentries := attains_readEntries hfuel himage hsb hfits hreach hk t ht
        rw [readdir, hl.found.sb, hl.dir, hl.offset, wp_bind]
        refine wp_mono hentries (fun r u hu => ?_) fun _ h => h
        obtain ⟨hr, hu⟩ := hu
        rw [if_neg hmore] at hr
        rw [if_pos (by rw [hr]; decide)]
        exact ⟨⟨hr, k, by omega, hl⟩, hu⟩
    · exact ⟨⟨rfl, rfl, fun h => absurd h (by decide), rfl⟩, rfl, rfl, rfl⟩
  · obtain ⟨hret, k, hk, hl⟩ := hr
    rw [if_pos hret]
    exact attains_pure ⟨r.2, k, rfl, hk, hl⟩

end Directory

/-- A mounted volume as it was formatted: the label, the bitmap, the upcase table, and a root directory of
one cluster without files. -/
structure Mounted (g : Geometry) (cs : List Char) (upcaseTable : Buf) (l : Listing) : Prop where
  label : l.fs.label = cs.flatMap String.utf8EncodeChar ++ [0]
  cmap : l.fs.cmapStart = 2 ∧ l.fs.cmapSize = g.clusters - g.heap
  chunk : ∃ chunk, l.fs.chunk = some chunk ∧
    (∀ i < g.clusters - g.heap, bmapGet chunk i = decide (i < g.allocated)) ∧
    exfatCountFreeClusters chunk l.fs.cmapSize = g.clusters - g.heap - g.allocated
  upcase : l.fs.upcase = some (upcaseOf upcaseTable)
  root : l.dir.size = g.cluster
  children : l.children = []

theorem countP_range_le (m n : ℕ) : (List.range n).countP (fun i => decide (m ≤ i)) = n - m := by
  induction n with
  | zero => rw [List.range_zero, List.countP_nil, Nat.zero_sub]
  | succ n ih =>
    rw [List.range_succ, List.countP_append, ih, List.countP_singleton]
    split_ifs with h
    · have hle := of_decide_eq_true h
      omega
    · have hlt := of_decide_eq_false (Bool.eq_false_of_not_eq_true h)
      omega

section Mount

variable {d o fuel serial : ℕ} {g : Geometry} {cs : List Char} {upcaseTable sb : Buf} {front a b : ℕ → UInt8}

/-- What the directory tells is what was formatted. -/
theorem Listed.mounted (himage : Imaged g (g.content serial (cs.flatMap utf16Encode) upcaseTable) a b) {k : ℕ}
    {l : Listing}
    (hk : 2 < k) (hl : Listed b g sb cs upcaseTable k l) : Mounted g cs upcaseTable l := by
  obtain ⟨hfsb, hlabel, hcmap, hupcase⟩ := hl.found
  rw [if_pos (by omega)] at hlabel hupcase
  obtain ⟨hstart, hsize, chunk, hchunk, hbytes⟩ := hcmap (by omega)
  have hbits : ∀ i < g.clusters - g.heap, bmapGet chunk i = decide (i < g.allocated) := by
    intro i hi
    have hbyte : i / 64 * 8 + i % 64 / 8 = i / 8 := by omega
    have hbit : i % 64 % 8 = i % 8 := by omega
    rw [bmapGet, testBit_leNat chunk _ (by omega), hbyte, hbit, hbytes _ (by rw [bmapSize]; omega),
      himage.marked hi]
  have hfree : exfatCountFreeClusters chunk l.fs.cmapSize = g.clusters - g.heap - g.allocated := by
    rw [exfatCountFreeClusters, hsize, ← countP_range_le g.allocated (g.clusters - g.heap)]
    refine List.countP_congr fun i hi => ?_
    rw [hbits i (List.mem_range.mp hi)]
    simp
  exact ⟨hlabel, ⟨hstart, hsize⟩, ⟨chunk, hchunk, hbits, hfree⟩, hupcase, by rw [hl.dir]; rfl, hl.children⟩

theorem Describes.checkSuperBlock (hsb : Describes g sb) : checkSuperBlock sb = decide (g.bits ≤ 16) := by
  rw [Exfat.checkSuperBlock, hsb.oemName, hsb.sectorBits, hsb.spcBits, decide_eq_decide]
  constructor
  · rintro ⟨-, -, hbits⟩
    omega
  · exact fun hbits => ⟨rfl, Nat.le_refl 9, by omega⟩

theorem Describes.checkVolume (hsb : Describes g sb) : checkVolume sb (g.usable * 512 : ℕ) = true := by
  have hmul := g.clusters_mul_le
  have hsub := Nat.mul_le_mul_right g.cluster (Nat.sub_le g.clusters g.heap)
  rw [Exfat.checkVolume, hsb.clusterCount, hsb.clusterSize, decide_eq_true_iff]
  exact ⟨hsb.version.2, hsb.version.1, hsb.fatCount, by omega⟩

/-- The mount of a formatted volume; the library does not accept clusters of more than 32 MiB. -/
theorem attains_exfatMount (hfuel : 2 ^ 32 ≤ fuel) (hcs : '\x00' ∉ cs)
    (hlen : (cs.flatMap utf16Encode).length ≤ 15)
    (himage : Imaged g (g.content serial (cs.flatMap utf16Encode) upcaseTable) a b) (hfits : g.Fits)
    (hroom : d + g.usable ≤ 4294967296) (hsmall : g.clusters < 4294967296) :
    Attains (At front d b o)
      (fun r => if g.bits ≤ 16 then ∃ l, r = .ok l ∧ Mounted g cs upcaseTable l else r = .error eio)
      (exfatMount stick fuel (g.usable * 512 : ℕ)) := by
  have hcluster := g.cluster_bounds
  have hboot : ∀ i < 512, b i = superBlock (g.params serial (cs.flatMap utf16Encode)) i := fun i hi => by
    have hbyte := himage.vbr (k := 0) rfl hi
    rwa [Nat.zero_mul, Nat.zero_add] at hbyte
  have hvbr : d * 512 + 6144 ≤ 2199023255552 := by
    have hheap := g.le_heap
    have hend := hfits.end_le
    rw [Nat.add_mul] at hend
    omega
  have hcarried : ∀ k < 12, Carried d ⟨false, k * 512, 512⟩ :=
    fun k hk => carried_read.mpr ⟨fun _ => by omega, by omega⟩
  have hx := hcarried 0 (by decide)
  rw [exfatMount]
  refine attains_exfat_malloc.bind fun opened hopened => ?_
  rw [hopened, if_neg Bool.true_eq_false.mp]
  refine attains_exfat_malloc.bind fun allocated hallocated => ?_
  rw [hallocated, if_neg Bool.true_eq_false.mp]
  refine (attains_exfatPread hfuel zeros hx).bind fun r hr => ?_
  obtain ⟨hret, hread⟩ := hr
  have hsb : Describes g r.2 :=
    describes_superBlock hfits hsmall fun i hi => by rw [hread i hi, Nat.zero_mul, Nat.zero_add, hboot i hi]
  rw [if_neg (by omega)]
  dsimp only
  rw [hsb.checkSuperBlock]
  by_cases hbits : g.bits ≤ 16
  · have hreach := hsb.inReach hbits hfits hroom
    have hsize : ¬g.cluster = 0 := by omega
    rw [if_neg (by rw [decide_eq_true hbits]; exact Bool.true_eq_false.mp)]
    refine attains_exfat_malloc.bind fun allocated hallocated => ?_
    rw [hallocated, if_neg Bool.true_eq_false.mp]
    refine (attains_verifyVbrChecksum hfuel hvbr himage hsb zeros).bind fun verified hverified => ?_
    rw [hverified, if_neg Bool.true_eq_false.mp, hsb.checkVolume, if_neg Bool.true_eq_false.mp]
    refine attains_exfat_malloc.bind fun allocated hallocated => ?_
    rw [hallocated, if_neg Bool.true_eq_false.mp]
    refine (attains_rootdirSize himage hsb hfits hfuel hreach).bind fun size hsize' => ?_
    rw [hsize', if_neg hsize, hsb.rootdirCluster]
    refine (attains_exfatCacheDirectory hfuel hcs hlen himage hsb hfits hroom hreach).bind fun x hx => ?_
    obtain ⟨l, k, rfl, hk, hl⟩ := hx
    have hmounted := hl.mounted himage hk
    obtain ⟨chunk, hchunk, -⟩ := hmounted.chunk
    dsimp only
    rw [if_neg (by simp [hmounted.upcase, hchunk])]
    exact attains_pure ((if_pos hbits).mpr ⟨l, rfl, hmounted⟩)
  · rw [if_pos (decide_eq_false hbits)]
    exact attains_pure ((if_neg hbits).mpr rfl)

end Mount

/-- The label of a volume as the bridge converts it, up to the NUL behind it. -/
def bridgeLabel (label : List UInt8) : List ℕ := (utf8ToUtf16 label 16).2.takeWhile (· ≠ 0)

theorem bridgeLabel_utf8 {cs : List Char} (hcs : '\x00' ∉ cs) (hlen : (cs.flatMap utf16Encode).length ≤ 15) :
    bridgeLabel (cs.flatMap String.utf8EncodeChar) = cs.flatMap utf16Encode := by
  have hunit : ∀ u ∈ cs.flatMap utf16Encode, decide (u ≠ 0) = true := fun u hu => by
    obtain ⟨c, hc, hu⟩ := List.mem_flatMap.mp hu
    exact decide_eq_true (utf16Encode_ne_zero (fun h => hcs (h ▸ hc)) hu)
  rw [bridgeLabel, utf8ToUtf16_of_fits hcs (by omega), List.takeWhile_append_of_pos hunit]
  exact List.append_nil _

section Bridge

variable {d fuel clusterSize usable : ℕ} {a : ℕ → UInt8} {w : World Stick} {cs : List Char}

/-- What the bridge formats the library mounts, with the label, the bitmap and the upcase table as they were
given, unless the clusters are too large for it. -/
theorem exfat_format_mount (hcs : clusterSize < 1073742336) (husable : usable < 4294967296)
    (hw : Tracks d a w)
    (hall : usbScsiGetUsableSectors w.drv = usable) (hroom : d + usable ≤ 4294967296) (hfuel : 2 ^ 32 ≤ fuel)
    (upcaseTable : Buf) (hnul : '\x00' ∉ cs) (hlen : (cs.flatMap utf16Encode).length ≤ 15)
    (hfits : (bridgeGeometry clusterSize usable hcs husable.le).Fits) :
    ∃ t x u, usbScsiFormatExfat stick fuel upcaseTable clusterSize
      (bridgeLabel (cs.flatMap String.utf8EncodeChar)) w = (some 0, t) ∧
      (exfatMount stick fuel (usable * 512 : ℕ)).alongside (some 0) t = (some x, u) ∧
      if (bridgeGeometry clusterSize usable hcs husable.le).bits ≤ 16 then
        ∃ l, x = .ok l ∧ Mounted (bridgeGeometry clusterSize usable hcs husable.le) cs upcaseTable l
      else x = .error eio := by
  have hformat := wp_usbScsiFormatExfat hcs husable.le hw hall hroom hfuel upcaseTable
    (cs.flatMap utf16Encode)
  rw [bridgeLabel_utf8 hnul hlen]
  obtain ⟨r, t, hrun, b, hb, -, himage⟩ := wp_returns hformat
  dsimp only at himage
  rw [if_pos hfits] at himage
  obtain ⟨rfl, himage⟩ := himage
  have hsmall : (bridgeGeometry clusterSize usable hcs husable.le).clusters < 4294967296 :=
    Nat.lt_of_le_of_lt (Nat.div_le_self _ _) husable
  have hmount : Prog.wp ((exfatMount stick fuel (usable * 512 : ℕ)).alongside (some 0)) (fun x _ =>
      if (bridgeGeometry clusterSize usable hcs husable.le).bits ≤ 16 then
        ∃ l, x = .ok l ∧ Mounted (bridgeGeometry clusterSize usable hcs husable.le) cs upcaseTable l
      else x = .error eio) (fun _ => False) t := by
    rw [wp_alongside]
    exact wp_mono (attains_exfatMount hfuel hnul hlen himage hfits hroom hsmall (t, some 0)
      ⟨hb, fun _ _ => rfl, rfl⟩) (fun _ _ h => h.1)
      fun _ h => h
  obtain ⟨x, u, hmounted, hx⟩ := wp_returns hmount
  exact ⟨t, x, u, hrun, hmounted, hx⟩

/-- A volume with a label outside ASCII. -/
theorem exfat_format_mount_roomy :
    ∃ t u l, usbScsiFormatExfat stick (2 ^ 32) zeros 0 [0x61, 0x219] roomyStick = (some 0, t) ∧
      (exfatMount stick (2 ^ 32) 17177772032).alongside (some 0) t = (some (.ok l), u) ∧
      l.fs.label = [0x61, 0xc8, 0x99, 0] := by
  have hfits : (bridgeGeometry 0 33550336 (by decide) (by decide)).Fits := by decide
  obtain ⟨t, x, u, hformat, hmount, hx⟩ := exfat_format_mount (show 0 < 1073742336 by decide)
    (show 33550336 < 4294967296 by decide) roomyStick_tracks rfl (by decide) (Nat.le_refl _) zeros
    (show '\x00' ∉ ['a', 'ș'] by decide) (by decide) hfits
  have hbits : (bridgeGeometry 0 33550336 (by decide) (by decide)).bits ≤ 16 := by decide
  rw [if_pos hbits] at hx
  obtain ⟨l, rfl, hmounted⟩ := hx
  have hlabel : bridgeLabel (['a', 'ș'].flatMap String.utf8EncodeChar) = [0x61, 0x219] :=
    bridgeLabel_utf8 (by decide) (by decide)
  rw [hlabel] at hformat
  exact ⟨t, u, l, hformat, hmount, hmounted.label⟩

/-- The links of the FAT, the bitmap and the copy of the boot region agree, all found through the
boot sector. -/
structure Consistent (g : Geometry) (b : ℕ → UInt8) : Prop where
  chained : ∀ x ∈ g.heapObjects, Chain b b false (List.range' x.1 x.2) ∧
    ∀ k, k + 1 = x.2 → nextCluster b b false (x.1 + k) = clusterEnd
  apart : g.heapObjects.Pairwise fun x y => (List.range' x.1 x.2).Disjoint (List.range' y.1 y.2)
  marked : ∀ k < sbClusterCount b, (b (exfatC2o b 2 + k / 8)).toNat.testBit (k % 8) = true ↔
    ∃ x ∈ g.heapObjects, 2 + k ∈ List.range' x.1 x.2
  root : g.heapObjects[2]? = some (sbRootdirCluster b, 1)
  backup : ∀ i < 6144, b (6144 + i) = b i

theorem Imaged.consistent {serial : ℕ} {label : List ℕ} {upcaseTable : Buf} {g : Geometry} {b : ℕ → UInt8}
    (himage : Imaged g (g.content serial label upcaseTable) a b) (hfits : g.Fits)
    (hsmall : g.clusters < 4294967296) :
    Consistent g b := by
  have hsb : Describes g b := describes_superBlock hfits hsmall fun i hi => by
    have hbyte := himage.vbr (k := 0) rfl hi
    rwa [Nat.zero_mul, Nat.zero_add] at hbyte
  have hfirst := hsb.exfatC2o 0
  rw [Nat.add_zero, Nat.add_zero] at hfirst
  refine ⟨fun x hx => himage.chained hsb hfits hx, g.heapObjects_pairwise.imp fun hle => ?_, fun k hk => ?_,
    ?_, fun i hi => ?_⟩
  · intro cluster hthis hother
    rw [List.mem_range'_1] at hthis hother
    omega
  · rw [hsb.clusterCount] at hk
    rw [hfirst, himage.marked hk, decide_eq_true_iff, g.exists_heapObject]
    simp only [List.mem_range'_1]
  · rw [hsb.rootdirCluster]
    rfl
  · have hvbr : g.reserved .vbr = 6144 := rfl
    have hcopy := himage.objects (.vbr, 6144) (by simp [Geometry.places]) i (by rw [hvbr]; exact hi)
    have hmain := himage.objects (.vbr, 0) (by simp [Geometry.places]) i (by rw [hvbr]; exact hi)
    dsimp only at hcopy hmain
    rw [hcopy, ← hmain, Nat.zero_add]

/-- A formatted medium is consistent. -/
theorem exfat_format_consistent (hcs : clusterSize < 1073742336) (husable : usable < 4294967296)
    (hw : Tracks d a w)
    (hall : usbScsiGetUsableSectors w.drv = usable) (hroom : d + usable ≤ 4294967296) (hfuel : 2 ^ 32 ≤ fuel)
    (upcaseTable : Buf) (label : List ℕ) (hfits : (bridgeGeometry clusterSize usable hcs husable.le).Fits) :
    ∃ t u, usbScsiFormatExfat stick fuel upcaseTable clusterSize label w = (some 0, t) ∧
      usbScsiSync stick t = (some 0, u) ∧
      Consistent (bridgeGeometry clusterSize usable hcs husable.le) (window u.dev.medium (d * 512)) := by
  obtain ⟨r, t, hrun, b, hb, -, himage⟩ :=
    wp_returns (wp_usbScsiFormatExfat hcs husable.le hw hall hroom hfuel upcaseTable label)
  dsimp only at himage
  rw [if_pos hfits] at himage
  obtain ⟨rfl, himage⟩ := himage
  obtain ⟨u, hsync, hmedium, -⟩ := sync_returns hb
  refine ⟨t, u, hrun, hsync, ?_⟩
  rw [hmedium]
  exact himage.consistent hfits (Nat.lt_of_le_of_lt (Nat.div_le_self _ _) husable)

theorem exfat_format_consistent_roomy :
    ∃ t u, usbScsiFormatExfat stick (2 ^ 32) zeros 0 [] roomyStick = (some 0, t) ∧
      usbScsiSync stick t = (some 0, u) ∧
      Consistent (bridgeGeometry 0 33550336 (by decide) (by decide)) (window u.dev.medium 2097152) :=
  exfat_format_consistent (show 0 < 1073742336 by decide)
    (show 33550336 < 4294967296 by decide) roomyStick_tracks rfl
    (by decide) (Nat.le_refl _) zeros [] (by decide)

end Bridge

end FormatStick.Exfat
