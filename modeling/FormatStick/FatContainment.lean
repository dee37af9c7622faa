import FormatStick.FatClass
import FormatStick.RootCluster

/-!
# The FAT formatter and its partition

The formatter sizes its tables for the whole disk and starts each of them with 32 KB. A
partition is too short for them where it has less than about a hundred sectors, or where
the cap of a FAT16 or FAT12 partition is short against the tables of a large disk.
-/
namespace FormatStick
open Prog TableSizing

/-- The request lies in the first `part` sectors of the window. -/
def Request.Inside (sectorSize part : ℕ) (q : Request) : Prop :=
  0 ≤ q.offset ∧ q.offset + q.count ≤ part * sectorSize

/-- Offsets counted in small sectors lie in as many larger ones. -/
theorem Request.Inside.mono {q : Request} {s s' part part' : ℕ} (h : q.Inside s part) (hs : s ≤ s')
    (hpart : part ≤ part') : q.Inside s' part' := by
  refine ⟨h.1, Int.le_trans h.2 ?_⟩
  exact_mod_cast Nat.mul_le_mul hpart hs

/-- The sectors from the start of the partition to the end of what the formatter writes. -/
def fatExtent (fatType : ℤ) (fatSize : ℕ) : ℕ :=
  fatReservedSectors fatType + fatSize + max 64 (fatSize + fatRootDirSectors fatType)

section Layout

variable {fatType : ℤ} {fatSize : ℕ} {bs : Buf} {q : Request}

theorem inside_writeAt {part : ℕ} (buf : Buf) {count sector : ℕ} (h : sector * 512 + count ≤ part * 512) :
    (writeAt 512 buf count sector).Inside 512 part := by
  simp only [Request.Inside, writeAt, writeRequest]
  omega

theorem zeroWrites_inside {start size i part : ℕ} (h : start + size ≤ part) :
    ∀ q ∈ zeroWrites 512 start size i, q.Inside 512 part := by
  intro q hq
  obtain ⟨k, hk, rfl⟩ := List.mem_map.mp hq
  have := List.mem_range.mp hk
  exact inside_writeAt _ (by omega)

theorem fatTableWrites_inside {f : ℕ} (hf : f ≤ 1) :
    ∀ q ∈ fatTableWrites 512 fatType fatSize f, q.Inside 512 (fatExtent fatType fatSize) := by
  have hle : f * fatSize ≤ fatSize := Nat.le_trans (Nat.mul_le_mul_right _ hf) (Nat.le_of_eq (Nat.one_mul _))
  intro q hq
  rcases List.mem_append.mp hq with hq | hq
  · rw [List.mem_singleton.mp hq]
    apply inside_writeAt
    unfold fatExtent
    omega
  · apply zeroWrites_inside _ q hq
    unfold fatExtent
    omega

/-- What a FAT layout calls for lies in its extent. -/
theorem fatWrites_inside :
    ∀ q ∈ fatWrites 512 fatType fatSize bs, q.Inside 512 (fatExtent fatType fatSize) := by
  intro q hq
  rcases List.mem_append.mp hq with hq | hq
  · rw [List.mem_singleton.mp hq]
    apply inside_writeAt
    unfold fatExtent
    omega
  · by_cases hfat : fatType = 1
    · rw [if_pos hfat] at hq
      have hextent : 96 ≤ fatExtent fatType fatSize := by
        rw [fatExtent, fatReservedSectors, if_pos hfat]
        omega
      rcases List.mem_append.mp hq with hq | hq
      · rw [List.mem_singleton.mp hq]
        exact inside_writeAt _ (by omega)
      · rcases List.mem_append.mp hq with hq | hq
        · rw [List.mem_singleton.mp hq]
          exact inside_writeAt _ (by omega)
        · rcases List.mem_append.mp hq with hq | hq
          · exact fatTableWrites_inside (Nat.zero_le 1) q hq
          · exact fatTableWrites_inside (Nat.le_refl 1) q hq
    · rw [if_neg hfat] at hq
      rcases List.mem_append.mp hq with hq | hq
      · exact fatTableWrites_inside (Nat.zero_le 1) q hq
      · rcases List.mem_append.mp hq with hq | hq
        · exact fatTableWrites_inside (Nat.le_refl 1) q hq
        · apply zeroWrites_inside _ q hq
          unfold fatExtent
          omega

theorem zeroWrites_reach (start : ℕ) {size i : ℕ} (h : i < size) :
    ∃ q ∈ zeroWrites 512 start size i, q.offset + q.count = (start + size) * 512 := by
  refine ⟨_, List.mem_map.mpr ⟨(size - i - 1) / 64, List.mem_range.mpr ?_, rfl⟩, ?_⟩
  · omega
  · simp only [writeAt, writeRequest]
    omega

/-- Some of it ends where the extent ends. -/
theorem fatWrites_reach (fatType : ℤ) (fatSize : ℕ) (bs : Buf) :
    ∃ q ∈ fatWrites 512 fatType fatSize bs, q.offset + q.count = fatExtent fatType fatSize * 512 := by
  have hmem : ∀ q ∈ fatTableWrites 512 fatType fatSize 1, q ∈ fatWrites 512 fatType fatSize bs :=
      fun q hq => by
    simp only [fatWrites, List.mem_append]
    split_ifs <;> simp [hq]
  by_cases hroot : fatType = 1 ∧ fatSize ≤ 64 ∨ fatType ≠ 1 ∧ fatSize + 32 ≤ 64
  · refine ⟨_, hmem _ (List.mem_append_left _ (List.mem_singleton_self _)), ?_⟩
    simp only [writeAt, writeRequest, fatExtent, fatRootDirSectors, fatRootDirEntries]
    split_ifs <;> omega
  · by_cases hfat : fatType = 1
    · obtain ⟨q, hq, hend⟩ := zeroWrites_reach (fatReservedSectors fatType + 1 * fatSize)
        (show 64 < fatSize by omega)
      refine ⟨q, hmem q (List.mem_append_right _ hq), ?_⟩
      rw [hend, fatExtent, fatRootDirSectors, fatRootDirEntries, if_pos hfat]
      omega
    · have hsectors : fatRootDirSectors fatType = 32 := by
        rw [fatRootDirSectors, fatRootDirEntries, if_neg hfat]
      obtain ⟨q, hq, hend⟩ := zeroWrites_reach (fatReservedSectors fatType + 2 * fatSize)
        (show 0 < fatRootDirSectors fatType by omega)
      refine ⟨q, ?_, ?_⟩
      · simp [fatWrites, hfat, hq]
      · rw [hend, fatExtent, hsectors]
        omega

end Layout

theorem fatSectorsPerCluster_of_mem {clusterSize : ℕ} (hcs : clusterSize ∈ clusterSizes) (fatType : ℤ) :
    fatSectorsPerCluster fatType clusterSize = clusterSize / 512 := by
  have hne : clusterSize ≠ 0 := by
    rintro rfl
    exact absurd hcs (by decide)
  rw [← fat32_sectorsPerCluster hcs]
  simp [fatSectorsPerCluster, hne]

/-- Below the overhead the numerator wraps back below the divisor. -/
theorem fatSizeSectors_of_lt {fatType : ℤ} (clusterSize : ℕ) {usable : ℕ} (h : usable < fatOverhead fatType) :
    fatSizeSectors fatType clusterSize usable = 0 := by
  obtain ⟨h₁, h₂⟩ := fatSectorsPerCluster_bounds fatType clusterSize
  rw [fatOverhead_eq] at h
  unfold fatSizeSectors fatReservedSectors fatRootDirSectors fatRootDirEntries
  generalize fatSectorsPerCluster fatType clusterSize = spc at h₁ h₂ ⊢
  have hzero : ∀ {x d : ℕ}, x < d → u32 ((x / d : ℕ) : ℤ) = 0 := fun hx => by
    rw [Nat.div_eq_of_lt hx]
    rfl
  by_cases hfat : fatType = 1
  · simp only [hfat, if_true] at h ⊢
    apply hzero
    unfold u64
    omega
  · simp only [hfat, if_false] at h ⊢
    apply hzero
    unfold u64
    omega

/-- With clusters of 4 KB or more the tables stay below byte 2^32. -/
theorem fatAddressable_of_mem {clusterSize : ℕ} (hcs : clusterSize ∈ clusterSizes) (fatType : ℤ) {usable : ℕ}
    (hlt : usable ≤ 4294967296) : FatAddressable fatType (fatSizeSectors fatType clusterSize usable) := by
  by_cases h : fatOverhead fatType ≤ usable
  · have hle : fatSizeSectors fatType clusterSize usable ≤ if fatType = 1 then 4186128 else 2095106 := by
      rw [fatSizeSectors_eq clusterSize h hlt, tableSize_le_iff, fatSectorsPerCluster_of_mem hcs,
        fatOverhead_eq,
        fatEntriesPerSector, share]
      rcases mem_clusterSizes hcs with rfl | rfl | rfl | rfl | rfl <;> split_ifs <;> omega
    unfold FatAddressable
    split_ifs at hle ⊢ <;> omega
  · rw [fatSizeSectors_of_lt clusterSize (Nat.lt_of_not_le h), FatAddressable]
    split_ifs <;> decide

/-- The sectors of a partition that the tables of a small volume and their heads fit into. -/
def leastPartition (fatType partitionType : ℤ) (spc : ℕ) : ℕ :=
  if fatType = 1 then 96 + if 3 ≤ partitionType then (4161 + 128 * spc + 1) / (128 * spc + 2) else 1
  else 72 + if 3 ≤ partitionType then (4129 + 256 * spc + 1) / (256 * spc + 2) else 1

/-- The capacities on which the formatter stays inside its partition. -/
def FatContained (n clusterSize : ℕ) (partitionType fatType : ℤ) : Prop :=
  let spc := clusterSize / 512
  let cap := fsCapSectors clusterSize fatType
  if 0 < cap ∧ cap < maxUsableSectors n partitionType then
    sessionUsable n partitionType ≤ 40 + (cap - 40) / 2 * (256 * spc + 2)
  else leastPartition fatType partitionType spc ≤ maxUsableSectors n partitionType

instance (n clusterSize : ℕ) (partitionType fatType : ℤ) :
    Decidable (FatContained n clusterSize partitionType fatType) := by
  unfold FatContained
  infer_instance

section Bounds

variable {n clusterSize : ℕ} {partitionType fatType : ℤ}

/-- The formatter takes the whole disk for its volume, the session what is left of it. -/
theorem sessionUsable_eq (hn : n ≤ 4294967296)
    (hacc : alignedOffset partitionType + reservedEnd partitionType < n) :
    sessionUsable n partitionType =
        maxUsableSectors n partitionType +
          (if 3 ≤ partitionType then 4096 else if partitionType = 2 then 1 else 0) ∧
      0 < maxUsableSectors n partitionType := by
  unfold alignedOffset reservedEnd at hacc
  unfold sessionUsable maxUsableSectors driveStart alignedOffset reservedEnd u64
  split_ifs at hacc ⊢ <;> omega

/-- The table size within one of its quotient. -/
theorem fatSizeSectors_bounds (hcs : clusterSize ∈ clusterSizes) (fatType : ℤ) {usable : ℕ}
    (hlt : usable ≤ 4294967296) :
    let spc := clusterSize / 512
    let fatSize := fatSizeSectors fatType clusterSize usable
    usable - fatOverhead fatType ≤ fatSize * (fatEntriesPerSector fatType * spc + 2) ∧
      (0 < fatSize → fatSize * (fatEntriesPerSector fatType * spc + 2) <
        usable - fatOverhead fatType + (fatEntriesPerSector fatType * spc + 2)) := by
  intro spc fatSize
  by_cases h : fatOverhead fatType ≤ usable
  · have hsize : fatSize = tableSize (usable - fatOverhead fatType) (fatEntriesPerSector fatType) spc := by
      have hspc : spc = fatSectorsPerCluster fatType clusterSize :=
        (fatSectorsPerCluster_of_mem hcs fatType).symm
      rw [hspc]
      exact fatSizeSectors_eq clusterSize h hlt
    refine ⟨?_, fun hpos => ?_⟩
    · exact tableSize_le_iff.mp (Nat.le_of_eq hsize.symm)
    · have hnot : ¬tableSize (usable - fatOverhead fatType) (fatEntriesPerSector fatType) spc ≤
        fatSize - 1 := by omega
      rw [tableSize_le_iff, share, Nat.sub_mul, Nat.one_mul] at hnot
      omega
  · have hzero : fatSize = 0 := fatSizeSectors_of_lt clusterSize (Nat.lt_of_not_le h)
    rw [hzero]
    omega

theorem fatExtent_le_iff (hn : n ≤ 4294967296) (hcs : clusterSize ∈ clusterSizes)
    (hfat : fatType = 1 ∨ fatType = 2 ∨ fatType = 3)
    (hacc : alignedOffset partitionType + reservedEnd partitionType < n) :
    fatExtent fatType (fatSizeSectors fatType clusterSize (sessionUsable n partitionType)) ≤
        partSectors n clusterSize partitionType fatType ↔
          FatContained n clusterSize partitionType fatType := by
  obtain ⟨husable, hpos⟩ := sessionUsable_eq hn hacc
  have hle : sessionUsable n partitionType ≤ 4294967296 := by
    unfold sessionUsable
    omega
  obtain ⟨hlow, hhigh⟩ := fatSizeSectors_bounds hcs fatType hle
  unfold FatContained partSectors
  generalize fatSizeSectors fatType clusterSize (sessionUsable n partitionType) = f at *
  generalize maxUsableSectors n partitionType = avail at *
  generalize sessionUsable n partitionType = usable at *
  rw [fatOverhead_eq, fatEntriesPerSector] at hlow hhigh
  have hcluster : (if (clusterSize : ℤ) ≠ 0 then u32 clusterSize else 32768) = clusterSize := by
    rw [u32_clusterSize hcs, if_pos]
    rcases mem_clusterSizes hcs with rfl | rfl | rfl | rfl | rfl <;> decide
  unfold fatExtent fatReservedSectors fatRootDirSectors fatRootDirEntries leastPartition fsCapSectors
  rw [hcluster]
  rcases hfat with rfl | rfl | rfl
  · rcases mem_clusterSizes hcs with rfl | rfl | rfl | rfl | rfl <;> simp at * <;> split_ifs at * <;> omega
  · rcases mem_clusterSizes hcs with rfl | rfl | rfl | rfl | rfl <;> simp at * <;> split_ifs at * <;> omega
  · rcases mem_clusterSizes hcs with rfl | rfl | rfl | rfl | rfl <;> simp at * <;> split_ifs at * <;> omega

end Bounds

/-- Tables below byte 2^32 are small enough for the chunk loops to end. -/
theorem FatAddressable.loopsEnd {fatType : ℤ} {fatSize : ℕ} (h : FatAddressable fatType fatSize) :
    FatLoopsEnd fatSize := by
  obtain ⟨hbound, -⟩ := h.bound
  have hsize : u32 ((fatSize : ℤ) * 512) = fatSize * 512 := u32_mul (b := 512) (by omega)
  rw [FatLoopsEnd, hsize]
  omega

/-- The formatter stays inside the partition of its session, on every device and whatever fails,
exactly on these capacities. Its offsets count sectors of 512 bytes. -/
theorem usbScsiFormatFat_contained_iff {n : ℕ} (hn : n ≤ 4294967296) {clusterSize : ℕ}
    (hcs : clusterSize ∈ clusterSizes)
    {partitionType fatType : ℤ} (hfat : fatType = 1 ∨ fatType = 2 ∨ fatType = 3)
    (hacc : alignedOffset partitionType + reservedEnd partitionType < n) :
    (∀ (δ : Type) (P : Platform δ) (fuel : ℕ) (label : List UInt8) (w : World δ),
      SetUp n clusterSize partitionType fatType w → 512 ≤ w.drv.gSectorSize →
      ∀ q ∈ (usbScsiFormatFat P fuel fatType clusterSize label w).2.requests.drop w.requests.length,
        q.Inside w.drv.gSectorSize w.drv.gPartitionSectors) ↔
          FatContained n clusterSize partitionType fatType := by
  have haddress : ∀ usable ≤ 4294967296, FatAddressable fatType (fatSizeSectors fatType clusterSize usable) :=
    fun _ h => fatAddressable_of_mem hcs fatType h
  rw [← fatExtent_le_iff hn hcs hfat hacc]
  constructor
  · intro h
    have hset : SetUp n clusterSize partitionType fatType
        (formatterStick n clusterSize partitionType fatType) :=
      formatterStick_setUp hacc
    obtain ⟨husable, hpos, hle⟩ := hset.usable hn
    have hsmall := haddress _ hle
    rw [← husable] at hpos hsmall
    obtain ⟨t, hrun⟩ := formatterStick_formatted n clusterSize partitionType fatType fatType clusterSize
      (Nat.ne_of_gt hpos) hsmall.loopsEnd
    obtain ⟨bs, hrequests⟩ := usbScsiFormatFat_requests hsmall hrun
    obtain ⟨q, hq, hend⟩ := fatWrites_reach fatType (fatSizeSectors fatType clusterSize (fatUsableSectors
      (formatterStick n clusterSize partitionType fatType).drv)) bs
    have hin := h Stick stick (2 ^ 32) usbDisk _ hset (Nat.le_refl 512) q
      (by rw [hrun, hrequests, List.drop_left]; exact hq)
    have hlast : q.offset + q.count ≤
        ((formatterStick n clusterSize partitionType fatType).drv.gPartitionSectors : ℤ) * 512 :=
      hin.2
    rw [hend, hset.size, husable] at hlast
    omega
  · intro hextent δ P fuel label w hset hsize q hq
    obtain ⟨husable, -, hle⟩ := hset.usable hn
    obtain ⟨bs, ps, hps, hrequests⟩ := usbScsiFormatFat_issues P fuel label (husable.symm ▸ haddress _ hle)
    rw [hrequests, List.drop_left] at hq
    have hin := fatWrites_inside q (hps.subset hq)
    rw [husable] at hin
    rw [hset.size]
    exact hin.mono hsize hextent

/-- FAT16 on a stick of 512 GiB: the tables are longer than the capped partition. -/
theorem usbScsiFormatFat_escapes :
    SetUp 1073741824 4096 1 2 (formatterStick 1073741824 4096 1 2) ∧
      ∃ q ∈ (usbScsiFormatFat stick (2 ^ 32) 2 4096 usbDisk (formatterStick 1073741824 4096 1 2)).2.requests,
        ¬q.Inside (formatterStick 1073741824 4096 1 2).drv.gSectorSize
          (formatterStick 1073741824 4096 1 2).drv.gPartitionSectors := by
  have hset : SetUp 1073741824 4096 1 2 (formatterStick 1073741824 4096 1 2) :=
    formatterStick_setUp (by decide)
  have hsmall : FatAddressable 2
      (fatSizeSectors 2 4096 (fatUsableSectors (formatterStick 1073741824 4096 1 2).drv)) :=
    fatAddressable_of_mem (by decide) 2 (by decide)
  obtain ⟨t, hrun⟩ := formatterStick_formatted 1073741824 4096 1 2 2 4096 (by decide) hsmall.loopsEnd
  obtain ⟨bs, hrequests⟩ := usbScsiFormatFat_requests hsmall hrun
  obtain ⟨q, hq, hend⟩ := fatWrites_reach 2 (fatSizeSectors 2 4096 (fatUsableSectors
    (formatterStick 1073741824 4096 1 2).drv)) bs
  refine ⟨hset, q, by rw [hrun, hrequests]; exact hq, fun hin => ?_⟩
  have hlast := hin.2
  rw [hend] at hlast
  exact absurd hlast (by decide)

/-- On a stick of 1 GiB they fit. -/
theorem usbScsiFormatFat_contained_iff_small :
    FatContained 2097152 4096 1 2 ∧
      ∀ q ∈ (usbScsiFormatFat stick (2 ^ 32) 2 4096 usbDisk (formatterStick 2097152 4096 1 2)).2.requests.drop
          (formatterStick 2097152 4096 1 2).requests.length,
        q.Inside (formatterStick 2097152 4096 1 2).drv.gSectorSize
          (formatterStick 2097152 4096 1 2).drv.gPartitionSectors := by
  have hset : SetUp 2097152 4096 1 2 (formatterStick 2097152 4096 1 2) := formatterStick_setUp (by decide)
  have hfits : FatContained 2097152 4096 1 2 := by decide
  exact ⟨hfits, (usbScsiFormatFat_contained_iff (by decide) (by decide) (.inr (.inl rfl))
    (by decide)).mpr hfits
    Stick stick (2 ^ 32) usbDisk _ hset (Nat.le_refl 512)⟩

end FormatStick
