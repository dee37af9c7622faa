import FormatStick.FatWriter
import FormatStick.TableSizing

/-!
# The geometry of a FAT volume

The table size of the formatter is the rounded-up share of its area, without the two
entries at the start of a table that describe no cluster. So a volume whose size leaves
one of a few residues has a cluster too many.
-/
namespace FormatStick
open TableSizing

/-- The sectors in front of the tables and behind them that are no cluster. -/
def fatOverhead (fatType : ℤ) : ℕ := fatReservedSectors fatType + fatRootDirSectors fatType

/-- The entries that the formatter counts on in a sector of a table. -/
def fatEntriesPerSector (fatType : ℤ) : ℕ := if fatType = 1 then 128 else 256

/-- The bits of an entry. -/
def fatEntryBits (fatType : ℤ) : ℕ := if fatType = 1 then 32 else if fatType = 2 then 16 else 12

/-- The clusters of a volume of `usable` sectors. -/
def fatClusters (fatType : ℤ) (clusterSize usable : ℕ) : ℕ :=
  (usable - fatReservedSectors fatType - 2 * fatSizeSectors fatType clusterSize
    usable - fatRootDirSectors fatType) /
    fatSectorsPerCluster fatType clusterSize

theorem fatOverhead_eq (fatType : ℤ) : fatOverhead fatType = if fatType = 1 then 32 else 40 := by
  by_cases h : fatType = 1 <;> simp [fatOverhead, fatReservedSectors, fatRootDirSectors, fatRootDirEntries, h]

theorem fatSectorsPerCluster_pos (fatType : ℤ) (clusterSize : ℕ) :
    0 < fatSectorsPerCluster fatType clusterSize :=
  (fatSectorsPerCluster_bounds fatType clusterSize).1

/-- Without conversions the table size is a rounded-up quotient. -/
theorem fatSizeSectors_eq {fatType : ℤ} (clusterSize : ℕ) {usable : ℕ} (h : fatOverhead fatType ≤ usable)
    (hlt : usable ≤ 4294967296) :
    fatSizeSectors fatType clusterSize usable =
      tableSize (usable - fatOverhead fatType) (fatEntriesPerSector fatType)
        (fatSectorsPerCluster fatType clusterSize) := by
  rw [fatOverhead_eq] at h ⊢
  by_cases hfat : fatType = 1
  · subst hfat
    rw [if_pos rfl] at h ⊢
    have hdiv : (usable - 32) * 4 + (512 * fatSectorsPerCluster 1 clusterSize + 8) - 1 =
        (usable - 32 + share 128 (fatSectorsPerCluster 1 clusterSize) - 1) * 4 + 3 := by
      simp only [share]
      omega
    have hshare : 512 * fatSectorsPerCluster 1 clusterSize + 8 =
        4 * share 128 (fatSectorsPerCluster 1 clusterSize) := by
      simp only [share]
      omega
    rw [fatSizeSectors_fat32 clusterSize h hlt, hdiv, hshare, ← Nat.div_div_eq_div_mul]
    simp only [fatEntriesPerSector, tableSize, if_true]
    congr 1
    omega
  · rw [if_neg hfat] at h ⊢
    have hdiv : (usable - 40) * 2 + (512 * fatSectorsPerCluster fatType clusterSize + 4) - 1 =
        (usable - 40 + share 256 (fatSectorsPerCluster fatType clusterSize) - 1) * 2 + 1 := by
      simp only [share]
      omega
    have hshare : 512 * fatSectorsPerCluster fatType clusterSize + 4 =
        2 * share 256 (fatSectorsPerCluster fatType clusterSize) := by
      simp only [share]
      omega
    rw [fatSizeSectors_fat16 hfat clusterSize h hlt, hdiv, hshare, ← Nat.div_div_eq_div_mul]
    simp only [fatEntriesPerSector, tableSize, hfat, if_false]
    congr 1
    omega

theorem fatClusters_eq {fatType : ℤ} (clusterSize : ℕ) {usable : ℕ} (h : fatOverhead fatType ≤ usable)
    (hlt : usable ≤ 4294967296) :
    fatClusters fatType clusterSize usable =
      clusters (usable - fatOverhead fatType) (fatEntriesPerSector fatType)
        (fatSectorsPerCluster fatType clusterSize) := by
  have hsize := fatSizeSectors_eq clusterSize h hlt
  have harea : usable - fatReservedSectors fatType - 2 * fatSizeSectors fatType clusterSize usable -
      fatRootDirSectors fatType =
        usable - fatOverhead fatType - 2 * fatSizeSectors fatType clusterSize usable := by
    rw [fatOverhead]
    omega
  rw [fatClusters, clusters, harea, hsize]

/-- The sectors from the drive offset to the end of the device, or to a backup GPT, below zero
where the offset lies past them. -/
def fatVolume (g : Driver) : ℤ :=
  (g.gSectorCount : ℤ) - g.gDriveOffsetSectors - if g.gPartitionType = 2 then 33 else 0

/-- `usable_sectors` of a volume that is not empty. -/
theorem fatUsableSectors_eq {g : Driver} (hcount : g.gSectorCount ≤ 4294967296) (h : 0 < fatVolume g) :
    (fatUsableSectors g : ℤ) = fatVolume g ∧ fatUsableSectors g ≤ 4294967296 := by
  unfold fatVolume at h ⊢
  unfold fatUsableSectors u64
  dsimp only
  split_ifs at h ⊢ <;> omega

/-- Where the data area is not empty, each table has an entry for every cluster exactly if it is
a FAT12 or the two reserved entries fit into what the rounding leaves. -/
theorem fatEntries_iff (g : Driver) (hcount : g.gSectorCount ≤ 4294967296) {fatType : ℤ}
    (hfat : fatType = 1 ∨ fatType = 2 ∨ fatType = 3) (clusterSize : ℕ)
    (hdata : (fatReservedSectors fatType + 2 * fatSizeSectors fatType clusterSize (fatUsableSectors g) +
      fatRootDirSectors fatType : ℤ) < fatVolume g) :
    let usable := fatUsableSectors g
    let spc := fatSectorsPerCluster fatType clusterSize
    let rest := (usable - fatOverhead fatType) % (fatEntriesPerSector fatType * spc + 2)
    (fatClusters fatType clusterSize usable + 2) * fatEntryBits fatType ≤
        fatSizeSectors fatType clusterSize usable * 512 * 8 ↔
      fatType = 3 ∨ 0 < rest ∧ rest + spc < fatEntriesPerSector fatType * spc + 2 := by
  intro usable spc rest
  obtain ⟨husable, hlt⟩ := fatUsableSectors_eq hcount (by omega)
  have hover : fatOverhead fatType + 2 * fatSizeSectors fatType clusterSize usable < usable := by
    unfold fatOverhead usable
    omega
  have hsize := fatSizeSectors_eq clusterSize (show fatOverhead fatType ≤ usable by omega) hlt
  have hclusters := fatClusters_eq clusterSize (show fatOverhead fatType ≤ usable by omega) hlt
  have hspc : 0 < spc := fatSectorsPerCluster_pos fatType clusterSize
  have hle : clusters (usable - fatOverhead fatType) (fatEntriesPerSector fatType) spc ≤ _ := clusters_le
  have hroom : clusters (usable - fatOverhead fatType) (fatEntriesPerSector fatType) spc + 2 ≤ _ ↔ _ :=
    clusters_add_two_le_iff hspc (by unfold fatEntriesPerSector; split_ifs <;> decide)
  rw [← hsize, ← hclusters] at hroom hle
  change _ ↔ 0 < rest ∧ rest + spc < fatEntriesPerSector fatType * spc + 2 at hroom
  rcases hfat with rfl | rfl | rfl
  · rw [← hroom]
    simp only [fatEntryBits, fatEntriesPerSector, if_true]
    omega
  · rw [← hroom]
    simp only [fatEntryBits, fatEntriesPerSector]
    norm_num
    omega
  · -- the entries are shorter than the formula takes them to be
    have hone : 0 < fatSizeSectors 3 clusterSize usable := by
      by_contra hzero
      have := tableSize_le_iff.mp (hsize ▸ Nat.le_of_not_lt hzero)
      omega
    simp only [fatEntryBits, fatEntriesPerSector] at hle ⊢
    norm_num at hle ⊢
    omega

/-- 100 whole shares: 12800 clusters and 12800 entries. -/
theorem fatEntries_wholeShares :
    let g : Driver := { gSectorCount := 102632 }
    fatClusters 1 4096 (fatUsableSectors g) = 12800 ∧ fatSizeSectors 1 4096 (fatUsableSectors g) = 100 ∧
      ¬(fatClusters 1 4096 (fatUsableSectors g) + 2) * fatEntryBits 1 ≤
        fatSizeSectors 1 4096 (fatUsableSectors g) * 512 * 8 := by decide

/-- The same with 68 sectors more. -/
theorem fatEntries_iff_rest :
    let g : Driver := { gSectorCount := 102700 }
    (fatClusters 1 4096 (fatUsableSectors g) + 2) * fatEntryBits 1 ≤
      fatSizeSectors 1 4096 (fatUsableSectors g) * 512 * 8 :=
  (fatEntries_iff { gSectorCount := 102700 } (by decide) (.inl rfl) 4096 (by decide)).mpr (.inr (by decide))

end FormatStick
