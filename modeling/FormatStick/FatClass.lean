import FormatStick.FatGeometry
import FormatStick.FormatterCall
import FormatStick.Success

/-!
# The FAT type that a reader sees

A reader takes the width of the FAT entries from the number of clusters alone. The
formatter takes the type it is asked for, on whatever the whole disk has room for. The
two agree in a range of volume sizes for each type.
-/
namespace FormatStick
open Splice Fields TableSizing

/-- The fields of a BPB that the number of clusters depends on. -/
structure BiosParameters where
  bytesPerSector : ℕ
  sectorsPerCluster : ℕ
  reservedSectors : ℕ
  fats : ℕ
  rootEntries : ℕ
  totalSectors16 : ℕ
  fatSize16 : ℕ
  totalSectors32 : ℕ
  fatSize32 : ℕ

namespace BiosParameters

def read (b : Buf) : BiosParameters where
  bytesPerSector := leNat b 11 2
  sectorsPerCluster := leNat b 13 1
  reservedSectors := leNat b 14 2
  fats := leNat b 16 1
  rootEntries := leNat b 17 2
  totalSectors16 := leNat b 19 2
  fatSize16 := leNat b 22 2
  totalSectors32 := leNat b 32 4
  fatSize32 := leNat b 36 4

def totalSectors (b : BiosParameters) : ℕ :=
  if b.totalSectors16 ≠ 0 then b.totalSectors16 else b.totalSectors32

/-- Only a volume without a root directory region has a 32-bit table size. -/
def fatSize (b : BiosParameters) : Option ℕ :=
  if b.fatSize16 ≠ 0 then some b.fatSize16 else if b.rootEntries = 0 then some b.fatSize32 else none

def rootSectors (b : BiosParameters) : ℕ := (b.rootEntries * 32 + b.bytesPerSector - 1) / b.bytesPerSector

/-- The clusters that fit behind the tables, if the tables fit into the volume. -/
def clusters (b : BiosParameters) : Option ℕ := do
  let fatSize ← b.fatSize
  let front := b.reservedSectors + b.fats * fatSize + b.rootSectors
  if front ≤ b.totalSectors then some ((b.totalSectors - front) / b.sectorsPerCluster) else none

end BiosParameters

/-- The type of a volume with so many clusters, by the numbers that select one for formatting. -/
def fatTypeOf (clusters : ℕ) : ℤ := if clusters < 4085 then 3 else if clusters < 65525 then 2 else 1

theorem fatTypeOf_eq_fat32 {c : ℕ} : fatTypeOf c = 1 ↔ 65525 ≤ c := by
  unfold fatTypeOf
  split_ifs <;> omega

theorem fatTypeOf_eq_fat16 {c : ℕ} : fatTypeOf c = 2 ↔ 4085 ≤ c ∧ ¬65525 ≤ c := by
  unfold fatTypeOf
  split_ifs <;> omega

theorem fatTypeOf_eq_fat12 {c : ℕ} : fatTypeOf c = 3 ↔ ¬4085 ≤ c := by
  unfold fatTypeOf
  split_ifs <;> omega

section Read

variable {clusterSize driveOffset usable serial : ℕ} {label : List UInt8}

@[simp] theorem fatSetVolLabel_length (label : List UInt8) : (fatSetVolLabel label).length = 11 := by
  simp only [fatSetVolLabel, List.length_append, List.length_map, List.length_take, List.length_replicate]
  omega

@[simp] theorem leNat_zeros (a n : ℕ) : leNat zeros a n = 0 := by
  induction n generalizing a with
  | zero => rfl
  | succ n ih => simp [leNat, ih, zeros]

theorem read_fat32 (clusterSize driveOffset usable serial : ℕ) (label : List UInt8) :
    BiosParameters.read (fatBootSector 1 clusterSize driveOffset usable serial label) =
      { bytesPerSector := 512
        sectorsPerCluster := fatSectorsPerCluster 1 clusterSize
        reservedSectors := 32
        fats := 2
        rootEntries := 0
        totalSectors16 := 0
        fatSize16 := 0
        totalSectors32 := u32 usable
        fatSize32 := fatSizeSectors 1 clusterSize usable } := by
  have hspc := (fatSectorsPerCluster_bounds 1 clusterSize).2
  have hsize : fatSizeSectors 1 clusterSize usable < 4294967296 := by
    simp only [fatSizeSectors, if_true]
    exact u32_lt _
  have htotal := u32_lt usable
  have hbyte : ∀ x, [u8 x] = leBytes 1 x := fun _ => rfl
  have htwo : ([2] : List UInt8) = leBytes 1 2 := rfl
  simp (disch := simp) only [BiosParameters.read, fatBootSector, fatBiosParameters, hbyte, htwo,
    leNat_put_of_disjoint,
    leNat_put, leNat_zeros, ne_eq, not_true_eq_false, and_false, if_true, if_false]
  simp only [fatReservedSectors, fatRootDirEntries, if_true, BiosParameters.mk.injEq, true_and]
  omega

theorem read_fat16 {fatType : ℤ} (hne : fatType ≠ 1) (clusterSize driveOffset usable serial : ℕ)
    (label : List UInt8) :
    ∃ x, BiosParameters.read (fatBootSector fatType clusterSize driveOffset usable serial label) =
      { bytesPerSector := 512
        sectorsPerCluster := fatSectorsPerCluster fatType clusterSize
        reservedSectors := 8
        fats := 2
        rootEntries := 512
        totalSectors16 := if usable < 65536 then usable else 0
        fatSize16 := u16 (fatSizeSectors fatType clusterSize usable)
        totalSectors32 := if usable < 65536 then 0 else u32 usable
        fatSize32 := x } := by
  have hspc := (fatSectorsPerCluster_bounds fatType clusterSize).2
  have hsize : u16 (fatSizeSectors fatType clusterSize usable) < 65536 := by
    unfold u16
    omega
  have htotal := u32_lt usable
  have hbyte : ∀ x, [u8 x] = leBytes 1 x := fun _ => rfl
  have htwo : ([2] : List UInt8) = leBytes 1 2 := rfl
  refine ⟨leNat (fatBootSector fatType clusterSize driveOffset usable serial label) 36 4, ?_⟩
  by_cases hsmall : usable < 65536
  · have hshort := u16_of_lt hsmall
    simp (disch := simp) only [BiosParameters.read, fatBootSector, fatBiosParameters, hbyte, htwo,
      hne, hsmall,
      leNat_put_of_disjoint, leNat_put, leNat_zeros, ne_eq, not_false_eq_true, and_self, if_true,
      if_false, hshort]
    simp only [fatReservedSectors, fatRootDirEntries, hne, if_false, BiosParameters.mk.injEq, and_true]
    omega
  · simp (disch := simp) only [BiosParameters.read, fatBootSector, fatBiosParameters, hbyte, htwo,
      hne, hsmall,
      leNat_put_of_disjoint, leNat_put, leNat_zeros, ne_eq, not_false_eq_true, false_and, if_false]
    simp only [fatReservedSectors, fatRootDirEntries, hne, if_false, BiosParameters.mk.injEq,
      true_and, and_true]
    omega

/-- A reader of the boot sector sees the type that the volume was written as. -/
def ClassedAs (fatType : ℤ) (bs : Buf) : Prop :=
  ∃ c, (BiosParameters.read bs).clusters = some c ∧ fatTypeOf c = fatType

/-- The volume sizes, in sectors, that have a number of clusters for the type. -/
def FatSizeFits (fatType : ℤ) (spc usable : ℕ) : Prop :=
  if fatType = 1 then 65525 * spc + 1056 ≤ usable ∧ usable < 4294967296
  else if fatType = 2 then 4085 * spc + 72 ≤ usable ∧ usable < 65525 * spc + 552
  else 42 ≤ usable ∧ usable < 4085 * spc + 72

theorem clusters_read_fat32 (clusterSize driveOffset usable serial : ℕ) (label : List UInt8) :
    (BiosParameters.read (fatBootSector 1 clusterSize driveOffset usable serial label)).clusters =
      if 32 + 2 * fatSizeSectors 1 clusterSize usable ≤ u32 usable then
        some ((u32 usable - (32 + 2 * fatSizeSectors 1 clusterSize usable)) / fatSectorsPerCluster
          1 clusterSize)
      else none := by
  rw [read_fat32]
  simp [BiosParameters.clusters, BiosParameters.fatSize, BiosParameters.rootSectors,
    BiosParameters.totalSectors]

theorem clusters_read_fat16 {fatType : ℤ} (hne : fatType ≠ 1) (clusterSize driveOffset usable serial : ℕ)
    (label : List UInt8) (hpos : 0 < usable) :
    (BiosParameters.read (fatBootSector fatType clusterSize driveOffset usable serial label)).clusters =
      if u16 (fatSizeSectors fatType clusterSize usable) ≠ 0 ∧
          40 + 2 * u16 (fatSizeSectors fatType clusterSize usable) ≤ u32 usable then
        some ((u32 usable - (40 + 2 * u16 (fatSizeSectors fatType clusterSize usable))) /
          fatSectorsPerCluster fatType clusterSize)
      else none := by
  obtain ⟨x, hx⟩ := read_fat16 hne clusterSize driveOffset usable serial label
  have hfront : ∀ f, 8 + 2 * f + 32 = 40 + 2 * f := by omega
  rw [hx]
  by_cases hzero : u16 (fatSizeSectors fatType clusterSize usable) = 0
  · simp [BiosParameters.clusters, BiosParameters.fatSize, hzero]
  · by_cases hsmall : usable < 65536
    · have htotal := u32_of_lt (show usable < 4294967296 by omega)
      simp [BiosParameters.clusters, BiosParameters.fatSize, BiosParameters.rootSectors,
        BiosParameters.totalSectors,
        hzero, hfront, hsmall, Nat.ne_of_gt hpos, htotal]
    · simp [BiosParameters.clusters, BiosParameters.fatSize, BiosParameters.rootSectors,
        BiosParameters.totalSectors,
        hzero, hfront, hsmall]

/-- A FAT32 volume is read as one from 65525 clusters on. -/
theorem classedAs_fat32_iff (clusterSize driveOffset : ℕ) {usable : ℕ} (serial : ℕ) (label : List UInt8)
    (hlt : usable ≤ 4294967296) :
    ClassedAs 1 (fatBootSector 1 clusterSize driveOffset usable serial label) ↔
      FatSizeFits 1 (fatSectorsPerCluster 1 clusterSize) usable := by
  have hspc := fatSectorsPerCluster_pos 1 clusterSize
  rw [ClassedAs, clusters_read_fat32, FatSizeFits, if_pos rfl]
  by_cases hsmall : usable < 32 ∨ usable = 4294967296
  · have hfront : ¬32 + 2 * fatSizeSectors 1 clusterSize usable ≤ u32 usable := by
      unfold u32
      omega
    simp only [hfront, if_false]
    constructor
    · rintro ⟨c, hc, -⟩
      cases hc
    · omega
  · have hsize := fatSizeSectors_eq clusterSize
      (show fatOverhead 1 ≤ usable from Nat.le_of_not_lt fun h => hsmall (.inl h)) hlt
    have hover : usable - fatOverhead 1 = usable - 32 := rfl
    have hle : 65525 ≤ clusters (usable - 32) 128 (fatSectorsPerCluster 1 clusterSize) ↔ _ :=
      le_clusters_iff hspc (by decide) (by decide)
    rw [clusters] at hle
    rw [u32_of_lt (by omega), hsize, hover, show fatEntriesPerSector 1 = 128 from rfl]
    have harea : usable - (32 + 2 * tableSize (usable - 32) 128 (fatSectorsPerCluster 1 clusterSize)) =
        usable - 32 - 2 * tableSize (usable - 32) 128 (fatSectorsPerCluster 1 clusterSize) := by omega
    rw [harea]
    constructor
    · rintro ⟨c, hc, hclass⟩
      split_ifs at hc
      have := hle.mp (Option.some.inj hc ▸ fatTypeOf_eq_fat32.mp hclass)
      omega
    · intro hfits
      have hmany := hle.mpr (by omega)
      have hfront : 32 + 2 * tableSize (usable - 32) 128 (fatSectorsPerCluster 1 clusterSize) ≤ usable := by
        by_contra hno
        have hnone : usable - 32 - 2 * tableSize (usable - 32) 128 (fatSectorsPerCluster 1 clusterSize) =
          0 := by omega
        rw [hnone, Nat.zero_div] at hmany
        omega
      rw [if_pos hfront]
      exact ⟨_, rfl, fatTypeOf_eq_fat32.mpr hmany⟩

/-- A FAT16 or FAT12 volume is read as what it is within its bounds. -/
theorem classedAs_fat16_iff {fatType : ℤ} (hfat : fatType = 2 ∨ fatType = 3) (clusterSize driveOffset : ℕ)
    {usable : ℕ} (serial : ℕ) (label : List UInt8) (hpos : 0 < usable) (hlt : usable ≤ 4294967296) :
    ClassedAs fatType (fatBootSector fatType clusterSize driveOffset usable serial label) ↔
      FatSizeFits fatType (fatSectorsPerCluster fatType clusterSize) usable := by
  have hne : fatType ≠ 1 := by omega
  obtain ⟨hspc, hspc'⟩ := fatSectorsPerCluster_bounds fatType clusterSize
  have hbounds : FatSizeFits fatType (fatSectorsPerCluster fatType clusterSize) usable →
      42 ≤ usable ∧ usable < 65525 * fatSectorsPerCluster fatType clusterSize + 552 := by
    unfold FatSizeFits
    split_ifs <;> omega
  rw [ClassedAs, clusters_read_fat16 hne _ _ _ _ _ hpos]
  by_cases hsmall : usable < 40 ∨ usable = 4294967296
  · have hfront : ¬40 + 2 * u16 (fatSizeSectors fatType clusterSize usable) ≤ u32 usable := by
      unfold u32
      omega
    simp only [hfront, and_false, if_false]
    constructor
    · rintro ⟨c, hc, -⟩
      cases hc
    · intro h
      have := hbounds h
      omega
  · have hover : fatOverhead fatType = 40 := by rw [fatOverhead_eq, if_neg hne]
    have hentries : fatEntriesPerSector fatType = 256 := if_neg hne
    have hsize := fatSizeSectors_eq clusterSize (show fatOverhead fatType ≤ usable by omega) hlt
    rw [hover, hentries] at hsize
    rw [u32_of_lt (by omega), hsize]
    generalize fatSectorsPerCluster fatType clusterSize = spc at *
    have hmany : 4085 ≤ clusters (usable - 40) 256 spc ↔ _ := le_clusters_iff hspc (by decide) (by decide)
    have hmost : 65525 ≤ clusters (usable - 40) 256 spc ↔ _ := le_clusters_iff hspc (by decide) (by decide)
    have hfew : ∀ k, tableSize (usable - 40) 256 spc ≤ k ↔ usable - 40 ≤ k * share 256 spc :=
      fun _ => tableSize_le_iff
    rw [clusters] at hmany hmost
    generalize tableSize (usable - 40) 256 spc = f at *
    rw [share] at hfew
    by_cases hfit : f < 65536
    · have hguard : f ≠ 0 ∧ 40 + 2 * f ≤ usable ↔ 42 ≤ usable := by
        have hzero := hfew 0
        have hhalf := hfew ((usable - 40) / 2)
        have : (usable - 40) / 2 * 258 ≤ (usable - 40) / 2 * (256 * spc + 2) :=
          Nat.mul_le_mul_left _ (by omega)
        omega
      have harea : usable - (40 + 2 * f) = usable - 40 - 2 * f := by omega
      simp only [u16_of_lt hfit, hguard, harea]
      by_cases hvolume : 42 ≤ usable
      · simp only [hvolume, if_true, Option.some.injEq, exists_eq_left', FatSizeFits, hne, if_false]
        rcases hfat with rfl | rfl
        · rw [fatTypeOf_eq_fat16, hmany, hmost]
          simp only [if_true]
          omega
        · rw [fatTypeOf_eq_fat12, hmany]
          norm_num
          omega
      · simp only [hvolume, if_false]
        constructor
        · rintro ⟨c, hc, -⟩
          cases hc
        · exact fun h => absurd (hbounds h).1 hvolume
    · -- the 16-bit field has lost the upper bits, and there are too many clusters all the same
      have hlost : u16 (f : ℤ) < 65536 := by
        unfold u16
        omega
      have hlarge := (hfew 65535).not.mp (by omega)
      have hcount : 65525 ≤ (usable - (40 + 2 * u16 (f : ℤ))) / spc := by
        rw [Nat.le_div_iff_mul_le hspc]
        omega
      constructor
      · rintro ⟨c, hc, hclass⟩
        split_ifs at hc
        rw [Option.some.inj hc] at hcount
        have := fatTypeOf_eq_fat32.mpr hcount
        omega
      · intro h
        have := hbounds h
        omega

end Read

/-- `usable_sectors` in a session, without conversions. -/
theorem SetUp.usable {δ : Type} {n : ℕ} {clusterSize partitionType fsType : ℤ} {w : World δ}
    (h : SetUp n clusterSize partitionType fsType w) (hn : n ≤ 4294967296) :
    fatUsableSectors w.drv = sessionUsable n partitionType ∧ 0 < sessionUsable n partitionType ∧
      sessionUsable n partitionType ≤ 4294967296 := by
  have hacc := h.accepted
  have hstart : driveStart partitionType + (if partitionType = 2 then 33 else 0) < n := by
    unfold alignedOffset reservedEnd at hacc
    unfold driveStart
    split_ifs at hacc ⊢ <;> omega
  have hvolume : fatVolume w.drv = sessionUsable n partitionType := by
    rw [fatVolume, h.count, h.offset, h.type, sessionUsable]
    split_ifs at hstart ⊢ <;> omega
  have hpos : 0 < sessionUsable n partitionType := by
    unfold sessionUsable
    omega
  obtain ⟨heq, hle⟩ := fatUsableSectors_eq (g := w.drv) (h.count.symm ▸ hn) (by omega)
  omega

/-- A FAT session that succeeds has set up the formatter for its device. The volume that it then
writes is read as one of its type exactly within the sizes of the type. The caps of the session
bound the partition, not this volume. -/
theorem usbScsiFormatFat_classed_iff {δ : Type} (P : Platform δ) (fuel : ℕ)
    {clusterSize partitionType fsType : ℤ}
    (hfs : fsType = 1 ∨ fsType = 2 ∨ fsType = 3) :
    (∀ engine fd (w t : World δ),
      startStableFormat P fuel engine fd clusterSize partitionType fsType w = (some true, t) →
        ∃ n u v, SetUp n clusterSize partitionType fsType u ∧
          usbScsiFormatFat P fuel fsType (u32 clusterSize) usbDisk u = (some 0, v) ∧
          ∃ r, usbScsiSync P v = (some r, t)) ∧
    ∀ n label (w t : World δ), n ≤ 4294967296 → SetUp n clusterSize partitionType fsType w →
      usbScsiFormatFat P fuel fsType (u32 clusterSize) label w = (some 0, t) →
        ∃ bs rs, t.requests = w.requests ++ writeRequest bs 512 0 :: rs ∧
          (ClassedAs fsType bs ↔
            FatSizeFits fsType (fatSectorsPerCluster fsType (u32 clusterSize))
              (sessionUsable n partitionType)) := by
  refine ⟨fun engine fd w t h => startStableFormat_formatter hfs h, fun n label w t hn hw h => ?_⟩
  obtain ⟨husable, hpos, hle⟩ := hw.usable hn
  obtain ⟨-, serial, rs, hrs⟩ := usbScsiFormatFat_boot h
  rw [husable] at hrs
  refine ⟨_, rs, hrs, ?_⟩
  rcases hfs with rfl | hfs
  · exact classedAs_fat32_iff _ _ serial label hle
  · exact classedAs_fat16_iff hfs _ _ serial label hpos hle

/-- A faultless stick of `n` sectors, as a session leaves it to the formatter. -/
def formatterStick (n : ℕ) (clusterSize partitionType fsType : ℤ) : World Stick :=
  { onesStick with drv :=
    { gSectorCount := n
      gDriveOffsetSectors := driveStart partitionType
      gPartitionType := partitionType
      gPartitionSectors := partSectors n clusterSize partitionType fsType } }

theorem formatterStick_setUp {n : ℕ} {clusterSize partitionType fsType : ℤ}
    (h : alignedOffset partitionType + reservedEnd partitionType < n) :
    SetUp n clusterSize partitionType fsType (formatterStick n clusterSize partitionType fsType) :=
  ⟨h, rfl, rfl, rfl, rfl⟩

/-- There the formatter returns 0, if its loops end. -/
theorem formatterStick_formatted (n : ℕ) (clusterSize partitionType fsType fatType : ℤ) (size : ℕ)
    (husable : fatUsable (formatterStick n clusterSize partitionType fsType) ≠ 0)
    (hend : FatLoopsEnd (fatSizeIn fatType size (formatterStick n clusterSize partitionType fsType))) :
    ∃ t, usbScsiFormatFat stick (2 ^ 32) fatType size usbDisk
      (formatterStick n clusterSize partitionType fsType) =
      (some 0, t) := by
  have hidle : Idle (formatterStick n clusterSize partitionType fsType) := ⟨rfl, rfl, rfl⟩
  obtain ⟨r, t, hrun, hdone⟩ := Prog.wp_returns_of
    (wp_usbScsiFormatFat hidle.ready (driveStart_le partitionType) (2 ^ 32) fatType size usbDisk husable)
        fun u hu => by
      have := hu.2 hend
      omega
  obtain rfl : r = 0 := hdone.full ⟨fun _ => rfl, fun _ => rfl⟩
  exact ⟨t, hrun⟩

/-- A stick of 1 GiB with a FAT16 partition in an MBR: the partition is capped, the volume has 261
thousand clusters. -/
theorem usbScsiFormatFat_fat16_large :
    SetUp 2097152 4096 1 2 (formatterStick 2097152 4096 1 2) ∧
      ∃ t bs rs, usbScsiFormatFat stick (2 ^ 32) 2 4096 usbDisk (formatterStick 2097152 4096 1 2) =
        (some 0, t) ∧
        t.requests = writeRequest bs 512 0 :: rs ∧ ¬ClassedAs 2 bs := by
  obtain ⟨t, hrun⟩ := formatterStick_formatted 2097152 4096 1 2 2 4096 (by decide) (show _ ≤ _ by decide)
  obtain ⟨-, serial, rs, hrs⟩ := usbScsiFormatFat_boot hrun
  refine ⟨formatterStick_setUp (by decide), t, _, rs, hrun, hrs, fun hc => ?_⟩
  have hfits := (classedAs_fat16_iff (.inl rfl) _ _ _ _ (by decide) (by decide)).mp hc
  unfold FatSizeFits at hfits
  exact absurd hfits (by decide)

/-- A session on a stick of 70000 sectors, and the same on a stick of 100 MB. -/
theorem usbScsiFormatFat_classed_iff_small :
    (∃ t n u v, startStableFormat stick 4 (fun _ => pure 0) 0 4096 1 1 soundSession = (some true, t) ∧
      SetUp n 4096 1 1 u ∧ usbScsiFormatFat stick 4 1 4096 usbDisk u = (some 0, v) ∧
      ∃ r, usbScsiSync stick v = (some r, t)) ∧
    ∃ t bs rs, usbScsiFormatFat stick (2 ^ 32) 2 4096 usbDisk (formatterStick 200000 4096 1 2) = (some 0, t) ∧
      t.requests = writeRequest bs 512 0 :: rs ∧ ClassedAs 2 bs := by
  constructor
  · obtain ⟨t, hrun⟩ := soundSession_succeeds
    obtain ⟨n, u, v, hset, hformat, hsync⟩ := (usbScsiFormatFat_classed_iff stick 4 (.inl rfl)).1 _ _ _ _ hrun
    exact ⟨t, n, u, v, hrun, hset, hformat, hsync⟩
  obtain ⟨t, hrun⟩ := formatterStick_formatted 200000 4096 1 2 2 4096 (by decide) (show _ ≤ _ by decide)
  have hset : SetUp 200000 4096 1 2 (formatterStick 200000 4096 1 2) := formatterStick_setUp (by decide)
  obtain ⟨bs, rs, hrs, hiff⟩ :=
    (usbScsiFormatFat_classed_iff stick (2 ^ 32) (.inr (.inl rfl))).2 200000 usbDisk _ t (by decide) hset hrun
  refine ⟨t, bs, rs, hrun, hrs, hiff.mpr ?_⟩
  unfold FatSizeFits
  decide

end FormatStick
