import FormatStick.Tables

/-!
# The FAT formatter

`usb_scsi_format_fat`: the geometry it computes, the sectors it encodes and the
requests it makes. All of its arithmetic has the widths of the source, so byte
offsets wrap at 2^32 and a loop whose bound is too close to 2^32 does not end.
-/
namespace FormatStick
open Splice Fields

/-- Conversion to `uint16_t`. -/
def u16 (x : ℤ) : ℕ := (x % 2 ^ 16).toNat

theorem u16_of_lt {x : ℕ} (h : x < 65536) : u16 x = x := by
  unfold u16
  omega

/-- `toupper` in the C locale. -/
def toupper (c : UInt8) : UInt8 := if 97 ≤ c ∧ c ≤ 122 then c - 32 else c

/-- `fat_set_vol_label`: eleven characters, padded with blanks. -/
def fatSetVolLabel (label : List UInt8) : List UInt8 :=
  (label.take 11).map toupper ++ List.replicate (11 - label.length) 0x20

/-- `"USB_DISK"`. -/
def usbDisk : List UInt8 := [0x55, 0x53, 0x42, 0x5F, 0x44, 0x49, 0x53, 0x4B]

/-- `usable_sectors` of `usb_scsi_format_fat`. -/
def fatUsableSectors (g : Driver) : ℕ :=
  let usable := u64 ((g.gSectorCount : ℤ) - g.gDriveOffsetSectors)
  if g.gPartitionType = 2 then u64 ((usable : ℤ) - 33) else usable

/-- `reserved_sectors`. -/
def fatReservedSectors (fatType : ℤ) : ℕ := if fatType = 1 then 32 else 8

/-- `root_dir_entries`. -/
def fatRootDirEntries (fatType : ℤ) : ℕ := if fatType = 1 then 0 else 512

/-- `root_dir_sectors`. -/
def fatRootDirSectors (fatType : ℤ) : ℕ := (fatRootDirEntries fatType * 32 + 512 - 1) / 512

/-- `sectors_per_cluster`, with the defaults for a cluster size of 0. -/
def fatSectorsPerCluster (fatType : ℤ) (clusterSize : ℕ) : ℕ :=
  let clusterSize :=
    if clusterSize = 0 then if fatType = 1 then 4096 else if fatType = 2 then 2048 else 512 else clusterSize
  let sectorsPerCluster := (u8 (clusterSize / 512)).toNat
  if sectorsPerCluster = 0 then 1 else sectorsPerCluster

/-- `fat_size_sectors`. -/
def fatSizeSectors (fatType : ℤ) (clusterSize usable : ℕ) : ℕ :=
  let bytes := 512 * fatSectorsPerCluster fatType clusterSize
  if fatType = 1 then
    let tmp := u64 ((usable : ℤ) - fatReservedSectors fatType)
    u32 ((u64 ((tmp : ℤ) * 4 + (bytes + 8) - 1) / (bytes + 8) : ℕ))
  else
    let tmp := u64 ((usable : ℤ) - fatReservedSectors fatType - fatRootDirSectors fatType)
    u32 ((u64 ((tmp : ℤ) * 2 + (bytes + 4) - 1) / (bytes + 4) : ℕ))

/-- `mbr_type`. -/
def fatMbrType (fatType : ℤ) (driveOffset usable : ℕ) : UInt8 :=
  if fatType = 1 then if driveOffset > 0 then 0x0C else 0x0B
  else if fatType = 3 then 0x01
  else if driveOffset > 0 then 0x0E
  else if usable > 65535 then 0x06
  else 0x04

/-- The fields of the boot sector that all FAT types share. -/
def fatBiosParameters (fatType : ℤ) (clusterSize driveOffset usable : ℕ) : Buf :=
  let bs := put zeros 0 [0xEB, if fatType = 1 then 0x58 else 0x3C, 0x90]
  let bs := put bs 3 [0x4D, 0x53, 0x57, 0x49, 0x4E, 0x34, 0x2E, 0x31]
  let bs := put bs 11 (leBytes 2 512)
  let bs := put bs 13 [u8 (fatSectorsPerCluster fatType clusterSize)]
  let bs := put bs 14 (leBytes 2 (fatReservedSectors fatType))
  let bs := put bs 16 [2]
  let bs := put bs 17 (leBytes 2 (fatRootDirEntries fatType))
  let bs :=
    if usable < 65536 ∧ fatType ≠ 1 then put bs 19 (leBytes 2 (u16 usable))
    else put bs 32 (leBytes 4 (u32 usable))
  let bs := put bs 21 [0xF8]
  let bs := put bs 24 (leBytes 2 32)
  let bs := put bs 26 (leBytes 2 64)
  put bs 28 (leBytes 4 (u32 driveOffset))

/-- The boot sector. -/
def fatBootSector (fatType : ℤ) (clusterSize driveOffset usable serial : ℕ) (label : List UInt8) : Buf :=
  let bs := fatBiosParameters fatType clusterSize driveOffset usable
  let fatSize := fatSizeSectors fatType clusterSize usable
  let bs :=
    if fatType = 1 then
      let bs := put bs 36 (leBytes 4 fatSize)
      let bs := put bs 44 (leBytes 4 2)
      let bs := put bs 48 (leBytes 2 1)
      let bs := put bs 50 (leBytes 2 6)
      let bs := put bs 66 [0x29]
      let bs := put bs 67 (leBytes 4 (u32 serial))
      let bs := put bs 71 (fatSetVolLabel label)
      put bs 82 [0x46, 0x41, 0x54, 0x33, 0x32, 0x20, 0x20, 0x20]
    else
      let bs := put bs 22 (leBytes 2 (u16 fatSize))
      let bs := put bs 38 [0x29]
      let bs := put bs 39 (leBytes 4 (u32 serial))
      let bs := put bs 43 (fatSetVolLabel label)
      put bs 54 [0x46, 0x41, 0x54, 0x31, if fatType = 2 then 0x36 else 0x32, 0x20, 0x20, 0x20]
  put bs 510 [0x55, 0xAA]

/-- The FSInfo sector. -/
def fatFsInfo : Buf :=
  let fsinfo := put zeros 0 [0x52, 0x52, 0x61, 0x41]
  let fsinfo := put fsinfo 484 [0x72, 0x72, 0x41, 0x61]
  let fsinfo := put fsinfo 488 (leBytes 4 0xFFFFFFFF)
  let fsinfo := put fsinfo 492 (leBytes 4 0xFFFFFFFF)
  put fsinfo 510 [0x55, 0xAA]

/-- The first chunk of a FAT. -/
def fatFirstChunk (fatType : ℤ) : Buf :=
  put zeros 0 <|
    if fatType = 1 then leBytes 4 0x0FFFFFF8 ++ leBytes 4 0x0FFFFFFF ++ leBytes 4 0x0FFFFFFF
    else if fatType = 2 then leBytes 2 0xFFF8 ++ leBytes 2 0xFFFF
    else [0xF8, 0xFF, 0xFF]

/-- `fat_offset` of table `f`; with `f = 2`, `root_offset`. -/
def fatOffset (fatType : ℤ) (fatSize f : ℕ) : ℕ :=
  u32 ((u32 ((fatReservedSectors fatType : ℤ) + u32 ((f : ℤ) * fatSize)) : ℤ) * 512)

variable {δ : Type}

/-- The 32 KB chunks of zeros from byte `i` of a region on: the loops over the rest of a
FAT and over the root directory. -/
def zeroChunks (P : Platform δ) (fuel base size i : ℕ) : Prog (World δ) Unit :=
  Prog.loop (fun i =>
    if i < size then do
      let toWrite := if u32 ((size : ℤ) - i) > 32768 then 32768 else u32 ((size : ℤ) - i)
      let _ ← scsiIoInternal P fuel zeros toWrite (u32 ((base : ℤ) + i)) true
      pure (.inl (u32 ((i : ℤ) + 32768)))
    else pure (.inr ())) fuel i

/-- One FAT. -/
def writeFatTable (P : Platform δ) (fuel : ℕ) (fatType : ℤ) (fatSize f : ℕ) : Prog (World δ) Unit := do
  let offset := fatOffset fatType fatSize f
  let _ ← scsiIoInternal P fuel (fatFirstChunk fatType) 32768 offset true
  zeroChunks P fuel offset (u32 ((fatSize : ℤ) * 512)) 32768

/-- What follows the boot sector. -/
def writeFatTables (P : Platform δ) (fuel : ℕ) (fatType : ℤ) (fatSize : ℕ) (bs : Buf) :
    Prog (World δ) Unit :=
  if fatType = 1 then do
    let _ ← scsiIoInternal P fuel bs 512 (6 * 512) true
    let _ ← scsiIoInternal P fuel fatFsInfo 512 (1 * 512) true
    writeFatTable P fuel fatType fatSize 0
    writeFatTable P fuel fatType fatSize 1
  else do
    writeFatTable P fuel fatType fatSize 0
    writeFatTable P fuel fatType fatSize 1
    zeroChunks P fuel (fatOffset fatType fatSize 2) (u32 ((fatRootDirSectors fatType : ℤ) * 512)) 0

/-- The boot sector and what follows it. -/
def writeFat (P : Platform δ) (fuel : ℕ) (fatType : ℤ) (fatSize : ℕ) (bs : Buf) : Prog (World δ) ℤ := do
  let r ← scsiIoInternal P fuel bs 512 0 true
  if r.1 ≠ 512 then pure (-1)
  else do
    writeFatTables P fuel fatType fatSize bs
    pure 0

/-- The partition type in an MBR, if there is one. -/
def updateMbr (P : Platform δ) (g : Driver) (type : UInt8) : Prog (World δ) ℤ :=
  if g.gPartitionType = 1 then updateMbrType P type else pure 0

/-- `usb_scsi_format_fat`. -/
def usbScsiFormatFat (P : Platform δ) (fuel : ℕ) (fatType : ℤ) (clusterSize : ℕ) (label : List UInt8) :
    Prog (World δ) ℤ := do
  let g ← globals
  let usable := fatUsableSectors g
  if usable = 0 then pure (-1)
  else do
    let serial ← rand P
    let bs := fatBootSector fatType clusterSize g.gDriveOffsetSectors usable serial label
    let _ ← updateMbr P g (fatMbrType fatType g.gDriveOffsetSectors usable)
    writeFat P fuel fatType (fatSizeSectors fatType clusterSize usable) bs

end FormatStick
