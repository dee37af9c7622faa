import FormatStick.Driver
import FormatStick.Fields
import FormatStick.Crc

/-!
# Partition tables

The MBR and GPT writers of `usb_scsi.cpp`, the sectors they encode, and the
wipes around them. All but `usb_scsi_wipe_partition_head` send their commands
past the write cache.
-/
namespace FormatStick
open Splice Fields

/-- One entry's pass in `init_crc32_table`. -/
def crc32TableStep (c : BitVec 32) : BitVec 32 :=
  if c &&& 1 ≠ 0 then 0xedb88320 ^^^ (c >>> 1) else c >>> 1

/-- `crc32_table` after `init_crc32_table`. -/
def crc32Table (i : ℕ) : BitVec 32 := crc32TableStep^[8] (BitVec.ofNat 32 i)

/-- `init_crc32_table` on a table of any contents. -/
def initCrc32Table (table : ℕ → BitVec 32) : ℕ → BitVec 32 :=
  (List.range 256).foldl
    (fun table i => Function.update table i (crc32TableStep^[8] (BitVec.ofNat 32 i))) table

/-- `crc32` of the first `len` bytes of a buffer, with the table it looks them up in. -/
def crc32With (table : ℕ → BitVec 32) (crc : BitVec 32) (buf : Buf) (len : ℕ) : BitVec 32 :=
  ~~~((List.range len).foldl
    (fun crc i => table ((crc ^^^ (buf i).toBitVec.setWidth 32) &&& 0xff).toNat ^^^ (crc >>> 8)) (~~~crc))

/-- `crc32` after `init_crc32_table`. -/
def crc32 (crc : BitVec 32) (buf : Buf) (len : ℕ) : BitVec 32 :=
  ~~~((List.range len).foldl
    (fun crc i => crc32Table ((crc ^^^ (buf i).toBitVec.setWidth 32) &&& 0xff).toNat ^^^ (crc >>> 8))
      (~~~crc))

/-- The sector of `usb_scsi_write_mbr`. -/
def mbrSector (partitionType : UInt8) (numSectors : ℕ) : Buf :=
  let mbr := put zeros 446 [0x80, 0, 0, 0, partitionType, 0, 0, 0]
  let mbr := put mbr 454 (leBytes 4 4096)
  let mbr := put mbr 458 (leBytes 4 numSectors)
  put mbr 510 [0x55, 0xAA]

/-- The length `usb_scsi_write_mbr` records. -/
def mbrNumSectors (sectorCount partitionSectors : ℕ) : ℕ :=
  let numSectors := u32 partitionSectors
  if numSectors > u64 (sectorCount - 4096) then u32 (u64 (sectorCount - 4096)) else numSectors

/-- The protective MBR of `usb_scsi_write_gpt`. -/
def protectiveMbr (diskSig : List UInt8) (sectorCount : ℕ) : Buf :=
  let mbrSize := if sectorCount > 0xFFFFFFFF then 0xFFFFFFFF else u32 (u32 sectorCount - 1)
  let mbr := put zeros 440 diskSig
  let mbr := put mbr 446 [0, 0, 2, 0, 0xEE, 0xFF, 0xFF, 0xFF]
  let mbr := put mbr 454 (leBytes 4 1)
  let mbr := put mbr 458 (leBytes 4 mbrSize)
  put mbr 510 [0x55, 0xAA]

/-- `ntfs_type_guid`. -/
def ntfsTypeGuid : List UInt8 :=
  [0xA2, 0xA0, 0xD0, 0xEB, 0xE5, 0xB9, 0x33, 0x44, 0x87, 0xC0, 0x68, 0xB6, 0xB7, 0x26, 0x99, 0xC7]

/-- `linux_data_guid`. -/
def linuxDataGuid : List UInt8 :=
  [0xAF, 0x3D, 0xC6, 0x0F, 0x83, 0x84, 0x72, 0x47, 0x8E, 0x79, 0x3D, 0x69, 0xD8, 0x47, 0x7D, 0xE4]

def typeGuid (fsType : ℤ) : List UInt8 :=
  if fsType = 8 ∨ 5 ≤ fsType ∧ fsType ≤ 7 then linuxDataGuid else ntfsTypeGuid

/-- `u"Basic data partition"`. -/
def partitionName : List UInt8 :=
  [0x42, 0, 0x61, 0, 0x73, 0, 0x69, 0, 0x63, 0, 0x20, 0, 0x64, 0, 0x61, 0, 0x74, 0, 0x61, 0,
    0x20, 0, 0x70, 0, 0x61, 0, 0x72, 0, 0x74, 0, 0x69, 0, 0x74, 0, 0x69, 0, 0x6f, 0, 0x6e, 0]

/-- `p_end_lba`. -/
def gptPartitionEnd (sectorCount partitionSectors : ℕ) : ℕ :=
  let pEndLba := u64 (u64 (4096 + partitionSectors) - 1)
  if pEndLba > u64 (sectorCount - 34) then u64 ((u64 (u64 (sectorCount - 34) + 1) &&& (2 ^ 64 - 8) : ℕ) - 1)
  else pEndLba

/-- The 32 sectors of the entry array. -/
def gptEntries (fsType : ℤ) (guid : List UInt8) (pEndLba : ℕ) : Buf :=
  let entries := put zeros 0 (typeGuid fsType)
  let entries := put entries 16 guid
  let entries := put entries 32 (leBytes 8 4096)
  let entries := put entries 40 (leBytes 8 pEndLba)
  put entries 56 partitionName

/-- The header of `usb_scsi_write_gpt` before its checksum. -/
def gptHeader (sectorCount : ℕ) (diskGuid : List UInt8) (entriesCrc : BitVec 32) : Buf :=
  let header := put zeros 0 [0x45, 0x46, 0x49, 0x20, 0x50, 0x41, 0x52, 0x54]
  let header := put header 8 (leBytes 4 0x00010000)
  let header := put header 12 (leBytes 4 92)
  let header := put header 24 (leBytes 8 1)
  let header := put header 32 (leBytes 8 (u64 (sectorCount - 1)))
  let header := put header 40 (leBytes 8 34)
  let header := put header 48 (leBytes 8 (u64 (sectorCount - 34)))
  let header := put header 56 diskGuid
  let header := put header 72 (leBytes 8 2)
  let header := put header 80 (leBytes 4 128)
  let header := put header 84 (leBytes 4 128)
  put header 88 (leBytes 4 entriesCrc.toNat)

/-- The checksum goes into a header. -/
def sealHeader (header : Buf) : Buf := put header 16 (leBytes 4 (crc32 0 header 92).toNat)

/-- The primary header turned into the backup, without its checksum. -/
def backupHeader (sectorCount : ℕ) (header : Buf) : Buf :=
  let header := put header 16 [0, 0, 0, 0]
  let header := put header 24 (leBytes 8 (u64 (sectorCount - 1)))
  let header := put header 32 (leBytes 8 1)
  put header 72 (leBytes 8 (u64 (sectorCount - 33)))

variable {δ : Type}

/-- `n` bytes from `rand`. -/
def randBytes (P : Platform δ) : ℕ → Prog (World δ) (List UInt8)
  | 0 => pure []
  | n + 1 => do
    let x ← rand P
    let xs ← randBytes P n
    pure (u8 x :: xs)

theorem randBytes_zero (P : Platform δ) : randBytes P 0 = pure [] := rfl

theorem randBytes_succ (P : Platform δ) (n : ℕ) :
    randBytes P (n + 1) = (do
      let x ← rand P
      let xs ← randBytes P n
      pure (u8 x :: xs)) := rfl

-- the elaborator would otherwise run it
attribute [irreducible] randBytes

/-- WRITE(10)s of `blocks` sectors each, up to the first that fails; whether all went through. -/
def writeEach (P : Platform δ) (blocks : ℕ) : List (ℕ × Buf) → Prog (World δ) Bool
  | [] => pure true
  | (lba, data) :: ws => do
    let res ← write10 P lba blocks data (blocks * 512)
    if res ≠ 0 then pure false else writeEach P blocks ws

/-- The sectors of the loop in `usb_scsi_wipe_tail`. Its bound wraps around on a stick of
fewer than 35 sectors, and no pass is made. -/
def tailLbas (lastLba : ℕ) : List ℕ :=
  if lastLba > u64 (lastLba - 34) then (List.range 34).map (lastLba - ·) else []

/-- `usb_scsi_wipe_tail`. -/
def usbScsiWipeTail (P : Platform δ) : Prog (World δ) ℤ := do
  let g ← globals
  let _ ← writeEach P 1 ((tailLbas (u64 (g.gSectorCount - 1))).map (·, zeros))
  let _ ← syncCache P
  pure 0

/-- `usb_scsi_wipe_mbr`. -/
def usbScsiWipeMbr (P : Platform δ) : Prog (World δ) ℤ := do
  let allocated ← malloc P
  -- the buffer is cleared without a look at the pointer
  if allocated = false then Prog.cut
  else do
    let _ ← writeEach P 128 ((List.range 16).map fun i => (128 * i, zeros))
    let _ ← syncCache P
    pure 0

/-- `usb_scsi_write_mbr`. -/
def usbScsiWriteMbr (P : Platform δ) (partitionSectors : ℕ) (partitionType : UInt8) :
    Prog (World δ) ℤ := do
  let g ← globals
  let mbr := mbrSector partitionType (mbrNumSectors g.gSectorCount partitionSectors)
  let res ← write10 P 0 1 mbr 512
  if res ≠ 0 then pure (-1)
  else do
    let _ ← syncCache P
    pure 0

/-- `update_mbr_type`. -/
def updateMbrType (P : Platform δ) (type : UInt8) : Prog (World δ) ℤ := do
  let r ← read10 P 0 1 zeros 512
  if r.1 ≠ 0 then pure (-1)
  else if r.2 510 = 0x55 ∧ r.2 511 = 0xAA then do
    let _ ← write10 P 0 1 (put r.2 450 [type]) 512
    pure 0
  else pure 0

/-- Sector `i` of an entry array at `lba`, with the array's bytes. -/
def entrySectors (lba : ℕ) (entries : Buf) : List (ℕ × Buf) :=
  (List.range 32).map fun i : ℕ => (u64 (lba + i), window entries (i * 512))

/-- The commands of `usb_scsi_write_gpt` from the primary header on. -/
def writeGptSectors (P : Platform δ) (sectorCount : ℕ) (entries header : Buf) : Prog (World δ) ℤ := do
  let res ← write10 P 1 1 header 512
  if res ≠ 0 then pure (-1)
  else do
    let primary ← writeEach P 1 (entrySectors 2 entries)
    if primary = false then pure (-1)
    else do
      -- a tail that cannot be written is tolerated
      let _ ← writeEach P 1 (entrySectors (u64 (sectorCount - 33)) entries)
      let _ ← write10 P (u64 (sectorCount - 1)) 1 (sealHeader (backupHeader sectorCount header)) 512
      let _ ← syncCache P
      pure 0

/-- `usb_scsi_write_gpt`. -/
def usbScsiWriteGpt (P : Platform δ) (partitionSectors : ℕ) (fsType : ℤ) : Prog (World δ) ℤ := do
  let g ← globals
  let diskSig ← randBytes P 4
  let res ← write10 P 0 1 (protectiveMbr diskSig g.gSectorCount) 512
  if res ≠ 0 then pure (-1)
  else do
    let guid ← randBytes P 16
    let entries := gptEntries fsType guid (gptPartitionEnd g.gSectorCount partitionSectors)
    let diskGuid ← randBytes P 16
    let header := gptHeader g.gSectorCount diskGuid (crc32 0 entries (512 * 32))
    writeGptSectors P g.gSectorCount entries (sealHeader header)

/-- `usb_scsi_set_partition_offset`. -/
def usbScsiSetPartitionOffset (sectorOffset : ℕ) : Prog (World δ) Unit :=
  assign fun g => { g with gDriveOffsetSectors := sectorOffset }

/-- `usb_scsi_set_partition_type`. -/
def usbScsiSetPartitionType (type : ℤ) : Prog (World δ) Unit :=
  assign fun g => { g with gPartitionType := type }

/-- `usb_scsi_set_partition_size`. -/
def usbScsiSetPartitionSize (sectors : ℕ) : Prog (World δ) Unit :=
  assign fun g => { g with gPartitionSectors := sectors }

/-- `wipe_size`: 128 MB for F2FS, 32 MB for the others. -/
def wipeSize (fsType : ℤ) : ℕ := if fsType = 8 then 134217728 else 33554432

/-- The chunks of `usb_scsi_wipe_partition_head`, each tried twice. -/
def wipeChunks (P : Platform δ) (fuel : ℕ) : List ℕ → Prog (World δ) Unit
  | [] => pure ()
  | offset :: offsets => do
    let r ← scsiIoInternal P fuel zeros 262144 offset true
    if r.1 = 262144 then wipeChunks P fuel offsets
    else do
      let r ← scsiIoInternal P fuel zeros 262144 offset true
      if r.1 = 262144 then wipeChunks P fuel offsets else pure ()

/-- `usb_scsi_wipe_partition_head`; the progress callback has no part in it. -/
def usbScsiWipePartitionHead (P : Platform δ) (fuel : ℕ) (fsType : ℤ) : Prog (World δ) ℤ := do
  let allocated ← malloc P
  if allocated = false then pure (-1)
  else do
    wipeChunks P fuel ((List.range (wipeSize fsType / 262144)).map (· * 262144))
    let _ ← usbScsiSync P
    pure 0

end FormatStick
