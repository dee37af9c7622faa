import FormatStick.Fat

/-!
# A format session

`usb_scsi_init` and `startStableFormat` of `native-lib.cpp`, cut into the stages that the
source runs one after the other: the stick is opened and its tables wiped, a partition is
created, its head is wiped, a file system is written, and a last sync ends the session.
The file systems other than FAT are written by engines that only see the driver's I/O.
-/
namespace FormatStick
open Splice

variable {δ : Type}

/-- `libusb_init_context` and `libusb_wrap_sys_device`. -/
def wrapSysDevice (P : Platform δ) (fd : ℤ) : Prog (World δ) (Option ℕ) :=
  fun w =>
    let r := P.wrapSysDevice fd w.dev
    (some r.1, { w with dev := r.2 })

/-- `libusb_get_active_config_descriptor`. -/
def activeConfig (P : Platform δ) (handle : ℕ) : Prog (World δ) (Option (List Interface)) :=
  fun w =>
    let r := P.activeConfig handle w.dev
    (some r.1, { w with dev := r.2 })

/-- The bulk endpoints of the first mass-storage interface, in and out. -/
def bulkEndpoints (conf : List Interface) : UInt8 × UInt8 :=
  match conf.find? (·.bInterfaceClass = 0x08) with
  | none => (0, 0)
  | some iface =>
    iface.endpoints.foldl (fun eps ep =>
      if ep.1 &&& 0x03 = 0x02 then if ep.2 &&& 0x80 ≠ 0 then (ep.2, eps.2) else (eps.1, ep.2) else eps) (0, 0)

/-- TEST UNIT READY, at most `tries` times. -/
def testUnitReady (P : Platform δ) : ℕ → Prog (World δ) Unit
  | 0 => pure ()
  | tries + 1 => do
    let r ← scsiCommand P ⟨[0x00, 0, 0, 0, 0, 0], 0x00, 0⟩ zeros
    if r.1 = 0 then pure () else testUnitReady P tries

/-- Four bytes, the highest first. -/
def be32 (b : Buf) (i : ℕ) : ℕ :=
  (b i).toNat * 2 ^ 24 + (b (i + 1)).toNat * 2 ^ 16 + (b (i + 2)).toNat * 2 ^ 8 + (b (i + 3)).toNat

/-- READ CAPACITY(10), at most `tries` times. -/
def readCapacity (P : Platform δ) : ℕ → Prog (World δ) Unit
  | 0 => pure ()
  | tries + 1 => do
    let r ← scsiCommand P ⟨[0x25, 0, 0, 0, 0, 0, 0, 0, 0, 0], 0x80, 8⟩ zeros
    if r.1 = 0 then
      assign fun g => { g with gSectorSize := be32 r.2 4, gSectorCount := be32 r.2 0 + 1 }
    else readCapacity P tries

/-- `usb_scsi_init`. Where it gives up, sector size and count stay as they were. -/
def usbScsiInit (P : Platform δ) (handle : ℕ) : Prog (World δ) Unit := do
  assign fun g => { g with
    usb := { g.usb with gUsbHandle := some handle }
    gDriveOffsetSectors := 0
    gPartitionSectors := 0
    gPartitionType := 0
    gCurPos := 0 }
  let conf ← activeConfig P handle
  match conf with
  | none => pure ()
  | some conf => do
    assign fun g => { g with
      usb := { g.usb with gEpIn := (bulkEndpoints conf).1, gEpOut := (bulkEndpoints conf).2 } }
    if (bulkEndpoints conf).1 = 0 ∨ (bulkEndpoints conf).2 = 0 then pure ()
    else do
      let _ ← scsiCommand P ⟨[0x12, 0, 0, 0, 36, 0], 0x80, 36⟩ zeros
      testUnitReady P 3
      readCapacity P 5

/-- `offset`: a partition starts at 2 MB. -/
def alignedOffset (partitionType : ℤ) : ℕ := if partitionType > 0 then 4096 else 0

/-- `reserved_end`: room for the backup GPT. -/
def reservedEnd (partitionType : ℤ) : ℕ := if partitionType = 2 then 34 else 0

/-- `fs_cap_sectors`. -/
def fsCapSectors (clusterSize fsType : ℤ) : ℕ :=
  if fsType = 3 then 65535
  else if fsType = 2 then 65524 * ((if clusterSize ≠ 0 then u32 clusterSize else 32768) / 512)
  else 0

/-- `max_usable_sectors`. -/
def maxUsableSectors (diskSectors : ℕ) (partitionType : ℤ) : ℕ :=
  u64 ((diskSectors : ℤ) - alignedOffset partitionType - reservedEnd partitionType)

/-- `part_sectors`. -/
def partSectors (diskSectors : ℕ) (clusterSize partitionType fsType : ℤ) : ℕ :=
  if fsCapSectors clusterSize fsType > 0 ∧
      fsCapSectors clusterSize fsType < maxUsableSectors diskSectors partitionType then
    fsCapSectors clusterSize fsType
  else maxUsableSectors diskSectors partitionType

/-- `partition_id`. -/
def partitionId (partitionType fsType : ℤ) : UInt8 :=
  if fsType = 0 ∨ fsType = 4 ∨ fsType = 9 then 0x07
  else if fsType = 1 then if partitionType = 1 then 0x0C else 0x0B
  else if fsType = 2 then if partitionType = 1 then 0x0E else 0x06
  else if fsType = 3 then 0x01
  else 0x83

/-- `startStableFormat` up to the wiping of the old tables: `part_sectors`, or nothing where
the session ends with `JNI_FALSE`. -/
def prepare (P : Platform δ) (fd clusterSize partitionType fsType : ℤ) : Prog (World δ) (Option ℕ) := do
  let handle ← wrapSysDevice P fd
  match handle with
  | none => pure none
  | some handle => do
    usbScsiInit P handle
    let g ← globals
    if g.gSectorCount ≤ alignedOffset partitionType + reservedEnd partitionType then pure none
    else do
      usbScsiSetPartitionType partitionType
      let _ ← usbScsiWipeMbr P
      let _ ← usbScsiWipeTail P
      pure (some (partSectors g.gSectorCount clusterSize partitionType fsType))

/-- The partition table, and the window the driver is given. -/
def createPartition (P : Platform δ) (partitionType fsType : ℤ) (part : ℕ) : Prog (World δ) Unit :=
  if partitionType = 1 then do
    let _ ← usbScsiWriteMbr P part (partitionId partitionType fsType)
    usbScsiSetPartitionOffset 4096
    usbScsiSetPartitionSize part
  else if partitionType = 2 then do
    let _ ← usbScsiWriteGpt P part fsType
    usbScsiSetPartitionOffset 4096
    usbScsiSetPartitionSize part
  else do
    usbScsiSetPartitionOffset 0
    usbScsiSetPartitionSize part

/-- The file system: `formatRes`. NTFS, exFAT, ext, F2FS, UDF and XFS have an `engine`,
started on a partition of `part` sectors; any other number goes to the FAT formatter. -/
def formatStage (P : Platform δ) (fuel : ℕ) (engine : ℕ → Prog (World δ) ℤ) (clusterSize fsType : ℤ)
    (part : ℕ) : Prog (World δ) ℤ :=
  if fsType = 0 then do
    let formatRes ← engine part
    let _ ← usbScsiSync P
    pure formatRes
  else if fsType = 4 ∨ fsType = 8 ∨ fsType = 9 ∨ fsType = 10 then engine part
  else if 5 ≤ fsType ∧ fsType ≤ 7 then do
    let _ ← usbScsiSync P
    let formatRes ← engine part
    let _ ← usbScsiSync P
    pure formatRes
  else usbScsiFormatFat P fuel fsType (u32 clusterSize) usbDisk

/-- `startStableFormat`. -/
def startStableFormat (P : Platform δ) (fuel : ℕ) (engine : ℕ → Prog (World δ) ℤ)
    (fd clusterSize partitionType fsType : ℤ) : Prog (World δ) Bool := do
  let prepared ← prepare P fd clusterSize partitionType fsType
  match prepared with
  | none => pure false
  | some part => do
    createPartition P partitionType fsType part
    let _ ← usbScsiWipePartitionHead P fuel fsType
    let formatRes ← formatStage P fuel engine clusterSize fsType part
    let _ ← usbScsiSync P
    pure (decide (formatRes = 0))

/-- An engine as the driver sees it: what it does next depends on what it was told so far. -/
inductive Engine
  | done (formatRes : ℤ)
  | pread (buf : Buf) (count offset : ℤ) (next : ℤ × Buf → Engine)
  | pwrite (buf : Buf) (count offset : ℤ) (next : ℤ → Engine)
  | sync (next : ℤ → Engine)

namespace Engine

/-- The engine at work. -/
def run (P : Platform δ) (fuel : ℕ) : Engine → Prog (World δ) ℤ
  | done formatRes => pure formatRes
  | pread buf count offset next => do
    let r ← usbScsiPreadInternal P fuel buf count offset
    run P fuel (next r)
  | pwrite buf count offset next => do
    let r ← usbScsiPwriteInternal P fuel buf count offset
    run P fuel (next r)
  | sync next => do
    let r ← usbScsiSync P
    run P fuel (next r)

/-- Every access lies inside the first `size` bytes. -/
inductive Inside (size : ℕ) : Engine → Prop
  | done (formatRes : ℤ) : Inside size (done formatRes)
  | pread (buf : Buf) (count offset : ℕ) (next : ℤ × Buf → Engine) :
      offset + count ≤ size → (∀ r, Inside size (next r)) → Inside size (pread buf count offset next)
  | pwrite (buf : Buf) (count offset : ℕ) (next : ℤ → Engine) :
      offset + count ≤ size → (∀ r, Inside size (next r)) → Inside size (pwrite buf count offset next)
  | sync (next : ℤ → Engine) : (∀ r, Inside size (next r)) → Inside size (sync next)

end Engine

end FormatStick
