import FormatStick.Tables

/-!
# The driver as a device

What `usb_scsi.cpp` offers to the formatting engines: reads and writes at a cursor or at an
offset, seeks, and the size of the volume, once as the operations of an `ntfs_device` and
once as the functions behind the other engines. All share one cursor.
-/
namespace FormatStick

variable {δ : Type}

/-- `SEEK_SET`, `SEEK_CUR` and `SEEK_END`. -/
def seekSet : ℤ := 0
def seekCur : ℤ := 1
def seekEnd : ℤ := 2

/-- `usb_scsi_get_usable_sectors`; `dev_stat`, `dev_ioctl` and `usb_scsi_lseek_internal` repeat
its lines. -/
def usbScsiGetUsableSectors (g : Driver) : ℕ :=
  let usable := g.gPartitionSectors
  let usable := if usable = 0 then u64 ((g.gSectorCount : ℤ) - g.gDriveOffsetSectors) else usable
  if g.gPartitionType = 2 ∧ g.gPartitionSectors = 0 then u64 ((usable : ℤ) - 33) else usable

/-- A seek that takes `size` for the end. -/
def seekIn (size : Driver → ℤ) (offset whence : ℤ) : Prog (World δ) ℤ := do
  assign fun g => { g with
    gCurPos :=
      if whence = seekSet then offset
      else if whence = seekCur then g.gCurPos + offset
      else if whence = seekEnd then size g + offset
      else g.gCurPos }
  let g ← globals
  pure g.gCurPos

/-- `dev_seek`. -/
def devSeek (offset whence : ℤ) : Prog (World δ) ℤ :=
  seekIn (fun g => i64 (u64 ((u64 ((g.gSectorCount : ℤ) - g.gDriveOffsetSectors) : ℤ) * g.gSectorSize)))
    offset whence

/-- `usb_scsi_lseek_internal`. -/
def usbScsiLseekInternal (offset whence : ℤ) : Prog (World δ) ℤ :=
  seekIn (fun g => i64 (u64 ((usbScsiGetUsableSectors g : ℤ) * g.gSectorSize))) offset whence

/-- The fields of `struct stat` that are not zero. -/
structure Stat where
  stMode : ℕ
  stSize : ℤ

/-- `dev_stat`. -/
def devStat (g : Driver) : Stat where
  stMode := 0o60000 ||| 0o600
  stSize := i64 (u64 ((usbScsiGetUsableSectors g : ℤ) * g.gSectorSize))

/-- What an `ioctl` writes through its argument. -/
inductive IoctlResult
  | size (value : ℕ)
  | sectorSize (value : ℤ)
  | geometry (heads sectors cylinders start : ℕ)
  deriving DecidableEq

/-- `dev_ioctl`; nothing where it returns -1. -/
def devIoctl (g : Driver) (request : ℕ) : Option IoctlResult :=
  if request = 0x80081272 ∨ request = 0x80041272 ∨ request = 0x1260 then
    some (.size (u64 ((usbScsiGetUsableSectors g : ℤ) * g.gSectorSize)))
  else if request = 0x1268 ∨ request = 0x4712 then
    some (.sectorSize (Int.bmod g.gSectorSize (2 ^ 32)))
  else if request = 0x301 then
    some (.geometry 64 32 (g.gSectorCount / (64 * 32) % 2 ^ 16) g.gDriveOffsetSectors)
  else none

/-- A read or write at the cursor moves it by what went through. -/
def atCursor (io : ℤ → Prog (World δ) (ℤ × Buf)) : Prog (World δ) (ℤ × Buf) := do
  let g ← globals
  let r ← io g.gCurPos
  if 0 < r.1 then do
    assign fun g => { g with gCurPos := g.gCurPos + r.1 }
    pure r
  else pure r

variable (P : Platform δ) (fuel : ℕ) (buf : Buf) (count : ℤ)

/-- `usb_scsi_read_internal`. -/
def usbScsiReadInternal : Prog (World δ) (ℤ × Buf) :=
  atCursor fun pos => scsiIoInternal P fuel buf count pos false

/-- `usb_scsi_write_internal`. -/
def usbScsiWriteInternal : Prog (World δ) ℤ := do
  let r ← atCursor fun pos => scsiIoInternal P fuel buf count pos true
  pure r.1

/-- `dev_read`. -/
def devRead : Prog (World δ) (ℤ × Buf) := atCursor fun pos => scsiIoInternal P fuel buf count pos false

/-- `dev_write`. -/
def devWrite : Prog (World δ) ℤ := do
  let r ← atCursor fun pos => scsiIoInternal P fuel buf count pos true
  pure r.1

/-- `dev_pread`. -/
def devPread (offset : ℤ) : Prog (World δ) (ℤ × Buf) := scsiIoInternal P fuel buf count offset false

/-- `dev_pwrite`. -/
def devPwrite (offset : ℤ) : Prog (World δ) ℤ := do
  let r ← scsiIoInternal P fuel buf count offset true
  pure r.1

/-- `dev_sync`. -/
def devSync : Prog (World δ) ℤ := usbScsiSync P

end FormatStick
