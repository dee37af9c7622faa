import FormatStick.Operations

/-!
# The F2FS adapter

`libf2fs_io.c` reads and writes the volume through the driver where the device's path is
`usb_device`. `dev_fill` still goes to the file descriptor of the device, which
`get_device_info` sets to 0 there. `mkfs` zeroes the SIT and NAT areas with it.
-/
namespace FormatStick
open Splice

namespace F2fs

/-- The fields of `struct device_info` that the reads and writes look at. -/
structure DeviceInfo where
  path : Option String
  fd : ℤ
  startBlkaddr : ℕ
  endBlkaddr : ℕ

/-- The fields of `struct f2fs_configuration` that the reads and writes look at. There is
always a first device. -/
structure Configuration where
  devices : List DeviceInfo
  first : devices ≠ []
  dryRun : Bool
  sparseMode : Bool

/-- The device is the stick behind the driver. -/
def Configuration.Usb (c : Configuration) : Prop := (c.devices.head c.first).path = some "usb_device"

instance (c : Configuration) : Decidable c.Usb := inferInstanceAs (Decidable (_ = _))

/-- The file descriptors, and the block cache in front of them. -/
structure Files (φ : Type) where
  lseek : ℤ → ℤ → φ → ℤ × φ
  read : ℤ → Buf → ℕ → φ → (ℤ × Buf) × φ
  write : ℤ → Buf → ℕ → φ → ℤ × φ
  dcacheRead : ℤ → Buf → ℤ → ℕ → φ → (ℤ × Buf) × φ
  dcacheUpdateCache : ℤ → Buf → ℤ → ℕ → φ → ℤ × φ

/-- `F2FS_BLKSIZE_BITS` and `F2FS_BLKSIZE`. -/
def f2fsBlksizeBits : ℕ := 12
def f2fsBlksize : ℕ := 4096

/-- `__get_device_fd`, with the offset it leaves. -/
def getDeviceFd : List DeviceInfo → ℕ → ℤ × ℕ
  | [], offset => (-1, offset)
  | d :: ds, offset =>
    if d.startBlkaddr ≤ offset >>> f2fsBlksizeBits ∧ offset >>> f2fsBlksizeBits ≤ d.endBlkaddr then
      (d.fd, u64 ((offset : ℤ) - (d.startBlkaddr <<< f2fsBlksizeBits : ℕ)))
    else getDeviceFd ds offset

variable {δ φ : Type} (c : Configuration) (F : Files φ) (P : Platform δ) (fuel : ℕ)

/-- `dev_read`. -/
def devRead (buf : Buf) (offset len : ℕ) : Prog (World δ × φ) (ℤ × Buf) :=
  if c.Usb then do
    let r ← (usbScsiPreadInternal P fuel buf (i64 len) (i64 offset)).left
    pure (if r.1 = i64 len then 0 else -1, r.2)
  else if c.sparseMode then pure (0, buf)
  else
    let (fd, offset) := getDeviceFd c.devices offset
    if fd < 0 then pure (fd, buf)
    else do
      let (err, buf) ← Prog.right (F.dcacheRead fd buf (i64 offset) len)
      if err ≤ 0 then pure (err, buf)
      else do
        let at' ← Prog.right (F.lseek fd (i64 offset))
        if at' < 0 then pure (-1, buf)
        else do
          let (n, buf) ← Prog.right (F.read fd buf len)
          pure (if n < 0 then -1 else 0, buf)

/-- `dev_write`. -/
def devWrite (buf : Buf) (offset len : ℕ) : Prog (World δ × φ) ℤ :=
  if c.Usb then do
    let r ← (usbScsiPwriteInternal P fuel buf (i64 len) (i64 offset)).left
    pure (if r = i64 len then 0 else -1)
  else if c.dryRun then pure 0
  else if c.sparseMode then pure 0
  else
    let (fd, offset) := getDeviceFd c.devices offset
    if fd < 0 then pure fd
    else do
      let err ← Prog.right (F.dcacheUpdateCache fd buf (i64 offset) len)
      if err < 0 then pure (-1)
      else do
        let at' ← Prog.right (F.lseek fd (i64 offset))
        if at' < 0 then pure (-1)
        else do
          let n ← Prog.right (F.write fd buf len)
          pure (if n < 0 then -1 else 0)

/-- `dev_fill`. -/
def devFill (buf : Buf) (offset len : ℕ) : Prog (World δ × φ) ℤ :=
  if c.sparseMode then pure 0
  else
    let (fd, offset) := getDeviceFd c.devices offset
    if fd < 0 then pure fd
    else if buf 0 ≠ 0 then pure (-1)
    else do
      let at' ← Prog.right (F.lseek fd (i64 offset))
      if at' < 0 then pure (-1)
      else do
        let n ← Prog.right (F.write fd buf len)
        pure (if n < 0 then -1 else 0)

/-- The byte address of a block. -/
def blockOffset (blkAddr : ℕ) : ℕ := u64 (blkAddr <<< f2fsBlksizeBits : ℕ)

/-- `dev_write_block`. -/
def devWriteBlock (buf : Buf) (blkAddr : ℕ) : Prog (World δ × φ) ℤ :=
  devWrite c F P fuel buf (blockOffset blkAddr) f2fsBlksize

/-- `dev_fill_block`. -/
def devFillBlock (buf : Buf) (blkAddr : ℕ) : Prog (World δ × φ) ℤ :=
  devFill c F buf (blockOffset blkAddr) f2fsBlksize

/-- `dev_read_block`. -/
def devReadBlock (buf : Buf) (blkAddr : ℕ) : Prog (World δ × φ) (ℤ × Buf) :=
  devRead c F P fuel buf (blockOffset blkAddr) f2fsBlksize

/-- The fields of `struct f2fs_super_block` that place the SIT and NAT areas. -/
structure SuperBlock where
  logBlocksize : ℕ
  logBlocksPerSeg : ℕ
  sitBlkaddr : ℕ
  segmentCountSit : ℕ
  natBlkaddr : ℕ
  segmentCountNat : ℕ

def SuperBlock.blkSize (sb : SuperBlock) : ℕ := u32 (1 <<< sb.logBlocksize : ℕ)

def SuperBlock.segSize (sb : SuperBlock) : ℕ := u32 (u32 (1 <<< sb.logBlocksPerSeg : ℕ) * sb.blkSize)

/-- `n` fills of `segSize` bytes, `step` bytes from each to the next. -/
def fillSegments (segSize step : ℕ) : ℕ → ℕ → Prog (World δ × φ) ℤ
  | 0, _ => pure 0
  | n + 1, segAddr => do
    let r ← devFill c F zeros segAddr segSize
    if r ≠ 0 then pure (-1) else fillSegments segSize step n (u64 (segAddr + step))

/-- What `f2fs_init_sit_area` and `f2fs_init_nat_area` share: half of the area's segments
are filled. -/
def initArea (sb : SuperBlock) (blkaddr segmentCount step : ℕ) : Prog (World δ × φ) ℤ := do
  let zeroBuf ← (malloc P).left
  if zeroBuf then fillSegments c F sb.segSize step (segmentCount / 2) (u64 (blkaddr * sb.blkSize))
    else pure (-1)

/-- `f2fs_init_sit_area`. -/
def f2fsInitSitArea (sb : SuperBlock) : Prog (World δ × φ) ℤ :=
  initArea c F P sb sb.sitBlkaddr sb.segmentCountSit sb.segSize

/-- `f2fs_init_nat_area`. Only every other segment is filled. -/
def f2fsInitNatArea (sb : SuperBlock) : Prog (World δ × φ) ℤ :=
  initArea c F P sb sb.natBlkaddr sb.segmentCountNat (u32 (2 * sb.segSize))

/-- The calls an engine uses the adapter through. Every fill is one with zeros. -/
inductive Call
  | devWrite (buf : Buf) (offset len : ℕ)
  | devFill (offset len : ℕ)
  | devWriteBlock (buf : Buf) (blkAddr : ℕ)
  | devFillBlock (blkAddr : ℕ)
  | devRead (buf : Buf) (offset len : ℕ)
  | devReadBlock (buf : Buf) (blkAddr : ℕ)
  | initSitArea (sb : SuperBlock)
  | initNatArea (sb : SuperBlock)

/-- A program that only returns a value. -/
def plain (m : Prog (World δ × φ) ℤ) : Prog (World δ × φ) Result := do
  let r ← m
  pure (r, [])

def Call.run : Call → Prog (World δ × φ) Result
  | .devWrite buf offset len => plain (F2fs.devWrite c F P fuel buf offset len)
  | .devFill offset len => plain (F2fs.devFill c F zeros offset len)
  | .devWriteBlock buf blkAddr => plain (F2fs.devWriteBlock c F P fuel buf blkAddr)
  | .devFillBlock blkAddr => plain (F2fs.devFillBlock c F zeros blkAddr)
  | .devRead buf offset len => do
    let r ← F2fs.devRead c F P fuel buf offset len
    pure (r.1, bytes r.2 len)
  | .devReadBlock buf blkAddr => do
    let r ← F2fs.devReadBlock c F P fuel buf blkAddr
    pure (r.1, bytes r.2 f2fsBlksize)
  | .initSitArea sb => plain (f2fsInitSitArea c F P sb)
  | .initNatArea sb => plain (f2fsInitNatArea c F P sb)

def runCalls : List Call → Prog (World δ × φ) (List Result)
  | [] => pure []
  | call :: calls => do
    let r ← call.run c F P fuel
    let rs ← runCalls calls
    pure (r :: rs)

end F2fs

end FormatStick
