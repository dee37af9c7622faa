import FormatStick.DeviceOps
import FormatStick.Fat

/-!
# The exFAT formatter

`exfat_bridge.cpp` gives the creation engine its parameters and its device; `mkexfat.c` lays
the objects of the file system out one after the other, erases their place and writes them.
Sizes and positions are those of a 64-bit `off_t`. Where the cluster size is 0 the first
division ends the process; where there is no memory for the device, the first access to it.
-/
namespace FormatStick.Exfat
open Fields

/-- The parameters in `exfat_bridge.cpp`. -/
structure Params where
  sectorBits : ℕ
  spcBits : ℕ
  volumeSize : ℤ
  volumeLabel : List ℕ
  volumeSerial : ℕ
  firstSector : ℕ

/-- `1 << bits` of an `int`. -/
def shiftOne (bits : ℕ) : ℤ := Int.bmod (2 ^ bits) (2 ^ 32)

/-- The loop of `setup_spc_bits`, for `fuel` passes. -/
def spcBitsLoop (userDefined : ℤ) : ℕ → ℕ → Option ℕ
  | 0, _ => none
  | fuel + 1, bits => if shiftOne bits < userDefined then spcBitsLoop userDefined fuel (bits + 1)
      else some bits

/-- `setup_spc_bits`; nothing where the loop takes more than `fuel` passes. -/
def setupSpcBits (fuel sectorBits : ℕ) (userDefined volumeSize : ℤ) : Option ℕ :=
  if userDefined > 0 then spcBitsLoop userDefined fuel 0
  else if volumeSize < 256 * 1024 * 1024 then some (12 - sectorBits)
  else some (15 - sectorBits)

/-- `get_sector_size`. -/
def getSectorSize (p : Params) : ℤ := shiftOne p.sectorBits

/-- `get_cluster_size`. -/
def getClusterSize (p : Params) : ℤ := Int.bmod (u64 (u64 (getSectorSize p) * 2 ^ p.spcBits : ℕ)) (2 ^ 32)

/-- `DIV_ROUND_UP`. -/
def divRoundUp (x d : ℤ) : ℤ := Int.tdiv (x + d - 1) d

/-- `ROUND_UP`. -/
def roundUp (x d : ℤ) : ℤ := divRoundUp x d * d

/-- The objects of the file system. -/
inductive FsObject
  | vbr
  | fat
  | cbm
  | uct
  | rootdir
  deriving DecidableEq

/-- `objects`. -/
def objects : List FsObject := [.vbr, .vbr, .fat, .cbm, .uct, .rootdir]

/-- The bytes of `upcase_table`. -/
def upcaseSize : ℕ := 5836

section Layout

variable (p : Params)

/-- `get_alignment`. -/
def getAlignment : FsObject → ℤ
  | .vbr => getSectorSize p
  | .fat => 128 * getSectorSize p
  | _ => getClusterSize p

def vbrSize : ℤ := 12 * getSectorSize p

def fatSize : ℤ := Int.tdiv p.volumeSize (getClusterSize p) * 4

/-- One step of the walk over the objects. -/
def advance (size : FsObject → ℤ) (position : ℤ) (object : FsObject) : ℤ :=
  roundUp position (getAlignment p object) + size object

/-- `get_position`, which asks for the sizes of the objects before. -/
def positionOf (size : FsObject → ℤ) (object : FsObject) : ℤ :=
  roundUp ((objects.takeWhile (· ≠ object)).foldl (advance p size) 0) (getAlignment p object)

/-- The sizes that do not depend on a position. -/
def headSize : FsObject → ℤ
  | .vbr => vbrSize p
  | .fat => fatSize p
  | _ => 0

def cbmSize : ℤ := divRoundUp (Int.tdiv (p.volumeSize - positionOf p (headSize p) .cbm) (getClusterSize p)) 8

/-- `get_size`. -/
def getSize : FsObject → ℤ
  | .vbr => vbrSize p
  | .fat => fatSize p
  | .cbm => cbmSize p
  | .uct => upcaseSize
  | .rootdir => getClusterSize p

def getPosition (object : FsObject) : ℤ := positionOf p (getSize p) object

/-- The bitmap lies behind the objects whose sizes do not depend on it. -/
theorem getPosition_cbm : getPosition p .cbm = positionOf p (headSize p) .cbm := rfl

/-- `check_size`: whether the objects fit. -/
def checkSize (volumeSize : ℤ) : Bool := decide (objects.foldl (advance p (getSize p)) 0 ≤ volumeSize)

end Layout

section Contents

variable (p : Params)

/-- A sum that is rotated right by one bit before each byte. -/
def rotateSum (sum : BitVec 32) (data : List UInt8) : BitVec 32 :=
  data.foldl (fun sum x => sum.rotateRight 1 + x.toBitVec.setWidth 32) sum

/-- `exfat_vbr_start_checksum` leaves out the volume state and the allocated percentage. -/
def vbrStartChecksum (sector : Buf) : BitVec 32 :=
  rotateSum 0 (((List.range 512).filter fun i => i ≠ 0x6a ∧ i ≠ 0x6b ∧ i ≠ 0x70).map sector)

/-- `exfat_vbr_add_checksum`. -/
def vbrAddChecksum (sum : BitVec 32) (sector : Buf) : BitVec 32 := rotateSum sum (bytes sector 512)

/-- `init_sb`. -/
def superBlock : Buf :=
  let clustersMax := u32 (Int.tdiv p.volumeSize (getClusterSize p))
  let fatSectors := u32 (divRoundUp (clustersMax * 4) (getSectorSize p))
  let fatSectorStart := u32 (Int.tdiv (getAlignment p .fat) (getSectorSize p))
  let rounded := u32 ((u32 ((u32 ((fatSectorStart : ℤ) + fatSectors) : ℤ) + u32 (shiftOne p.spcBits) - 1) /
    u32 (shiftOne p.spcBits) * u32 (shiftOne p.spcBits) : ℕ))
  let fatSectorCount := u32 ((rounded : ℤ) - fatSectorStart)
  let sb := put zeros 0 [0xeb, 0x76, 0x90]
  let sb := put sb 3 [0x45, 0x58, 0x46, 0x41, 0x54, 0x20, 0x20, 0x20]
  let sb := put sb 0x40 (leBytes 8 p.firstSector)
  let sb := put sb 0x48 (leBytes 8 (u64 (Int.tdiv p.volumeSize (getSectorSize p))))
  let sb := put sb 0x50 (leBytes 4 fatSectorStart)
  let sb := put sb 0x54 (leBytes 4 fatSectorCount)
  let sb := put sb 0x58 (leBytes 4 (u32 (Int.tdiv (getPosition p .cbm) (getSectorSize p))))
  let sb := put sb 0x5c (leBytes 4 (u32 ((clustersMax : ℤ) -
    (u32 ((fatSectorStart : ℤ) + fatSectorCount) >>> p.spcBits : ℕ))))
  let sb := put sb 0x60 (leBytes 4
    (u32 (Int.tdiv (getPosition p .rootdir - getPosition p .cbm) (getClusterSize p) + 2)))
  let sb := put sb 0x64 (leBytes 4 p.volumeSerial)
  let sb := put sb 0x68 [0, 1]
  let sb := put sb 0x6c [u8 p.sectorBits, u8 p.spcBits, 1, 0x80, 0]
  put sb 510 [0x55, 0xaa]

/-- The sectors of the boot region. -/
def vbrSectors : List Buf :=
  let sb := superBlock p
  let boot := put zeros 508 [0x00, 0x00, 0x55, 0xaa]
  let sectors := sb :: (List.replicate 8 boot ++ List.replicate 2 zeros)
  let checksum := sectors.tail.foldl vbrAddChecksum (vbrStartChecksum sb)
  sectors ++ [fun i => (leBytes 4 checksum.toNat).getD (i % 4) 0]

/-- The clusters that the bitmap, the upcase table and the root directory take. -/
def allocatedClusters : ℕ :=
  u32 (divRoundUp (cbmSize p) (getClusterSize p) + divRoundUp upcaseSize (getClusterSize p) +
    divRoundUp (getClusterSize p) (getClusterSize p))

/-- The bitmap, with a bit for each allocated cluster. -/
def bitmap (allocated : ℕ) : Buf := fun i =>
  if 8 * i + 8 ≤ allocated then 0xff else u8 (2 ^ (allocated - 8 * i) - 1)

/-- `init_label_entry`. -/
def labelEntry : Buf :=
  if p.volumeLabel = [] then put zeros 0 [0x03]
  else put (put zeros 0 [0x83, u8 p.volumeLabel.length]) 2 ((p.volumeLabel.take 15).flatMap (leBytes 2))

/-- `init_bitmap_entry`. -/
def bitmapEntry : Buf := put (put (put zeros 0 [0x81]) 20 (leBytes 4 2)) 24 (leBytes 8 (u64 (cbmSize p)))

/-- `init_upcase_entry`. -/
def upcaseEntry (upcaseTable : Buf) : Buf :=
  let start := u32 (Int.tdiv (getPosition p .uct - getPosition p .cbm) (getClusterSize p) + 2)
  let entry := put zeros 0 [0x82]
  let entry := put entry 4 (leBytes 4 (rotateSum 0 (bytes upcaseTable upcaseSize)).toNat)
  let entry := put entry 20 (leBytes 4 start)
  put entry 24 (leBytes 8 upcaseSize)

end Contents

variable {δ : Type}

/-- The process and the position of its `exfat_dev`, if there is one. -/
abbrev Device (δ : Type) := World δ × Option ℤ

/-- An access to the device at its position. -/
def atPosition {α : Type} (f : ℤ → Prog (Device δ) α) : Prog (Device δ) α := do
  let s ← Prog.read
  match s.2 with
  | none => Prog.cut
  | some pos => f pos

/-- `exfat_seek`. -/
def exfatSeek (p : Params) (offset whence : ℤ) : Prog (Device δ) ℤ :=
  atPosition fun pos => do
    let pos :=
      if whence = seekSet then offset
      else if whence = seekCur then pos + offset
      else if whence = seekEnd then p.volumeSize + offset
      else pos
    Prog.update fun s => (s.1, some pos)
    pure pos

/-- A transfer at the position moves it by what went through. -/
def transferred (pos : ℤ) (io : Prog (World δ) (ℤ × Buf)) : Prog (Device δ) (ℤ × Buf) := do
  let r ← io.left
  if r.1 > 0 then do
    Prog.update fun s => (s.1, some (pos + r.1))
    pure r
  else pure r

section Io

variable (P : Platform δ) (fuel : ℕ)

/-- `exfat_read`. -/
def exfatRead (buf : Buf) (size : ℤ) : Prog (Device δ) (ℤ × Buf) :=
  atPosition fun pos => transferred pos (usbScsiPreadInternal P fuel buf size pos)

/-- `exfat_write`. -/
def exfatWrite (buf : Buf) (size : ℤ) : Prog (Device δ) ℤ :=
  atPosition fun pos => do
    let r ← transferred pos (scsiIoInternal P fuel buf size pos true)
    pure r.1

/-- `exfat_pread`. -/
def exfatPread (buf : Buf) (size offset : ℤ) : Prog (Device δ) (ℤ × Buf) :=
  (usbScsiPreadInternal P fuel buf size offset).left

/-- `exfat_pwrite`. -/
def exfatPwrite (buf : Buf) (size offset : ℤ) : Prog (Device δ) ℤ :=
  (usbScsiPwriteInternal P fuel buf size offset).left

/-- `exfat_write`s one after the other, up to the first that fails; whether all went through. -/
def writeAll : List (Buf × ℤ) → Prog (Device δ) Bool
  | [] => pure true
  | (buf, size) :: ws => do
    let res ← exfatWrite P fuel buf size
    if res < 0 then pure false else writeAll ws

variable (p : Params)

/-- The writes of `erase_object`. -/
def eraseBlocks (size : ℤ) : List (Buf × ℤ) :=
  (List.range (divRoundUp size 1048576).toNat).map fun i : ℕ => (zeros, min (size - i * 1048576) 1048576)

/-- `erase_object`. -/
def eraseObject (start size : ℤ) : Prog (Device δ) ℤ := do
  let r ← exfatSeek p start seekSet
  if r = -1 then pure 1
  else do
    let written ← writeAll P fuel (eraseBlocks size)
    pure (if written then 0 else 1)

/-- The walks of `erase` and `create` over the objects, each at its position. -/
def forObjects (f : FsObject → ℤ → Prog (Device δ) ℤ) : List FsObject → ℤ → Prog (Device δ) ℤ
  | [], _ => pure 0
  | object :: rest, position => do
    let position := roundUp position (getAlignment p object)
    let r ← f object position
    if r ≠ 0 then pure 1 else forObjects f rest (position + getSize p object)

/-- `erase`. -/
def erase : Prog (Device δ) ℤ := do
  let allocated ← (malloc P).left
  if allocated = false then pure 1
  else forObjects p (fun object position => eraseObject P fuel p position (getSize p object)) objects 0

/-- `vbr_write`. -/
def vbrWrite : Prog (Device δ) ℤ := do
  let allocated ← (malloc P).left
  if allocated = false then pure 1
  else do
    let written ← writeAll P fuel ((vbrSectors p).map (·, 512))
    pure (if written then 0 else 1)

/-- `fat_write_entry`. -/
def fatWriteEntry (cluster value : ℕ) : Prog (Device δ) ℕ := do
  let res ← exfatWrite P fuel (put zeros 0 (leBytes 4 value)) 4
  if res < 0 then pure 0 else pure (u32 ((cluster : ℤ) + 1))

/-- The loop of `fat_write_entries`, for the passes that `cluster` takes to its end. -/
def fatWriteChain : ℕ → ℕ → Prog (Device δ) ℕ
  | 0, cluster => pure cluster
  | n + 1, cluster => do
    let next ← fatWriteEntry P fuel cluster (u32 ((cluster : ℤ) + 1))
    if next = 0 then pure 0 else fatWriteChain n next

/-- `fat_write_entries`. -/
def fatWriteEntries (cluster : ℕ) (length : ℤ) : Prog (Device δ) ℕ := do
  let clusters := u64 ((u64 length : ℤ) + u64 (getClusterSize p) - 1) / u64 (getClusterSize p)
  let last := u32 ((u32 ((cluster : ℤ) + clusters) : ℤ) - 1)
  let cluster ← fatWriteChain P fuel (last - cluster) cluster
  if cluster = 0 then pure 0 else fatWriteEntry P fuel cluster 0xffffffff

/-- `fat_write`. -/
def fatWrite : Prog (Device δ) ℤ := do
  let c ← fatWriteEntry P fuel 0 0xfffffff8
  if c = 0 then pure 1
  else do
    let c ← fatWriteEntry P fuel c 0xffffffff
    if c = 0 then pure 1
    else do
      let c ← fatWriteEntries P fuel p c (cbmSize p)
      if c = 0 then pure 1
      else do
        let c ← fatWriteEntries P fuel p c upcaseSize
        if c = 0 then pure 1
        else do
          let c ← fatWriteEntries P fuel p c (getClusterSize p)
          pure (if c = 0 then 1 else 0)

/-- `cbm_write`. -/
def cbmWrite : Prog (Device δ) ℤ := do
  let allocated ← (malloc P).left
  if allocated = false then pure 1
  else do
    let bits := u32 ((u32 ((allocatedClusters p : ℤ) + 8 - 1) / 8 * 8 : ℕ))
    let res ← exfatWrite P fuel (bitmap (allocatedClusters p)) (bits / 8 : ℕ)
    pure (if res < 0 then 1 else 0)

variable (upcaseTable : Buf)

/-- `uct_write`. -/
def uctWrite : Prog (Device δ) ℤ := do
  let res ← exfatWrite P fuel upcaseTable upcaseSize
  pure (if res < 0 then 1 else 0)

/-- `rootdir_write`. -/
def rootdirWrite : Prog (Device δ) ℤ := do
  let written ← writeAll P fuel [(labelEntry p, 32), (bitmapEntry p, 32), (upcaseEntry p upcaseTable, 32)]
  pure (if written then 0 else 1)

/-- `write`. -/
def writeObject : FsObject → Prog (Device δ) ℤ
  | .vbr => vbrWrite P fuel p
  | .fat => fatWrite P fuel p
  | .cbm => cbmWrite P fuel p
  | .uct => uctWrite P fuel upcaseTable
  | .rootdir => rootdirWrite P fuel p upcaseTable

/-- `create`. -/
def create : Prog (Device δ) ℤ :=
  forObjects p (fun object position => do
    let r ← exfatSeek p position seekSet
    if r = -1 then pure 1 else writeObject P fuel p upcaseTable object) objects 0

/-- `mkfs`; `exfat_fsync` always succeeds. -/
@[irreducible]
def mkfs : Prog (Device δ) ℤ :=
  if getClusterSize p = 0 then Prog.cut
  else if checkSize p p.volumeSize = false then pure 1
  else do
    let r ← erase P fuel p
    if r ≠ 0 then pure 1
    else do
      let r ← create P fuel p upcaseTable
      pure (if r ≠ 0 then 1 else 0)

end Io

/-- `param` as `usb_scsi_format_exfat` fills it. -/
def params (usable spcBits serial : ℕ) (label : List ℕ) : Params where
  sectorBits := 9
  spcBits := spcBits
  volumeSize := i64 usable * 512
  volumeLabel := label
  volumeSerial := u32 serial
  firstSector := 2048

/-- `usb_scsi_format_exfat`, with the label in UTF-16. -/
def usbScsiFormatExfat (P : Platform δ) (fuel : ℕ) (upcaseTable : Buf) (clusterSize : ℕ) (label : List ℕ) :
    Prog (World δ) ℤ := do
  let g ← globals
  let usable := usbScsiGetUsableSectors g
  match setupSpcBits fuel 9 (clusterSize / 512 : ℕ) (i64 usable * 512) with
  | none => Prog.cut
  | some spcBits => do
    let serial ← rand P
    let allocated ← malloc P
    (mkfs P fuel (params usable spcBits serial label) upcaseTable).alongside
      (if allocated then some 0 else none)

end FormatStick.Exfat
