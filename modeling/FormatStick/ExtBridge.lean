import FormatStick.Adapters
import FormatStick.Fields

/-!
# The channel of the ext engine

libext2fs works on an `io_channel`, and the bridge gives it one on the driver: a block number
times `block_size` is a byte offset, and a negative count is a number of bytes. The channel
cannot zero blocks, so `ext2fs_zero_blocks2` writes them from a static buffer that is as long as
the longest run asked for so far, up to 4 MiB. `mke2fs` erases old superblocks and zeroes the inode
tables through it, with the tables of neighbouring groups joined to one run. How libext2fs writes
the reserved inodes of a file system with checksums is left to a parameter.
-/
namespace FormatStick.Ext
open FlatFile Splice Fields

/-- `EXT2_ET_SHORT_READ`. -/
def ext2EtShortRead : ℤ := 2133571364

/-- `EXT2_ET_SHORT_WRITE`. -/
def ext2EtShortWrite : ℤ := 2133571365

/-- `EXT2_ET_NO_MEMORY`. -/
def ext2EtNoMemory : ℤ := 2133571398

/-- `EXT2_ET_UNIMPLEMENTED`. -/
def ext2EtUnimplemented : ℤ := 2133571408

/-- What the engine keeps beside the process: `block_size` of its channel, and the static buffer of
`ext2fs_zero_blocks2` with its `stride_length`. -/
structure Engine where
  blockSize : ℤ
  buf : Buf
  strideLength : ℕ

structure Group where
  inodeTable : ℕ
  itableUnused : ℕ

/-- The fields of `ext2_filsys` that the functions below look at. -/
structure Filsys where
  blocksize : ℕ
  inodeBlocksPerGroup : ℕ
  inodesPerGroup : ℕ
  inodeSize : ℕ
  metadataCsum : Bool
  groups : List Group

variable {δ : Type} (P : Platform δ) (fuel : ℕ)

section Channel

/-- `scsi_set_blksize`. -/
def scsiSetBlksize (blksize : ℤ) : Prog (World δ × Engine) ℤ := do
  Prog.update fun s => (s.1, { s.2 with blockSize := blksize })
  pure 0

/-- The offset and the size of a transfer of blocks. -/
def extentOf (e : Engine) (block : ℕ) (count : ℤ) : ℤ × ℤ :=
  (i64 (u64 (i64 block * e.blockSize)), if count < 0 then -count else count * e.blockSize)

/-- `scsi_read_blk64`. -/
def scsiReadBlk64 (block : ℕ) (count : ℤ) (data : Buf) : Prog (World δ × Engine) (ℤ × Buf) := do
  let s ← Prog.read
  let (offset, size) := extentOf s.2 block count
  let ret ← (usbScsiPreadInternal P fuel data size offset).left
  pure (if ret.1 = size then 0 else ext2EtShortRead, ret.2)

/-- `scsi_write_blk64`. -/
def scsiWriteBlk64 (block : ℕ) (count : ℤ) (data : Buf) : Prog (World δ × Engine) ℤ := do
  let s ← Prog.read
  let (offset, size) := extentOf s.2 block count
  let ret ← (usbScsiPwriteInternal P fuel data size offset).left
  pure (if ret = size then 0 else ext2EtShortWrite)

/-- `scsi_write_byte`. -/
def scsiWriteByte (offset : ℕ) (count : ℤ) (data : Buf) : Prog (World δ × Engine) ℤ := do
  let ret ← (usbScsiPwriteInternal P fuel data count (i64 offset)).left
  pure (if ret = count then 0 else ext2EtShortWrite)

/-- `scsi_flush`, which leaves the cache of the driver alone. -/
def scsiFlush : Prog (World δ × Engine) ℤ := pure 0

/-- `scsi_discard`. -/
def scsiDiscard : Prog (World δ × Engine) ℤ := pure 0

/-- `io_channel_zeroout` on a manager without `zeroout`. -/
def ioChannelZeroout : Prog (World δ × Engine) ℤ := pure ext2EtUnimplemented

end Channel

section ZeroBlocks

/-- The `count` of a pass: up to the next multiple of `stride`, and not beyond the last block. -/
def strideCount (stride blk left : ℕ) : ℕ :=
  if blk % stride ≠ 0 then
    if left < stride - blk % stride then left else stride - blk % stride
  else if stride < left then stride else left

/-- A pass of the write loop of `ext2fs_zero_blocks2`. -/
def zeroPass (num : ℕ) : ℕ × ℕ → Prog (World δ × Engine) ((ℕ × ℕ) ⊕ (ℤ × Option (ℕ × ℕ)))
  | (j, blk) =>
    if j < num then do
      let s ← Prog.read
      let count := strideCount s.2.strideLength blk (num - j)
      let retval ← scsiWriteBlk64 P fuel blk count s.2.buf
      if retval ≠ 0 then pure (.inr (retval, some (blk, count)))
      else pure (.inl (j + count, blk + count))
    else pure (.inr (0, none))

/-- The zeroing buffer grows to `num` blocks, or to 4 MiB. -/
def growBuffer (blocksize num : ℕ) : Prog (World δ × Engine) Bool := do
  let s ← Prog.read
  if s.2.strideLength < num ∧ s.2.strideLength < 4194304 / blocksize then do
    let newStride := if 4194304 / blocksize < num then 4194304 / blocksize else num
    let p ← (malloc P).left
    if p = false then pure false
    else do
      Prog.update fun s => (s.1,
        { s.2 with buf := splice s.2.buf 0 zeros (blocksize * newStride), strideLength := newStride })
      pure true
  else pure true

/-- `ext2fs_zero_blocks2` on a file system of blocks of `blocksize` bytes: its return value, and the
block and the count of a write that failed. -/
def ext2fsZeroBlocks2 (blocksize blk : ℕ) (num : ℤ) : Prog (World δ × Engine) (ℤ × Option (ℕ × ℕ)) :=
  if num ≤ 0 then pure (0, none)
  else do
    let retval ← ioChannelZeroout
    if retval = 0 then pure (0, none)
    else do
      let ready ← growBuffer P blocksize num.toNat
      if ready = false then pure (ext2EtNoMemory, none)
      else Prog.loop (zeroPass P fuel num.toNat) fuel (0, blk)

end ZeroBlocks

section Mke2fs

variable (fs : Filsys)

/-- `BSD_DISKMAGIC` or `BSD_MAGICDISK` at `BSD_LABEL_OFFSET`. -/
def bsdLabel (buf : Buf) : Prop := leNat buf 64 4 = 0x82564557 ∨ leNat buf 64 4 = 0x57455682

instance (buf : Buf) : Decidable (bsdLabel buf) := inferInstanceAs (Decidable (_ ∨ _))

/-- The writes of `zap_sector`. -/
def zapWrite (sect nsect : ℕ) : Prog (World δ × Engine) ℤ := do
  let _ ← scsiSetBlksize 512
  let _retval ← scsiWriteBlk64 P fuel sect (-512 * nsect) zeros
  let _ ← scsiSetBlksize fs.blocksize
  pure 0

/-- `zap_sector`, -1 where it leaves `mke2fs`. A failed read or write is only a warning. -/
def zapSector (sect nsect : ℕ) : Prog (World δ × Engine) ℤ := do
  let buf ← (malloc P).left
  if buf = false then pure (-1)
  else if sect = 0 then do
    let r ← scsiReadBlk64 P fuel 0 (-512) zeros
    if r.1 = 0 ∧ bsdLabel r.2 then pure 0 else zapWrite P fuel fs sect nsect
  else zapWrite P fuel fs sect nsect

/-- `ext2fs_div_ceil`. -/
def ext2fsDivCeil (a b : ℕ) : ℕ := if a = 0 then 0 else (a - 1) / b + 1

/-- The `num` of a group in `write_inode_tables`. -/
def tableBlocks (lazyFlag : Bool) (g : Group) : ℤ :=
  if lazyFlag then
    Int.bmod (ext2fsDivCeil (u32 (u32 (fs.inodesPerGroup - g.itableUnused) * fs.inodeSize)) fs.blocksize)
      (2 ^ 32)
  else fs.inodeBlocksPerGroup

/-- The loop of `write_inode_tables`: the run that is still to be written, if no write failed. -/
def tablesLoop (lazyFlag itableZeroed : Bool) : List Group → ℕ → ℤ → Prog (World δ × Engine) (Option (ℕ × ℤ))
  | [], start, len => pure (some (start, len))
  | g :: gs, start, len =>
    let blk := g.inodeTable
    let num := tableBlocks fs lazyFlag g
    if itableZeroed then tablesLoop lazyFlag itableZeroed gs start len
    else if len = 0 then tablesLoop lazyFlag itableZeroed gs blk num
    else if u64 (start + len) = blk ∧ len ≤ Int.bmod (len + num) (2 ^ 32) then
      tablesLoop lazyFlag itableZeroed gs start (Int.bmod (len + num) (2 ^ 32))
    else do
      let retval ← ext2fsZeroBlocks2 P fuel fs.blocksize start len
      if retval.1 ≠ 0 then pure none
      else tablesLoop lazyFlag itableZeroed gs blk num

/-- `write_inode_tables`, -1 where it leaves `mke2fs`. On the stick the flag is always set. The reserved
inodes are only written where inodes have checksums. -/
def writeInodeTables (writeReservedInodes : Prog (World δ × Engine) ℤ) (deviceName : String)
    (lazyFlag itableZeroed : Bool) : Prog (World δ × Engine) ℤ := do
  let left ← tablesLoop P fuel fs (lazyFlag || deviceName == "usb_device") itableZeroed fs.groups 0 0
  let reserved := if fs.metadataCsum then writeReservedInodes else pure 0
  match left with
  | none => pure (-1)
  | some (start, len) =>
    if len = 0 then reserved
    else do
      let retval ← ext2fsZeroBlocks2 P fuel fs.blocksize start len
      if retval.1 ≠ 0 then pure (-1) else reserved

end Mke2fs

/-- The calls the engine uses the channel through. -/
inductive Call
  | setBlksize (blksize : ℕ)
  | readBlk64 (block : ℕ) (count : ℤ) (data : Buf)
  | writeBlk64 (block : ℕ) (count : ℤ) (data : Buf)
  | writeByte (offset count : ℕ) (data : Buf)
  | zeroBlocks2 (blk : ℕ) (num : ℤ)
  | zapSector (sect nsect : ℕ)
  | writeInodeTables (lazyFlag itableZeroed : Bool)
  | flush
  | discard

section Run

variable (fs : Filsys) (writeReservedInodes : Prog (World δ × Engine) ℤ)

/-- A call, with the bytes a read delivers. -/
def Call.run : Call → Prog (World δ × Engine) Result
  | .setBlksize blksize => returning (scsiSetBlksize blksize)
  | .readBlk64 block count data => do
    let s ← Prog.read
    let r ← scsiReadBlk64 P fuel block count data
    pure (r.1, bytes r.2 (extentOf s.2 block count).2.toNat)
  | .writeBlk64 block count data => returning (scsiWriteBlk64 P fuel block count data)
  | .writeByte offset count data => returning (scsiWriteByte P fuel offset count data)
  | .zeroBlocks2 blk num => do
    let r ← ext2fsZeroBlocks2 P fuel fs.blocksize blk num
    pure (r.1, [])
  | .zapSector sect nsect => returning (Ext.zapSector P fuel fs sect nsect)
  | .writeInodeTables lazyFlag itableZeroed =>
    returning (Ext.writeInodeTables P fuel fs writeReservedInodes "usb_device" lazyFlag itableZeroed)
  | .flush => returning scsiFlush
  | .discard => returning scsiDiscard

def runCalls : List Call → Prog (World δ × Engine) (List Result)
  | [] => pure []
  | c :: cs => do
    let r ← c.run P fuel fs writeReservedInodes
    let rs ← runCalls cs
    pure (r :: rs)

/-- The engine on a channel that `scsi_open` made, and the sync of the formatter after it. The static
buffer is as an earlier run left it. -/
def runEngine (buf : Buf) (strideLength : ℕ) (cs : List Call) : Prog (World δ) (List Result × ℤ) :=
  Prog.alongside (do
    let rs ← runCalls P fuel fs writeReservedInodes cs
    let r ← (usbScsiSync P).left
    pure (rs, r)) ⟨4096, buf, strideLength⟩

end Run

end FormatStick.Ext
