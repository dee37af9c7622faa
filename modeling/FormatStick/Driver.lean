import FormatStick.Prog
import FormatStick.Splice
import Mathlib.Algebra.Group.Int.Defs
import Mathlib.Algebra.Group.Nat.Defs

/-!
# The SCSI driver and its write cache

The globals of `usb_scsi.cpp`, the commands it sends and the cached read and
write path. Whatever the driver calls outside itself is a `Platform`: the USB
exchange of one command, the allocator, `rand` and the libusb set-up calls. A
world records, next to the globals and the platform's state, every command that
went out, every request the I/O path was given and every access to the driver's
two buffers.
-/
namespace FormatStick
open Splice

/-- A C buffer, seen from its first byte on. -/
abbrev Buf := ℕ → UInt8

/-- The first `n` bytes of a buffer. -/
def bytes (b : Buf) (n : ℕ) : List UInt8 := (List.range n).map b

/-- Conversion to `uint32_t`. -/
def u32 (x : ℤ) : ℕ := (x % 2 ^ 32).toNat

/-- Conversion to `uint64_t`. -/
def u64 (x : ℤ) : ℕ := (x % 2 ^ 64).toNat

/-- Conversion of a `uint64_t` to `int64_t`. -/
def i64 (x : ℕ) : ℤ := Int.bmod x (2 ^ 64)

/-- Conversion to `uint8_t`. -/
def u8 (x : ℕ) : UInt8 := UInt8.ofNat x

theorem u32_of_lt {x : ℕ} (h : x < 4294967296) : u32 x = x := by
  unfold u32
  omega

theorem u32_add {a b : ℕ} (h : a + b < 4294967296) : u32 (a + b) = a + b := by
  rw [← Int.natCast_add, u32_of_lt h]

theorem u32_mul {a b : ℕ} (h : a * b < 4294967296) : u32 (a * b) = a * b := by
  rw [← Int.natCast_mul, u32_of_lt h]

theorem u32_lt (x : ℤ) : u32 x < 4294967296 := by
  unfold u32
  omega

theorem dvd_u32 {d : ℕ} {x : ℤ} (hd : d ∣ 4294967296) (hx : (d : ℤ) ∣ x) : d ∣ u32 x := by
  have hrange : (d : ℤ) ∣ 2 ^ 32 := Int.natCast_dvd_natCast.mpr hd
  have hmod : (d : ℤ) ∣ x % 2 ^ 32 := by
    refine Int.dvd_of_emod_eq_zero ?_
    rw [Int.emod_emod_of_dvd x hrange]
    exact Int.emod_eq_zero_of_dvd hx
  rw [← Int.natCast_dvd_natCast, u32, Int.toNat_of_nonneg (by omega)]
  exact hmod

theorem u64_of_lt {x : ℕ} (h : x < 2 ^ 64) : u64 x = x := by
  unfold u64
  omega

theorem u64_add {a b : ℕ} (h : a + b < 2 ^ 64) : u64 (a + b) = a + b := by
  rw [← Int.natCast_add, u64_of_lt h]

theorem u64_mul {a b : ℕ} (h : a * b < 2 ^ 64) : u64 (a * b) = a * b := by
  rw [← Int.natCast_mul, u64_of_lt h]

theorem i64_of_lt {x : ℕ} (h : x < 2 ^ 63) : i64 x = x := by
  unfold i64
  rw [Int.bmod_def]
  omega

/-- The globals `usb_transfer` and the command counter live in. -/
structure Usb where
  gUsbHandle : Option ℕ := none
  gEpIn : UInt8 := 0
  gEpOut : UInt8 := 0
  gTag : ℕ := 1

/-- The driver's globals, with the values they have when the library is loaded. -/
structure Driver where
  usb : Usb := {}
  gSectorCount : ℕ := 0
  gSectorSize : ℕ := 512
  gCurPos : ℤ := 0
  gDriveOffsetSectors : ℕ := 0
  gPartitionSectors : ℕ := 0
  gPartitionType : ℤ := 0
  gBounceBuffer : Buf := fun _ => 0
  gWriteCache : Option Buf := none
  /-- The bytes that `g_write_cache` was allocated with. -/
  gWriteCacheSize : ℕ := 0
  gCacheLba : ℕ := 0
  gCacheSectors : ℕ := 0
  gSyncCacheSupported : Bool := true

/-- `K_MAX_CACHE_SECTORS`. -/
def kMaxCacheSectors : ℕ := 2048

/-- The bytes of `g_bounce_buffer`. -/
def bounceSize : ℕ := 1048576

/-- The two buffers of the I/O path. -/
inductive DriverBuffer
  | gBounceBuffer
  | gWriteCache
deriving DecidableEq

/-- The bytes that a buffer has. -/
def DriverBuffer.size (g : Driver) : DriverBuffer → ℕ
  | gBounceBuffer => bounceSize
  | gWriteCache => g.gWriteCacheSize

/-- An access to `len` bytes of a buffer from byte `start` on, and the bytes that the buffer
had. -/
structure Access where
  buffer : DriverBuffer
  start : ℕ
  len : ℕ
  size : ℕ
deriving DecidableEq

/-- One command as `scsi_command` is given it: the CDB, the direction byte and
the length of the data phase. -/
structure Cmd where
  cdb : List UInt8
  direction : UInt8
  dataLen : ℕ

/-- The first byte of the CDB. -/
def Cmd.opcode (c : Cmd) : UInt8 := c.cdb.headD 0

/-- A ten-byte CDB with a big-endian block address and block count. -/
def cdb10 (opcode : UInt8) (lba blocks : ℕ) : List UInt8 :=
  [opcode, 0, u8 (lba >>> 24), u8 (lba >>> 16), u8 (lba >>> 8), u8 lba,
    0, u8 (blocks >>> 8), u8 blocks, 0]

/-- The command status wrapper. -/
structure Csw where
  signature : ℕ
  tag : ℕ
  dataResidue : ℕ
  status : UInt8

/-- What one command exchange gives back: the status wrapper, unless a transfer
failed, and the data buffer as the transfers left it. -/
structure Reply (δ : Type) where
  csw : Option Csw
  data : Buf
  usb : Usb
  dev : δ

/-- An interface descriptor: its class and the attribute and address bytes of
its endpoints. -/
structure Interface where
  bInterfaceClass : UInt8
  endpoints : List (UInt8 × UInt8)

/-- What the driver uses of the world outside it. -/
structure Platform (δ : Type) where
  /-- CBW, data phase and CSW of one command. -/
  exchange : Usb → Cmd → Buf → δ → Reply δ
  /-- The REQUEST SENSE exchange after a failed command. -/
  requestSense : Usb → δ → Usb × δ
  malloc : δ → Bool × δ
  rand : δ → ℕ × δ
  /-- `libusb_init_context` and `libusb_wrap_sys_device`. -/
  wrapSysDevice : ℤ → δ → Option ℕ × δ
  /-- `libusb_get_active_config_descriptor`. -/
  activeConfig : ℕ → δ → Option (List Interface) × δ

/-- A command that was sent, with its tag, the bytes it was sent with, what the write
cache held at that moment and the status wrapper that came back. -/
structure Sent where
  cmd : Cmd
  data : Buf
  tag : ℕ
  cache : Option Buf
  cacheLba : ℕ
  cacheSectors : ℕ
  csw : Option Csw

/-- One call of `scsi_io_internal`. -/
structure Request where
  buf : Buf
  count : ℤ
  offset : ℤ
  isWrite : Bool

structure World (δ : Type) where
  drv : Driver
  dev : δ
  trace : List Sent
  requests : List Request
  accesses : List Access

variable {δ : Type}

/-- An assignment to driver globals. -/
def assign (f : Driver → Driver) : Prog (World δ) Unit :=
  Prog.update fun w => { w with drv := f w.drv }

/-- The driver globals. -/
def globals : Prog (World δ) Driver := do
  let w ← Prog.read
  pure w.drv

/-- An access to one of the buffers, with what it does to the globals. -/
def access (buffer : DriverBuffer) (start len : ℕ) (f : Driver → Driver) : Prog (World δ) Unit :=
  Prog.update fun w => { w with
    drv := f w.drv
    accesses := w.accesses ++ [⟨buffer, start, len, buffer.size w.drv⟩] }

/-- The transfers of one command. -/
def transact (P : Platform δ) (cmd : Cmd) (data : Buf) : Prog (World δ) (Option Csw × Buf) :=
  fun w =>
    let r := P.exchange w.drv.usb cmd data w.dev
    (some (r.csw, r.data),
      { w with
        drv := { w.drv with usb := r.usb }
        dev := r.dev
        trace := w.trace ++ [⟨cmd, data, w.drv.usb.gTag, w.drv.gWriteCache, w.drv.gCacheLba,
          w.drv.gCacheSectors, r.csw⟩] })

/-- The REQUEST SENSE exchange; its results only reach the log. -/
def sense (P : Platform δ) : Prog (World δ) Unit :=
  Prog.update fun w =>
    let r := P.requestSense w.drv.usb w.dev
    { w with drv := { w.drv with usb := r.1 }, dev := r.2 }

def malloc (P : Platform δ) : Prog (World δ) Bool :=
  fun w =>
    let r := P.malloc w.dev
    (some r.1, { w with dev := r.2 })

def rand (P : Platform δ) : Prog (World δ) ℕ :=
  fun w =>
    let r := P.rand w.dev
    (some r.1, { w with dev := r.2 })

section Wp

variable {w : World δ} {D : World δ → Prop}

@[simp] theorem wp_assign {Q : Unit → World δ → Prop} (f : Driver → Driver) :
    Prog.wp (assign f) Q D w ↔ Q () { w with drv := f w.drv } := Iff.rfl

@[simp] theorem wp_access {Q : Unit → World δ → Prop} (buffer : DriverBuffer) (start len : ℕ)
    (f : Driver → Driver) :
    Prog.wp (access buffer start len f) Q D w ↔
      Q () { w with
        drv := f w.drv
        accesses := w.accesses ++ [⟨buffer, start, len, buffer.size w.drv⟩] } := Iff.rfl

@[simp] theorem wp_globals {Q : Driver → World δ → Prop} :
    Prog.wp globals Q D w ↔ Q w.drv w := Iff.rfl

@[simp] theorem wp_sense {Q : Unit → World δ → Prop} (P : Platform δ) :
    Prog.wp (sense P) Q D w ↔
      Q () { w with
        drv := { w.drv with usb := (P.requestSense w.drv.usb w.dev).1 }
        dev := (P.requestSense w.drv.usb w.dev).2 } := Iff.rfl

@[simp] theorem wp_malloc {Q : Bool → World δ → Prop} (P : Platform δ) :
    Prog.wp (malloc P) Q D w ↔ Q (P.malloc w.dev).1 { w with dev := (P.malloc w.dev).2 } := Iff.rfl

@[simp] theorem wp_rand {Q : ℕ → World δ → Prop} (P : Platform δ) :
    Prog.wp (rand P) Q D w ↔ Q (P.rand w.dev).1 { w with dev := (P.rand w.dev).2 } := Iff.rfl

theorem wp_transact {Q : Option Csw × Buf → World δ → Prop} (P : Platform δ) (c : Cmd) (data : Buf) :
    Prog.wp (transact P c data) Q D w ↔
      Q ((P.exchange w.drv.usb c data w.dev).csw, (P.exchange w.drv.usb c data w.dev).data)
        { w with
          drv := { w.drv with usb := (P.exchange w.drv.usb c data w.dev).usb }
          dev := (P.exchange w.drv.usb c data w.dev).dev
          trace := w.trace ++ [⟨c, data, w.drv.usb.gTag, w.drv.gWriteCache, w.drv.gCacheLba,
            w.drv.gCacheSectors, (P.exchange w.drv.usb c data w.dev).csw⟩] } := Iff.rfl

end Wp

/-- `scsi_command`: the return value and the data buffer after it. -/
def scsiCommand (P : Platform δ) (cmd : Cmd) (data : Buf) : Prog (World δ) (ℤ × Buf) := do
  let g ← globals
  if cmd.opcode = 0x35 ∧ g.gSyncCacheSupported = false then pure (0, data)
  else do
    let r ← transact P cmd data
    match r.1 with
    | none => pure (-1, r.2)
    | some csw =>
      if csw.status = 0 then pure (0, r.2)
      else if cmd.opcode = 0x35 then do
        -- "normal for some sticks": the device gets no further 0x35 commands
        assign fun g => { g with gSyncCacheSupported := false }
        pure (0, r.2)
      else do
        sense P
        pure (-1, r.2)

/-- The cleared buffers the writers start from. -/
def zeros : Buf := fun _ => 0

/-- READ(10) of `blocks` sectors into `data`. -/
def read10 (P : Platform δ) (lba blocks : ℕ) (data : Buf) (len : ℕ) :
    Prog (World δ) (ℤ × Buf) :=
  scsiCommand P ⟨cdb10 0x28 lba blocks, 0x80, len⟩ data

/-- WRITE(10) of `blocks` sectors from `data`. -/
def write10 (P : Platform δ) (lba blocks : ℕ) (data : Buf) (len : ℕ) : Prog (World δ) ℤ := do
  let r ← scsiCommand P ⟨cdb10 0x2a lba blocks, 0x00, len⟩ data
  pure r.1

/-- The SYNCHRONIZE CACHE command. -/
def syncCmd : Cmd := ⟨[0x35, 0, 0, 0, 0, 0, 0, 0, 0, 0], 0x00, 0⟩

@[simp] theorem syncCmd_opcode : syncCmd.opcode = 0x35 := rfl

/-- SYNCHRONIZE CACHE, without a data phase. -/
def syncCache (P : Platform δ) : Prog (World δ) ℤ := do
  let r ← scsiCommand P syncCmd zeros
  pure r.1

/-- READ(10) into the bounce buffer. -/
def readBounce (P : Platform δ) (lba blocks len : ℕ) : Prog (World δ) (ℤ × Buf) := do
  let g ← globals
  let r ← read10 P lba blocks g.gBounceBuffer len
  access .gBounceBuffer 0 len fun g => { g with gBounceBuffer := r.2 }
  pure r

/-- WRITE(10) of what is in the bounce buffer. -/
def writeBounce (P : Platform δ) (lba blocks : ℕ) (data : Buf) (len : ℕ) : Prog (World δ) ℤ := do
  let res ← write10 P lba blocks data len
  access .gBounceBuffer 0 len id
  pure res

/-- WRITE(10) of what is in the write cache. -/
def writeCache (P : Platform δ) (lba blocks : ℕ) (cache : Buf) (len : ℕ) : Prog (World δ) ℤ := do
  let res ← write10 P lba blocks cache len
  access .gWriteCache 0 len id
  pure res

/-- `memcpy` from the bounce buffer to the caller's. -/
def copyFromBounce (buf : Buf) (done : ℕ) (data : Buf) (start len : ℕ) : Prog (World δ) Buf := do
  access .gBounceBuffer start len id
  pure (splice buf done (window data start) len)

/-- `memcpy` into the bounce buffer. -/
def copyToBounce (data : Buf) (start : ℕ) (src : Buf) (len : ℕ) : Prog (World δ) Buf := do
  let data := splice data start src len
  access .gBounceBuffer start len fun g => { g with gBounceBuffer := data }
  pure data

/-- `memcpy` into the write cache. -/
def copyToCache (start : ℕ) (src : Buf) (len : ℕ) : Prog (World δ) Unit :=
  access .gWriteCache start len fun g => { g with
    gWriteCache := g.gWriteCache.map fun cache => splice cache start src len }

/-- The write cache is allocated once, with the sector size of that time. -/
def allocateCache (P : Platform δ) : Prog (World δ) Bool := do
  let g ← globals
  if g.gWriteCache.isSome then pure true
  else do
    let allocated ← malloc P
    if allocated = false then pure false
    else do
      assign fun g => { g with
        gWriteCache := some zeros
        gWriteCacheSize := u32 (kMaxCacheSectors * g.gSectorSize) }
      pure true

section Buffers

variable {w : World δ} {D : World δ → Prop}

theorem wp_readBounce {Q : ℤ × Buf → World δ → Prop} (P : Platform δ) (lba blocks len : ℕ) :
    Prog.wp (readBounce P lba blocks len) Q D w ↔
      Prog.wp (read10 P lba blocks w.drv.gBounceBuffer len) (fun r t => Q r { t with
        drv := { t.drv with gBounceBuffer := r.2 }
        accesses := t.accesses ++ [⟨.gBounceBuffer, 0, len, bounceSize⟩] }) D w := by
  simp only [readBounce, Prog.wp_bind, wp_globals]
  exact Iff.rfl

theorem wp_writeBounce {Q : ℤ → World δ → Prop} (P : Platform δ) (lba blocks : ℕ) (data : Buf) (len : ℕ) :
    Prog.wp (writeBounce P lba blocks data len) Q D w ↔
      Prog.wp (write10 P lba blocks data len) (fun r t => Q r { t with
        accesses := t.accesses ++ [⟨.gBounceBuffer, 0, len, bounceSize⟩] }) D w := by
  simp only [writeBounce, Prog.wp_bind]
  exact Iff.rfl

theorem wp_writeCache {Q : ℤ → World δ → Prop} (P : Platform δ) (lba blocks : ℕ) (cache : Buf) (len : ℕ) :
    Prog.wp (writeCache P lba blocks cache len) Q D w ↔
      Prog.wp (write10 P lba blocks cache len) (fun r t => Q r { t with
        accesses := t.accesses ++ [⟨.gWriteCache, 0, len, t.drv.gWriteCacheSize⟩] }) D w := by
  simp only [writeCache, Prog.wp_bind]
  exact Iff.rfl

@[simp] theorem wp_copyFromBounce {Q : Buf → World δ → Prop} (buf : Buf) (done : ℕ) (data : Buf)
    (start len : ℕ) :
    Prog.wp (copyFromBounce buf done data start len) Q D w ↔
      Q (splice buf done (window data start) len) { w with
        accesses := w.accesses ++ [⟨.gBounceBuffer, start, len, bounceSize⟩] } := Iff.rfl

@[simp] theorem wp_copyToBounce {Q : Buf → World δ → Prop} (data : Buf) (start : ℕ) (src : Buf) (len : ℕ) :
    Prog.wp (copyToBounce data start src len) Q D w ↔
      Q (splice data start src len) { w with
        drv := { w.drv with gBounceBuffer := splice data start src len }
        accesses := w.accesses ++ [⟨.gBounceBuffer, start, len, bounceSize⟩] } := Iff.rfl

@[simp] theorem wp_copyToCache {Q : Unit → World δ → Prop} (start : ℕ) (src : Buf) (len : ℕ) :
    Prog.wp (copyToCache start src len) Q D w ↔
      Q () { w with
        drv := { w.drv with gWriteCache := w.drv.gWriteCache.map fun cache => splice cache start src len }
        accesses := w.accesses ++ [⟨.gWriteCache, start, len, w.drv.gWriteCacheSize⟩] } := Iff.rfl

theorem allocateCache_some {P : Platform δ} (h : w.drv.gWriteCache.isSome) :
    allocateCache P w = (some true, w) := by
  show (if w.drv.gWriteCache.isSome = true then pure true else _ : Prog (World δ) Bool) w = _
  rw [if_pos h]
  rfl

theorem allocateCache_none {P : Platform δ} (h : ¬w.drv.gWriteCache.isSome) :
    allocateCache P w = if (P.malloc w.dev).1 = false then (some false, { w with dev := (P.malloc w.dev).2 })
      else (some true, { w with
        dev := (P.malloc w.dev).2
        drv := { w.drv with
          gWriteCache := some zeros
          gWriteCacheSize := u32 (kMaxCacheSectors * w.drv.gSectorSize) } }) := by
  show (if w.drv.gWriteCache.isSome = true then pure true else _ : Prog (World δ) Bool) w = _
  rw [if_neg h, Prog.bind_of_returns (show malloc P w = (some _, _) from rfl)]
  split_ifs
  · rfl
  · rfl

end Buffers

/-- `scsi_flush_cache_internal`. -/
def scsiFlushCacheInternal (P : Platform δ) : Prog (World δ) ℤ := do
  let g ← globals
  match g.gWriteCache with
  | none => pure 0
  | some cache =>
    if g.gCacheSectors = 0 then pure 0
    else do
      let res ← writeCache P g.gCacheLba g.gCacheSectors cache (u32 (g.gCacheSectors * g.gSectorSize))
      -- the fill is reset whether or not the write went through
      assign fun g => { g with gCacheSectors := 0 }
      pure res

/-- One pass of the transfer loop when reading: at most 2048 sectors through the
bounce buffer. `none` is the early `return -1`. -/
def readPass (P : Platform δ) (buf : Buf) (totalDone lba offsetInSector remaining : ℕ) :
    Prog (World δ) (Option (ℕ × Buf)) := do
  let _ ← scsiFlushCacheInternal P
  let g ← globals
  let sectors := u32 (remaining + offsetInSector + g.gSectorSize - 1) / g.gSectorSize
  let sectors := if sectors > 2048 then 2048 else sectors
  let len := u32 (sectors * g.gSectorSize)
  let r ← readBounce P lba sectors len
  if r.1 ≠ 0 then pure none
  else do
    let canCopy := u32 ((len : ℤ) - offsetInSector)
    let toCopy := if remaining < canCopy then remaining else canCopy
    let buf ← copyFromBounce buf totalDone r.2 offsetInSector toCopy
    pure (some (toCopy, buf))

/-- One pass when writing whole sectors: they join the cached run, or start a new
one after a flush. -/
def cachePass (P : Platform δ) (buf : Buf) (totalDone lba remaining : ℕ) :
    Prog (World δ) (Option (ℕ × Buf)) := do
  let g ← globals
  let sectors := remaining / g.gSectorSize
  let sectors := if sectors > 2048 then 2048 else sectors
  let len := u32 (sectors * g.gSectorSize)
  if 0 < g.gCacheSectors ∧ lba = u64 (g.gCacheLba + g.gCacheSectors) ∧
      u32 (g.gCacheSectors + sectors) ≤ kMaxCacheSectors then do
    copyToCache (u32 (g.gCacheSectors * g.gSectorSize)) (window buf totalDone) len
    assign fun g => { g with gCacheSectors := u32 (g.gCacheSectors + sectors) }
    pure (some (len, buf))
  else do
    let _ ← scsiFlushCacheInternal P
    let allocated ← allocateCache P
    if allocated = false then pure none
    else do
      assign fun g => { g with gCacheLba := lba }
      copyToCache 0 (window buf totalDone) len
      assign fun g => { g with gCacheSectors := sectors }
      pure (some (len, buf))

/-- One pass when writing part of a sector: read it, change it, write it back. -/
def modifyPass (P : Platform δ) (buf : Buf) (totalDone lba offsetInSector remaining : ℕ) :
    Prog (World δ) (Option (ℕ × Buf)) := do
  let _ ← scsiFlushCacheInternal P
  let g ← globals
  let rest := u32 ((g.gSectorSize : ℤ) - offsetInSector)
  let toWrite := if rest < remaining then rest else remaining
  let r ← readBounce P lba 1 g.gSectorSize
  if r.1 ≠ 0 then pure none
  else do
    let sector ← copyToBounce r.2 offsetInSector (window buf totalDone) toWrite
    let res ← writeBounce P lba 1 sector g.gSectorSize
    if res ≠ 0 then pure none
    else pure (some (toWrite, buf))

/-- One pass of the transfer loop of `scsi_io_internal`. -/
def ioPass (P : Platform δ) (isWrite : Bool) (count actualOffset : ℤ) (buf : Buf)
    (totalDone : ℕ) : Prog (World δ) (Option (ℕ × Buf)) := do
  let g ← globals
  let lba := u32 (Int.tdiv (actualOffset + totalDone) g.gSectorSize)
  let offsetInSector := u32 (Int.tmod (actualOffset + totalDone) g.gSectorSize)
  let remaining := u32 (count - totalDone)
  if isWrite = false then readPass P buf totalDone lba offsetInSector remaining
  else if offsetInSector = 0 ∧ g.gSectorSize ≤ remaining then cachePass P buf totalDone lba remaining
  else modifyPass P buf totalDone lba offsetInSector remaining

/-- The transfer loop of `scsi_io_internal`: its loop variables are `total_done`
and the caller's buffer. -/
def ioLoop (P : Platform δ) (isWrite : Bool) (count actualOffset : ℤ) :
    ℕ × Buf → Prog (World δ) (ℕ × Buf ⊕ ℤ × Buf)
  | (totalDone, buf) =>
    if (totalDone : ℤ) < count then do
      match ← ioPass P isWrite count actualOffset buf totalDone with
      | none => pure (.inr (-1, buf))
      | some (done, buf') => pure (.inl (totalDone + done, buf'))
    else pure (.inr (totalDone, buf))

/-- `scsi_io_internal`: the return value and the caller's buffer after it. -/
def scsiIoInternal (P : Platform δ) (fuel : ℕ) (buf : Buf) (count offset : ℤ)
    (isWrite : Bool) : Prog (World δ) (ℤ × Buf) := do
  Prog.update fun w => { w with requests := w.requests ++ [⟨buf, count, offset, isWrite⟩] }
  let g ← globals
  let actualOffset := offset + i64 (u64 (g.gDriveOffsetSectors * g.gSectorSize))
  Prog.loop (ioLoop P isWrite count actualOffset) fuel (0, buf)

/-- `usb_scsi_pread_internal`. -/
def usbScsiPreadInternal (P : Platform δ) (fuel : ℕ) (buf : Buf) (count offset : ℤ) :
    Prog (World δ) (ℤ × Buf) :=
  scsiIoInternal P fuel buf count offset false

/-- `usb_scsi_pwrite_internal`. -/
def usbScsiPwriteInternal (P : Platform δ) (fuel : ℕ) (buf : Buf) (count offset : ℤ) :
    Prog (World δ) ℤ := do
  let r ← scsiIoInternal P fuel buf count offset true
  pure r.1

/-- `usb_scsi_sync`. -/
def usbScsiSync (P : Platform δ) : Prog (World δ) ℤ := do
  let _ ← scsiFlushCacheInternal P
  syncCache P

end FormatStick
