import FormatStick.FlatFile
import FormatStick.Operations
import FormatStick.Exfat

/-!
# The file adapters of the driver

Four engines use the driver as a file. NTFS has the operations of an `ntfs_device`, XFS
hooks over the file functions, among them those on lists of `struct iovec`; both move the
cursor of the driver. exFAT keeps a position in its device and UDF one in a static variable.
What is asked of all of them is that they are a flat file on the window.
-/
namespace FormatStick
open FlatFile Splice

variable {δ : Type} (P : Platform δ) (fuel : ℕ)

section Hooks

/-- `struct iovec`. -/
abbrev Iovec := Segment UInt8

/-- The loop of `xfs_writev_hook`. -/
def xfsWritevLoop : List Iovec → ℤ → Prog (World δ) ℤ
  | [], total => pure total
  | v :: iov, total => do
    let res ← usbScsiWriteInternal P fuel v.base (i64 v.len)
    if res < 0 then pure (-1) else xfsWritevLoop iov (total + res)

/-- `xfs_writev_hook`. -/
def xfsWritevHook (iov : List Iovec) : Prog (World δ) ℤ := xfsWritevLoop P fuel iov 0

/-- The loop of `xfs_pwritev_hook`. -/
def xfsPwritevLoop : List Iovec → ℤ → ℤ → Prog (World δ) ℤ
  | [], _, total => pure total
  | v :: iov, curOffset, total => do
    let res ← usbScsiPwriteInternal P fuel v.base (i64 v.len) curOffset
    if res < 0 then pure (-1) else xfsPwritevLoop iov (curOffset + res) (total + res)

/-- `xfs_pwritev_hook`. -/
def xfsPwritevHook (iov : List Iovec) (offset : ℤ) : Prog (World δ) ℤ := xfsPwritevLoop P fuel iov offset 0

/-- The loop of `xfs_preadv_hook`: the return value and the buffers after it. -/
def xfsPreadvLoop : List Iovec → ℤ → ℤ → Prog (World δ) (ℤ × List Buf)
  | [], _, total => pure (total, [])
  | v :: iov, curOffset, total => do
    let r ← usbScsiPreadInternal P fuel v.base (i64 v.len) curOffset
    if r.1 < 0 then pure (-1, r.2 :: iov.map Segment.base)
    else do
      let rs ← xfsPreadvLoop iov (curOffset + r.1) (total + r.1)
      pure (rs.1, r.2 :: rs.2)

/-- `xfs_preadv_hook`. -/
def xfsPreadvHook (iov : List Iovec) (offset : ℤ) : Prog (World δ) (ℤ × List Buf) :=
  xfsPreadvLoop P fuel iov offset 0

end Hooks

/-- `exfat_fsync`, which leaves the cache alone. -/
def exfatFsync : Prog (Exfat.Device δ) ℤ := pure 0

section Udf

/-- A transfer at `g_udf_usb_offset` moves it by what went through. -/
def atUsbOffset (io : ℤ → Prog (World δ) (ℤ × Buf)) : Prog (World δ × ℤ) (ℤ × Buf) := do
  let s ← Prog.read
  let r ← (io s.2).left
  if 0 < r.1 then do
    Prog.update fun s => (s.1, s.2 + r.1)
    pure r
  else pure r

/-- `udf_read_nointr` on the device. -/
def udfReadNointr (buf : Buf) (count : ℕ) : Prog (World δ × ℤ) (ℤ × Buf) :=
  atUsbOffset fun pos => usbScsiPreadInternal P fuel buf (i64 count) pos

/-- `udf_write_nointr` on the device. -/
def udfWriteNointr (buf : Buf) (count : ℕ) : Prog (World δ × ℤ) ℤ := do
  let r ← atUsbOffset fun pos => scsiIoInternal P fuel buf (i64 count) pos true
  pure r.1

/-- `udf_lseek` on the device. -/
def udfLseek (offset whence : ℤ) : Prog (World δ × ℤ) ℤ := do
  Prog.update fun s => (s.1,
    if whence = seekSet then offset
    else if whence = seekCur then s.2 + offset
    else s.2)
  let s ← Prog.read
  pure s.2

end Udf

inductive Adapter
  | ntfs
  | xfs
  | exfat (p : Exfat.Params)
  | udf

namespace Adapter

/-- What an adapter keeps beside the process. -/
def Own : Adapter → Type
  | .ntfs => Unit
  | .xfs => Unit
  | .exfat _ => Option ℤ
  | .udf => ℤ

/-- The cursor: `g_cur_pos`, `dev->pos`, or `g_udf_usb_offset`. -/
def cursor : (A : Adapter) → World δ × A.Own → Option ℤ
  | .ntfs, s => some s.1.drv.gCurPos
  | .xfs, s => some s.1.drv.gCurPos
  | .exfat _, s => s.2
  | .udf, s => some (show ℤ from s.2)

/-- Only XFS has functions on lists of segments, and UDF has neither positional ones nor a sync. -/
def Offers : Adapter → Call UInt8 → Prop
  | .xfs, _ => True
  | .udf, .pread _ _ => False
  | .udf, .pwrite _ _ => False
  | .udf, .sync => False
  | _, .writev _ => False
  | _, .pwritev _ _ => False
  | _, .preadv _ _ => False
  | _, _ => True

end Adapter

section Calls

variable {σ : Type}

/-- A call that only returns a value. -/
def returning (m : Prog σ ℤ) : Prog σ Result := do
  let r ← m
  pure (r, [])

/-- A call that returns how much of the buffer it filled. -/
def delivering (m : Prog σ (ℤ × Buf)) : Prog σ Result := do
  let r ← m
  pure (r.1, bytes r.2 r.1.toNat)

/-- The bytes of a list of buffers, one for each segment. -/
def scattered (iov : List Iovec) (bufs : List Buf) : List UInt8 :=
  (List.zipWith (fun v b => bytes b v.len) iov bufs).flatten

/-- A call that returns how much of a list of buffers it filled. -/
def scattering (iov : List Iovec) (m : Prog σ (ℤ × List Buf)) : Prog σ Result := do
  let r ← m
  pure (r.1, (scattered iov r.2).take r.1.toNat)

end Calls

/-- The calls of NTFS. -/
def ntfsCall : Call UInt8 → Prog (World δ) Result
  | .seekSet o => returning (devSeek o seekSet)
  | .seekCur o => returning (devSeek o seekCur)
  | .read v => delivering (devRead P fuel v.base v.len)
  | .write v => returning (devWrite P fuel v.base v.len)
  | .pread v o => delivering (devPread P fuel v.base v.len o)
  | .pwrite v o => returning (devPwrite P fuel v.base v.len o)
  | .sync => returning (devSync P)
  | _ => Prog.cut

/-- The calls of XFS. -/
def xfsCall : Call UInt8 → Prog (World δ) Result
  | .seekSet o => returning (usbScsiLseekInternal o seekSet)
  | .seekCur o => returning (usbScsiLseekInternal o seekCur)
  | .read v => delivering (usbScsiReadInternal P fuel v.base (i64 v.len))
  | .write v => returning (usbScsiWriteInternal P fuel v.base (i64 v.len))
  | .pread v o => delivering (usbScsiPreadInternal P fuel v.base (i64 v.len) o)
  | .pwrite v o => returning (usbScsiPwriteInternal P fuel v.base (i64 v.len) o)
  | .writev vs => returning (xfsWritevHook P fuel vs)
  | .pwritev vs o => returning (xfsPwritevHook P fuel vs o)
  | .preadv vs o => scattering vs (xfsPreadvHook P fuel vs o)
  | .sync => returning (usbScsiSync P)

/-- The calls of exFAT. -/
def exfatCall (p : Exfat.Params) : Call UInt8 → Prog (Exfat.Device δ) Result
  | .seekSet o => returning (Exfat.exfatSeek p o seekSet)
  | .seekCur o => returning (Exfat.exfatSeek p o seekCur)
  | .read v => delivering (Exfat.exfatRead P fuel v.base (i64 v.len))
  | .write v => returning (Exfat.exfatWrite P fuel v.base (i64 v.len))
  | .pread v o => delivering (Exfat.exfatPread P fuel v.base (i64 v.len) o)
  | .pwrite v o => returning (Exfat.exfatPwrite P fuel v.base (i64 v.len) o)
  | .sync => returning exfatFsync
  | _ => Prog.cut

/-- The calls of UDF. -/
def udfCall : Call UInt8 → Prog (World δ × ℤ) Result
  | .seekSet o => returning (udfLseek o seekSet)
  | .seekCur o => returning (udfLseek o seekCur)
  | .read v => delivering (udfReadNointr P fuel v.base v.len)
  | .write v => returning (udfWriteNointr P fuel v.base v.len)
  | _ => Prog.cut

/-- A transfer that the loop behind block `d` carries out: below block 2^32, and no wider than its
32-bit `remaining` and the rounding of a read can hold. -/
def Carried (d : ℕ) (x : FlatFile.Transfer) : Prop :=
  (0 < x.count → d * 512 + x.offset + x.count ≤ 2199023255552) ∧
    if x.isWrite then x.count < 4294967296 else x.offset % 512 + x.count + 511 < 4294967296

/-- A call whose seek stays in the file and whose transfers lie in it and are carried out. -/
structure Serviceable (d : ℕ) (f : File UInt8) (c : Call UInt8) : Prop where
  seeksIn : c.SeeksIn f
  inside : ∀ x ∈ c.transfers f.cursor, x.Inside f.size
  carried : ∀ x ∈ c.transfers f.cursor, Carried d x

namespace Adapter

/-- A call of an adapter. One that it does not have ends the run. -/
def call : (A : Adapter) → Call UInt8 → Prog (World δ × A.Own) Result
  | .ntfs, c => (ntfsCall P fuel c).left
  | .xfs, c => (xfsCall P fuel c).left
  | .exfat p, c => exfatCall P fuel p c
  | .udf, c => udfCall P fuel c

/-- What a list of calls returns, each with the cursor after it. -/
def run (A : Adapter) : List (Call UInt8) → Prog (World δ × A.Own) (List (Result × Option ℤ))
  | [] => pure []
  | c :: cs => do
    let r ← A.call P fuel c
    let s ← Prog.read
    let rs ← run A cs
    pure ((r, A.cursor s) :: rs)

/-- A faultless stick whose window at block `d` holds the file. -/
structure Backs (A : Adapter) (d : ℕ) (f : File UInt8) (s : World Stick × A.Own) : Prop where
  tracks : Tracks d f.data s.1
  cursor : A.cursor s = some (f.cursor : ℤ)

/-- The calls return what those of the file return, with the same cursor after each of them, and
a sync at the end leaves the file on the medium. -/
def Follows (A : Adapter) (d : ℕ) (f : File UInt8) (s : World Stick × A.Own) (cs : List (Call UInt8)) :
    Prop :=
  ∃ fuel t u, A.run stick fuel cs s = (some ((f.results cs).map fun r => (r.1, some (r.2 : ℤ))), t) ∧
    usbScsiSync stick t.1 = (some 0, u) ∧ ∀ i, u.dev.medium (d * 512 + i) = (f.after cs).data i

end Adapter

end FormatStick
