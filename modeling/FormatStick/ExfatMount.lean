import FormatStick.Exfat
import FormatStick.ExfatUtf

/-!
# Mounting an exFAT volume

`exfat_mount` of the same library reads back what the formatter writes: the boot region with its
checksum, the chain of the root directory, and the entries of that directory. The model is that
of a mount with the default options, which does not repair. The times of a node are left out.
-/
namespace FormatStick.Exfat
open Fields Splice

/-- `EIO`. -/
def eio : ℤ := 5

/-- `ENOENT`. -/
def enoent : ℤ := 2

/-- `ENOMEM`. -/
def enomem : ℤ := 12

/-- `ENODEV`. -/
def enodev : ℤ := 19

/-- `EXFAT_CLUSTER_BAD`. -/
def clusterBad : ℕ := 0xfffffff7

/-- `EXFAT_CLUSTER_END`. -/
def clusterEnd : ℕ := 0xffffffff

section SuperBlock

variable (sb : Buf)

def sbFatSectorStart : ℕ := leNat sb 0x50 4
def sbClusterSectorStart : ℕ := leNat sb 0x58 4
def sbClusterCount : ℕ := leNat sb 0x5c 4
def sbRootdirCluster : ℕ := leNat sb 0x60 4
def sbSectorBits : ℕ := (sb 0x6c).toNat
def sbSpcBits : ℕ := (sb 0x6d).toNat

/-- `SECTOR_SIZE`. -/
def sectorSize : ℕ := 2 ^ sbSectorBits sb

/-- `CLUSTER_SIZE`. -/
def clusterSize : ℕ := 2 ^ sbSectorBits sb * 2 ^ sbSpcBits sb

/-- `CLUSTER_INVALID`. -/
def clusterInvalid (cluster : ℕ) : Prop := cluster < 2 ∨ sbClusterCount sb ≤ cluster - 2

instance (cluster : ℕ) : Decidable (clusterInvalid sb cluster) := inferInstanceAs (Decidable (_ ∨ _))

/-- `s2o`. -/
def s2o (sector : ℕ) : ℕ := sector * 2 ^ sbSectorBits sb

/-- `exfat_c2o` of a cluster that is not below the first one. -/
def exfatC2o (cluster : ℕ) : ℕ := s2o sb (sbClusterSectorStart sb + (cluster - 2) * 2 ^ sbSpcBits sb)

end SuperBlock

/-- `struct exfat_node`. -/
structure Node where
  entryOffset : ℕ := 0
  startCluster : ℕ
  attrib : ℕ
  continuations : ℕ := 0
  isContiguous : Bool := false
  validSize : ℕ
  size : ℕ
  name : List ℕ := []
  fptrIndex : ℕ := 0
  fptrCluster : ℕ

/-- `struct exfat`. -/
structure Fs where
  sb : Buf
  upcase : Option (ℕ → ℕ) := none
  cmapStart : ℕ := 0
  cmapSize : ℕ := 0
  chunk : Option Buf := none
  label : List UInt8 := [0]

/-- The bit `EXFAT_ATTRIB_DIR`. -/
def Node.IsDir (node : Node) : Prop := node.attrib &&& 0x10 ≠ 0

instance (node : Node) : Decidable node.IsDir := inferInstanceAs (Decidable (_ ≠ _))

section Entries

/-- The valid transitions of `check_entries`; at both ends stands `EXFAT_ENTRY_NONE`. -/
def validTransition (previous current : Option UInt8) : Bool :=
  match previous with
  | none => current = some 0x85
  | some previous =>
    if previous = 0x85 then current = some 0xc0
    else if previous = 0xc0 then current = some 0xc1
    else if previous = 0xc1 then current = some 0xc1 ∨ current = none ∨ current.any (0xe0 ≤ ·)
    else if 0xe0 ≤ previous then current.any (0xe0 ≤ ·) ∨ current = none
    else false

/-- The loop of `check_entries`. -/
def checkTransitions (previous : Option UInt8) : List UInt8 → Bool
  | [] => validTransition previous none
  | current :: types => validTransition previous (some current) && checkTransitions (some current) types

/-- `check_entries`. -/
def checkEntries (entries : Buf) (n : ℕ) : Bool :=
  checkTransitions none ((List.range n).map fun i => entries (32 * i))

/-- A 16-bit sum that is rotated right by one bit before each byte. -/
def rotateSum16 (sum : BitVec 16) (data : List UInt8) : BitVec 16 :=
  data.foldl (fun sum x => sum.rotateRight 1 + x.toBitVec.setWidth 16) sum

/-- `exfat_calc_checksum`, which leaves out the field of the checksum. -/
def exfatCalcChecksum (entries : Buf) (n : ℕ) : ℕ :=
  (rotateSum16 0 (((List.range (32 * n)).filter fun i => i ≠ 2 ∧ i ≠ 3).map entries)).toNat

/-- The name in `n` entries of type `EXFAT_ENTRY_FILE_NAME`. -/
def initNodeName (entries : Buf) (n : ℕ) : List ℕ :=
  (List.range n).flatMap fun i => (List.range 15).map fun j => leNat entries (32 * (i + 2) + 2 + 2 * j) 2

/-- `init_node_meta1` and `init_node_meta2`. -/
def initNode (entries : Buf) (offset : ℕ) : Node where
  entryOffset := offset
  attrib := leNat entries 4 2
  continuations := (entries 1).toNat
  validSize := leNat entries 40 8
  size := leNat entries 56 8
  startCluster := leNat entries 52 4
  fptrCluster := leNat entries 52 4
  isContiguous := entries 33 &&& 2 ≠ 0

/-- `check_node`. -/
def checkNode (sb : Buf) (node : Node) (actualChecksum checksum : ℕ) : Bool :=
  actualChecksum = checksum ∧
    ¬node.size < node.validSize ∧
    ¬(node.size = 0 ∧ node.startCluster ≠ 0) ∧
    ¬(0 < node.size ∧ clusterInvalid sb node.startCluster) ∧
    ¬sbClusterCount sb * clusterSize sb < node.size ∧
    ¬(node.size = 0 ∧ node.isContiguous = true) ∧
    ¬(node.IsDir ∧ node.size % clusterSize sb ≠ 0)

/-- `parse_file_entries`; the names of its messages have to be convertible. -/
def parseFileEntries {σ : Type} (sb : Buf) (entries : Buf) (n offset : ℕ) : Prog σ (Except ℤ Node) :=
  if checkEntries entries n = false then pure (.error eio)
  else if (entries 1).toNat < 2 then pure (.error eio)
  else if entries 33 &&& 0xfc ≠ 0 then pure (.error eio)
  else
    let mandatory := 2 + ((entries 35).toNat + 15 - 1) / 15
    if (entries 1).toNat < mandatory - 1 then pure (.error eio)
    else
      let node := { initNode entries offset with name := initNodeName entries (mandatory - 2) }
      if checkNode sb node (exfatCalcChecksum entries n) (leNat entries 2 2) then pure (.ok node)
      else if (utf16ToUtf8 node.name 766).1 ≠ 0 then Prog.cut
      else pure (.error eio)

/-- `decompress_upcase` from index `oi` on. -/
def decompressUpcase : List ℕ → ℕ → (ℕ → ℕ) → ℕ → ℕ
  | [], _, output => output
  | [ch], oi, output => if oi < 0x10000 then Function.update output oi ch else output
  | ch :: next :: source, oi, output =>
    if oi < 0x10000 then
      if ch = 0xffff then decompressUpcase source (oi + next) output
      else decompressUpcase (next :: source) (oi + 1) (Function.update output oi ch)
    else output

end Entries

section Clusters

variable {δ : Type} (P : Platform δ) (fuel : ℕ) (sb : Buf)

/-- `exfat_next_cluster`; there is none after a cluster below the first one. -/
def exfatNextCluster (isContiguous : Bool) (cluster : ℕ) : Prog (Device δ) ℕ :=
  if cluster < 2 then Prog.cut
  else if isContiguous then pure (u32 ((cluster : ℤ) + 1))
  else do
    let r ← exfatPread P fuel zeros 4 (s2o sb (sbFatSectorStart sb) + cluster * 4 : ℕ)
    pure (if r.1 < 0 then clusterBad else leNat r.2 0 4)

/-- The loop of `exfat_advance_cluster`. -/
def advanceClusters (isContiguous : Bool) : ℕ → ℕ → Prog (Device δ) ℕ
  | 0, cluster => pure cluster
  | n + 1, cluster => do
    let cluster ← exfatNextCluster P fuel sb isContiguous cluster
    if clusterInvalid sb cluster then pure cluster else advanceClusters isContiguous n cluster

/-- `exfat_advance_cluster`. -/
def exfatAdvanceCluster (node : Node) (count : ℕ) : Prog (Device δ) Node := do
  let node := if count < node.fptrIndex then { node with fptrIndex := 0, fptrCluster := node.startCluster }
    else node
  let cluster ← advanceClusters P fuel sb node.isContiguous (count - node.fptrIndex) node.fptrCluster
  pure { node with fptrIndex := count, fptrCluster := cluster }

/-- The variables of the loop in `exfat_generic_pread`. -/
structure Cursor where
  cluster : ℕ
  loffset : ℕ
  remainder : ℕ
  done : ℕ
  buf : Buf

/-- A pass of the loop in `exfat_generic_pread`. -/
def readCluster (isContiguous : Bool) (c : Cursor) : Prog (Device δ) (Cursor ⊕ ℤ × Buf) :=
  if c.remainder = 0 then pure (.inr (c.done, c.buf))
  else if clusterInvalid sb c.cluster then pure (.inr (-eio, c.buf))
  else do
    let lsize := min (clusterSize sb - c.loffset) c.remainder
    let r ← exfatPread P fuel (window c.buf c.done) lsize (exfatC2o sb c.cluster + c.loffset : ℕ)
    if r.1 < 0 then pure (.inr (-eio, c.buf))
    else do
      let next ← exfatNextCluster P fuel sb isContiguous c.cluster
      pure (.inl ⟨next, 0, c.remainder - lsize, c.done + lsize, splice c.buf c.done r.2 lsize⟩)

/-- `exfat_generic_pread` of bytes that are valid. -/
def preadValid (node : Node) (buf : Buf) (size offset : ℕ) : Prog (Device δ) (ℤ × Buf × Node) := do
  let node ← exfatAdvanceCluster P fuel sb node (u32 (offset / clusterSize sb : ℕ))
  if clusterInvalid sb node.fptrCluster then pure (-eio, buf, node)
  else do
    let r ← Prog.loop (readCluster P fuel sb node.isContiguous) fuel
      ⟨node.fptrCluster, offset % clusterSize sb, min size (node.size - offset), 0, buf⟩
    pure (r.1, r.2, node)

/-- `exfat_generic_pread` at an offset that is not negative; what is not valid reads as zeros. -/
def exfatGenericPread (node : Node) (buf : Buf) (size offset : ℕ) : Prog (Device δ) (ℤ × Buf × Node) :=
  if node.size ≤ offset then pure (0, buf, node)
  else if size = 0 then pure (0, buf, node)
  else if node.validSize < offset + size then
    if offset < node.validSize then do
      let r ← preadValid P fuel sb node buf (node.validSize - offset) offset
      if r.1 < node.validSize - offset then pure r
      else pure (min size (node.size - offset : ℕ),
        splice r.2.1 r.1.toNat zeros (min (size - r.1.toNat) (node.size - node.validSize)), r.2.2)
    else pure (min size (node.size - offset : ℕ),
      splice buf 0 zeros (min size (node.size - node.validSize)), node)
  else preadValid P fuel sb node buf size offset

/-- `read_entries`. -/
def readEntries (dir : Node) (n offset : ℕ) : Prog (Device δ) (ℤ × Buf × Node) :=
  if ¬dir.IsDir then Prog.cut
  else do
    let r ← exfatGenericPread P fuel sb dir zeros (32 * n) offset
    pure (if r.1 = (32 * n : ℕ) then 0 else if r.1 = 0 then -enoent else -eio, r.2)

end Clusters

section Directory

variable {δ : Type} (P : Platform δ) (fuel : ℕ)

/-- The entry of the upcase table in `readdir`. -/
def readUpcase (fs : Fs) (entry : Buf) : Prog (Device δ) (Except ℤ Fs) :=
  if fs.upcase.isSome then pure (.ok fs)
  else
    let start := leNat entry 20 4
    let size := leNat entry 24 8
    if clusterInvalid fs.sb start then pure (.error eio)
    else if size = 0 ∨ 0x20000 < size ∨ size % 2 ≠ 0 then pure (.error eio)
    else do
      let allocated ← (malloc P).left
      if allocated = false then pure (.error enomem)
      else do
        let r ← exfatPread P fuel zeros size (exfatC2o fs.sb start)
        if r.1 < 0 then pure (.error eio)
        else do
          let allocated ← (malloc P).left
          if allocated = false then pure (.error enomem)
          else
            let source := (List.range (size / 2)).map fun i => leNat r.2 (2 * i) 2
            pure (.ok { fs with upcase := some (decompressUpcase source 0 id) })

/-- `BMAP_SIZE`, for a bitmap in words of 64 bits. -/
def bmapSize (count : ℕ) : ℕ := (count + 64 - 1) / 64 * 64 / 8

/-- `BMAP_GET`, of words of 64 bits. -/
def bmapGet (chunk : Buf) (index : ℕ) : Bool := (leNat chunk (index / 64 * 8) 8).testBit (index % 64)

/-- `exfat_count_free_clusters`. -/
def exfatCountFreeClusters (chunk : Buf) (size : ℕ) : ℕ :=
  (List.range size).countP fun i => bmapGet chunk i = false

/-- The entry of the bitmap in `readdir`. -/
def readBitmap (fs : Fs) (entry : Buf) : Prog (Device δ) (Except ℤ Fs) :=
  let start := leNat entry 20 4
  let size := sbClusterCount fs.sb
  if clusterInvalid fs.sb start then pure (.error eio)
  else if leNat entry 24 8 < u32 ((size : ℤ) + 8 - 1) / 8 then pure (.error eio)
  else do
    let allocated ← (malloc P).left
    if allocated = false then pure (.error enomem)
    else do
      let r ← exfatPread P fuel zeros (bmapSize size) (exfatC2o fs.sb start)
      if r.1 < 0 then pure (.error eio)
      else pure (.ok { fs with cmapStart := start, cmapSize := size, chunk := some r.2 })

/-- The entry of the label in `readdir`. -/
def readLabel (fs : Fs) (entry : Buf) : Except ℤ Fs :=
  if 15 < (entry 1).toNat then .error eio
  else
    let r := utf16ToUtf8 ((List.range 15).map fun i => leNat entry (2 + 2 * i) 2) 46
    if r.1 ≠ 0 then .error eio else .ok { fs with label := r.2 }

/-- `parse_file_entry`. -/
def parseFileEntry (sb : Buf) (dir : Node) (offset n : ℕ) : Prog (Device δ) (Except ℤ Node × Node) := do
  let r ← readEntries P fuel sb dir n offset
  if r.1 ≠ 0 then pure (.error (-r.1), r.2.2)
  else do
    let allocated ← (malloc P).left
    if allocated = false then pure (.error enomem, r.2.2)
    else do
      let node ← parseFileEntries sb r.2.1 n offset
      pure (node, r.2.2)

/-- The variables of `exfat_cache_directory`: the volume, the directory, the offset in it and the nodes
found so far. -/
structure Listing where
  fs : Fs
  dir : Node
  offset : ℕ := 0
  children : List Node := []

/-- What follows an entry that is no file. -/
def Listing.skip (l : Listing) (dir : Node) : Except ℤ Fs → Listing ⊕ ℤ × Listing
  | .error e => .inr (-e, l)
  | .ok fs => .inl { l with fs := fs, dir := dir, offset := l.offset + 32 }

/-- An entry in `readdir`, which `exfat_cache_directory` calls until there is none. -/
def readdir (l : Listing) : Prog (Device δ) (Listing ⊕ ℤ × Listing) := do
  let r ← readEntries P fuel l.fs.sb l.dir 1 l.offset
  if r.1 ≠ 0 then pure (.inr (r.1, l))
  else
    let entry := r.2.1
    let dir := r.2.2
    if entry 0 = 0x85 then do
      let n := 1 + (entry 1).toNat
      let r ← parseFileEntry P fuel l.fs.sb dir l.offset n
      match r.1 with
      | .error e => pure (.inr (-e, l))
      | .ok node =>
        pure (.inl { l with dir := r.2, offset := l.offset + 32 * n, children := l.children ++ [node] })
    else if entry 0 = 0x82 then do
      let fs ← readUpcase P fuel l.fs entry
      pure (l.skip dir fs)
    else if entry 0 = 0x81 then do
      let fs ← readBitmap P fuel l.fs entry
      pure (l.skip dir fs)
    else if entry 0 = 0x83 then pure (l.skip dir (readLabel l.fs entry))
    else if entry 0 &&& 0x80 = 0 then pure (l.skip dir (.ok l.fs))
    else pure (.inr (-eio, l))

/-- `exfat_cache_directory` of a directory that is not cached. -/
def exfatCacheDirectory (fs : Fs) (dir : Node) : Prog (Device δ) (Except ℤ Listing) := do
  let r ← Prog.loop (readdir P fuel) fuel { fs := fs, dir := dir }
  pure (if r.1 = -enoent then .ok r.2 else .error (-r.1))

end Directory

section Mount

variable {δ : Type} (P : Platform δ) (fuel : ℕ)

/-- `exfat_vbr_start_checksum`, for sectors of any size. -/
def exfatVbrStartChecksum (sector : Buf) (size : ℕ) : BitVec 32 :=
  rotateSum 0 (((List.range size).filter fun i => i ≠ 0x6a ∧ i ≠ 0x6b ∧ i ≠ 0x70).map sector)

/-- The sectors `i` to `i + n - 1` of the boot region are added to the sum. -/
def addVbrSectors (sectorSize : ℕ) : ℕ → ℕ → Buf → BitVec 32 → Prog (Device δ) (Option (Buf × BitVec 32))
  | 0, _, sector, sum => pure (some (sector, sum))
  | n + 1, i, sector, sum => do
    let r ← exfatPread P fuel sector sectorSize (i * sectorSize : ℕ)
    if r.1 < 0 then pure none
    else addVbrSectors sectorSize n (i + 1) r.2 (rotateSum sum (bytes r.2 sectorSize))

/-- `verify_vbr_checksum`. -/
def verifyVbrChecksum (sb sector : Buf) : Prog (Device δ) Bool := do
  let size := sectorSize sb
  let r ← exfatPread P fuel sector size 0
  if r.1 < 0 then pure false
  else do
    let sum ← addVbrSectors P fuel size 10 1 r.2 (exfatVbrStartChecksum r.2 size)
    match sum with
    | none => pure false
    | some (sector, sum) => do
      let r ← exfatPread P fuel sector size (11 * size : ℕ)
      if r.1 < 0 then pure false
      else pure ((List.range (size / 4)).all fun i => leNat r.2 (4 * i) 4 = sum.toNat)

/-- `rootdir_size` with `n` clusters left before all have been counted: the clusters counted so far
plus the rest. -/
def rootdirClusters (sb : Buf) : ℕ → ℕ → ℕ → Prog (Device δ) ℕ
  | 0, _, _ => pure 0
  | n + 1, clusters, cluster =>
    if clusterInvalid sb cluster then pure 0
    else do
      let next ← exfatNextCluster P fuel sb false cluster
      if next = clusterEnd then pure (clusters + 1) else rootdirClusters sb n (clusters + 1) next

/-- `rootdir_size`. -/
def rootdirSize (sb : Buf) : Prog (Device δ) ℕ := do
  let clusters ← rootdirClusters P fuel sb (sbClusterCount sb) 0 (sbRootdirCluster sb)
  pure (clusters * clusterSize sb)

/-- The checks on the super block that come before the checksum. -/
def checkSuperBlock (sb : Buf) : Bool :=
  (List.range 8).map (fun i => sb (3 + i)) = [0x45, 0x58, 0x46, 0x41, 0x54, 0x20, 0x20, 0x20] ∧
    9 ≤ sbSectorBits sb ∧ sbSectorBits sb + sbSpcBits sb ≤ 25

/-- The checks on the super block that come after it. -/
def checkVolume (sb : Buf) (volumeSize : ℤ) : Bool :=
  sb 0x69 = 1 ∧ sb 0x68 = 0 ∧ sb 0x6e = 1 ∧ (sbClusterCount sb * clusterSize sb : ℕ) ≤ volumeSize

/-- `exfat_mount` on a volume of `volumeSize` bytes, with memory for each structure. -/
def exfatMount (volumeSize : ℤ) : Prog (Device δ) (Except ℤ Listing) := do
  let opened ← (malloc P).left
  if opened = false then pure (.error enodev)
  else do
    let allocated ← (malloc P).left
    if allocated = false then pure (.error enomem)
    else do
      let r ← exfatPread P fuel zeros 512 0
      if r.1 < 0 then pure (.error eio)
      else
        let sb := r.2
        if checkSuperBlock sb = false then pure (.error eio)
        else do
          let allocated ← (malloc P).left
          if allocated = false then pure (.error enomem)
          else do
            let verified ← verifyVbrChecksum P fuel sb zeros
            if verified = false then pure (.error eio)
            else if checkVolume sb volumeSize = false then pure (.error eio)
            else do
              let allocated ← (malloc P).left
              if allocated = false then pure (.error enomem)
              else do
                let size ← rootdirSize P fuel sb
                if size = 0 then pure (.error eio)
                else do
                  let root : Node :=
                    { startCluster := sbRootdirCluster sb, fptrCluster := sbRootdirCluster sb
                      attrib := 0x10, validSize := size, size := size }
                  let r ← exfatCacheDirectory P fuel { sb := sb } root
                  match r with
                  | .error _ => pure (.error eio)
                  | .ok l => pure (if l.fs.upcase.isNone ∨ l.fs.chunk.isNone then .error eio else .ok l)

end Mount

end FormatStick.Exfat
