import FormatStick.ExtBridge
import FormatStick.AdapterRuns

/-!
# The channel follows a volume of blocks

The abstract volume is a flat array with a block size. A call reads or writes a range of it, and
zeroing writes zeros, with no stride, no buffer and no joined runs. What the zeroing relies on is
that the static buffer holds zeros for as many blocks as its stride says, which is so as long as the
block size of the file system stays the same.
-/
namespace FormatStick.Ext
open FlatFile Splice Fields Prog Runs

/-- The bytes behind a channel, and its block size. -/
structure Volume where
  data : ℕ → UInt8
  blockSize : ℕ

/-- The blocks of a group's inode table that are written on a stick. -/
def Filsys.tableLength (fs : Filsys) (g : Group) : ℕ :=
  ext2fsDivCeil (u32 (u32 (fs.inodesPerGroup - g.itableUnused) * fs.inodeSize)) fs.blocksize

/-- The inode table of a group, zeroed. -/
def Filsys.zeroTable (fs : Filsys) (g : Group) : Write UInt8 :=
  ⟨g.inodeTable * fs.blocksize, zeros, fs.tableLength g * fs.blocksize⟩

namespace Volume

variable (fs : Filsys) (v : Volume)

/-- The size of a transfer of blocks. -/
def sizeOf (count : ℤ) : ℕ := if count < 0 then (-count).toNat else count.toNat * v.blockSize

def write (o : ℕ) (buf : Buf) (n : ℕ) : Volume := { v with data := splice v.data o buf n }

/-- What a call returns. -/
def result : Call → Result
  | .readBlk64 block count _ => (0, cells v.data (block * v.blockSize) (v.sizeOf count))
  | _ => (0, [])

/-- The volume after a call. -/
def step : Call → Volume
  | .setBlksize blksize => { v with blockSize := blksize }
  | .writeBlk64 block count data => v.write (block * v.blockSize) data (v.sizeOf count)
  | .writeByte offset count data => v.write offset data count
  | .zeroBlocks2 blk num => v.write (blk * fs.blocksize) zeros (num.toNat * fs.blocksize)
  | .zapSector sect nsect =>
    if sect = 0 ∧ bsdLabel v.data then v
    else ⟨splice v.data (sect * 512) zeros (nsect * 512), fs.blocksize⟩
  | .writeInodeTables _ itableZeroed =>
    if itableZeroed then v else { v with data := writeAll v.data (fs.groups.map fs.zeroTable) }
  | _ => v

def results : Volume → List Call → List Result
  | _, [] => []
  | v, c :: cs => v.result c :: results (v.step fs c) cs

end Volume

/-- `num` blocks from `blk` on lie where the driver can write them. -/
structure Zeroable (fs : Filsys) (d : ℕ) (v : Volume) (blk num : ℕ) : Prop where
  blockSize : v.blockSize = fs.blocksize
  below : blk < 2 ^ 63
  count : num < 2 ^ 31
  carried : 0 < num → d * 512 + (blk + num) * fs.blocksize ≤ 2199023255552

/-- A call whose transfers the driver carries out, with the block size of the file system where
blocks are zeroed. -/
def Call.Fits (fs : Filsys) (d : ℕ) (v : Volume) : Call → Prop
  | .readBlk64 block count _ =>
    block < 2 ^ 63 ∧ block * v.blockSize < 2 ^ 63 ∧ Carried d ⟨false, block * v.blockSize, v.sizeOf count⟩
  | .writeBlk64 block count _ =>
    block < 2 ^ 63 ∧ block * v.blockSize < 2 ^ 63 ∧ Carried d ⟨true, block * v.blockSize, v.sizeOf count⟩
  | .writeByte offset count _ => offset < 2 ^ 63 ∧ Carried d ⟨true, offset, count⟩
  | .zeroBlocks2 blk num => Zeroable fs d v blk num.toNat
  | .zapSector sect nsect => 0 < nsect ∧ nsect < 4194304 ∧ d + sect + nsect ≤ 4294967296
  | .writeInodeTables _ _ =>
    fs.metadataCsum = false ∧ ∀ g ∈ fs.groups, Zeroable fs d v g.inodeTable (fs.tableLength g)
  | _ => True

/-- The channel and the static buffer behind a volume. -/
structure Serves (fs : Filsys) (d : ℕ) (v : Volume) (s : World Stick × Engine) : Prop where
  tracks : Tracks d v.data s.1
  blockSize : s.2.blockSize = v.blockSize
  stride : s.2.strideLength ≤ 4194304 / fs.blocksize
  clean : ∀ i < s.2.strideLength * fs.blocksize, s.2.buf i = 0

variable {fs : Filsys} {d fuel : ℕ} {v : Volume} {s : World Stick × Engine}
  {reserved : Prog (World Stick × Engine) ℤ}

section Transfers

theorem Serves.extentOf (hs : Serves fs d v s) {block : ℕ} {count : ℤ} (hblock : block < 2 ^ 63)
    (hoffset : block * v.blockSize < 2 ^ 63) :
    extentOf s.2 block count = (((block * v.blockSize : ℕ) : ℤ), (v.sizeOf count : ℤ)) := by
  have hmul : i64 block * s.2.blockSize = ((block * v.blockSize : ℕ) : ℤ) := by
    rw [i64_of_lt hblock, hs.blockSize, Int.natCast_mul]
  rw [Ext.extentOf, hmul, u64_of_lt (by omega), i64_of_lt hoffset, Volume.sizeOf]
  refine Prod.ext rfl ?_
  dsimp only
  split_ifs with hneg
  · exact (Int.toNat_of_nonneg (by omega)).symm
  · rw [hs.blockSize, Int.natCast_mul, Int.toNat_of_nonneg (by omega)]

/-- The driver under an engine that stays as it is. -/
theorem Serves.driver (hs : Serves fs d v s) {a : ℕ → UInt8} {n : ℕ} {x r : ℤ} {t : World Stick}
    (ht : Went d a n x r t) :
    Serves fs d { v with data := a } (t, s.2) :=
  ⟨ht.tracks, hs.blockSize, hs.stride, hs.clean⟩

theorem wp_scsiSetBlksize (hs : Serves fs d v s) (blksize : ℕ) :
    Prog.wp (scsiSetBlksize blksize) (fun r t => r = 0 ∧ Serves fs d { v with blockSize := blksize } t)
      (fun _ => False) s :=
  ⟨rfl, hs.tracks, rfl, hs.stride, hs.clean⟩

variable (hfuel : 2 ^ 32 ≤ fuel)

include hfuel

theorem wp_scsiReadBlk64 (hs : Serves fs d v s) {block : ℕ} {count : ℤ} (data : Buf) (hblock : block < 2 ^ 63)
    (hoffset : block * v.blockSize < 2 ^ 63) (hx : Carried d ⟨false, block * v.blockSize, v.sizeOf count⟩) :
    Prog.wp (scsiReadBlk64 stick fuel block count data)
      (fun r t => r.1 = 0 ∧ bytes r.2 (v.sizeOf count) = cells v.data (block * v.blockSize) (v.sizeOf count) ∧
        Serves fs d v t)
      (fun _ => False) s := by
  rw [scsiReadBlk64, wp_bind, wp_read, hs.extentOf hblock hoffset]
  dsimp only
  rw [wp_bind, wp_left]
  refine wp_mono (hs.tracks.wp_read hfuel data hx) (fun r t ht => ⟨?_, ht.2, hs.driver ht.1⟩) fun _ h => h
  exact if_pos ht.1.ret

theorem wp_scsiWriteBlk64 (hs : Serves fs d v s) {block : ℕ} {count : ℤ} (data : Buf)
    (hblock : block < 2 ^ 63)
    (hoffset : block * v.blockSize < 2 ^ 63) (hx : Carried d ⟨true, block * v.blockSize, v.sizeOf count⟩) :
    Prog.wp (scsiWriteBlk64 stick fuel block count data)
      (fun r t => r = 0 ∧ t.2 = s.2 ∧ Serves fs d (v.write (block * v.blockSize) data (v.sizeOf count)) t)
      (fun _ => False) s := by
  rw [scsiWriteBlk64, wp_bind, wp_read, hs.extentOf hblock hoffset]
  dsimp only
  rw [wp_bind, wp_left, usbScsiPwriteInternal, wp_bind]
  refine wp_mono (hs.tracks.wp_write hfuel data hx) (fun r t ht => ⟨?_, rfl, hs.driver ht⟩) fun _ h => h
  exact if_pos ht.ret

theorem wp_scsiWriteByte (hs : Serves fs d v s) {offset count : ℕ} (data : Buf) (hoffset : offset < 2 ^ 63)
    (hx : Carried d ⟨true, offset, count⟩) :
    Prog.wp (scsiWriteByte stick fuel offset count data)
      (fun r t => r = 0 ∧ Serves fs d (v.write offset data count) t) (fun _ => False) s := by
  rw [scsiWriteByte, i64_of_lt hoffset, wp_bind, wp_left, usbScsiPwriteInternal, wp_bind]
  refine wp_mono (hs.tracks.wp_write hfuel data hx) (fun r t ht => ⟨?_, hs.driver ht⟩) fun _ h => h
  exact if_pos ht.ret

end Transfers

section Zeroing

variable {stride blk num left : ℕ}

theorem strideCount_eq (hstride : 0 < stride) :
    strideCount stride blk left = min (stride - blk % stride) left := by
  have hmod := Nat.mod_lt blk hstride
  unfold strideCount
  split_ifs <;> omega

theorem Volume.sizeOf_natCast (v : Volume) (n : ℕ) : v.sizeOf n = n * v.blockSize := by
  rw [sizeOf, if_neg (by omega), Int.toNat_natCast]

@[simp] theorem Volume.write_zero (v : Volume) (o : ℕ) (buf : Buf) : v.write o buf 0 = v := by
  simp [write]

/-- Zeros next to each other. -/
theorem splice_zeros_append (a : ℕ → UInt8) (o n m : ℕ) :
    splice (splice a o zeros n) (o + n) zeros m = splice a o zeros (n + m) :=
  splice_chunk a zeros o n m

/-- `n` blocks of zeros, and `m` more behind them. -/
theorem splice_blocks_append (a : ℕ → UInt8) (b blk n m : ℕ) :
    splice (splice a (blk * b) zeros (n * b)) ((blk + n) * b) zeros (m * b) =
      splice a (blk * b) zeros ((n + m) * b) := by
  rw [Nat.add_mul, splice_zeros_append, ← Nat.add_mul]

/-- The buffer is long enough for any pass, unless it cannot grow. -/
theorem wp_growBuffer (hs : Serves fs d v s) (hpos : 0 < fs.blocksize) (hle : fs.blocksize ≤ 4194304)
    (hnum : 0 < num) :
    Prog.wp (growBuffer stick fs.blocksize num)
      (fun r t => r = true ∧ Serves fs d v t ∧ 0 < t.2.strideLength) (fun _ => False) s := by
  have hmax : 0 < 4194304 / fs.blocksize := Nat.div_pos hle hpos
  rw [growBuffer, wp_bind, wp_read]
  refine wp_ite (fun hgrow => ?_) fun hkeep => ?_
  · rw [wp_bind, wp_left]
    refine wp_mono (wp_malloc_stick hs.tracks) (fun p t ht => ?_) fun _ h => h
    obtain ⟨rfl, ht⟩ := ht
    rw [if_neg Bool.true_eq_false.mp, wp_bind, wp_update, wp_pure]
    refine ⟨rfl, ⟨ht, hs.blockSize, ?_, fun i hi => ?_⟩, ?_⟩
    · dsimp only
      split_ifs <;> omega
    · dsimp only at hi ⊢
      rw [Nat.mul_comm] at hi
      rw [splice_of_mem (Nat.zero_le i) (by rw [Nat.zero_add]; exact hi)]
      rfl
    · dsimp only
      split_ifs <;> omega
  · refine ⟨rfl, hs, ?_⟩
    have hstride := hs.stride
    omega

variable (hfuel : 2 ^ 32 ≤ fuel)

include hfuel

/-- One write of zeros. -/
theorem wp_zeroWrite (hs : Serves fs d v s) (hz : Zeroable fs d v blk num) (hnum : 0 < num)
    (hstride : num ≤ s.2.strideLength) :
    Prog.wp (scsiWriteBlk64 stick fuel blk num s.2.buf)
      (fun r t => r = 0 ∧ t.2 = s.2 ∧ Serves fs d (v.write (blk * fs.blocksize) zeros (num * fs.blocksize)) t)
      (fun _ => False) s := by
  have hsize : v.sizeOf num = num * fs.blocksize := by rw [v.sizeOf_natCast, hz.blockSize]
  have hbytes : num * fs.blocksize ≤ 4194304 :=
    Nat.le_trans (Nat.mul_le_mul_right _ (Nat.le_trans hstride hs.stride)) (Nat.div_mul_le_self _ _)
  have hzeros : splice v.data (blk * fs.blocksize) s.2.buf (num * fs.blocksize) =
      splice v.data (blk * fs.blocksize) zeros (num * fs.blocksize) :=
    splice_congr fun i hi => hs.clean i (Nat.lt_of_lt_of_le hi (Nat.mul_le_mul_right _ hstride))
  have hcarried := hz.carried hnum
  rw [Nat.add_mul] at hcarried
  have hoffset : blk * v.blockSize < 2 ^ 63 := by
    rw [hz.blockSize]
    omega
  have hx : Carried d ⟨true, blk * v.blockSize, v.sizeOf num⟩ := by
    rw [carried_write, hz.blockSize, hsize]
    omega
  have hwrite := wp_scsiWriteBlk64 hfuel hs s.2.buf hz.below hoffset hx
  rw [hz.blockSize, hsize, Volume.write, hzeros] at hwrite
  exact hwrite

omit hfuel in
/-- A part of the blocks, once others are written. -/
theorem Zeroable.part (hz : Zeroable fs d v blk num) (hpos : 0 < fs.blocksize) {j count : ℕ}
    (hcount : j + count ≤ num)
    (hj : j < num) (o n : ℕ) (buf : Buf) : Zeroable fs d (v.write o buf n) (blk + j) count := by
  have hcarried := hz.carried (by omega)
  have hblk : (blk + num) * 1 ≤ (blk + num) * fs.blocksize := Nat.mul_le_mul_left _ hpos
  have hend : (blk + j + count) * fs.blocksize ≤ (blk + num) * fs.blocksize :=
    Nat.mul_le_mul_right _ (by omega)
  have hnum := hz.count
  exact ⟨hz.blockSize, by omega, by omega, fun _ => by omega⟩

theorem wp_zeroLoop (hs : Serves fs d v s) (hz : Zeroable fs d v blk num) (hpos : 0 < fs.blocksize)
    (hstride : 0 < s.2.strideLength) :
    Prog.wp (Prog.loop (zeroPass stick fuel num) fuel (0, blk))
      (fun r t => r.1 = 0 ∧ Serves fs d (v.write (blk * fs.blocksize) zeros (num * fs.blocksize)) t)
        (fun _ => False) s := by
  have hcount := hz.count
  -- after `j` blocks, `j` blocks of zeros are written
  refine wp_loop_cut
    (fun i t => i.2 = blk + i.1 ∧ i.1 ≤ num ∧ 0 < t.2.strideLength ∧
      Serves fs d (v.write (blk * fs.blocksize) zeros (i.1 * fs.blocksize)) t)
    (fun i => num - i.1) (fun i t _ hcut => ?_) ?_ ⟨rfl, Nat.zero_le _, hstride, by simpa using hs⟩
  · dsimp only at hcut
    omega
  rintro ⟨j, b⟩ t ⟨hb, hj, ht, hserves⟩
  dsimp only at hb hj hserves
  subst hb
  rw [zeroPass]
  refine wp_ite (fun hlt => ?_) fun hge => ?_
  · obtain ⟨count, hmin⟩ : ∃ c, c = strideCount t.2.strideLength (blk + j) (num - j) := ⟨_, rfl⟩
    have hbounds := hmin
    have hmod := Nat.mod_lt (blk + j) ht
    rw [strideCount_eq ht] at hbounds
    rw [wp_bind, wp_read]
    dsimp only
    rw [← hmin, wp_bind]
    refine wp_mono (wp_zeroWrite hfuel hserves (hz.part hpos (by omega) hlt _ _ _) (by omega) (by omega))
      (fun r u hu => ?_) fun _ h => h
    obtain ⟨rfl, hengine, hu⟩ := hu
    rw [Volume.write, Volume.write, splice_blocks_append] at hu
    refine ⟨⟨Nat.add_assoc _ _ _, ?_, hengine ▸ ht, hu⟩, ?_⟩
    · dsimp only
      omega
    · dsimp only
      omega
  · have hend : j = num := by omega
    subst hend
    exact ⟨rfl, hserves⟩

theorem wp_ext2fsZeroBlocks2 {n : ℤ} (hs : Serves fs d v s) (hz : Zeroable fs d v blk n.toNat)
    (hpos : 0 < fs.blocksize)
    (hle : fs.blocksize ≤ 4194304) :
    Prog.wp (ext2fsZeroBlocks2 stick fuel fs.blocksize blk n)
      (fun r t => r.1 = 0 ∧ Serves fs d (v.write (blk * fs.blocksize) zeros (n.toNat * fs.blocksize)) t)
      (fun _ => False) s := by
  rw [ext2fsZeroBlocks2]
  refine wp_ite (fun hnone => ?_) fun hsome => ?_
  · rw [Int.toNat_of_nonpos hnone]
    exact ⟨rfl, by simpa using hs⟩
  · rw [wp_bind, ioChannelZeroout, wp_pure, if_neg (by decide), wp_bind]
    refine wp_mono (wp_growBuffer hs hpos hle (by omega)) (fun r t ht => ?_) fun _ h => h
    obtain ⟨rfl, ht, hstride⟩ := ht
    rw [if_neg Bool.true_eq_false.mp]
    exact wp_zeroLoop hfuel ht hz hpos hstride

end Zeroing

section Zapping

variable {sect nsect : ℕ}

theorem Volume.sizeOf_sectors (v : Volume) (n : ℕ) : v.sizeOf (-512 * n) = n * 512 := by
  rcases Nat.eq_zero_or_pos n with rfl | hpos
  · simp [sizeOf]
  · rw [sizeOf, if_pos (by omega)]
    omega

/-- The label is in the first sector. -/
theorem bsdLabel_iff {buf : Buf} {a : ℕ → UInt8} (h : bytes buf 512 = cells a 0 512) : bsdLabel buf ↔
      bsdLabel a := by
  have hbyte : ∀ i < 512, buf i = a i := by
    intro i hi
    have hget := congrArg (·[i]?) h
    simpa [bytes, cells, hi] using hget
  have hlabel : leNat buf 64 4 = leNat a 64 4 := leNat_congr fun i hi => hbyte _ (by omega)
  rw [bsdLabel, bsdLabel, hlabel]

variable (hfuel : 2 ^ 32 ≤ fuel)

include hfuel

theorem wp_zapWrite (hs : Serves fs d v s) (hlong : nsect < 4194304)
    (hreach : d + sect + nsect ≤ 4294967296) :
    Prog.wp (zapWrite stick fuel fs sect nsect)
      (fun r t => r = 0 ∧ Serves fs d ⟨splice v.data (sect * 512) zeros (nsect * 512), fs.blocksize⟩ t)
        (fun _ => False) s := by
  have hsect : sect < 2 ^ 63 := by omega
  have hoffset : sect * 512 < 2 ^ 63 := by omega
  have hx : Carried d ⟨true, sect * 512, Volume.sizeOf ⟨v.data, 512⟩ (-512 * nsect)⟩ := by
    rw [carried_write, Volume.sizeOf_sectors]
    omega
  rw [zapWrite, wp_bind]
  refine wp_mono (wp_scsiSetBlksize hs 512) (fun _ t ht => ?_) fun _ h => h
  rw [wp_bind]
  refine wp_mono (wp_scsiWriteBlk64 hfuel ht.2 zeros hsect hoffset hx) (fun _ u hu => ?_) fun _ h => h
  rw [Volume.sizeOf_sectors] at hu
  rw [wp_bind]
  exact wp_mono (wp_scsiSetBlksize hu.2.2 fs.blocksize) (fun _ w hw => ⟨rfl, hw.2⟩) fun _ h => h

theorem wp_zapSector (hs : Serves fs d v s) (hc : (Call.zapSector sect nsect).Fits fs d v) :
    Prog.wp (zapSector stick fuel fs sect nsect)
      (fun r t => r = 0 ∧ Serves fs d (v.step fs (.zapSector sect nsect)) t)
      (fun _ => False) s := by
  obtain ⟨hsome, hlong, hreach⟩ := hc
  have hwrite : ∀ {t}, Serves fs d v t → ¬(sect = 0 ∧ bsdLabel v.data) →
      Prog.wp (zapWrite stick fuel fs sect nsect)
      (fun r t => r = 0 ∧ Serves fs d (v.step fs (.zapSector sect nsect)) t) (fun _ => False) t := by
    intro t ht hzap
    rw [Volume.step, if_neg hzap]
    exact wp_zapWrite hfuel ht hlong hreach
  rw [zapSector, wp_bind, wp_left]
  refine wp_mono (wp_malloc_stick hs.tracks) (fun p t ht => ?_) fun _ h => h
  obtain ⟨rfl, ht⟩ := ht
  have hserves : Serves fs d v (t, s.2) := ⟨ht, hs.blockSize, hs.stride, hs.clean⟩
  rw [if_neg Bool.true_eq_false.mp]
  refine wp_ite (fun hzero => ?_) fun hother => hwrite hserves fun h => hother h.1
  subst hzero
  have hsector : v.sizeOf (-512) = 512 := v.sizeOf_sectors 1
  have hblock : 0 * v.blockSize < 2 ^ 63 := by omega
  have hx : Carried d ⟨false, 0 * v.blockSize, v.sizeOf (-512)⟩ := by
    rw [Nat.zero_mul, carried_read, hsector]
    omega
  rw [wp_bind]
  refine wp_mono (wp_scsiReadBlk64 hfuel hserves zeros (by omega) hblock hx) (fun r u hu => ?_) fun _ h => h
  obtain ⟨hret, hbytes, hu⟩ := hu
  rw [hsector, Nat.zero_mul] at hbytes
  have hlabel := bsdLabel_iff hbytes
  refine wp_ite (fun hfound => ?_) fun hnone => hwrite hu fun h => hnone ⟨hret, hlabel.mpr h.2⟩
  rw [Volume.step, if_pos ⟨rfl, hlabel.mp hfound.2⟩]
  exact ⟨rfl, hu⟩

end Zapping

section Tables

variable (hpos : 0 < fs.blocksize) (hle : fs.blocksize ≤ 4194304)

theorem tableBlocks_eq {g : Group} (h : fs.tableLength g < 2 ^ 31) :
    tableBlocks fs true g = fs.tableLength g := by
  rw [tableBlocks, if_pos rfl, ← Filsys.tableLength, Int.bmod_def]
  split_ifs <;> omega

/-- The test of `write_inode_tables` for a run that goes on finds the runs next to each other that
an `int` can count. -/
theorem joins_iff {start len blk num : ℕ} (hstart : start < 2 ^ 63) (hlen : len < 2 ^ 31)
    (hnum : num < 2 ^ 31) :
    (u64 ((start : ℤ) + len) = blk ∧ (len : ℤ) ≤ Int.bmod ((len : ℤ) + num) (2 ^ 32)) ↔
      start + len = blk ∧ len + num < 2 ^ 31 := by
  rw [u64_add (by omega), Int.bmod_def]
  refine and_congr_right fun _ => ?_
  split_ifs <;> omega

/-- Two runs next to each other. -/
theorem Zeroable.join {start len num : ℕ} (h : Zeroable fs d v start len)
    (h' : Zeroable fs d v (start + len) num)
    (hsum : len + num < 2 ^ 31) : Zeroable fs d v start (len + num) := by
  refine ⟨h.blockSize, h.below, hsum, fun _ => ?_⟩
  rcases Nat.eq_zero_or_pos num with rfl | hnum
  · exact h.carried (by omega)
  · rw [← Nat.add_assoc]
    exact h'.carried hnum

theorem tablesLoop_itableZeroed {δ : Type} (P : Platform δ) (lazyFlag : Bool) (gs : List Group) (start : ℕ)
    (len : ℤ) :
    tablesLoop P fuel fs lazyFlag true gs start len = pure (some (start, len)) := by
  induction gs with
  | nil => rfl
  | cons g gs ih => rw [tablesLoop, if_pos rfl, ih]

include hpos hle

/-- The loop writes the runs it has joined, and leaves the last one for after it. -/
theorem wp_tablesLoop (hfuel : 2 ^ 32 ≤ fuel) {gs : List Group} {start len : ℕ} (hs : Serves fs d v s)
    (hrun : Zeroable fs d v start len) (hgs : ∀ g ∈ gs, Zeroable fs d v g.inodeTable (fs.tableLength g)) :
    Prog.wp (tablesLoop stick fuel fs true false gs start len)
      (fun r t => ∃ (v' : Volume) (start' len' : ℕ), r = some (start', (len' : ℤ)) ∧
        Zeroable fs d v' start' len' ∧
        Serves fs d v' t ∧ v'.write (start' * fs.blocksize) zeros (len' * fs.blocksize) =
          ⟨writeAll (splice v.data (start * fs.blocksize) zeros (len * fs.blocksize)) (gs.map fs.zeroTable),
            v.blockSize⟩)
      (fun _ => False) s := by
  induction gs generalizing v s start len with
  | nil => exact ⟨v, start, len, rfl, hrun, hs, rfl⟩
  | cons g gs ih =>
    have hg := hgs g List.mem_cons_self
    have hrest : ∀ g ∈ gs, Zeroable fs d v g.inodeTable (fs.tableLength g) :=
      fun g hg => hgs g (List.mem_cons_of_mem _ hg)
    rw [tablesLoop, if_neg Bool.false_ne_true, tableBlocks_eq hg.count, List.map_cons, writeAll_cons]
    refine wp_ite (fun hempty => ?_) fun hsome => wp_ite (fun hjoin => ?_) fun hapart => ?_
    · have hlen : len = 0 := by omega
      subst hlen
      rw [Nat.zero_mul, splice_zero]
      exact ih hs hg hrest
    · obtain ⟨hblk, hsum⟩ := (joins_iff hrun.below hrun.count hg.count).mp hjoin
      have hnext := hrun.join (hblk ▸ hg) hsum
      have hbmod : Int.bmod ((len : ℤ) + fs.tableLength g) (2 ^ 32) = (len + fs.tableLength g : ℕ) := by
        rw [Int.bmod_def]
        split_ifs <;> omega
      rw [hbmod, Filsys.zeroTable, ← hblk]
      dsimp only
      rw [splice_blocks_append]
      exact ih hs hnext hrest
    · rw [wp_bind]
      refine wp_mono (wp_ext2fsZeroBlocks2 hfuel hs (n := len) (Int.toNat_natCast len ▸ hrun) hpos hle)
        (fun r t ht => ?_) fun _ h => h
      rw [if_neg (not_not_intro ht.1)]
      exact ih ht.2 ⟨hg.blockSize, hg.below, hg.count, hg.carried⟩
        fun g hg => ⟨(hrest g hg).blockSize, (hrest g hg).below, (hrest g hg).count, (hrest g hg).carried⟩

theorem wp_writeInodeTables (hfuel : 2 ^ 32 ≤ fuel) (hs : Serves fs d v s) {lazyFlag itableZeroed : Bool}
    (hcsum : fs.metadataCsum = false)
    (hgs : ∀ g ∈ fs.groups, Zeroable fs d v g.inodeTable (fs.tableLength g)) :
    Prog.wp (writeInodeTables stick fuel fs reserved "usb_device" lazyFlag itableZeroed)
      (fun r t => r = 0 ∧ Serves fs d (v.step fs (.writeInodeTables lazyFlag itableZeroed)) t)
        (fun _ => False) s := by
  have hlazy : (lazyFlag || "usb_device" == "usb_device") = true := by simp
  rw [writeInodeTables, hlazy, hcsum, wp_bind]
  dsimp only
  cases itableZeroed with
  | true =>
    rw [tablesLoop_itableZeroed]
    exact ⟨rfl, hs⟩
  | false =>
    by_cases hempty : fs.groups = []
    · simp only [hempty, tablesLoop, Volume.step]
      exact ⟨rfl, hs⟩
    obtain ⟨g, gs, hcons⟩ := List.exists_cons_of_ne_nil hempty
    have hfirst : Zeroable fs d v 0 0 :=
      ⟨(hgs g (by rw [hcons]; exact List.mem_cons_self)).blockSize, by omega, by omega,
        fun h => absurd h (Nat.lt_irrefl 0)⟩
    refine wp_mono (wp_tablesLoop hpos hle hfuel hs hfirst hgs) (fun r t ht => ?_) fun _ h => h
    obtain ⟨v', start, len, rfl, hrun, ht, hdata⟩ := ht
    rw [Nat.zero_mul, splice_zero] at hdata
    rw [Volume.step, if_neg Bool.false_ne_true]
    refine wp_ite (fun hnone => ?_) fun hsome => ?_
    · have hlen : len = 0 := by omega
      rw [hlen, Nat.zero_mul, Volume.write_zero] at hdata
      exact ⟨rfl, hdata ▸ ht⟩
    · rw [wp_bind]
      refine wp_mono (wp_ext2fsZeroBlocks2 hfuel ht (n := len) (Int.toNat_natCast len ▸ hrun) hpos hle)
        (fun r u hu => ?_) fun _ h => h
      rw [Int.toNat_natCast, hdata] at hu
      rw [if_neg (not_not_intro hu.1)]
      exact ⟨rfl, hu.2⟩

end Tables

section Runs

variable (hfuel : 2 ^ 32 ≤ fuel) (hpos : 0 < fs.blocksize) (hle : fs.blocksize ≤ 4194304)

include hfuel hpos hle

/-- A call follows the volume. -/
theorem wp_call (hs : Serves fs d v s) {c : Call} (hc : c.Fits fs d v) :
    Prog.wp (c.run stick fuel fs reserved) (fun r t => r = v.result c ∧ Serves fs d (v.step fs c) t)
      (fun _ => False) s := by
  cases c with
  | setBlksize blksize => exact wp_returning (wp_scsiSetBlksize hs blksize)
  | readBlk64 block count data =>
    rw [Call.run, wp_bind, wp_read, hs.extentOf hc.1 hc.2.1, wp_bind]
    refine wp_mono (wp_scsiReadBlk64 hfuel hs data hc.1 hc.2.1 hc.2.2) (fun r t ht => ⟨?_, ht.2.2⟩)
      fun _ h => h
    rw [ht.1, Int.toNat_natCast, ht.2.1, Volume.result]
  | writeBlk64 block count data =>
    exact wp_returning (wp_mono (wp_scsiWriteBlk64 hfuel hs data hc.1 hc.2.1 hc.2.2)
      (fun r t ht => ⟨ht.1, ht.2.2⟩) fun _ h => h)
  | writeByte offset count data => exact wp_returning (wp_scsiWriteByte hfuel hs data hc.1 hc.2)
  | zeroBlocks2 blk num =>
    rw [Call.run, wp_bind]
    exact wp_mono (wp_ext2fsZeroBlocks2 hfuel hs hc hpos hle) (fun r t ht => ⟨by rw [ht.1]; rfl, ht.2⟩)
      fun _ h => h
  | zapSector sect nsect => exact wp_returning (wp_zapSector hfuel hs hc)
  | writeInodeTables lazyFlag itableZeroed =>
    exact wp_returning (wp_writeInodeTables hpos hle hfuel hs hc.1 hc.2)
  | flush => exact ⟨rfl, hs⟩
  | discard => exact ⟨rfl, hs⟩

theorem wp_runCalls {cs : List Call} (hs : Serves fs d v s)
    (hcs : Along (Volume.step fs) (fun v c => c.Fits fs d v) v cs) :
    Prog.wp (runCalls stick fuel fs reserved cs)
      (fun r t => r = v.results fs cs ∧ Serves fs d (cs.foldl (Volume.step fs) v) t) (fun _ => False) s := by
  induction cs generalizing v s with
  | nil => exact ⟨rfl, hs⟩
  | cons c cs ih =>
    rw [runCalls, wp_bind]
    refine wp_mono (wp_call hfuel hpos hle hs hcs.1) (fun r t ht => ?_) fun _ h => h
    rw [wp_bind]
    refine wp_mono (ih ht.2 hcs.2) (fun rs u hu => ⟨?_, hu.2⟩) fun _ h => h
    rw [ht.1, hu.1, Volume.results]

end Runs

/-- The engine's calls return what those of the volume return, and the sync after them leaves the
volume on the medium. -/
theorem runEngine_follows {a : ℕ → UInt8} {w : World Stick} {buf : Buf} {strideLength : ℕ} {cs : List Call}
    (hw : Tracks d a w)
    (hfuel : 2 ^ 32 ≤ fuel) (hpos : 0 < fs.blocksize) (hle : fs.blocksize ≤ 4194304)
    (hstride : strideLength ≤ 4194304 / fs.blocksize) (hclean : ∀ i < strideLength * fs.blocksize, buf i = 0)
    (hcs : Along (Volume.step fs) (fun v c => c.Fits fs d v) ⟨a, 4096⟩ cs) :
    ∃ t, runEngine stick fuel fs reserved buf strideLength cs w =
      (some ((Volume.mk a 4096).results fs cs, 0), t) ∧
      ∀ i, t.dev.medium (d * 512 + i) = (cs.foldl (Volume.step fs) ⟨a, 4096⟩).data i := by
  have hs : Serves fs d ⟨a, 4096⟩ (w, ⟨4096, buf, strideLength⟩) := ⟨hw, rfl, hstride, hclean⟩
  have hrun : Prog.wp (runEngine stick fuel fs reserved buf strideLength cs)
      (fun r t => r = ((Volume.mk a 4096).results fs cs, 0) ∧
        ∀ i, t.dev.medium (d * 512 + i) = (cs.foldl (Volume.step fs) ⟨a, 4096⟩).data i)
          (fun _ => False) w := by
    rw [runEngine, wp_alongside, wp_bind]
    refine wp_mono (wp_runCalls hfuel hpos hle hs hcs) (fun rs t ht => ?_) fun _ h => h
    rw [wp_bind, wp_left]
    refine wp_mono ht.2.tracks.wp_sync (fun r u hu => ⟨?_, fun i => ?_⟩) fun _ h => h
    · rw [ht.1, hu.1.ret]
      rfl
    · rw [Nat.add_comm]
      exact hu.2 i
  obtain ⟨r, t, hret, rfl, hmedium⟩ := wp_returns hrun
  exact ⟨t, hret, hmedium⟩

/-- Two groups on the stick of ones, whose tables of 256 inodes are next to each other. -/
theorem runEngine_follows_roomy :
    let fs : Filsys := ⟨4096, 16, 256, 256, false, [⟨64, 0⟩, ⟨80, 0⟩]⟩
    let cs : List Call := [.zapSector 2 6, .readBlk64 1 1 zeros, .writeInodeTables false false,
      .zeroBlocks2 1000 2, .flush]
    ∃ t, runEngine stick 4294967296 fs (pure 0) zeros 0 cs roomyStick =
        (some ((Volume.mk (fun _ => 1) 4096).results fs cs, 0), t) ∧
      ∀ i, t.dev.medium (4096 * 512 + i) = (cs.foldl (Volume.step fs) ⟨fun _ => 1, 4096⟩).data i := by
  intro fs cs
  have hidle : Idle roomyStick := ⟨rfl, rfl, rfl⟩
  have htracks : Tracks 4096 (fun _ => 1) roomyStick := hidle.tracks ⟨fun _ => rfl, fun _ => rfl⟩
  refine runEngine_follows htracks (by decide) (by decide) (by decide) (by decide) (fun _ _ => rfl) ?_
  simp only [cs, Along, and_true]
  refine ⟨?_, ?_, ?_, ?_, trivial⟩
  · simp [Call.Fits]
  · simp [Call.Fits, Volume.step, Volume.sizeOf, Carried, fs]
  · refine ⟨rfl, fun g hg => ?_⟩
    have hlength : fs.tableLength g = 16 := by
      simp only [fs, List.mem_cons, List.not_mem_nil, or_false] at hg
      rcases hg with rfl | rfl <;> decide
    have htable : g.inodeTable ≤ 80 := by
      simp only [fs, List.mem_cons, List.not_mem_nil, or_false] at hg
      rcases hg with rfl | rfl <;> decide
    refine ⟨rfl, by omega, by omega, fun _ => ?_⟩
    rw [hlength]
    dsimp only [fs]
    omega
  · refine ⟨rfl, by decide, by decide, by decide⟩

end FormatStick.Ext
