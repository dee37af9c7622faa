import FormatStick.DirectCalls
import FormatStick.Progress

/-!
# The driver's buffers

The bounce buffer has a fixed size in bytes. The write cache is allocated once, with the
sector size of the stick that is there at that time, and filled up to a fixed number of
sectors. The driver logs every access to them; the accesses of a request stay inside the
buffers where the sectors are not too large for it.
-/
namespace FormatStick
open Splice Prog Runs

variable {δ : Type}

/-- The access stays in its buffer; an access to nothing stays in any. -/
def Access.Stays (a : Access) : Prop := a.len = 0 ∨ a.start + a.len ≤ a.size

/-- The calls that send READ(10) and WRITE(10) past the write cache. -/
inductive DirectCall
  | wipeMbr
  | wipeTail
  | writeMbr (partitionSectors : ℕ) (partitionType : UInt8)
  | writeGpt (partitionSectors : ℕ) (fsType : ℤ)
  | updateMbrType (type : UInt8)

def DirectCall.run (P : Platform δ) : DirectCall → Prog (World δ) ℤ
  | wipeMbr => usbScsiWipeMbr P
  | wipeTail => usbScsiWipeTail P
  | writeMbr partitionSectors partitionType => usbScsiWriteMbr P partitionSectors partitionType
  | writeGpt partitionSectors fsType => usbScsiWriteGpt P partitionSectors fsType
  | updateMbrType type => FormatStick.updateMbrType P type

/-- What a session does with the driver once it has opened the stick. -/
inductive DriverCall
  | window (sectors : ℕ)
  | direct (c : DirectCall)
  | io (r : Request)
  | sync

/-- A step of the process: a stick is opened with `usb_scsi_init`, or the driver is called. -/
inductive DriverStep (δ : Type)
  | plug (dev : δ) (handle : ℕ)
  | call (c : DriverCall)

def DriverCall.run (P : Platform δ) (fuel : ℕ) (w : World δ) : DriverCall → World δ
  | window sectors => (usbScsiSetPartitionOffset sectors w).2
  | direct c => (c.run P w).2
  | io r => (scsiIoInternal P fuel r.buf r.count r.offset r.isWrite w).2
  | sync => (usbScsiSync P w).2

def DriverStep.run (P : Platform δ) (fuel : ℕ) (w : World δ) : DriverStep δ → World δ
  | plug dev handle => (usbScsiInit P handle { w with dev := dev }).2
  | call c => c.run P fuel w

/-- `actual_offset` of a request. -/
def Request.actualOffset (r : Request) (g : Driver) : ℤ :=
  r.offset + i64 (u64 (g.gDriveOffsetSectors * g.gSectorSize))

/-- A pass of the transfer loop finds the fill within its limit, and divides by a sector size other
than 0. -/
structure PassSafe (count : ℤ) (i : ℕ × Buf) (w : World δ) : Prop where
  fill : w.drv.gCacheSectors ≤ kMaxCacheSectors
  divisor : (i.1 : ℤ) < count → 0 < w.drv.gSectorSize

def DriverStep.PassesSafely (P : Platform δ) (fuel : ℕ) (w : World δ) : DriverStep δ → Prop
  | call (.io r) => Passes (ioLoop P r.isWrite r.count (r.actualOffset w.drv)) (PassSafe r.count)
      fuel (0, r.buf)
      { w with requests := w.requests ++ [r] }
  | _ => True

/-- The step finds the fill within its limit, divides by no zero, and no access that it makes leaves
its buffer. -/
structure DriverStep.Safe (P : Platform δ) (fuel : ℕ) (w : World δ) (e : DriverStep δ) : Prop where
  fill : w.drv.gCacheSectors ≤ kMaxCacheSectors
  passes : e.PassesSafely P fuel w
  stays : ∀ a ∈ (e.run P fuel w).accesses.drop w.accesses.length, a.Stays

/-- A session: a stick, what is done with it, and the sync that ends every session. -/
structure DriverSession (δ : Type) where
  dev : δ
  handle : ℕ
  calls : List DriverCall

def DriverSession.steps (x : DriverSession δ) : List (DriverStep δ) :=
  .plug x.dev x.handle :: (x.calls.map .call ++ [.call .sync])

section Reads

variable {size off left : ℕ}

/-- What is left of a read request fits. Where the rounding to sectors wraps around, nothing is read, or one
sector; a request that starts inside a sector must not get nothing. Otherwise its sectors fit into the bounce
buffer, as 2048 of up to 512 bytes do. -/
structure ReadFits (size off left : ℕ) : Prop where
  wraps : 0 < off → left + off + size ≤ 4294967296 ∨ 4294967296 < left + off
  length : size ≤ 512 ∨ left + off ≤ bounceSize / size * size ∨ 4294967296 < left + off + size

theorem readLen_le (size off left : ℕ) : readLen size off left ≤ u32 ((left : ℤ) + off + size - 1) := by
  rw [readLen]
  refine Nat.le_trans ?_ (Nat.div_mul_le_self _ size)
  rw [← Int.natCast_mul]
  refine Nat.le_trans (u32_left _).1 (Nat.mul_le_mul_right size ?_)
  split_ifs
  · omega
  · exact Nat.le_refl _

theorem readLen_eq {x : ℕ} (hx : x = u32 ((left : ℤ) + off + size - 1)) :
    readLen size off left = min (x / size) 2048 * size := by
  have hcap : ∀ n : ℕ, (if n > 2048 then 2048 else n) = min n 2048 := fun n => by
    split_ifs <;> omega
  have hle : min (x / size) 2048 * size ≤ x :=
    Nat.le_trans (Nat.mul_le_mul_right size (Nat.min_le_left _ _)) (Nat.div_mul_le_self x size)
  rw [readLen, ← hx, hcap, u32_mul (Nat.lt_of_le_of_lt hle (hx ▸ u32_lt _))]

/-- The READ(10) of a request that fits takes whole sectors from the one that it starts in on. -/
theorem readLen_of_fits (h : ReadFits size off left) (hs : 0 < size) (hmax : size ≤ bounceSize)
    (ho : off < size)
    (hl : left < 4294967296) :
    ∃ n, readLen size off left = n * size ∧ n * size ≤ bounceSize ∧ off ≤ n * size := by
  obtain ⟨x, hx⟩ : ∃ x, x = u32 ((left : ℤ) + off + size - 1) := ⟨_, rfl⟩
  refine ⟨_, readLen_eq hx, ?_, ?_⟩
  · rcases h.length with hsmall | hfew | hwraps
    · exact Nat.mul_le_mul (Nat.min_le_right _ _) hsmall
    · have hbounce : bounceSize / size * size ≤ bounceSize := Nat.div_mul_le_self _ _
      have hround : x < (bounceSize / size + 1) * size := by
        rw [Nat.add_mul, Nat.one_mul, hx]
        unfold u32
        unfold bounceSize at *
        omega
      have hquot : x / size ≤ bounceSize / size := Nat.le_of_lt_succ ((Nat.div_lt_iff_lt_mul hs).mpr hround)
      exact Nat.le_trans (Nat.mul_le_mul_right size (Nat.le_trans (Nat.min_le_left _ _) hquot)) hbounce
    · have hround : x < 2 * size := by
        rw [hx]
        unfold u32
        unfold bounceSize at *
        omega
      have hone : x / size ≤ 1 := Nat.le_of_lt_succ ((Nat.div_lt_iff_lt_mul hs).mpr hround)
      calc min (x / size) 2048 * size ≤ 1 * size :=
        Nat.mul_le_mul_right size (Nat.le_trans (Nat.min_le_left _ _) hone)
        _ ≤ bounceSize := by omega
  · rcases Nat.eq_zero_or_pos off with hzero | hpos
    · rw [hzero]
      exact Nat.zero_le _
    · -- a sector at least is read
      have hfull : size ≤ x := by
        have hwraps := h.wraps hpos
        rw [hx]
        unfold u32
        unfold bounceSize at hmax
        omega
      have hone : 1 ≤ min (x / size) 2048 := Nat.le_min.mpr ⟨Nat.div_pos hfull hs, by decide⟩
      calc off ≤ 1 * size := by omega
        _ ≤ min (x / size) 2048 * size := Nat.mul_le_mul_right size hone

/-- A pass of a read that fits copies what is left, or up to the end of a sector. -/
theorem toCopy_of_fits (h : ReadFits size off left) (hs : 0 < size) (hmax : size ≤ bounceSize)
    (ho : off < size)
    (hl : left < 4294967296) :
    off + toCopy size off left ≤ readLen size off left ∧ toCopy size off left ≤ left ∧
      (toCopy size off left = left ∨ (off + toCopy size off left) % size = 0) := by
  obtain ⟨n, hn, hle, hoff⟩ := readLen_of_fits h hs hmax ho hl
  have hcan : u32 ((readLen size off left : ℤ) - off) = n * size - off := by
    rw [hn]
    unfold u32
    unfold bounceSize at hle
    omega
  rw [toCopy, hcan, hn]
  split_ifs with hlt
  · exact ⟨by omega, Nat.le_refl _, .inl rfl⟩
  · refine ⟨by omega, by omega, .inr ?_⟩
    rw [Nat.add_sub_cancel' hoff, Nat.mul_mod_left]

/-- What is left after such a pass fits too. -/
theorem ReadFits.next (h : ReadFits size off left) (hs : 0 < size) (hmax : size ≤ bounceSize)
    (ho : off < size)
    (hl : left < 4294967296) {p : ℕ} (hp : p % size = off) :
    ReadFits size ((p + toCopy size off left) % size) (left - toCopy size off left) := by
  obtain ⟨hcopy, hle, hend⟩ := toCopy_of_fits h hs hmax ho hl
  have hquot : size ≤ bounceSize / size * size := by
    have hone : 1 ≤ bounceSize / size := Nat.div_pos hmax hs
    calc size = 1 * size := (Nat.one_mul size).symm
      _ ≤ bounceSize / size * size := Nat.mul_le_mul_right size hone
  rcases hend with hall | hsector
  · have hlt := Nat.mod_lt (p + toCopy size off left) hs
    rw [hall, Nat.sub_self] at *
    unfold bounceSize at hmax
    exact ⟨fun _ => .inl (by omega), .inr (.inl (by omega))⟩
  · have hzero : (p + toCopy size off left) % size = 0 := by
      rw [← hsector, ← hp, Nat.mod_add_mod]
    rw [hzero]
    refine ⟨fun h => absurd h (Nat.lt_irrefl 0), h.length.imp_right fun hlen => hlen.imp
      (fun hfew => by omega) ?_⟩
    intro hwraps
    have hread := readLen_le size off left
    unfold u32 at hread
    unfold bounceSize at hmax
    omega

end Reads

section Writes

variable {size off left : ℕ}

/-- The whole sectors of what is left of a write request, as many as a pass takes. -/
def wholeSectors (size off left : ℕ) : ℕ := min 2048 ((left - if off = 0 then 0 else size - off) / size)

/-- The most sectors that the request has in the cache at a time. -/
def cachePeak (g : Driver) (lba off left : ℕ) : ℕ :=
  let sectors := wholeSectors g.gSectorSize off left
  if off = 0 ∧ 0 < g.gCacheSectors ∧ lba = u64 (g.gCacheLba + g.gCacheSectors) ∧
      u32 (g.gCacheSectors + sectors) ≤ kMaxCacheSectors then g.gCacheSectors + sectors
  else sectors

/-- After part of a sector there are no more whole ones than before. -/
theorem wholeSectors_modify (ho : off < size) (hpart : ¬(off = 0 ∧ size ≤ left)) {p : ℕ}
    (hp : p % size = off) :
    wholeSectors size ((p + min (size - off) left) % size) (left - min (size - off) left) ≤
      wholeSectors size off left := by
  rcases Nat.le_total left (size - off) with hle | hle
  · rw [Nat.min_eq_right hle, Nat.sub_self, wholeSectors, Nat.zero_sub, Nat.zero_div]
    exact Nat.zero_le _
  · have hpos : off ≠ 0 := fun hzero => hpart ⟨hzero, by omega⟩
    have hend : (p + (size - off)) % size = 0 := by
      rw [← Nat.mod_add_mod, hp, Nat.add_sub_cancel' (Nat.le_of_lt ho), Nat.mod_self]
    rw [Nat.min_eq_left hle, hend, wholeSectors, wholeSectors, if_pos rfl, if_neg hpos]
    exact Nat.le_refl _

/-- A pass takes all whole sectors, or the most it can. -/
theorem wholeSectors_cache (hs : 0 < size) (left : ℕ) :
    wholeSectors size 0 left = 2048 ∨ wholeSectors size 0 (left - wholeSectors size 0 left * size) = 0 := by
  rw [wholeSectors, if_pos rfl, Nat.sub_zero]
  rcases Nat.le_total 2048 (left / size) with hle | hle
  · exact .inl (Nat.min_eq_left hle)
  · refine .inr ?_
    have hrest : (left - left / size * size) / size = 0 := by
      rw [← Nat.mod_eq_sub_div_mul]
      exact Nat.div_eq_of_lt (Nat.mod_lt left hs)
    rw [Nat.min_eq_right hle, wholeSectors, if_pos rfl, Nat.sub_zero, hrest]
    exact Nat.min_eq_right (Nat.zero_le _)

theorem wholeSectors_le (size off left : ℕ) : wholeSectors size off left ≤ 2048 := Nat.min_le_left _ _

theorem cachePeak_le (g : Driver) (lba off left : ℕ) :
    cachePeak g lba off left ≤ g.gCacheSectors + wholeSectors g.gSectorSize off left ∧
      (g.gCacheSectors ≤ 2048 → cachePeak g lba off left ≤ 2048) := by
  have hle := wholeSectors_le g.gSectorSize off left
  rw [cachePeak]
  split_ifs with h
  · refine ⟨Nat.le_refl _, fun hfill => ?_⟩
    have hadd := h.2.2.2
    rwa [u32_add (by omega)] at hadd
  · exact ⟨Nat.le_add_left _ _, fun _ => hle⟩

theorem wholeSectors_le_cachePeak (g : Driver) (lba off left : ℕ) :
    wholeSectors g.gSectorSize off left ≤ cachePeak g lba off left := by
  rw [cachePeak]
  split_ifs
  · exact Nat.le_add_left _ _
  · exact Nat.le_refl _

theorem cachePeak_empty {g : Driver} (h : g.gCacheSectors = 0) (lba off left : ℕ) :
    cachePeak g lba off left = wholeSectors g.gSectorSize off left := by
  rw [cachePeak, if_neg fun hadd => ?_]
  exact absurd h (Nat.ne_of_gt hadd.2.1)

end Writes

section Passes

variable {P : Platform δ} {l : List Access} {allocated size : ℕ} {w t : World δ}

/-- The accesses since `l` stayed inside the buffers. -/
def Within (l log : List Access) : Prop := ∃ as, log = l ++ as ∧ ∀ a ∈ as, a.Stays

theorem within_start (l : List Access) : Within l l :=
  ⟨[], (List.append_nil _).symm, fun _ h => absurd h List.not_mem_nil⟩

theorem within_nil {log : List Access} (h : ∀ a ∈ log, a.Stays) : Within [] log := ⟨log, rfl, h⟩

theorem Within.drop {log : List Access} (h : Within l log) : ∀ a ∈ log.drop l.length, a.Stays := by
  obtain ⟨as, rfl, hstay⟩ := h
  rw [List.drop_left]
  exact hstay

/-- One more access. -/
theorem Within.access {log : List Access} (h : Within l log) {a : Access} (ha : a.Stays) :
    Within l (log ++ [a]) := by
  obtain ⟨as, rfl, hstay⟩ := h
  refine ⟨as ++ [a], List.append_assoc _ _ _, fun b hb => ?_⟩
  rcases List.mem_append.mp hb with hb | hb
  · exact hstay b hb
  · rw [List.mem_singleton.mp hb]
    exact ha

/-- What is cached is inside the cache, and no access since `l` left its buffer. -/
structure Bounded (l : List Access) (w : World δ) : Prop where
  fill : w.drv.gCacheSectors ≤ kMaxCacheSectors
  backed : CacheBacked w
  inside : 0 < w.drv.gCacheSectors → w.drv.gCacheSectors * w.drv.gSectorSize ≤ w.drv.gWriteCacheSize
  stays : Within l w.accesses

theorem CacheEmpty.bounded (h : CacheEmpty w) (hl : Within l w.accesses) : Bounded l w := by
  refine ⟨?_, h.backed, fun hpos => absurd h (Nat.ne_of_gt hpos), hl⟩
  rw [show w.drv.gCacheSectors = 0 from h]
  exact Nat.zero_le _

/-- The bytes of the write cache: of the one that is there, or of the one that a request allocates
with `malloc(K_MAX_CACHE_SECTORS * g_sector_size)`. -/
def Driver.allocation (g : Driver) : ℕ :=
  if g.gWriteCache.isSome then g.gWriteCacheSize else u32 (kMaxCacheSectors * g.gSectorSize)

/-- What a request keeps. -/
structure Measured (l : List Access) (size allocated : ℕ) (w : World δ) : Prop where
  bounded : Bounded l w
  sectorSize : w.drv.gSectorSize = size
  allocation : w.drv.allocation = allocated

theorem measured_command (c : Cmd) (data : Buf) :
    Keeps (Measured l size allocated) (scsiCommand P c data) := by
  intro w hw
  refine wp_state (wp_mono (wp_scsiCommand_logs c data) (fun _ t ht => ?_) fun _ h => h.elim)
  obtain ⟨u, b, hdrv⟩ := ht.drv
  refine ⟨⟨?_, ?_, ?_, ht.accesses.symm ▸ hw.bounded.stays⟩, ?_, ?_⟩
  · rw [hdrv]
    exact hw.bounded.fill
  · rw [CacheBacked, hdrv]
    exact hw.bounded.backed
  · rw [hdrv]
    exact hw.bounded.inside
  · rw [hdrv]
    exact hw.sectorSize
  · rw [hdrv]
    exact hw.allocation

/-- The same with nothing cached. -/
structure Emptied (l : List Access) (size allocated : ℕ) (w : World δ) : Prop where
  empty : CacheEmpty w
  stays : Within l w.accesses
  sectorSize : w.drv.gSectorSize = size
  allocation : w.drv.allocation = allocated

theorem Emptied.measured (h : Emptied l size allocated w) : Measured l size allocated w :=
  ⟨h.empty.bounded h.stays, h.sectorSize, h.allocation⟩

theorem wp_scsiCommand_emptied (hw : Emptied l size allocated w) (c : Cmd) (data : Buf) :
    Prog.wp (scsiCommand P c data) (fun _ t => Emptied l size allocated t) (fun _ => False) w := by
  refine wp_mono (wp_scsiCommand_logs c data) (fun _ t ht => ?_) fun _ h => h
  obtain ⟨u, b, hdrv⟩ := ht.drv
  constructor
  · rw [CacheEmpty, hdrv]
    exact hw.empty
  · exact ht.accesses.symm ▸ hw.stays
  · rw [hdrv]
    exact hw.sectorSize
  · rw [hdrv]
    exact hw.allocation

/-- A flush sends the filled part of the cache, and leaves nothing cached. -/
theorem wp_flush_emptied (h : Measured l size allocated w) :
    Prog.wp (scsiFlushCacheInternal P) (fun _ t => Emptied l size allocated t) (fun _ => False) w := by
  rw [scsiFlushCacheInternal, wp_bind, wp_globals]
  cases hcache : w.drv.gWriteCache with
  | none =>
    refine ⟨Nat.eq_zero_of_not_pos fun hpos => ?_, h.bounded.stays, h.sectorSize, h.allocation⟩
    have hsome := h.bounded.backed hpos
    rw [hcache] at hsome
    exact absurd hsome (by decide)
  | some cache =>
    refine wp_ite (fun hzero => ⟨hzero, h.bounded.stays, h.sectorSize, h.allocation⟩) fun hne => ?_
    rw [wp_bind, wp_writeCache, write10, wp_bind]
    refine wp_mono (wp_scsiCommand_logs _ cache) (fun _ t ht => ?_) fun _ h => h
    obtain ⟨u, b, hdrv⟩ := ht.drv
    rw [wp_pure, wp_bind, wp_assign]
    have hthere : t.drv.gWriteCacheSize = w.drv.gWriteCacheSize := by rw [hdrv]
    have hsent : Access.Stays
        ⟨.gWriteCache, 0, u32 (w.drv.gCacheSectors * w.drv.gSectorSize), t.drv.gWriteCacheSize⟩ := by
      have hlen := (u32_left (w.drv.gCacheSectors * w.drv.gSectorSize)).1
      rw [Int.natCast_mul] at hlen
      refine .inr ?_
      rw [Nat.zero_add, hthere]
      exact Nat.le_trans hlen (h.bounded.inside (Nat.pos_of_ne_zero hne))
    refine ⟨rfl, (ht.accesses.symm ▸ h.bounded.stays).access hsent, ?_, ?_⟩
    · show t.drv.gSectorSize = size
      rw [hdrv]
      exact h.sectorSize
    · show t.drv.allocation = allocated
      rw [hdrv]
      exact h.allocation

/-- The READ(10) of a request that fits, and what is copied from it, stay inside the bounce buffer. -/
theorem wp_readPass_emptied (h : Measured l size allocated w) (hs : 0 < size) (hmax : size ≤ bounceSize)
    {off left : ℕ}
    (ho : off < size) (hl : left < 4294967296) (hfits : ReadFits size off left) (buf : Buf)
    (totalDone lba : ℕ) :
    Prog.wp (readPass P buf totalDone lba off left)
      (fun r t => Emptied l size allocated t ∧ ∀ q, r = some q → q.1 = toCopy size off left)
        (fun _ => False) w := by
  obtain ⟨n, hn, hle, -⟩ := readLen_of_fits hfits hs hmax ho hl
  obtain ⟨hcopy, -, -⟩ := toCopy_of_fits hfits hs hmax ho hl
  have hread : Access.Stays ⟨.gBounceBuffer, 0, readLen size off left, bounceSize⟩ := by
    refine .inr ?_
    rw [Nat.zero_add, hn]
    exact hle
  have hcopied : Access.Stays ⟨.gBounceBuffer, off, toCopy size off left, bounceSize⟩ :=
    .inr (Nat.le_trans hcopy (hn ▸ hle))
  rw [readPass, wp_bind]
  refine wp_mono (wp_flush_emptied h) (fun _ t ht => ?_) fun _ h => h
  rw [wp_bind, wp_globals, ht.sectorSize, wp_bind, wp_readBounce, read10]
  refine wp_mono (wp_scsiCommand_emptied ht _ _) (fun r u hu => ?_) fun _ h => h
  refine wp_ite (fun _ => ⟨?_, fun _ h => absurd h.symm (Option.some_ne_none _)⟩) fun _ => ?_
  · exact ⟨hu.empty, hu.stays.access hread, hu.sectorSize, hu.allocation⟩
  · rw [wp_bind, wp_copyFromBounce]
    refine ⟨⟨hu.empty, (hu.stays.access hread).access hcopied, hu.sectorSize, hu.allocation⟩, ?_⟩
    exact fun _ h => (Option.some.inj h) ▸ rfl

/-- What is read, changed in it and written is one sector of the bounce buffer. -/
theorem wp_modifyPass_emptied (h : Measured l size allocated w) (hmax : size ≤ bounceSize) {off : ℕ}
    (ho : off < size)
    (buf : Buf) (totalDone lba left : ℕ) :
    Prog.wp (modifyPass P buf totalDone lba off left)
      (fun r t => Emptied l size allocated t ∧ ∀ q, r = some q → q.1 = min (size - off) left)
        (fun _ => False) w := by
  have hrest : u32 ((size : ℤ) - off) = size - off := by
    unfold bounceSize at hmax
    unfold u32
    omega
  have hlen : (if u32 ((size : ℤ) - off) < left then u32 ((size : ℤ) - off) else left) =
      min (size - off) left := by
    rw [hrest]
    split_ifs <;> omega
  have hsector : Access.Stays ⟨.gBounceBuffer, 0, size, bounceSize⟩ := .inr (by rwa [Nat.zero_add])
  have hchange : Access.Stays ⟨.gBounceBuffer, off, min (size - off) left, bounceSize⟩ :=
    .inr (show off + min (size - off) left ≤ bounceSize by omega)
  rw [modifyPass, wp_bind]
  refine wp_mono (wp_flush_emptied h) (fun _ t ht => ?_) fun _ h => h
  rw [wp_bind, wp_globals, ht.sectorSize]
  dsimp only
  rw [hlen, wp_bind, wp_readBounce, read10]
  refine wp_mono (wp_scsiCommand_emptied ht _ _) (fun r u hu => ?_) fun _ h => h
  have hread := hu.stays.access hsector
  refine wp_ite (fun _ => ⟨?_, fun _ h => absurd h.symm (Option.some_ne_none _)⟩) fun _ => ?_
  · exact ⟨hu.empty, hread, hu.sectorSize, hu.allocation⟩
  rw [wp_bind, wp_copyToBounce, wp_bind, wp_writeBounce, write10, wp_bind]
  have hcopied : Emptied l size allocated { u with
      drv := { u.drv with gBounceBuffer := splice r.2 off (window buf totalDone) (min (size - off) left) }
      accesses := u.accesses ++ [⟨.gBounceBuffer, 0, size, bounceSize⟩] ++
        [⟨.gBounceBuffer, off, min (size - off) left, bounceSize⟩] } :=
    ⟨hu.empty, hread.access hchange, hu.sectorSize, hu.allocation⟩
  refine wp_mono (wp_scsiCommand_emptied hcopied _ _) (fun _ v hv => ?_) fun _ h => h
  have hwritten := hv.stays.access hsector
  refine wp_ite (fun _ => ⟨?_, fun _ h => absurd h.symm (Option.some_ne_none _)⟩) fun _ => ⟨?_, fun _ h => ?_⟩
  · exact ⟨hv.empty, hwritten, hv.sectorSize, hv.allocation⟩
  · exact ⟨hv.empty, hwritten, hv.sectorSize, hv.allocation⟩
  · exact (Option.some.inj h) ▸ rfl

/-- The cache that is there has the size that it was, or would have been, allocated with. -/
theorem wp_allocateCache_emptied (h : Emptied l size allocated w) :
    Prog.wp (allocateCache P) (fun a t => Emptied l size allocated t ∧ (a = true → t.drv.gWriteCache.isSome))
      (fun _ => False) w := by
  rw [allocateCache, wp_bind, wp_globals]
  refine wp_ite (fun hsome => ⟨h, fun _ => hsome⟩) fun hnone => ?_
  rw [wp_bind, wp_malloc]
  refine wp_ite (fun _ => ⟨⟨h.empty, h.stays, h.sectorSize, h.allocation⟩, fun h => absurd h (by decide)⟩)
    fun _ => ?_
  refine ⟨⟨h.empty, h.stays, h.sectorSize, ?_⟩, fun _ => rfl⟩
  have hsize := h.allocation
  rwa [Driver.allocation, if_neg hnone] at hsize

theorem allocation_of_isSome {g : Driver} (h : g.gWriteCache.isSome) :
    g.allocation = g.gWriteCacheSize := if_pos h

/-- What a pass leaves behind that puts whole sectors into the cache. -/
structure Taken (l : List Access) (size allocated peak len : ℕ) (r : Option (ℕ × Buf))
    (t : World δ) : Prop where
  measured : Measured l size allocated t
  taken : ∀ q, r = some q → q.1 = len ∧ t.drv.gCacheSectors = peak

/-- A piece put into the cache that is there. -/
theorem taken_put (hsome : w.drv.gWriteCache.isSome) (hsize : w.drv.allocation = allocated)
    (hs : w.drv.gSectorSize = size) (hstays : Within l w.accesses) {start len n : ℕ} (src buf : Buf)
    (hpiece : start + len ≤ allocated) (hfew : n ≤ kMaxCacheSectors) (hfits : n * size ≤ allocated) :
    Taken l size allocated n len (some (len, buf)) { w with
      drv := { w.drv with
        gWriteCache := w.drv.gWriteCache.map fun cache => splice cache start src len, gCacheSectors := n }
      accesses := w.accesses ++ [⟨.gWriteCache, start, len, w.drv.gWriteCacheSize⟩] } := by
  rw [allocation_of_isSome hsome] at hsize
  have hsome' : (w.drv.gWriteCache.map fun cache => splice cache start src len).isSome := by
    rw [Option.isSome_map]
    exact hsome
  have hpiece' : Access.Stays ⟨.gWriteCache, start, len, w.drv.gWriteCacheSize⟩ :=
    .inr (hsize.symm ▸ hpiece)
  refine ⟨⟨⟨hfew, fun _ => hsome', fun _ => ?_, hstays.access hpiece'⟩, hs, ?_⟩, fun _ hq => ?_⟩
  · show n * w.drv.gSectorSize ≤ w.drv.gWriteCacheSize
    rw [hs, hsize]
    exact hfits
  · exact (allocation_of_isSome hsome').trans hsize
  · rw [← Option.some.inj hq]
    exact ⟨rfl, rfl⟩

theorem wp_cachePass_taken (h : Measured l size allocated w) (hmax : size ≤ bounceSize) (buf : Buf)
    (totalDone lba left : ℕ) (hpeak : cachePeak w.drv lba 0 left * size ≤ allocated) :
    Prog.wp (cachePass P buf totalDone lba left)
      (Taken l size allocated (cachePeak w.drv lba 0 left) (wholeSectors size 0 left * size))
        (fun _ => False) w := by
  have hcap : (if left / size > 2048 then 2048 else left / size) = wholeSectors size 0 left := by
    rw [wholeSectors, if_pos rfl, Nat.sub_zero]
    split_ifs <;> omega
  have hfew := wholeSectors_le size 0 left
  have hbytes : wholeSectors size 0 left * size ≤ 2048 * bounceSize := Nat.mul_le_mul hfew hmax
  have hlen : u32 ((wholeSectors size 0 left : ℤ) * size) = wholeSectors size 0 left * size := by
    unfold bounceSize at hbytes
    exact u32_mul (by omega)
  have hfill : w.drv.gCacheSectors ≤ 2048 := h.bounded.fill
  have hs := h.sectorSize
  rw [cachePass, wp_bind, wp_globals, hs]
  dsimp only
  rw [hcap, hlen]
  rw [cachePeak, hs] at hpeak
  rw [cachePeak, hs]
  refine wp_ite (fun hadd => ?_) fun hnot => ?_
  · -- the piece goes behind what is cached
    rw [if_pos ⟨rfl, hadd⟩] at hpeak ⊢
    have hsum : u32 ((w.drv.gCacheSectors : ℤ) + wholeSectors size 0 left) =
        w.drv.gCacheSectors + wholeSectors size 0 left :=
      u32_add (by omega)
    have hstart : u32 ((w.drv.gCacheSectors : ℤ) * size) ≤ w.drv.gCacheSectors * size := by
      rw [← Int.natCast_mul]
      exact (u32_left _).1
    have hpiece : u32 ((w.drv.gCacheSectors : ℤ) * size) + wholeSectors size 0 left * size ≤ allocated := by
      rw [Nat.add_mul] at hpeak
      exact Nat.le_trans (Nat.add_le_add_right hstart _) hpeak
    rw [← hsum] at hpeak ⊢
    rw [wp_bind, wp_copyToCache, wp_bind, wp_assign]
    exact taken_put (h.bounded.backed hadd.1) h.allocation hs h.bounded.stays _ buf hpiece hadd.2.2 hpeak
  · -- the piece starts a new run
    rw [if_neg fun hadd => hnot hadd.2] at hpeak ⊢
    rw [wp_bind]
    refine wp_mono (wp_flush_emptied h) (fun _ t ht => ?_) fun _ h => h
    rw [wp_bind]
    refine wp_mono (wp_allocateCache_emptied ht) (fun a u hu => ?_) fun _ h => h
    obtain ⟨hempty, hsome⟩ := hu
    refine wp_ite (fun _ => ⟨hempty.measured, fun _ h => absurd h.symm (Option.some_ne_none _)⟩)
      fun hyes => ?_
    rw [wp_bind, wp_assign, wp_bind, wp_copyToCache, wp_bind, wp_assign]
    exact taken_put (w := { u with drv := { u.drv with gCacheLba := lba } })
      (hsome (eq_true_of_ne_false hyes)) hempty.allocation hempty.sectorSize hempty.stays _ buf
      (by rwa [Nat.zero_add]) hfew hpeak

end Passes

section Requests

variable {P : Platform δ} {l : List Access} {allocated size start : ℕ} {isWrite : Bool} {count : ℤ}

/-- The process at the start of a pass: what is left fits. -/
structure PassFits (l : List Access) (size allocated start : ℕ) (isWrite : Bool) (count : ℤ) (i : ℕ × Buf)
    (w : World δ) : Prop where
  measured : Measured l size allocated w
  read : isWrite = false → ReadFits size ((start + i.1) % size) (u32 (count - i.1))
  write : isWrite = true →
    cachePeak w.drv (u32 ((start + i.1) / size : ℕ)) ((start + i.1) % size) (u32 (count - i.1)) *
      size ≤ allocated

theorem u32_left_sub {done n : ℕ} (h : n ≤ u32 (count - done)) :
    u32 (count - (done + n : ℕ)) = u32 (count - done) - n := by
  unfold u32 at h ⊢
  omega

/-- Where the pass starts. -/
theorem u32_place (hs : 0 < size) (hmax : size ≤ bounceSize) (p : ℕ) :
    u32 (Int.tdiv p size) = u32 (p / size : ℕ) ∧ u32 (Int.tmod p size) = p % size := by
  have hlt := Nat.mod_lt p hs
  unfold bounceSize at hmax
  rw [← Int.ofNat_tdiv, ← Int.ofNat_tmod, u32_of_lt (x := p % size) (by omega)]
  exact ⟨rfl, rfl⟩

theorem PassFits.safe {i : ℕ × Buf} {w : World δ} (h : PassFits l size allocated start isWrite count i w)
    (hs : 0 < size) :
    PassSafe count i w :=
  ⟨h.measured.bounded.fill, fun _ => h.measured.sectorSize.symm ▸ hs⟩

/-- A pass of a request that fits leaves a request that fits, or none. -/
theorem wp_ioPass_fits {done : ℕ} {buf : Buf} {w : World δ}
    (h : PassFits l size allocated start isWrite count (done, buf) w) (hs : 0 < size)
    (hmax : size ≤ bounceSize) :
    Prog.wp (ioPass P isWrite count start buf done)
      (fun r t => Measured l size allocated t ∧
        ∀ q, r = some q → PassFits l size allocated start isWrite count (done + q.1, q.2) t)
          (fun _ => False) w := by
  obtain ⟨hlba, hoff⟩ := u32_place hs hmax (start + done)
  have ho : (start + done) % size < size := Nat.mod_lt _ hs
  have hmeasured := h.measured
  rw [ioPass, wp_bind, wp_globals, hmeasured.sectorSize, ← Int.natCast_add, hlba, hoff]
  obtain ⟨left, hleft⟩ : ∃ left, left = u32 (count - done) := ⟨_, rfl⟩
  have hnext {n : ℕ} (hn : n ≤ left) : u32 (count - (done + n : ℕ)) = left - n := by
    rw [hleft] at hn ⊢
    exact u32_left_sub hn
  rw [← hleft]
  cases isWrite with
  | false =>
    have hfits : ReadFits size ((start + done) % size) left := hleft ▸ h.read rfl
    have hl : left < 4294967296 := hleft ▸ u32_lt _
    obtain ⟨-, hle, -⟩ := toCopy_of_fits hfits hs hmax ho hl
    refine wp_ite (fun _ => ?_) fun hne => absurd rfl hne
    refine wp_mono (wp_readPass_emptied hmeasured hs hmax ho hl hfits _ _ _) (fun r t ht => ?_) fun _ h => h
    obtain ⟨hempty, hdone⟩ := ht
    refine ⟨hempty.measured, fun q hq => ⟨hempty.measured, fun _ => ?_, fun h => absurd h (by decide)⟩⟩
    show ReadFits size ((start + (done + q.1)) % size) (u32 (count - (done + q.1 : ℕ)))
    rw [hdone q hq, hnext hle, ← Nat.add_assoc]
    exact hfits.next hs hmax ho hl rfl
  | true =>
    have hpeak := h.write rfl
    rw [← hleft] at hpeak
    refine wp_ite (fun h => absurd h (by decide)) fun _ => wp_ite (fun hwhole => ?_) fun hpart => ?_
    · rw [hwhole.1] at hpeak
      refine wp_mono (wp_cachePass_taken hmeasured hmax _ _ _ _ hpeak) (fun r t ht => ?_) fun _ h => h
      refine ⟨ht.measured, fun q hq => ⟨ht.measured, fun h => absurd h (by decide), fun _ => ?_⟩⟩
      obtain ⟨hlen, hfill⟩ := ht.taken q hq
      have htaken : wholeSectors size 0 left * size ≤ left := by
        rw [wholeSectors, if_pos rfl, Nat.sub_zero]
        exact Nat.le_trans (Nat.mul_le_mul_right size (Nat.min_le_right _ _)) (Nat.div_mul_le_self left size)
      have hend : (start + (done + q.1)) % size = 0 := by
        rw [hlen, ← Nat.add_assoc, Nat.add_mul_mod_self_right, hwhole.1]
      have hrest : u32 (count - (done + q.1 : ℕ)) = left - wholeSectors size 0 left * size := by
        rw [hlen]
        exact hnext htaken
      show cachePeak t.drv _ ((start + (done + q.1)) % size) (u32 (count - (done + q.1 : ℕ))) *
        size ≤ allocated
      rw [hend, hrest]
      have hlow := wholeSectors_le_cachePeak w.drv (u32 ((start + done) / size : ℕ)) 0 left
      obtain ⟨hsum, hmost⟩ := cachePeak_le t.drv (u32 ((start + (done + q.1)) / size : ℕ)) 0
        (left - wholeSectors size 0 left * size)
      rw [hmeasured.sectorSize] at hlow
      rw [ht.measured.sectorSize, hfill] at hsum
      refine Nat.le_trans (Nat.mul_le_mul_right size ?_) hpeak
      rcases wholeSectors_cache hs left with hfull | hnone
      · exact Nat.le_trans (hmost ht.measured.bounded.fill) (hfull ▸ hlow)
      · rw [hnone] at hsum
        exact hsum
    · refine wp_mono (wp_modifyPass_emptied hmeasured hmax ho _ _ _ _) (fun r t ht => ?_) fun _ h => h
      obtain ⟨hempty, hdone⟩ := ht
      refine ⟨hempty.measured, fun q hq => ⟨hempty.measured, fun h => absurd h (by decide), fun _ => ?_⟩⟩
      have hlow := wholeSectors_le_cachePeak w.drv (u32 ((start + done) / size : ℕ))
        ((start + done) % size) left
      rw [hmeasured.sectorSize] at hlow
      show cachePeak t.drv _ ((start + (done + q.1)) % size) (u32 (count - (done + q.1 : ℕ))) *
        size ≤ allocated
      rw [cachePeak_empty hempty.empty, hempty.sectorSize, hdone q hq, hnext (Nat.min_le_right _ _),
        ← Nat.add_assoc]
      refine Nat.le_trans (Nat.mul_le_mul_right size ?_) hpeak
      exact Nat.le_trans (wholeSectors_modify ho hpart rfl) hlow

end Requests

section Sessions

variable {P : Platform δ} {fuel : ℕ} {l : List Access}

/-- What a request needs to stay inside the buffers: sectors that fit into the bounce buffer, reads no longer
than it, and writes that do not fill the cache beyond its allocation. -/
structure Driver.Holds (g : Driver) (r : Request) : Prop where
  divisor : 0 < g.gSectorSize
  sector : g.gSectorSize ≤ bounceSize
  place : 0 ≤ r.actualOffset g
  read : r.isWrite = false → ReadFits g.gSectorSize ((r.actualOffset g).toNat % g.gSectorSize) (u32 r.count)
  write : r.isWrite = true →
    cachePeak g (u32 ((r.actualOffset g).toNat / g.gSectorSize : ℕ))
      ((r.actualOffset g).toNat % g.gSectorSize)
      (u32 r.count) * g.gSectorSize ≤ g.allocation

/-- Every request but an empty one is held by the buffers. -/
def DriverStep.Fits (w : World δ) : DriverStep δ → Prop
  | call (.io r) => r.count ≤ 0 ∨ w.drv.Holds r
  | _ => True

/-- The loop of a request, where every pass fits. -/
theorem io_bounded {w : World δ} (h : Bounded l w) {r : Request} (hr : r.count ≤ 0 ∨ w.drv.Holds r) :
    (DriverStep.call (.io r)).PassesSafely P fuel w ∧ Measured l w.drv.gSectorSize w.drv.allocation
      (scsiIoInternal P fuel r.buf r.count r.offset r.isWrite w).2 := by
  obtain ⟨v, hv⟩ : ∃ v : World δ, v = { w with requests := w.requests ++ [r] } := ⟨_, rfl⟩
  have hmeasured : Measured l w.drv.gSectorSize w.drv.allocation v := by
    rw [hv]
    exact ⟨⟨h.fill, h.backed, h.inside, h.stays⟩, rfl, rfl⟩
  obtain ⟨actual, hactual⟩ : ∃ actual, actual = r.actualOffset w.drv := ⟨_, rfl⟩
  have hrun : (scsiIoInternal P fuel r.buf r.count r.offset r.isWrite w).2 =
      (Prog.loop (ioLoop P r.isWrite r.count actual) fuel (0, r.buf) v).2 := by
    rw [hv, hactual]
    rfl
  rw [hrun]
  change Passes (ioLoop P r.isWrite r.count (r.actualOffset w.drv)) (PassSafe r.count) fuel (0, r.buf) _ ∧ _
  rw [← hactual, ← hv]
  rcases hr with hnone | hr
  · -- the loop is left at once
    have hstop : ioLoop P r.isWrite r.count actual (0, r.buf) = pure (.inr ((0 : ℕ), r.buf)) := by
      rw [ioLoop, if_neg (show ¬((0 : ℕ) : ℤ) < r.count from Int.not_lt.mpr hnone)]
    constructor
    · refine passes_of_invariant (I := fun i t => t.drv.gCacheSectors ≤ kMaxCacheSectors ∧ r.count ≤ i.1)
        ?_ fuel
        ⟨hmeasured.bounded.fill, hnone⟩
      rintro ⟨done, buf⟩ t ⟨ht, hdone⟩
      have hover : ¬(done : ℤ) < r.count := Int.not_lt.mpr hdone
      refine ⟨⟨ht, fun h => absurd h hover⟩, ?_⟩
      rw [ioLoop, if_neg hover]
      trivial
    · cases fuel with
      | zero => exact hmeasured
      | succ fuel =>
        rw [loop, bind_of_returns (m := ioLoop P r.isWrite r.count actual (0, r.buf)) (by rw [hstop]; rfl)]
        exact hmeasured
  · obtain ⟨start, hstart⟩ := Int.eq_ofNat_of_zero_le hr.place
    have hs := hr.divisor
    have hmax := hr.sector
    have hread := hr.read
    have hwrite := hr.write
    rw [hstart, Int.toNat_natCast] at hread hwrite
    rw [← hactual] at hstart
    have hfits : PassFits l w.drv.gSectorSize w.drv.allocation start r.isWrite r.count (0, r.buf) v := by
      refine ⟨hmeasured, fun h => ?_, fun h => ?_⟩
      · rw [Nat.add_zero, Int.natCast_zero, Int.sub_zero]
        exact hread h
      · rw [Nat.add_zero, Int.natCast_zero, Int.sub_zero, hv]
        exact hwrite h
    have hpass (i : ℕ × Buf) (t : World δ)
        (ht : PassFits l w.drv.gSectorSize w.drv.allocation start r.isWrite r.count i t) :
        Prog.wp (ioLoop P r.isWrite r.count start i) (fun o u => o.elim
          (fun k => PassFits l w.drv.gSectorSize w.drv.allocation start r.isWrite r.count k u)
          fun _ => Measured l w.drv.gSectorSize w.drv.allocation u)
          (Measured l w.drv.gSectorSize w.drv.allocation) t := by
      obtain ⟨done, buf⟩ := i
      rw [ioLoop]
      refine wp_ite (fun _ => ?_) fun _ => ht.measured
      rw [wp_bind]
      refine wp_mono (wp_ioPass_fits ht hs hmax) (fun o u hu => ?_) fun _ h => h.elim
      cases o with
      | none => exact hu.1
      | some q => exact hu.2 q rfl
    rw [hstart]
    constructor
    · refine passes_of_invariant
        (fun i t ht => ⟨ht.safe hs, wp_mono (hpass i t ht) ?_ fun _ _ => trivial⟩) fuel hfits
      rintro (k | a) u hu
      · exact hu
      · trivial
    · refine wp_state (wp_loop (PassFits l w.drv.gSectorSize w.drv.allocation start r.isWrite r.count)
        (fun _ _ h => h.measured) (fun i t ht => wp_mono (hpass i t ht) ?_ fun _ h => h) fuel _ hfits)
      rintro (k | a) u hu
      · exact hu
      · exact hu

/-- The direct calls leave the cache alone. -/
theorem measured_direct (l : List Access) (size allocated : ℕ) : Direct P (Measured l size allocated) where
  write _ _ _ _ _ := (measured_command _ _).bind fun _ => keeps_pure _
  readMbr := measured_command _ _
  syncCache := (measured_command _ _).bind fun _ => keeps_pure _
  flush _ hw := wp_state (wp_mono (wp_flush_emptied hw) (fun _ _ h => h.measured) fun _ h => h.elim)
  malloc _ hw := ⟨⟨hw.bounded.fill, hw.bounded.backed, hw.bounded.inside, hw.bounded.stays⟩, hw.sectorSize,
    hw.allocation⟩
  rand _ hw := ⟨⟨hw.bounded.fill, hw.bounded.backed, hw.bounded.inside, hw.bounded.stays⟩, hw.sectorSize,
    hw.allocation⟩

theorem Direct.run {I : World δ → Prop} (hI : Direct P I) (c : DirectCall) : Keeps I (c.run P) := by
  cases c with
  | wipeMbr => exact hI.usbScsiWipeMbr
  | wipeTail => exact hI.usbScsiWipeTail
  | writeMbr part type => exact hI.usbScsiWriteMbr part type
  | writeGpt part fsType => exact hI.usbScsiWriteGpt part fsType
  | updateMbrType type => exact hI.updateMbrType type

theorem Bounded.measured {w : World δ} (h : Bounded l w) : Measured l w.drv.gSectorSize w.drv.allocation w :=
  ⟨h, rfl, rfl⟩

theorem Bounded.restart {w : World δ} (h : Bounded l w) : Bounded w.accesses w :=
  ⟨h.fill, h.backed, h.inside, within_start _⟩

/-- A call that fits stays inside the buffers, and leaves what is cached inside the cache. -/
theorem call_bounded (P : Platform δ) (fuel : ℕ) {w : World δ} (h : Bounded l w) {c : DriverCall}
    (hc : (DriverStep.call c).Fits w) :
    (DriverStep.call c).PassesSafely P fuel w ∧ Bounded l (c.run P fuel w) := by
  cases c with
  | window sectors => exact ⟨trivial, h.fill, h.backed, h.inside, h.stays⟩
  | direct c => exact ⟨trivial, ((measured_direct l _ _).run c w h.measured).bounded⟩
  | io r =>
    obtain ⟨hsafe, hnext⟩ := io_bounded h hc
    exact ⟨hsafe, hnext.bounded⟩
  | sync => exact ⟨trivial, ((measured_direct l _ _).usbScsiSync w h.measured).bounded⟩

theorem call_safe {w : World δ} (h : Bounded l w) {c : DriverCall} (hc : (DriverStep.call c).Fits w) :
    (DriverStep.call c).Safe P fuel w := by
  obtain ⟨hsafe, hnext⟩ := call_bounded P fuel h.restart hc
  exact ⟨h.fill, hsafe, hnext.stays.drop⟩

theorem calls_safe {w : World δ} (h : Bounded l w) {cs : List DriverCall}
    (hcs : Along (DriverStep.run P fuel) DriverStep.Fits w (cs.map .call)) :
    Along (DriverStep.run P fuel) (DriverStep.Safe P fuel) w (cs.map .call) ∧
      Bounded l ((cs.map .call).foldl (DriverStep.run P fuel) w) := by
  induction cs generalizing w with
  | nil => exact ⟨trivial, h⟩
  | cons c cs ih =>
    obtain ⟨hrest, hend⟩ := ih (call_bounded P fuel h hcs.1).2 hcs.2
    exact ⟨⟨call_safe h hcs.1, hrest⟩, hend⟩

/-- The sync at the end leaves nothing cached. -/
theorem sync_empty {w : World δ} (h : CacheBacked w) : CacheEmpty (usbScsiSync P w).2 := by
  have hsync : Keeps CacheEmpty (syncCache P) := (cacheEmpty_command _ _).bind fun _ => keeps_pure _
  refine wp_state ?_
  rw [usbScsiSync, wp_bind]
  exact wp_mono (wp_flush_empty h) (fun _ t ht => hsync.wp ht) fun _ h => h.elim

/-- A stick is opened with nothing cached, and without an access. -/
theorem opens_within (l : List Access) : Opens P (fun w => CacheEmpty w ∧ Within l w.accesses) where
  command c data := by
    rintro w ⟨hempty, hl⟩
    refine ⟨cacheEmpty_command c data w hempty, ?_⟩
    exact wp_state (wp_mono (wp_scsiCommand_logs c data) (fun _ t ht => ht.accesses.symm ▸ hl)
      fun _ h => h.elim)
  wrapSysDevice _ _ hw := hw
  activeConfig _ _ hw := hw
  assign _ hf w hw := ⟨(hf w.drv).2.1.trans hw.1, hw.2⟩

/-- A session starts and ends with nothing cached. -/
theorem session_safe {w : World δ} (h : CacheEmpty w) {x : DriverSession δ}
    (hx : Along (DriverStep.run P fuel) DriverStep.Fits w x.steps) :
    Along (DriverStep.run P fuel) (DriverStep.Safe P fuel) w x.steps ∧
      CacheEmpty (x.steps.foldl (DriverStep.run P fuel) w) := by
  obtain ⟨t, ht⟩ : ∃ t, t = DriverStep.run P fuel w (.plug x.dev x.handle) := ⟨_, rfl⟩
  have hplugged : CacheEmpty t ∧ Within w.accesses t.accesses := by
    rw [ht]
    exact (opens_within (P := P) w.accesses).usbScsiInit x.handle { w with dev := x.dev } ⟨h, within_start _⟩
  obtain ⟨-, hcalls⟩ := hx
  rw [← ht] at hcalls
  obtain ⟨hsafe, hend⟩ := calls_safe (hplugged.1.bounded (within_start _)) hcalls.left
  obtain ⟨u, hu⟩ : ∃ u, u = (x.calls.map .call).foldl (DriverStep.run P fuel) t := ⟨_, rfl⟩
  rw [← hu] at hend
  have hsync : Along (DriverStep.run P fuel) (DriverStep.Safe P fuel) u [.call .sync] :=
    ⟨call_safe hend trivial, trivial⟩
  constructor
  · refine ⟨⟨(h.bounded (within_start _)).fill, trivial, ?_⟩, ?_⟩
    · rw [← ht]
      exact hplugged.2.drop
    · rw [← ht]
      exact hsafe.append (hu ▸ hsync)
  · rw [DriverSession.steps, List.foldl_cons, ← ht, List.foldl_append, ← hu]
    exact sync_empty hend.backed

/-- In every sequence of sessions whose requests the buffers hold, no step overruns a buffer. -/
theorem buffers_bounded {xs : List (DriverSession δ)} {dev : δ}
    (hxs : Along (DriverStep.run P fuel) DriverStep.Fits (loaded dev) (xs.flatMap DriverSession.steps)) :
    Along (DriverStep.run P fuel) (DriverStep.Safe P fuel) (loaded dev) (xs.flatMap DriverSession.steps) := by
  have hstart : CacheEmpty (loaded dev) := rfl
  generalize loaded dev = w at hxs hstart ⊢
  induction xs generalizing w with
  | nil => trivial
  | cons x xs ih =>
    rw [List.flatMap_cons] at hxs ⊢
    obtain ⟨hsafe, hempty⟩ := session_safe hstart hxs.left
    exact hsafe.append (ih _ hxs.right hempty)

end Sessions

/-- A session on the stick that loses nothing: eight sectors are written and one is read. -/
def heldSession : DriverSession Stick :=
  ⟨soundSession.dev, 0, [.io ⟨zeros, 4096, 0, true⟩, .io ⟨zeros, 512, 0, false⟩]⟩

theorem buffers_bounded_sound :
    Along (DriverStep.run stick 2) (DriverStep.Safe stick 2) (loaded soundSession.dev)
      ([heldSession].flatMap DriverSession.steps) := by
  refine buffers_bounded ⟨trivial, .inr ?_, .inr ?_, trivial, trivial⟩
  · exact ⟨by decide +kernel, by decide +kernel, by decide +kernel, fun h => absurd h (by decide),
      fun _ => by decide +kernel⟩
  · refine ⟨by decide +kernel, by decide +kernel, by decide +kernel, fun _ => ⟨?_, .inl (by decide +kernel)⟩,
      fun h => absurd h (by decide)⟩
    exact fun _ => .inl (by decide +kernel)

/-- The same stick with sectors of 4096 bytes. -/
def wideStick : Stick := { soundSession.dev with spec := { soundSession.dev.spec with blockSize := 4096 } }

/-- A read of 2 MB takes 512 of these sectors into a buffer of 1 MB. -/
theorem buffers_overrun :
    ¬∀ xs : List (DriverSession Stick),
      Along (DriverStep.run stick 1) (DriverStep.Safe stick 1) (loaded wideStick)
        (xs.flatMap DriverSession.steps) := by
  intro h
  obtain ⟨-, ⟨-, -, hstays⟩, -⟩ := h [⟨wideStick, 0, [.io ⟨zeros, 2097152, 0, false⟩]⟩]
  have hstay := hstays ⟨.gBounceBuffer, 0, 2097152, 1048576⟩ (by decide +kernel)
  exact hstay.elim (by decide) (by decide)

end FormatStick
