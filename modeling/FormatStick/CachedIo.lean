import FormatStick.Stick

/-!
# What the cached read and write path does to a stick

Geometry is 512 bytes a sector. Seen through `store`, the driver and its stick
are a write-back store: each pass of the transfer loop settles the pending range
or accepts one piece of the request. The facts about a run are kept in three
shapes: the view, when no flush was lost; pointwise properties of every byte, in
all cases; and the block ranges of the WRITE(10)s that went out. They hold for
requests of every size; that the transfer loop ends is known for sizes the
32-bit `remaining` can hold.
-/
namespace FormatStick
open Splice WriteBack

/-- The driver invariant of the cached path. -/
structure Ready (w : World Stick) : Prop where
  sectorSize : w.drv.gSectorSize = 512
  blockSize : w.dev.spec.blockSize = 512
  fill : w.drv.gCacheSectors ≤ 2048
  allocated : 0 < w.drv.gCacheSectors → w.drv.gWriteCache.isSome
  reach : 0 < w.drv.gCacheSectors → w.drv.gCacheLba + w.drv.gCacheSectors ≤ 4294967296

/-- The driver and its stick as a write-back store of bytes. -/
def store (w : World Stick) : Store UInt8 where
  medium := w.dev.medium
  base := w.drv.gCacheLba * 512
  size := w.drv.gCacheSectors * 512
  pending := w.drv.gWriteCache.getD zeros

theorem store_eq {w : World Stick} {s : Store UInt8} (hm : w.dev.medium = s.medium)
    (hb : w.drv.gCacheLba * 512 = s.base) (hs : w.drv.gCacheSectors * 512 = s.size)
    (hp : w.drv.gWriteCache.getD zeros = s.pending) : store w = s := by
  rw [store, hm, hb, hs, hp]

/-- What no I/O changes, how the records grow (`rs` are the new requests), and that the
medium changes only where a WRITE(10) of the trace went. -/
structure Frame (w : World Stick) (rs : List Request) (t : World Stick) : Prop where
  sectorCount : t.drv.gSectorCount = w.drv.gSectorCount
  sectorSize : t.drv.gSectorSize = w.drv.gSectorSize
  driveOffset : t.drv.gDriveOffsetSectors = w.drv.gDriveOffsetSectors
  partitionSectors : t.drv.gPartitionSectors = w.drv.gPartitionSectors
  partitionType : t.drv.gPartitionType = w.drv.gPartitionType
  spec : t.dev.spec = w.dev.spec
  requests : t.requests = w.requests ++ rs
  trace : w.trace <+: t.trace
  confirmed : Faultless w.dev.spec → Confirmed w t
  changes : ∀ a, t.dev.medium a ≠ w.dev.medium a →
    ∃ e ∈ t.trace, e.cmd.opcode = 0x2a ∧ e.cmd.lba * 512 ≤ a ∧ a < (e.cmd.lba + e.cmd.blocks) * 512

theorem Frame.refl (w : World Stick) : Frame w [] w :=
  ⟨rfl, rfl, rfl, rfl, rfl, rfl, (List.append_nil _).symm, List.prefix_rfl,
    fun _ => since_of_trace_eq rfl, fun _ h => absurd rfl h⟩

theorem Frame.trans {w t u : World Stick} {rs rs' : List Request} (h : Frame w rs t)
    (h' : Frame t rs' u) : Frame w (rs ++ rs') u where
  sectorCount := h'.sectorCount.trans h.sectorCount
  sectorSize := h'.sectorSize.trans h.sectorSize
  driveOffset := h'.driveOffset.trans h.driveOffset
  partitionSectors := h'.partitionSectors.trans h.partitionSectors
  partitionType := h'.partitionType.trans h.partitionType
  spec := h'.spec.trans h.spec
  requests := by rw [h'.requests, h.requests, List.append_assoc]
  trace := h.trace.trans h'.trace
  confirmed hf := Since.trans (h.confirmed hf) (h'.confirmed (h.spec ▸ hf)) h.trace h'.trace
  changes a ha := by
    by_cases hu : u.dev.medium a = t.dev.medium a
    · obtain ⟨e, he, hin⟩ := h.changes a (hu ▸ ha)
      exact ⟨e, h'.trace.subset he, hin⟩
    · exact h'.changes a hu

theorem Frame.lossless {w t : World Stick} {rs : List Request} (h : Frame w rs t)
    (hf : Faultless w.dev.spec) : Lossless w t := (h.confirmed hf).lossless

/-- What was lost on the first part of a way is lost on the whole of it. -/
theorem Frame.lost {w t u : World Stick} {rs rs' : List Request} (h : Frame w rs t)
    (h' : Frame t rs' u) : ¬Lossless w t → ¬Lossless w u := mt fun hl => hl.left h.trace h'.trace

/-- Every WRITE(10) of the trace after its first `k` commands, and the cached run, end at or
before sector `n`. -/
structure Below (k n : ℕ) (w : World Stick) : Prop where
  cached : 0 < w.drv.gCacheSectors → w.drv.gCacheLba + w.drv.gCacheSectors ≤ n
  sent : ∀ e ∈ w.trace.drop k, e.cmd.opcode = 0x2a → e.cmd.lba + e.cmd.blocks ≤ n

theorem mem_drop_concat {α : Type} {k : ℕ} {l : List α} {x e : α} (h : e ∈ (l ++ [x]).drop k) :
    e ∈ l.drop k ∨ e = x := by
  rw [List.drop_append] at h
  exact (List.mem_append.mp h).imp_right fun h => List.mem_singleton.mp (List.mem_of_mem_drop h)

/-- A driver with an empty cache, before it sends anything more. -/
theorem Below.start {w : World Stick} (h : w.drv.gCacheSectors = 0) (n : ℕ) : Below w.trace.length n w :=
  ⟨fun hf => absurd hf (by rw [h]; decide),
    fun e he => absurd he (by rw [List.drop_length]; exact List.not_mem_nil)⟩

/-- The command bytes of READ(10) and WRITE(10). -/
theorem opcode_cdb10 (op : UInt8) (lba blocks : ℕ) (dir : UInt8) (len : ℕ) :
    (Cmd.mk (cdb10 op lba blocks) dir len).opcode = op := rfl

theorem fits_cdb10 (op : UInt8) (lba : ℕ) {blocks : ℕ} (dir : UInt8) (h : blocks < 2 ^ 16) :
    (Cmd.mk (cdb10 op lba blocks) dir (blocks * 512)).Fits 512 := by
  intro _
  rw [blocks_cdb10 op lba dir _ h]

/-- A command leaves the driver's globals but the tag alone. -/
theorem Served.frame {w t : World Stick} {c : Cmd} {data : Buf} {r : ℤ × Buf}
    (h : Served w c data r t) (hw : Ready w) (hc : c.opcode = 0x2a → c.Fits 512) : Frame w [] t := by
  obtain ⟨u, hu⟩ := h.drv
  obtain ⟨e, htr, hcmd, -, -, hok⟩ := h.trace
  refine ⟨by rw [hu], by rw [hu], by rw [hu], by rw [hu], by rw [hu], h.spec,
    by rw [h.requests, List.append_nil], ⟨[e], htr.symm⟩, fun hf => since_of_append htr ?_,
    fun a ha => ⟨e, by rw [htr]; simp, ?_⟩⟩
  · intro x hx hi
    rw [List.mem_singleton.mp hx] at hi ⊢
    refine hok.mpr (h.executes ?_ hf)
    rw [hw.blockSize]
    exact hc (hcmd ▸ hi)
  · rcases h.outcome with ⟨-, -, hm⟩ | ⟨-, -, hm⟩
    · rw [hm, Stick.mediumAfter] at ha
      by_cases hop : c.opcode = 0x2a
      · rw [if_pos hop, hw.blockSize, hc hop (.inr hop)] at ha
        by_cases hin : c.lba * 512 ≤ a ∧ a < c.lba * 512 + c.blocks * 512
        · rw [hcmd, Nat.add_mul]
          exact ⟨hop, hin⟩
        · rw [splice, if_neg hin] at ha
          exact absurd rfl ha
      · rw [if_neg hop] at ha
        exact absurd rfl ha
    · exact absurd (congrFun hm a) ha

theorem Served.below {w t : World Stick} {c : Cmd} {data : Buf} {r : ℤ × Buf} {k n : ℕ}
    (h : Served w c data r t) (hw : Below k n w) (hc : c.opcode = 0x2a → c.lba + c.blocks ≤ n) :
    Below k n t := by
  obtain ⟨u, hu⟩ := h.drv
  obtain ⟨e, htr, hcmd, -⟩ := h.trace
  refine ⟨by rw [hu]; exact hw.cached, fun x hx hop => ?_⟩
  rw [htr] at hx
  rcases mem_drop_concat hx with hx | rfl
  · exact hw.sent x hx hop
  · rw [hcmd] at hop ⊢
    exact hc hop

theorem Served.ready {w t : World Stick} {c : Cmd} {data : Buf} {r : ℤ × Buf}
    (h : Served w c data r t) (hw : Ready w) : Ready t := by
  obtain ⟨u, hu⟩ := h.drv
  obtain ⟨h₁, h₂, h₃, h₄, h₅⟩ := hw
  refine ⟨?_, ?_, ?_, ?_, ?_⟩
  · rw [hu]; exact h₁
  · rw [h.spec]; exact h₂
  · rw [hu]; exact h₃
  · rw [hu]; exact h₄
  · rw [hu]; exact h₅

/-- What READ(10) of `blocks` sectors does. -/
structure ReadDone (w : World Stick) (lba blocks : ℕ) (data : Buf) (r : ℤ × Buf) (t : World Stick) :
    Prop where
  frame : Frame w [] t
  ready : Ready t
  drv : ∃ u, t.drv = { w.drv with usb := u }
  medium : t.dev.medium = w.dev.medium
  result : r.1 = 0 ∧ r.2 = splice data 0 (window w.dev.medium (lba * 512)) (blocks * 512) ∨ r.1 = -1
  below : ∀ {k} n, Below k n w → Below k n t
  executes : Faultless w.dev.spec → r.1 = 0

theorem wp_read10 {w : World Stick} (hw : Ready w) {lba blocks : ℕ} (hl : lba < 4294967296)
    (hb : blocks < 2 ^ 16) (data : Buf) :
    Prog.wp (read10 stick lba blocks data (blocks * 512)) (ReadDone w lba blocks data)
      (fun _ => False) w := by
  refine Prog.wp_mono (wp_scsiCommand (by rw [opcode_cdb10]; decide) data) ?_ (fun _ h => h)
  intro r t h
  have hlba := lba_cdb10 0x28 blocks 0x80 (blocks * 512) hl
  have hop : ∀ len, (Cmd.mk (cdb10 0x28 lba blocks) 0x80 len).opcode ≠ 0x2a := fun _ => by
    rw [opcode_cdb10]; decide
  refine ⟨h.frame hw fun hc => absurd hc (hop _), h.ready hw, h.drv, ?_, ?_, fun n hn =>
    h.below hn fun hc => absurd hc (hop _), fun hf => h.executes ?_ hf⟩
  · rcases h.outcome with ⟨-, -, hm⟩ | ⟨-, -, hm⟩
    · rw [hm, Stick.mediumAfter, if_neg (hop _)]
    · exact hm
  · rcases h.outcome with ⟨hr, hd, -⟩ | ⟨hr, -⟩
    · refine .inl ⟨hr, ?_⟩
      rw [hd, Stick.dataAfter, if_pos (opcode_cdb10 ..), hlba, hw.blockSize]
    · exact .inr hr
  · rw [hw.blockSize]
    exact fits_cdb10 0x28 lba 0x80 hb

/-- What WRITE(10) of `blocks` sectors does. -/
structure WriteDone (w : World Stick) (lba blocks : ℕ) (data : Buf) (r : ℤ) (t : World Stick) :
    Prop where
  frame : Frame w [] t
  ready : Ready t
  drv : ∃ u, t.drv = { w.drv with usb := u }
  result : r = 0 ∧ t.dev.medium = splice w.dev.medium (lba * 512) data (blocks * 512) ∨
    r = -1 ∧ t.dev.medium = w.dev.medium
  rolls : t.dev.rolls = w.dev.rolls
  sent : ∃ e : Sent, t.trace = w.trace ++ [e] ∧ e.cmd = ⟨cdb10 0x2a lba blocks, 0x00, blocks * 512⟩ ∧
    e.cacheSectors = w.drv.gCacheSectors ∧ (e.Ok ↔ r = 0)
  below : ∀ {k} n, Below k n w → lba + blocks ≤ n → Below k n t
  executes : Faultless w.dev.spec → r = 0

theorem wp_write10 {w : World Stick} (hw : Ready w) {lba blocks : ℕ} (hl : lba < 4294967296)
    (hb : blocks < 2 ^ 16) (data : Buf) :
    Prog.wp (write10 stick lba blocks data (blocks * 512)) (WriteDone w lba blocks data)
      (fun _ => False) w := by
  rw [write10, Prog.wp_bind]
  refine Prog.wp_mono (wp_scsiCommand (by rw [opcode_cdb10]; decide) data) ?_ (fun _ h => h)
  intro r t h
  have hlba := lba_cdb10 0x2a blocks 0x00 (blocks * 512) hl
  have hblk := blocks_cdb10 0x2a lba 0x00 (blocks * 512) hb
  have hfit : (Cmd.mk (cdb10 0x2a lba blocks) 0x00 (blocks * 512)).Fits w.dev.spec.blockSize := by
    rw [hw.blockSize]
    exact fits_cdb10 0x2a lba 0x00 hb
  obtain ⟨e, htr, hcmd, -, hfill, hok⟩ := h.trace
  refine ⟨h.frame hw fun _ => hw.blockSize ▸ hfit, h.ready hw, h.drv, ?_, h.rolls, ⟨e, htr, hcmd, hfill, hok⟩,
    fun n hn hle => h.below hn fun _ => by rw [hlba, hblk]; exact hle, h.executes hfit⟩
  · rcases h.outcome with ⟨hr, -, hm⟩ | ⟨hr, -, hm⟩
    · refine .inl ⟨hr, ?_⟩
      rw [hm, Stick.mediumAfter, if_pos (opcode_cdb10 ..), hlba, hw.blockSize]
    · exact .inr ⟨hr, hm⟩

/-- A WRITE(10) sent while sectors are cached is a flush, and succeeds where no flush is lost. -/
theorem WriteDone.lossless {w t : World Stick} {lba blocks : ℕ} {data : Buf} {r : ℤ}
    (h : WriteDone w lba blocks data r t) (hfill : 0 < w.drv.gCacheSectors) (hl : Lossless w t) :
    r = 0 := by
  obtain ⟨e, htr, hcmd, hcs, hok⟩ := h.sent
  rw [Lossless, Since, htr, List.drop_left] at hl
  exact hok.mp (hl e (List.mem_singleton_self e) ⟨by rw [hcmd]; rfl, by rw [hcs]; exact hfill⟩)

/-- What `scsi_flush_cache_internal` does. -/
structure FlushDone (w t : World Stick) : Prop where
  frame : Frame w [] t
  ready : Ready t
  empty : t.drv.gCacheSectors = 0
  cache : t.drv.gWriteCache = w.drv.gWriteCache
  settled : Settled (store w) (¬Lossless w t) (store t)
  below : ∀ {k} n, Below k n w → Below k n t

theorem wp_scsiFlushCacheInternal {w : World Stick} (hw : Ready w) :
    Prog.wp (scsiFlushCacheInternal stick) (fun _ t => FlushDone w t) (fun _ => False) w := by
  simp only [scsiFlushCacheInternal, Prog.wp_bind, wp_globals]
  have hidle : w.drv.gCacheSectors = 0 → FlushDone w w := by
    intro h
    have hst : (store w).flush = store w := Store.flush_of_empty (by simp [store, h])
    exact ⟨Frame.refl w, hw, h, rfl, .flushed hst.symm, fun _ h => h⟩
  cases hc : w.drv.gWriteCache with
  | none =>
    refine hidle (Nat.eq_zero_of_not_pos fun hp => ?_)
    have := hw.allocated hp
    simp [hc] at this
  | some cache =>
    by_cases hz : w.drv.gCacheSectors = 0
    · simpa only [hz, if_true, Prog.wp_pure] using hidle hz
    have hfill := hw.fill
    have hreach := hw.reach (Nat.pos_of_ne_zero hz)
    have hlen : u32 (w.drv.gCacheSectors * w.drv.gSectorSize) = w.drv.gCacheSectors * 512 := by
      rw [hw.sectorSize, u32_mul (by omega)]
    simp only [hz, if_false, Prog.wp_bind, wp_writeCache, wp_assign, Prog.wp_pure, hlen]
    refine Prog.wp_mono (wp_write10 hw (by omega) (by omega) cache) ?_ (fun _ h => h)
    intro r t h
    obtain ⟨u, hu⟩ := h.drv
    obtain ⟨f₁, f₂, f₃, f₄, f₅, f₆, f₇, f₈, f₉, f₁₀⟩ := h.frame
    obtain ⟨r₁, r₂, r₃, r₄, r₅⟩ := h.ready
    have hlba : t.drv.gCacheLba = w.drv.gCacheLba := by rw [hu]
    have hwc : t.drv.gWriteCache = w.drv.gWriteCache := by rw [hu]
    refine ⟨⟨f₁, f₂, f₃, f₄, f₅, f₆, f₇, f₈, f₉, f₁₀⟩, ⟨r₁, r₂, ?_, ?_, ?_⟩, rfl, hwc, ?_, fun n hn => ?_⟩
    · exact Nat.zero_le _
    · exact fun h => absurd h (Nat.lt_irrefl 0)
    · exact fun h => absurd h (Nat.lt_irrefl 0)
    · rcases h.result with ⟨-, hm⟩ | ⟨hr, hm⟩
      · refine .flushed (store_eq ?_ (congrArg (· * 512) hlba) (Nat.zero_mul 512) ?_)
        · change t.dev.medium = _
          rw [hm]
          simp [store, Store.view, hc]
        · exact congrArg (Option.getD · zeros) hwc
      · refine .dropped (fun hl : Lossless w t => ?_)
          (store_eq hm (congrArg (· * 512) hlba) (Nat.zero_mul 512)
          (congrArg (Option.getD · zeros) hwc))
        have := h.lossless (Nat.pos_of_ne_zero hz) hl
        omega
    · have hb := h.below n hn (hn.cached (Nat.pos_of_ne_zero hz))
      exact ⟨fun h => absurd h (Nat.lt_irrefl 0), hb.sent⟩

/-- One pass of the transfer loop with `left` bytes to be written at byte `p`: it
refuses, with the pending range settled, or accepts the next `k` bytes. Whole
sectors are refused only for want of a cache. -/
structure WritePassed (w : World Stick) (p left : ℕ) (buf payload : Buf) (r : Option (ℕ × Buf))
    (t : World Stick) : Prop where
  frame : Frame w [] t
  ready : Ready t
  result : match r with
    | none => Settled (store w) (¬Lossless w t) (store t)
    | some (k, b) => b = buf ∧ k ≤ left ∧ (left < 4294967296 → 0 < k) ∧
        Accepted (store w) (¬Lossless w t) p payload k (store t)
  below : ∀ {k} n, Below k n w → p + left ≤ n * 512 → Below k n t
  cache : w.drv.gWriteCache.isSome → t.drv.gWriteCache.isSome
  whole : 512 ∣ p → 512 ∣ left → left < 4294967296 →
    (∀ k b, r = some (k, b) → 512 ∣ k ∧ t.drv.gWriteCache.isSome) ∧
      (w.drv.gWriteCache.isSome → r ≠ none)
  returns : Faultless w.dev.spec → r ≠ none

/-- The number of whole sectors one pass takes off `rem` bytes. -/
theorem sectors_bounds {rem n : ℕ} (h : 512 ≤ rem)
    (hn : n = if rem / 512 > 2048 then 2048 else rem / 512) : 0 < n ∧ n ≤ 2048 ∧ n * 512 ≤ rem := by
  split_ifs at hn <;> omega

theorem wp_cachePass {w : World Stick} (hw : Ready w) (buf : Buf) (done lba : ℕ)
    {rem left : ℕ} (h512 : 512 ≤ rem) (hrem : rem ≤ left) (hreach : lba * 512 + left ≤ 2199023255552) :
    Prog.wp (cachePass stick buf done lba rem)
      (WritePassed w (lba * 512) left buf (window buf done)) (fun _ => False) w := by
  obtain ⟨sectors, hsec⟩ : ∃ n, n = if rem / 512 > 2048 then 2048 else rem / 512 := ⟨_, rfl⟩
  obtain ⟨hpos, hmax, hle⟩ := sectors_bounds h512 hsec
  have hfill := hw.fill
  have hk : 0 < sectors * 512 := by omega
  have hwhole : ∀ k b, some (sectors * 512, buf) = some (k, b) → 512 ∣ k := fun k b hk => by
    obtain ⟨rfl, -⟩ := Prod.mk.inj (Option.some.inj hk)
    exact Nat.dvd_mul_left 512 sectors
  simp only [cachePass, Prog.wp_bind, wp_globals, hw.sectorSize, ← hsec,
    u32_mul (show sectors * 512 < 4294967296 by omega)]
  refine Prog.wp_ite ?_ ?_
  · -- the piece continues the cached run
    rintro ⟨hf, hadj, hroom⟩
    obtain ⟨cache, hc⟩ := Option.isSome_iff_exists.mp (hw.allocated hf)
    have hr := hw.reach hf
    rw [u64_add (by omega)] at hadj
    rw [u32_add (by omega)] at hroom
    have hlen : u32 (w.drv.gCacheSectors * (512 : ℕ)) = w.drv.gCacheSectors * 512 := u32_mul (by omega)
    simp only [Prog.wp_bind, wp_copyToCache, wp_assign, Prog.wp_pure, hc, Option.map_some,
      u32_add (show w.drv.gCacheSectors + sectors < 4294967296 by omega),
      hlen]
    unfold kMaxCacheSectors at hroom
    refine ⟨⟨rfl, rfl, rfl, rfl, rfl, rfl, (List.append_nil _).symm, List.prefix_rfl,
      fun _ => since_of_trace_eq rfl, fun _ h => absurd rfl h⟩,
      ⟨hw.sectorSize, hw.blockSize, hroom, fun _ => rfl, fun _ => ?_⟩,
      ⟨rfl, Nat.le_trans hle hrem, fun _ => hk, .extend ?_ (store_eq rfl rfl (Nat.add_mul ..) ?_)⟩,
      fun n hn hb => ⟨fun _ => ?_, hn.sent⟩, fun _ => rfl, fun _ _ _ =>
      ⟨fun k b hk => ⟨hwhole k b hk, rfl⟩, fun _ => Option.some_ne_none _⟩,
      fun _ => Option.some_ne_none _⟩
    · change w.drv.gCacheLba + (w.drv.gCacheSectors + sectors) ≤ 4294967296
      omega
    · change lba * 512 = w.drv.gCacheLba * 512 + w.drv.gCacheSectors * 512
      rw [hadj, Nat.add_mul]
    · simp [store, Store.extend, hc]
    · change w.drv.gCacheLba + (w.drv.gCacheSectors + sectors) ≤ n
      omega
  · -- the cached run is flushed and the piece starts a new one
    intro _
    simp only [Prog.wp_bind]
    refine Prog.wp_mono (wp_scsiFlushCacheInternal hw) ?_ (fun _ h => h)
    intro _ t h
    have hstage : ∀ (d : Stick) (cache : Buf) (size : ℕ) (as : List Access), d.spec = t.dev.spec →
        d.medium = t.dev.medium → t.drv.gWriteCache.getD zeros = cache →
        WritePassed w (lba * 512) left buf (window buf done) (some (sectors * 512, buf))
          { t with
            dev := d
            drv := { t.drv with
              gCacheLba := lba
              gWriteCache := some (splice cache 0 (window buf done) (sectors * 512))
              gWriteCacheSize := size
              gCacheSectors := sectors }
            accesses := as } := by
      rintro d _ size as hd hm rfl
      obtain ⟨f₁, f₂, f₃, f₄, f₅, f₆, f₇, f₈, f₉, f₁₀⟩ := h.frame
      obtain ⟨r₁, r₂, -, -, -⟩ := h.ready
      refine ⟨⟨f₁, f₂, f₃, f₄, f₅, hd.trans f₆, f₇, f₈, f₉, fun a ha => f₁₀ a (hm ▸ ha)⟩,
        ⟨r₁, by rw [hd]; exact r₂, hmax,
        fun _ => rfl, fun _ => ?_⟩, ⟨rfl, Nat.le_trans hle hrem, fun _ => hk,
          .stage h.settled (store_eq hm rfl rfl rfl)⟩,
        fun n hn hb => ⟨fun _ => ?_, (h.below n hn).sent⟩, fun _ => rfl, fun _ _ _ =>
        ⟨fun k b hk => ⟨hwhole k b hk, rfl⟩, fun _ => Option.some_ne_none _⟩,
        fun _ => Option.some_ne_none _⟩
      · change lba + sectors ≤ 4294967296
        omega
      · change lba + sectors ≤ n
        omega
    simp only [allocateCache, Prog.wp_bind, wp_globals]
    cases hc : t.drv.gWriteCache with
    | some cache =>
      simp only [Option.isSome_some, if_true, Prog.wp_pure, Bool.true_eq_false, if_false, Prog.wp_bind,
        wp_copyToCache, wp_assign, hc, Option.map_some]
      exact hstage t.dev _ _ _ rfl rfl (by rw [hc]; rfl)
    | none =>
      simp only [Option.isSome_none, Bool.false_eq_true, if_false, Prog.wp_bind, wp_malloc]
      refine Prog.wp_ite ?_ ?_
      · intro hno
        simp only [Prog.wp_pure, if_true]
        obtain ⟨f₁, f₂, f₃, f₄, f₅, f₆, f₇, f₈, f₉, f₁₀⟩ := h.frame
        obtain ⟨r₁, r₂, r₃, r₄, r₅⟩ := h.ready
        have hw' : ¬w.drv.gWriteCache.isSome := by rw [← h.cache, hc]; exact Bool.false_ne_true
        refine ⟨⟨f₁, f₂, f₃, f₄, f₅, f₆, f₇, f₈, f₉, f₁₀⟩, ⟨r₁, r₂, r₃, r₄, r₅⟩, h.settled,
          fun n hn _ => ⟨(h.below n hn).cached, (h.below n hn).sent⟩, fun hs => absurd hs hw',
          fun _ _ _ => ⟨fun _ _ hk => absurd hk (by simp), fun hs => absurd hs hw'⟩, fun hf => ?_⟩
        have hyes := hf.heap t.dev.mallocs
        rw [← h.frame.spec] at hyes
        exact absurd (hyes.symm.trans hno) (by decide)
      · intro _
        simp only [Prog.wp_bind, wp_assign, wp_copyToCache, Prog.wp_pure, Bool.true_eq_false, if_false,
          Option.map_some]
        exact hstage _ _ _ _ rfl rfl (by rw [hc]; rfl)

/-- New content of the bounce buffer, and accesses to it. -/
def bounced (w : World Stick) (b : Buf) (as : List Access) : World Stick :=
  { w with
    drv := { w.drv with gBounceBuffer := b }
    accesses := as }

section Bounced

variable {w t : World Stick} (b : Buf) (as : List Access)

theorem Ready.bounced (h : Ready w) : Ready (bounced w b as) :=
  ⟨h.sectorSize, h.blockSize, h.fill, h.allocated, h.reach⟩

theorem Frame.bounced {rs : List Request} (h : Frame w rs t) : Frame w rs (bounced t b as) :=
  ⟨h.sectorCount, h.sectorSize, h.driveOffset, h.partitionSectors, h.partitionType, h.spec,
    h.requests, h.trace, h.confirmed, h.changes⟩

theorem Below.bounced {k n : ℕ} (h : Below k n w) : Below k n (bounced w b as) := ⟨h.cached, h.sent⟩

end Bounced

/-- A state in which only the bounce buffer and the command counters differ holds
the same store. -/
theorem store_of_drv {t u : World Stick} {g : Driver} (hg : u.drv = g)
    (hlba : g.gCacheLba = t.drv.gCacheLba) (hfill : g.gCacheSectors = t.drv.gCacheSectors)
    (hcache : g.gWriteCache = t.drv.gWriteCache) (hm : u.dev.medium = t.dev.medium) :
    store u = store t :=
  store_eq hm (by rw [hg, hlba]; rfl) (by rw [hg, hfill]; rfl) (by rw [hg, hcache]; rfl)

theorem wp_modifyPass {w : World Stick} (hw : Ready w) (buf : Buf) (done lba off : ℕ)
    {rem left : ℕ} (hl : lba < 4294967296) (hoff : off < 512) (hleft : 0 < left) (hrem : rem ≤ left)
    (hfit : left < 4294967296 → rem = left) (hpart : ¬(off = 0 ∧ 512 ≤ rem)) :
    Prog.wp (modifyPass stick buf done lba off rem)
      (WritePassed w (lba * 512 + off) left buf (window buf done)) (fun _ => False) w := by
  simp only [modifyPass, Prog.wp_bind, wp_globals]
  refine Prog.wp_mono (wp_scsiFlushCacheInternal hw) ?_ (fun _ h => h)
  intro _ t h
  have hrest : u32 (((512 : ℕ) : ℤ) - off) = 512 - off := by
    unfold u32
    omega
  obtain ⟨n, hn⟩ : ∃ n, n = if 512 - off < rem then 512 - off else rem := ⟨_, rfl⟩
  have hpos : left < 4294967296 → 0 < n := fun h => by
    have := hfit h
    split_ifs at hn <;> omega
  have hle : n ≤ left := by split_ifs at hn <;> omega
  -- a request of whole sectors does not come here
  have hsplit : 512 ∣ lba * 512 + off → 512 ∣ left → left < 4294967296 → False := fun h₁ h₂ h₃ => by
    have := hfit h₃
    omega
  have hin : off + n ≤ 512 := by split_ifs at hn <;> omega
  simp only [h.ready.sectorSize, hrest, ← hn]
  rw [wp_readBounce]
  refine Prog.wp_mono (wp_read10 h.ready hl (show 1 < 2 ^ 16 by decide) _) ?_ (fun _ h => h)
  intro r u hr
  obtain ⟨g, hg⟩ := hr.drv
  have hsettled : Settled (store w) (¬Lossless w u) (store u) := by
    rw [store_of_drv hg rfl rfl rfl hr.medium]
    exact h.settled.mono (h.frame.lost hr.frame)
  have hcache : w.drv.gWriteCache.isSome → u.drv.gWriteCache.isSome := fun hs => by
    rw [hg]
    exact h.cache ▸ hs
  have hempty : u.drv.gCacheSectors = 0 := by
    rw [hg]
    exact h.empty
  change Prog.wp _ _ _ (bounced u r.2 _)
  have hnofault : Faultless w.dev.spec → Faultless t.dev.spec := fun hf => h.frame.spec ▸ hf
  refine Prog.wp_ite ?_ ?_
  · intro hfail
    exact ⟨(h.frame.trans hr.frame).bounced _ _, hr.ready.bounced _ _, hsettled,
      fun n hn _ => (hr.below n (h.below n hn)).bounced _ _, hcache,
      fun h₁ h₂ h₃ => (hsplit h₁ h₂ h₃).elim, fun hf => absurd (hr.executes (hnofault hf)) hfail⟩
  · intro hok
    have hdata : r.2 = splice t.drv.gBounceBuffer 0 (window t.dev.medium (lba * 512)) (1 * 512) := by
      rcases hr.result with ⟨-, hd⟩ | hd
      · exact hd
      · exact absurd (by rw [hd]; decide) hok
    simp only [Prog.wp_bind, wp_copyToBounce]
    change Prog.wp _ _ _ (bounced u (splice r.2 off (window buf done) n) _)
    rw [wp_writeBounce]
    refine Prog.wp_mono (wp_write10 (hr.ready.bounced _ _) hl (show 1 < 2 ^ 16 by decide) _) ?_
      (fun _ h => h)
    intro res v hv
    change Prog.wp _ _ _ (bounced v v.drv.gBounceBuffer _)
    have hframe : Frame w [] v := ((h.frame.trans hr.frame).bounced _ _).trans hv.frame
    obtain ⟨g', hg'⟩ := hv.drv
    have hbelow : ∀ {k} n, Below k n w → lba * 512 + off + left ≤ n * 512 → Below k n v := fun n hn hb =>
      hv.below n ((hr.below n (h.below n hn)).bounced _ _) (by omega)
    have hcache' : w.drv.gWriteCache.isSome → v.drv.gWriteCache.isSome := fun hs => by
      rw [hg']
      exact hcache hs
    have hlost : ¬Lossless w u → ¬Lossless w v :=
      ((h.frame.trans hr.frame).bounced (splice r.2 off (window buf done) n) _).lost hv.frame
    refine Prog.wp_ite ?_ ?_
    · intro hfail
      refine ⟨hframe.bounced _ _, hv.ready.bounced _ _, ?_, fun n hn hb => (hbelow n hn hb).bounced _ _,
        hcache', fun h₁ h₂ h₃ => (hsplit h₁ h₂ h₃).elim,
        fun hf => absurd (hv.executes ?_) hfail⟩
      · rcases hv.result with ⟨hr0, -⟩ | ⟨-, hm⟩
        · exact absurd hr0 hfail
        · change Settled (store w) (¬Lossless w v) (store v)
          rw [store_of_drv (t := u) hg' rfl rfl rfl hm]
          exact hsettled.mono hlost
      · exact hr.frame.spec ▸ hnofault hf
    · intro hdone
      have hm : v.dev.medium =
          splice u.dev.medium (lba * 512) (splice r.2 off (window buf done) n) (1 * 512) := by
        rcases hv.result with ⟨-, hm⟩ | ⟨hd, -⟩
        · exact hm
        · exact absurd (by rw [hd]; decide) hdone
      have hsector : ∀ i < 1 * 512, splice r.2 off (window buf done) n i =
          splice (window t.dev.medium (lba * 512)) off (window buf done) n i := by
        intro i hi
        rw [hdata]
        simp only [splice, Nat.zero_le, Nat.zero_add, hi, Nat.sub_zero, and_self, if_true]
      refine ⟨hframe.bounced _ _, hv.ready.bounced _ _, ⟨rfl, hle, hpos,
        .through (hsettled.mono hlost) (store_eq ?_ ?_ ?_ ?_)⟩, fun n hn hb =>
          (hbelow n hn hb).bounced _ _, hcache',
        fun h₁ h₂ h₃ => (hsplit h₁ h₂ h₃).elim, fun _ => Option.some_ne_none _⟩
      · change v.dev.medium = splice u.dev.medium (lba * 512 + off) (window buf done) n
        rw [hm, splice_congr hsector, hr.medium, splice_readModifyWrite _ _ _ _ _ _ (by omega)]
      · change v.drv.gCacheLba * 512 = _
        rw [hg']
        rfl
      · change v.drv.gCacheSectors * 512 = _
        rw [hg']
        rfl
      · change v.drv.gWriteCache.getD zeros = _
        rw [hg']
        rfl

/-- One pass of the transfer loop with `left` bytes to be read from byte `p`. -/
structure ReadPassed (w : World Stick) (p left : ℕ) (buf : Buf) (done : ℕ) (r : Option (ℕ × Buf))
    (t : World Stick) : Prop where
  frame : Frame w [] t
  ready : Ready t
  settled : Settled (store w) (¬Lossless w t) (store t)
  result : ∀ k b, r = some (k, b) → k ≤ left ∧
    (p % 512 + left + 511 < 4294967296 → 0 < k ∧ b = splice buf done (window t.dev.medium p) k)
  below : ∀ {k} n, Below k n w → Below k n t
  returns : Faultless w.dev.spec → r ≠ none

theorem wp_readPass {w : World Stick} (hw : Ready w) (buf : Buf) (done lba off : ℕ) {rem left : ℕ}
    (hl : lba < 4294967296) (hoff : off < 512) (hleft : 0 < left) (hrem : rem ≤ left)
    (hfit : left < 4294967296 → rem = left) :
    Prog.wp (readPass stick buf done lba off rem) (ReadPassed w (lba * 512 + off) left buf done)
      (fun _ => False) w := by
  simp only [readPass, Prog.wp_bind, wp_globals]
  refine Prog.wp_mono (wp_scsiFlushCacheInternal hw) ?_ (fun _ h => h)
  intro _ t h
  obtain ⟨sectors, hsec⟩ : ∃ n, n = if u32 ((rem : ℤ) + off + (512 : ℕ) - 1) / 512 > 2048 then 2048
      else u32 ((rem : ℤ) + off + (512 : ℕ) - 1) / 512 := ⟨_, rfl⟩
  have hmax : sectors ≤ 2048 := by split_ifs at hsec <;> omega
  -- the sum in the sector count wraps only for more bytes than `remaining` may hold here
  have hcover : off + left + 511 < 4294967296 → off < sectors * 512 := fun hlt => by
    have hrem' := hfit (by omega)
    have hceil : u32 ((rem : ℤ) + off + (512 : ℕ) - 1) / 512 = (rem + off + 511) / 512 := by
      unfold u32
      omega
    rw [hceil] at hsec
    split_ifs at hsec <;> omega
  simp only [h.ready.sectorSize, ← hsec, u32_mul (show sectors * 512 < 4294967296 by omega)]
  rw [wp_readBounce]
  refine Prog.wp_mono (wp_read10 h.ready hl (by omega) _) ?_ (fun _ h => h)
  intro r u hr
  obtain ⟨g, hg⟩ := hr.drv
  have hst : store u = store t := store_of_drv hg rfl rfl rfl hr.medium
  have hsettled : Settled (store w) (¬Lossless w u) (store u) :=
    hst ▸ h.settled.mono (h.frame.lost hr.frame)
  have hframe : ∀ as, Frame w [] (bounced u r.2 as) := (h.frame.trans hr.frame).bounced _
  have hbelow : ∀ as {k} n, Below k n w → Below k n (bounced u r.2 as) := fun as _ n hn =>
    (hr.below n (h.below n hn)).bounced _ as
  change Prog.wp _ _ _ (bounced u r.2 _)
  refine Prog.wp_ite ?_ ?_
  · intro hfail
    exact ⟨hframe _, hr.ready.bounced _ _, hsettled, fun _ _ hk => absurd hk (by simp), hbelow _,
      fun hf => absurd (hr.executes (h.frame.spec ▸ hf)) hfail⟩
  · intro hok
    have hdata : r.2 = splice t.drv.gBounceBuffer 0 (window t.dev.medium (lba * 512)) (sectors * 512) := by
      rcases hr.result with ⟨-, hd⟩ | hd
      · exact hd
      · exact absurd (by rw [hd]; decide) hok
    rw [Prog.wp_bind, wp_copyFromBounce]
    refine ⟨hframe _, hr.ready.bounced _ _, hsettled, ?_, hbelow _, fun _ => Option.some_ne_none _⟩
    intro k b hk
    obtain ⟨rfl, rfl⟩ := Prod.mk.inj (Option.some.inj hk)
    refine ⟨by split_ifs <;> omega, fun hlt => ?_⟩
    have hrem' := hfit (by omega)
    have hoff' := hcover (by omega)
    have hcan : u32 (((sectors * 512 : ℕ) : ℤ) - off) = sectors * 512 - off := by
      unfold u32
      omega
    rw [hcan]
    refine ⟨by split_ifs <;> omega, splice_congr fun i hi => ?_⟩
    have hi' : off + i < sectors * 512 := by split_ifs at hi <;> omega
    change r.2 (off + i) = u.dev.medium (lba * 512 + off + i)
    rw [hdata, splice_of_mem (Nat.zero_le _) (by omega), hr.medium, window_apply, Nat.sub_zero,
      Nat.add_assoc]

/-- The block address and the offset in the block that the loop computes for byte `p`. -/
theorem position {p : ℕ} (h : p < 2199023255552) :
    u32 (Int.tdiv (p : ℤ) (512 : ℕ)) = p / 512 ∧ u32 (Int.tmod (p : ℤ) (512 : ℕ)) = p % 512 := by
  rw [← Int.ofNat_tdiv, ← Int.ofNat_tmod, u32_of_lt (by omega), u32_of_lt (by omega)]
  exact ⟨rfl, rfl⟩

/-- The 32-bit `remaining`. -/
theorem u32_left (left : ℕ) : u32 left ≤ left ∧ (left < 4294967296 → u32 left = left) := by
  unfold u32
  omega

theorem wp_ioPass_write {w : World Stick} (hw : Ready w) (buf : Buf) {count actual : ℤ}
    {done : ℕ} (p left : ℕ) (hp : actual + done = p) (hr : count - done = left) (hleft : 0 < left)
    (hreach : p + left ≤ 2199023255552) :
    Prog.wp (ioPass stick true count actual buf done) (WritePassed w p left buf (window buf done))
      (fun _ => False) w := by
  obtain ⟨hlba, hoff⟩ := position (p := p) (by omega)
  obtain ⟨hrem, hfit⟩ := u32_left left
  have hsplit : p / 512 * 512 + p % 512 = p := Nat.div_add_mod' p 512
  simp only [ioPass, Prog.wp_bind, wp_globals, hw.sectorSize, hp, hr, hlba, hoff,
    Bool.true_eq_false, if_false]
  refine Prog.wp_ite ?_ ?_
  · rintro ⟨hz, h512⟩
    rw [hz, Nat.add_zero] at hsplit
    have h := wp_cachePass hw buf done (p / 512) h512 hrem (by rw [hsplit]; exact hreach)
    rwa [hsplit] at h
  · intro hpart
    have h := wp_modifyPass hw buf done (p / 512) (p % 512) (by omega) (by omega) hleft hrem hfit hpart
    rwa [hsplit] at h

theorem wp_ioPass_read {w : World Stick} (hw : Ready w) (buf : Buf) {count actual : ℤ}
    {done : ℕ} (p left : ℕ) (hp : actual + done = p) (hr : count - done = left) (hleft : 0 < left)
    (hreach : p + left ≤ 2199023255552) :
    Prog.wp (ioPass stick false count actual buf done) (ReadPassed w p left buf done)
      (fun _ => False) w := by
  obtain ⟨hlba, hoff⟩ := position (p := p) (by omega)
  obtain ⟨hrem, hfit⟩ := u32_left left
  have hsplit : p / 512 * 512 + p % 512 = p := Nat.div_add_mod' p 512
  simp only [ioPass, Prog.wp_bind, wp_globals, hw.sectorSize, hp, hr, hlba, hoff, if_true]
  have h := wp_readPass hw buf done (p / 512) (p % 512) (by omega) (by omega) hleft hrem hfit
  rwa [hsplit] at h

/-- The state while a write request of `count` bytes at byte `p` is under way, its
first `k` bytes accepted. -/
structure WriteSoFar (w : World Stick) (p count : ℕ) (buf : Buf) (k : ℕ) (t : World Stick) : Prop where
  frame : Frame w [] t
  ready : Ready t
  le : k ≤ count
  view : Lossless w t → (store t).view = splice (store w).view p buf k
  sat : ∀ φ, (store w).Sat φ → (∀ i < count, φ (p + i) (buf i)) → (store t).Sat φ
  below : ∀ {k} n, Below k n w → p + count ≤ n * 512 → Below k n t
  cache : w.drv.gWriteCache.isSome → t.drv.gWriteCache.isSome
  whole : 512 ∣ p → 512 ∣ count → count < 4294967296 →
    512 ∣ k ∧ (0 < k → t.drv.gWriteCache.isSome)

theorem WriteSoFar.start {w : World Stick} (hw : Ready w) (p count : ℕ) (buf : Buf) :
    WriteSoFar w p count buf 0 w :=
  ⟨Frame.refl w, hw, Nat.zero_le _, fun _ => (splice_zero _ _ _).symm, fun _ h _ => h, fun _ h _ => h,
    id, fun _ _ _ => ⟨Nat.dvd_zero 512, fun h => absurd h (Nat.lt_irrefl 0)⟩⟩

/-- A write request's outcome: all of it accepted, or -1 after a part of it. Whole
sectors are accepted once there is a cache. -/
structure WriteReturned (w : World Stick) (p count : ℕ) (buf : Buf) (r : ℤ × Buf) (k : ℕ)
    (t : World Stick) : Prop where
  soFar : WriteSoFar w p count buf k t
  ret : r.1 = count ∧ k = count ∨ r.1 = -1
  whole : 512 ∣ p → 512 ∣ count → count < 4294967296 → w.drv.gWriteCache.isSome → r.1 = count
  full : Faultless w.dev.spec → r.1 = count

theorem wp_ioLoop_write {w t : World Stick} {p count done : ℕ} {buf : Buf} {actual : ℤ}
    (hp : 0 < count → actual = p ∧ p + count ≤ 2199023255552)
    (h : WriteSoFar w p count buf done t) :
    Prog.wp (ioLoop stick true count actual (done, buf))
      (fun r u => match r with
        | .inl (k, b) => (b = buf ∧ WriteSoFar w p count buf k u) ∧ (count < 4294967296 → done < k)
        | .inr r => ∃ k, WriteReturned w p count buf r k u)
      (fun _ => False) t := by
  have hle := h.le
  rw [ioLoop]
  refine Prog.wp_ite ?_ ?_
  · intro hlt
    obtain ⟨hact, hreach⟩ := hp (by omega)
    rw [Prog.wp_bind]
    refine Prog.wp_mono (wp_ioPass_write h.ready buf (p + done) (count - done)
      (by rw [hact]; omega) (by omega) (by omega) (by omega)) ?_ (fun _ h => h)
    intro r u hr
    have hframe : Frame w [] u := h.frame.trans hr.frame
    have hbelow : ∀ {k} n, Below k n w → p + count ≤ n * 512 → Below k n u := fun n hn hb =>
      hr.below n (h.below n hn hb) (by omega)
    have hview : Lossless w u → (store t).view = splice (store w).view p buf done := fun hl =>
      h.view (hl.left h.frame.trace hr.frame.trace)
    have hcache : w.drv.gWriteCache.isSome → u.drv.gWriteCache.isSome := fun hs => hr.cache (h.cache hs)
    have hwhole := fun (h₁ : 512 ∣ p) (h₂ : 512 ∣ count) (h₃ : count < 4294967296) =>
      hr.whole (Nat.dvd_add h₁ (h.whole h₁ h₂ h₃).1) (Nat.dvd_sub h₂ (h.whole h₁ h₂ h₃).1) (by omega)
    rcases r with _ | ⟨k, b⟩
    · -- the early return: what was accepted before stays accepted
      refine ⟨done, ⟨hframe, hr.ready, hle, fun hl => ?_, fun φ hs hg => ?_, hbelow, hcache,
        fun h₁ h₂ h₃ => ?_⟩, .inr rfl, fun h₁ h₂ h₃ hs => ?_,
        fun hf => absurd rfl (hr.returns (h.frame.spec ▸ hf))⟩
      · rw [hr.result.view_eq (not_not_intro (hl.right h.frame.trace)), hview hl]
      · exact hr.result.sat (h.sat φ hs hg)
      · obtain ⟨hk, hs⟩ := h.whole h₁ h₂ h₃
        exact ⟨hk, fun hpos => hr.cache (hs hpos)⟩
      · exact absurd rfl ((hwhole h₁ h₂ h₃).2 (h.cache hs))
    · obtain ⟨rfl, hkr, hk, hacc⟩ := hr.result
      refine ⟨⟨rfl, hframe, hr.ready, by omega, fun hl => ?_, fun φ hs hg => ?_, hbelow, hcache,
        fun h₁ h₂ h₃ => ?_⟩, fun h => by have := hk (by omega); omega⟩
      · rw [hacc.view_eq (not_not_intro (hl.right h.frame.trace)), hview hl, splice_chunk]
      · refine hacc.sat (h.sat φ hs hg) fun i hi => ?_
        have := hg (done + i) (by omega)
        rwa [← Nat.add_assoc] at this
      · obtain ⟨hd, hs⟩ := (hwhole h₁ h₂ h₃).1 k b rfl
        exact ⟨Nat.dvd_add (h.whole h₁ h₂ h₃).1 hd, fun _ => hs⟩
  · intro hge
    have hk : done = count := by omega
    exact ⟨done, h, .inl ⟨by rw [hk], hk⟩, fun _ _ _ _ => by rw [hk], fun _ => by rw [hk]⟩

/-- The byte on the medium that a request's offset denotes. -/
def place (w : World Stick) (o : ℕ) : ℕ := o + w.drv.gDriveOffsetSectors * 512

/-- A request whose bytes, if it has any, stay below block 2^32. -/
def Reach (w : World Stick) (o count : ℕ) : Prop := 0 < count → place w o + count ≤ 2199023255552

theorem Reach.actual {w : World Stick} {o count : ℕ} (h : Reach w o count) (hc : 0 < count) :
    (o : ℤ) + i64 (u64 (w.drv.gDriveOffsetSectors * (512 : ℕ))) = place w o ∧
      place w o + count ≤ 2199023255552 := by
  have hr := h hc
  unfold place at hr ⊢
  rw [u64_mul (by omega), i64_of_lt (by omega), Int.natCast_add]
  exact ⟨rfl, hr⟩

theorem Ready.asked {w : World Stick} (h : Ready w) (rs : List Request) :
    Ready { w with requests := rs } := ⟨h.sectorSize, h.blockSize, h.fill, h.allocated, h.reach⟩

theorem Frame.asked {w t : World Stick} {q : Request}
    (h : Frame { w with requests := w.requests ++ [q] } [] t) : Frame w [q] t :=
  ⟨h.sectorCount, h.sectorSize, h.driveOffset, h.partitionSectors, h.partitionType, h.spec,
    by rw [h.requests, List.append_nil], h.trace, h.confirmed, h.changes⟩

/-- A write request. -/
theorem wp_scsiIoInternal_write {w : World Stick} (hw : Ready w) (fuel : ℕ) (buf : Buf)
    {count o : ℕ} (hreach : Reach w o count) :
    let w' : World Stick := { w with requests := w.requests ++ [⟨buf, count, o, true⟩] }
    Prog.wp (scsiIoInternal stick fuel buf count o true)
      (fun r t => ∃ k, WriteReturned w' (place w o) count buf r k t)
      (fun t => (count < 4294967296 → fuel ≤ count) ∧
        ∃ k, WriteSoFar w' (place w o) count buf k t) w := by
  intro w'
  simp only [scsiIoInternal, Prog.wp_bind, Prog.wp_update, wp_globals, hw.sectorSize]
  change Prog.wp _ _ _ w'
  have hstart := WriteSoFar.start (hw.asked (w.requests ++ [⟨buf, count, o, true⟩]))
    (place w o) count buf
  refine Prog.wp_loop_progress
    (fun i t => i.2 = buf ∧ WriteSoFar w' (place w o) count buf i.1 t)
    (fun i => count - i.1) (fun i t h hf => ⟨fun hlt => by have := hf hlt; omega, i.1, h.2⟩) ?_
    ⟨rfl, hstart⟩
  rintro ⟨done, b⟩ t ⟨rfl, ht⟩
  refine Prog.wp_mono (wp_ioLoop_write hreach.actual ht) ?_ (fun _ h => h.elim)
  rintro (⟨k, b'⟩ | r) u hu
  · have := hu.1.2.le
    exact ⟨hu.1, fun hlt => by have := hu.2 hlt; omega⟩
  · exact hu

/-- The state while a read request of `count` bytes at byte `p` is under way: `b` is
the caller's buffer `buf` with its first `k` bytes filled. -/
structure ReadSoFar (w : World Stick) (p count : ℕ) (buf : Buf) (k : ℕ) (b : Buf)
    (t : World Stick) : Prop where
  frame : Frame w [] t
  ready : Ready t
  le : k ≤ count
  view : Lossless w t → (store t).view = (store w).view
  data : p % 512 + count + 511 < 4294967296 → Lossless w t → b = splice buf 0 (window (store w).view p) k
  sat : ∀ φ, (store w).Sat φ → (store t).Sat φ
  below : ∀ {k} n, Below k n w → Below k n t

/-- A read request's outcome. -/
structure ReadReturned (w : World Stick) (p count : ℕ) (buf : Buf) (r : ℤ × Buf) (k : ℕ)
    (t : World Stick) : Prop where
  soFar : ∃ b, ReadSoFar w p count buf k b t
  ret : r.1 = count ∧ (p % 512 + count + 511 < 4294967296 → Lossless w t →
      r.2 = splice buf 0 (window (store w).view p) count) ∨ r.1 = -1
  full : Faultless w.dev.spec → r.1 = count

theorem wp_ioLoop_read {w t : World Stick} {p count done : ℕ} {buf b : Buf} {actual : ℤ}
    (hp : 0 < count → actual = p ∧ p + count ≤ 2199023255552)
    (h : ReadSoFar w p count buf done b t) :
    Prog.wp (ioLoop stick false count actual (done, b))
      (fun r u => match r with
        | .inl (k, b') => ReadSoFar w p count buf k b' u ∧ (p % 512 + count + 511 < 4294967296 → done < k)
        | .inr r => ∃ k, ReadReturned w p count buf r k u)
      (fun _ => False) t := by
  have hle := h.le
  rw [ioLoop]
  refine Prog.wp_ite ?_ ?_
  · intro hlt
    obtain ⟨hact, hreach⟩ := hp (by omega)
    rw [Prog.wp_bind]
    refine Prog.wp_mono (wp_ioPass_read h.ready b (p + done) (count - done)
      (by rw [hact]; omega) (by omega) (by omega) (by omega)) ?_ (fun _ h => h)
    intro r u hr
    have hframe : Frame w [] u := h.frame.trans hr.frame
    have hbelow : ∀ {k} n, Below k n w → Below k n u := fun n hn => hr.below n (h.below n hn)
    have hleft : Lossless w u → Lossless w t := fun hl => hl.left h.frame.trace hr.frame.trace
    have hview : Lossless w u → (store u).view = (store w).view := fun hl => by
      rw [hr.settled.view_eq (not_not_intro (hl.right h.frame.trace)), h.view (hleft hl)]
    have hsat : ∀ φ, (store w).Sat φ → (store u).Sat φ := fun φ hs => hr.settled.sat (h.sat φ hs)
    rcases r with _ | ⟨k, b'⟩
    · exact ⟨done, ⟨b, hframe, hr.ready, hle, hview, fun hfit hl => h.data hfit (hleft hl),
        hsat, hbelow⟩, .inr rfl, fun hf => absurd rfl (hr.returns (h.frame.spec ▸ hf))⟩
    · obtain ⟨hkr, hk⟩ := hr.result k b' rfl
      refine ⟨⟨hframe, hr.ready, by omega, hview, fun hfit hl => ?_, hsat, hbelow⟩,
        fun hfit => by have := (hk (by omega)).1; omega⟩
      obtain ⟨-, hb⟩ := hk (by omega)
      have hm : u.dev.medium = (store w).view := by
        rw [← hview hl, Store.view_of_empty hr.settled.size_eq]
        rfl
      have hwin : window (store w).view (p + done) = window (window (store w).view p) done :=
        (window_window _ _ _).symm
      have := splice_chunk buf (window (store w).view p) 0 done k
      rw [Nat.zero_add] at this
      rw [hb, hm, h.data hfit (hleft hl), hwin, this]
  · intro hge
    have hk : done = count := by omega
    subst hk
    exact ⟨done, ⟨b, h⟩, .inl ⟨rfl, h.data⟩, fun _ => rfl⟩

/-- A read request. -/
theorem wp_scsiIoInternal_read {w : World Stick} (hw : Ready w) (fuel : ℕ) (buf : Buf)
    {count o : ℕ} (hreach : Reach w o count) :
    let w' : World Stick := { w with requests := w.requests ++ [⟨buf, count, o, false⟩] }
    Prog.wp (scsiIoInternal stick fuel buf count o false)
      (fun r t => ∃ k, ReadReturned w' (place w o) count buf r k t)
      (fun t => (place w o % 512 + count + 511 < 4294967296 → fuel ≤ count) ∧
        ∃ k b, ReadSoFar w' (place w o) count buf k b t) w := by
  intro w'
  simp only [scsiIoInternal, Prog.wp_bind, Prog.wp_update, wp_globals, hw.sectorSize]
  change Prog.wp _ _ _ w'
  have hready := hw.asked (w.requests ++ [⟨buf, count, o, false⟩])
  have hstart : ReadSoFar w' (place w o) count buf 0 buf w' :=
    ⟨Frame.refl w', hready, Nat.zero_le _, fun _ => rfl, fun _ _ => (splice_zero _ _ _).symm,
      fun _ h => h, fun _ h => h⟩
  refine Prog.wp_loop_progress
    (fun i t => ReadSoFar w' (place w o) count buf i.1 i.2 t)
    (fun i => count - i.1) (fun i t h hf => ⟨fun hlt => by have := hf hlt; omega, i.1, i.2, h⟩) ?_
    hstart
  rintro ⟨done, b⟩ t ht
  refine Prog.wp_mono (wp_ioLoop_read hreach.actual ht) ?_ (fun _ h => h.elim)
  rintro (⟨k, b'⟩ | r) u hu
  · have := hu.1.le
    exact ⟨hu.1, fun hlt => by have := hu.2 hlt; omega⟩
  · exact hu

/-- What SYNCHRONIZE CACHE does: nothing to the cache or the medium. -/
structure SyncDone (w : World Stick) (r : ℤ) (t : World Stick) : Prop where
  frame : Frame w [] t
  ready : Ready t
  store : store t = store w
  below : ∀ {k} n, Below k n w → Below k n t
  executes : Faultless w.dev.spec → r = 0

theorem wp_syncCache {w : World Stick} (hw : Ready w) :
    Prog.wp (syncCache stick) (SyncDone w) (fun _ => False) w := by
  have hstep : ∀ (g : Driver) (d : Stick) (c : Option Csw) (r : ℤ),
      g.gSectorCount = w.drv.gSectorCount → g.gSectorSize = w.drv.gSectorSize →
      g.gDriveOffsetSectors = w.drv.gDriveOffsetSectors →
      g.gPartitionSectors = w.drv.gPartitionSectors → g.gPartitionType = w.drv.gPartitionType →
      g.gCacheLba = w.drv.gCacheLba → g.gCacheSectors = w.drv.gCacheSectors →
      g.gWriteCache = w.drv.gWriteCache →
      d.spec = w.dev.spec → d.medium = w.dev.medium → (Faultless w.dev.spec → r = 0) →
      SyncDone w r ⟨g, d, w.trace ++ [⟨syncCmd, zeros, w.drv.usb.gTag, w.drv.gWriteCache, w.drv.gCacheLba,
        w.drv.gCacheSectors, c⟩], w.requests, w.accesses⟩ := by
    intro g d c r h₁ h₂ h₃ h₄ h₅ h₆ h₇ h₈ h₉ h₁₀ hr
    refine ⟨⟨h₁, h₂, h₃, h₄, h₅, h₉, (List.append_nil _).symm, ⟨_, rfl⟩, fun _ =>
      since_of_append rfl fun x hx hi => ?_, fun a ha => absurd (congrFun h₁₀ a) ha⟩,
        ⟨h₂.trans hw.sectorSize, ?_, ?_, ?_, ?_⟩,
      store_of_drv rfl h₆ h₇ h₈ h₁₀, fun n hn => ⟨?_, ?_⟩, hr⟩
    · rw [List.mem_singleton.mp hx] at hi
      exact absurd (show (0x35 : UInt8) = 0x2a from hi) (by decide)
    · exact h₉ ▸ hw.blockSize
    · exact h₇ ▸ hw.fill
    · intro hf
      exact h₈ ▸ hw.allocated (h₇ ▸ hf)
    · intro hf
      change g.gCacheLba + g.gCacheSectors ≤ _
      rw [h₆, h₇]
      exact hw.reach (h₇ ▸ hf)
    · intro hf
      change g.gCacheLba + g.gCacheSectors ≤ n
      rw [h₆, h₇]
      exact hn.cached (h₇ ▸ hf)
    · intro e he hop
      rcases mem_drop_concat he with he | rfl
      · exact hn.sent e he hop
      · exact absurd (show (0x35 : UInt8) = 0x2a from hop) (by decide)
  simp only [syncCache, scsiCommand, Prog.wp_bind, wp_globals, Prog.wp_pure]
  refine Prog.wp_ite ?_ ?_
  · intro _
    exact ⟨Frame.refl w, hw, rfl, fun _ h => h, fun _ => rfl⟩
  · intro _
    have hfit : syncCmd.Fits w.dev.spec.blockSize := by
      rintro (h | h) <;> exact absurd h (by decide)
    have hmed : w.dev.mediumAfter syncCmd zeros = w.dev.medium :=
      if_neg (by decide)
    rw [Prog.wp_bind, wp_transact]
    by_cases hx : w.dev.Executes syncCmd
    · simp only [stick, Stick.exchange, hx, if_true, Prog.wp_pure]
      exact hstep _ _ _ _ rfl rfl rfl rfl rfl rfl rfl rfl rfl hmed fun _ => rfl
    · have hno : Faultless w.dev.spec → False := fun hf => hx ⟨hf.fate _, hfit⟩
      by_cases hb : w.dev.spec.fate w.dev.served = .broken
      · simp only [stick, Stick.exchange, hx, hb, if_true, if_false, Prog.wp_pure]
        exact hstep _ _ _ _ rfl rfl rfl rfl rfl rfl rfl rfl rfl rfl fun hf => (hno hf).elim
      · have hst : (if w.dev.spec.fate w.dev.served = .done then (2 : UInt8) else 1) ≠ 0 := by
          split_ifs <;> decide
        have hop : (syncCmd : Cmd).opcode = 0x35 := rfl
        simp only [stick, Stick.exchange, hx, hb, hst, hop, if_true, if_false, Prog.wp_bind,
          wp_assign, Prog.wp_pure]
        exact hstep _ _ _ _ rfl rfl rfl rfl rfl rfl rfl rfl rfl rfl fun _ => rfl

/-- What `usb_scsi_sync` does: a flush, and then nothing is cached. -/
structure Synced (w : World Stick) (r : ℤ) (t : World Stick) : Prop where
  frame : Frame w [] t
  ready : Ready t
  settled : Settled (store w) (¬Lossless w t) (store t)
  empty : t.drv.gCacheSectors = 0
  below : ∀ {k} n, Below k n w → Below k n t
  executes : Faultless w.dev.spec → r = 0

theorem wp_usbScsiSync {w : World Stick} (hw : Ready w) :
    Prog.wp (usbScsiSync stick) (Synced w) (fun _ => False) w := by
  rw [usbScsiSync, Prog.wp_bind]
  refine Prog.wp_mono (wp_scsiFlushCacheInternal hw) ?_ (fun _ h => h)
  intro _ t h
  refine Prog.wp_mono (wp_syncCache h.ready) ?_ (fun _ h => h)
  intro r u hu
  have hset : Settled (store w) (¬Lossless w u) (store u) :=
    hu.store ▸ h.settled.mono (h.frame.lost hu.frame)
  refine ⟨h.frame.trans hu.frame, hu.ready, hset, ?_, fun n hn => hu.below n (h.below n hn),
    fun hf => hu.executes (h.frame.spec ▸ hf)⟩
  have hsize : u.drv.gCacheSectors * 512 = 0 := hset.size_eq
  omega

end FormatStick
