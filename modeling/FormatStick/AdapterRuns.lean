import FormatStick.Adapters
import FormatStick.Progress
import FormatStick.Runs

/-!
# The file adapters follow a flat file

A transfer that the loop carries out leaves `g_cur_pos` alone, so each adapter can move its
own cursor after it. The lists of segments are written or read one segment after the other,
which is one transfer of their concatenation. A run follows the file call by call. A write
of 4 GiB at once is the end of it: the loop never returns.
-/
namespace FormatStick
open FlatFile Splice Prog Runs WriteBack

section Window

variable {d n o fuel : ℕ} {a : ℕ → UInt8} {w : World Stick}

/-- `n` bytes of a transfer went through, and the driver's cursor is at `pos`. -/
structure Went (d : ℕ) (a : ℕ → UInt8) (n : ℕ) (pos r : ℤ) (t : World Stick) : Prop where
  ret : r = n
  tracks : Tracks d a t
  pos : t.drv.gCurPos = pos

/-- The cursor is not among what the driver's invariants speak about. -/
theorem Tracks.moved (h : Tracks d a w) (pos : ℤ) :
    Tracks d a { w with drv := { w.drv with gCurPos := pos } } where
  ready := ⟨h.ready.sectorSize, h.ready.blockSize, h.ready.fill, h.ready.allocated, h.ready.reach⟩
  faultless := h.faultless
  driveOffset := h.driveOffset
  view := h.view

/-- The cached I/O leaves the cursor alone. -/
theorem cached_gCurPos {δ : Type} (P : Platform δ) (pos : ℤ) : Cached P (fun w => w.drv.gCurPos = pos) :=
  cached_of_settings P fun _ _ h hw => (congrArg Driver.gCurPos h).trans hw

theorem wp_scsiIoInternal_gCurPos (buf : Buf) (count offset : ℤ) (isWrite : Bool) :
    Prog.wp (scsiIoInternal stick fuel buf count offset isWrite) (fun _ t => t.drv.gCurPos = w.drv.gCurPos)
      (fun _ => True) w :=
  wp_mono ((keeps_io (fun _ _ h => h)
    ((cached_gCurPos stick _).transfer fuel buf count offset isWrite)).wp rfl)
    (fun _ _ h => h) fun _ _ => trivial

theorem Carried.i64_count {x : FlatFile.Transfer} (h : Carried d x) : i64 x.count = x.count := by
  obtain ⟨-, hcount⟩ := h
  apply i64_of_lt
  split_ifs at hcount <;> omega

theorem carried_read : Carried d ⟨false, o, n⟩ ↔
    (0 < n → d * 512 + o + n ≤ 2199023255552) ∧ o % 512 + n + 511 < 4294967296 := by
  simp [Carried]

theorem carried_write : Carried d ⟨true, o, n⟩ ↔
    (0 < n → d * 512 + o + n ≤ 2199023255552) ∧ n < 4294967296 := by
  simp [Carried]

theorem Carried.pread (h : Carried d ⟨false, o, n⟩) (buf : Buf) : (Op.pread buf n o).Fits d := by
  obtain ⟨hreach, hcount⟩ := carried_read.mp h
  exact ⟨by omega, by omega, by omega, fun h => by have := hreach (by omega); omega⟩

theorem Carried.pwrite (h : Carried d ⟨true, o, n⟩) (buf : Buf) : (Op.pwrite buf n o).Fits d := by
  obtain ⟨hreach, hcount⟩ := carried_write.mp h
  exact ⟨by omega, by omega, by omega, fun h => by have := hreach (by omega); omega⟩

theorem Tracks.wp_read (hw : Tracks d a w) (hfuel : 2 ^ 32 ≤ fuel) (buf : Buf)
    (hx : Carried d ⟨false, o, n⟩) :
    Prog.wp (scsiIoInternal stick fuel buf n o false)
      (fun r t => Went d a n w.drv.gCurPos r.1 t ∧ bytes r.2 n = cells a o n) (fun _ => False) w := by
  have hrun := hw.wp_runOp hfuel (hx.pread buf)
  simp only [runOp, Prog.wp_bind, Prog.wp_pure] at hrun
  refine wp_mono (wp_with hrun (wp_scsiIoInternal_gCurPos buf n o false)) ?_ (fun _ h => h)
  rintro r t ⟨⟨-, hr, ht⟩, hpos⟩
  simp only [FlatArray.result, Int.toNat_natCast, Prod.mk.injEq] at hr
  exact ⟨⟨hr.1, ht, hpos⟩, hr.2⟩

theorem Tracks.wp_write (hw : Tracks d a w) (hfuel : 2 ^ 32 ≤ fuel) (buf : Buf)
    (hx : Carried d ⟨true, o, n⟩) :
    Prog.wp (scsiIoInternal stick fuel buf n o true)
      (fun r t => Went d (splice a o buf n) n w.drv.gCurPos r.1 t) (fun _ => False) w := by
  have hrun := hw.wp_runOp hfuel (hx.pwrite buf)
  simp only [runOp, usbScsiPwriteInternal, Prog.wp_bind, Prog.wp_pure] at hrun
  refine wp_mono (wp_with hrun (wp_scsiIoInternal_gCurPos buf n o true)) ?_ (fun _ h => h)
  rintro r t ⟨⟨-, hr, ht⟩, hpos⟩
  simp only [FlatArray.result, Prod.mk.injEq] at hr
  exact ⟨hr.1, ht, hpos⟩

theorem Tracks.wp_sync (hw : Tracks d a w) :
    Prog.wp (usbScsiSync stick)
      (fun r t => Went d a 0 w.drv.gCurPos r t ∧ ∀ i, t.dev.medium (i + d * 512) = a i)
        (fun _ => False) w := by
  have hpos : Prog.wp (usbScsiSync stick) (fun _ t => t.drv.gCurPos = w.drv.gCurPos) (fun _ => True) w :=
    wp_mono ((cached_gCurPos stick _).direct.usbScsiSync.wp rfl) (fun _ _ h => h) fun _ _ => trivial
  refine wp_mono (wp_with (wp_usbScsiSync hw.ready) hpos) (fun r t ht => ?_) fun _ h => h
  obtain ⟨hsync, hpos⟩ := ht
  have hlossless : Lossless w t := hsync.frame.lossless hw.faultless
  have hview : (store t).view = (store w).view := hsync.settled.view_eq (not_not_intro hlossless)
  have hempty : (store t).view = t.dev.medium := Store.view_of_empty hsync.settled.size_eq
  refine ⟨⟨hsync.executes hw.faultless, ⟨hsync.ready, hsync.frame.spec ▸ hw.faultless, ?_, fun i => ?_⟩,
    hpos⟩, fun i => ?_⟩
  · exact hsync.frame.driveOffset.trans hw.driveOffset
  · rw [hview]
    exact hw.view i
  · rw [← hempty, hview]
    exact hw.view i

/-- An allocation does not touch the window, and a faultless stick has memory. -/
theorem wp_malloc_stick (hw : Tracks d a w) :
    Prog.wp (malloc stick) (fun r t => r = true ∧ Tracks d a t) (fun _ => False) w := by
  have hready := hw.ready
  refine ⟨hw.faultless.heap _,
    ⟨hready.sectorSize, hready.blockSize, hready.fill, hready.allocated, hready.reach⟩, hw.faultless,
    hw.driveOffset, hw.view⟩

/-- A transfer leaves alone what is in front of the window. -/
theorem Tracks.wp_front (hw : Tracks d a w) (hfuel : 2 ^ 32 ≤ fuel) (buf : Buf) {x : FlatFile.Transfer}
    (hx : Carried d x) :
    Prog.wp (scsiIoInternal stick fuel buf x.count x.offset x.isWrite)
      (fun _ t => ∀ i < d * 512, (store t).view i = (store w).view i) (fun _ => True) w := by
  have hbelow : ∀ {op : Op} {r : Result} {t : World Stick}, OpDone w op r t →
      ∀ i < d * 512, (store t).view i = (store w).view i := by
    intro op r t ht i hi
    obtain ⟨rs, hframe⟩ := ht.frame
    exact ht.below i (hw.driveOffset.symm ▸ hi) (hframe.lossless hw.faultless)
  obtain ⟨isWrite, o, n⟩ := x
  cases isWrite with
  | false =>
    have hrun := hw.wp_runOp hfuel (hx.pread buf)
    simp only [runOp, Prog.wp_bind, Prog.wp_pure] at hrun
    exact wp_mono hrun (fun r t ht => hbelow ht.1) fun _ _ => trivial
  | true =>
    have hrun := hw.wp_runOp hfuel (hx.pwrite buf)
    simp only [runOp, usbScsiPwriteInternal, Prog.wp_bind, Prog.wp_pure] at hrun
    exact wp_mono hrun (fun r t ht => hbelow ht.1) fun _ _ => trivial

/-- Reads and writes at the driver's cursor. -/
theorem wp_atCursor {io : ℤ → Prog (World Stick) (ℤ × Buf)} {R : Buf → Prop}
    (h : Prog.wp (io w.drv.gCurPos) (fun r t => Went d a n w.drv.gCurPos r.1 t ∧ R r.2) (fun _ => False) w) :
    Prog.wp (atCursor io) (fun r t => Went d a n (w.drv.gCurPos + n) r.1 t ∧ R r.2) (fun _ => False) w := by
  rw [atCursor, wp_bind, wp_globals, wp_bind]
  refine wp_mono h (fun r t ht => wp_ite (fun hpos => ?_) fun hzero => ?_) fun _ h => h
  · rw [wp_bind, wp_assign]
    exact ⟨⟨ht.1.ret, ht.1.tracks.moved _, by rw [ht.1.ret, ht.1.pos]⟩, ht.2⟩
  · have hn : (n : ℤ) = 0 := by
      have := ht.1.ret
      omega
    exact ⟨⟨ht.1.ret, ht.1.tracks, by rw [hn, ht.1.pos, Int.add_zero]⟩, ht.2⟩

/-- Transfers at the position of an `exfat_dev`. -/
theorem wp_transferred {s : Exfat.Device Stick} {pos x : ℤ} {io : Prog (World Stick) (ℤ × Buf)}
    {R : Buf → Prop}
    (hs : s.2 = some pos) (h : Prog.wp io (fun r t => Went d a n x r.1 t ∧ R r.2) (fun _ => False) s.1) :
    Prog.wp (Exfat.transferred pos io)
      (fun r t => Went d a n x r.1 t.1 ∧ t.2 = some (pos + n) ∧ R r.2) (fun _ => False) s := by
  rw [Exfat.transferred, wp_bind, wp_left]
  refine wp_mono h (fun r t ht => wp_ite (fun hpos => ?_) fun hzero => ?_) fun _ h => h
  · exact ⟨ht.1, by rw [ht.1.ret], ht.2⟩
  · have hn : (n : ℤ) = 0 := by
      have := ht.1.ret
      omega
    exact ⟨ht.1, by rw [hn, Int.add_zero]; exact hs, ht.2⟩

/-- The cursor does not show in the world. -/
theorem wp_transferred_world {s : Exfat.Device Stick} {pos : ℤ} {io : Prog (World Stick) (ℤ × Buf)}
    {F : World Stick → Prop}
    (h : Prog.wp io (fun _ t => F t) (fun _ => True) s.1) :
    Prog.wp (Exfat.transferred pos io) (fun _ t => F t.1) (fun _ => True) s := by
  rw [Exfat.transferred, wp_bind, wp_left]
  exact wp_mono h (fun r t ht => wp_ite (fun _ => ht) fun _ => ht) fun _ _ => trivial

/-- Transfers at `g_udf_usb_offset`. -/
theorem wp_atUsbOffset {s : World Stick × ℤ} {x : ℤ} {io : ℤ → Prog (World Stick) (ℤ × Buf)} {R : Buf → Prop}
    (h : Prog.wp (io s.2) (fun r t => Went d a n x r.1 t ∧ R r.2) (fun _ => False) s.1) :
    Prog.wp (atUsbOffset io) (fun r t => Went d a n x r.1 t.1 ∧ t.2 = s.2 + n ∧ R r.2)
      (fun _ => False) s := by
  rw [atUsbOffset, wp_bind, wp_read, wp_bind, wp_left]
  refine wp_mono h (fun r t ht => wp_ite (fun hpos => ?_) fun hzero => ?_) fun _ h => h
  · exact ⟨ht.1, by rw [ht.1.ret], ht.2⟩
  · have hn : (n : ℤ) = 0 := by
      have := ht.1.ret
      omega
    exact ⟨ht.1, by rw [hn, Int.add_zero], ht.2⟩

end Window

section Vectors

variable {d o fuel : ℕ} {a : ℕ → UInt8} {w : World Stick} {vs : List Iovec}

/-- A write at the cursor. -/
theorem Tracks.wp_usbScsiWriteInternal {n : ℕ} (hw : Tracks d a w) (hfuel : 2 ^ 32 ≤ fuel)
    (hpos : w.drv.gCurPos = (o : ℤ))
    (buf : Buf) (hx : Carried d ⟨true, o, n⟩) :
    Prog.wp (usbScsiWriteInternal stick fuel buf (i64 n)) (Went d (splice a o buf n) n (o + n))
      (fun _ => False) w := by
  have hwrite := hw.wp_write hfuel buf hx
  rw [← hpos] at hwrite ⊢
  rw [usbScsiWriteInternal, wp_bind, hx.i64_count]
  refine wp_mono (wp_atCursor (R := fun _ => True) ?_) (fun r t ht => ht.1) fun _ h => h
  exact wp_mono hwrite (fun r t ht => ⟨ht, trivial⟩) fun _ h => h

theorem wp_xfsWritevLoop (hw : Tracks d a w) (hfuel : 2 ^ 32 ≤ fuel) (hpos : w.drv.gCurPos = (o : ℤ))
    (hvs : ∀ x ∈ transfersFrom true o vs, Carried d x) (total : ℕ) :
    Prog.wp (xfsWritevLoop stick fuel vs total)
      (Went d (splice a o (gather vs).base (gather vs).len) (total + (gather vs).len) (o + (gather vs).len))
      (fun _ => False) w := by
  induction vs generalizing w a o total with
  | nil => exact ⟨by simp [gather], by simpa [gather] using hw, by simpa [gather] using hpos⟩
  | cons v vs ih =>
    rw [xfsWritevLoop, wp_bind]
    refine wp_mono (hw.wp_usbScsiWriteInternal hfuel hpos v.base (hvs _ List.mem_cons_self))
      (fun r t ht => ?_) fun _ h => h
    refine wp_ite (fun hneg => ?_) fun _ => ?_
    · have := ht.ret
      omega
    · have hrest := ih ht.tracks (by rw [ht.pos]; rfl)
        (fun x hx => hvs x (List.mem_cons_of_mem _ hx)) (total + v.len)
      rw [splice_gather] at hrest
      rw [ht.ret]
      refine wp_mono hrest (fun r u hu => ⟨?_, hu.tracks, ?_⟩) fun _ h => h
      · rw [hu.ret]
        simp [gather, Int.add_assoc]
      · rw [hu.pos]
        simp [gather, Int.add_assoc]

theorem wp_xfsPwritevLoop (hw : Tracks d a w) (hfuel : 2 ^ 32 ≤ fuel)
    (hvs : ∀ x ∈ transfersFrom true o vs, Carried d x) (total : ℕ) :
    Prog.wp (xfsPwritevLoop stick fuel vs o total)
      (Went d (splice a o (gather vs).base (gather vs).len) (total + (gather vs).len) w.drv.gCurPos)
      (fun _ => False) w := by
  induction vs generalizing w a o total with
  | nil => exact ⟨by simp [gather], by simpa [gather] using hw, rfl⟩
  | cons v vs ih =>
    have hv : Carried d ⟨true, o, v.len⟩ := hvs _ List.mem_cons_self
    rw [xfsPwritevLoop, wp_bind, usbScsiPwriteInternal, wp_bind, hv.i64_count]
    refine wp_mono (hw.wp_write hfuel v.base hv) (fun r t ht => ?_) fun _ h => h
    refine wp_ite (fun hneg => ?_) fun _ => ?_
    · have := ht.ret
      omega
    · have hrest := ih ht.tracks (fun x hx => hvs x (List.mem_cons_of_mem _ hx)) (total + v.len)
      rw [splice_gather, ht.pos] at hrest
      rw [ht.ret]
      refine wp_mono hrest (fun r u hu => ⟨?_, hu.tracks, hu.pos⟩) fun _ h => h
      rw [hu.ret]
      simp [gather, Int.add_assoc]

theorem wp_xfsPreadvLoop (hw : Tracks d a w) (hfuel : 2 ^ 32 ≤ fuel)
    (hvs : ∀ x ∈ transfersFrom false o vs, Carried d x) (total : ℕ) :
    Prog.wp (xfsPreadvLoop stick fuel vs o total)
      (fun r t => Went d a (total + (gather vs).len) w.drv.gCurPos r.1 t ∧ scattered vs r.2 =
        cells a o (gather vs).len)
      (fun _ => False) w := by
  induction vs generalizing w o total with
  | nil => exact ⟨⟨by simp [gather], hw, rfl⟩, rfl⟩
  | cons v vs ih =>
    have hv : Carried d ⟨false, o, v.len⟩ := hvs _ List.mem_cons_self
    rw [xfsPreadvLoop, wp_bind, usbScsiPreadInternal, hv.i64_count]
    refine wp_mono (hw.wp_read hfuel v.base hv) (fun r t ht => ?_) fun _ h => h
    refine wp_ite (fun hneg => ?_) fun _ => ?_
    · have := ht.1.ret
      omega
    · have hrest := ih ht.1.tracks (fun x hx => hvs x (List.mem_cons_of_mem _ hx)) (total + v.len)
      rw [ht.1.pos] at hrest
      rw [wp_bind, ht.1.ret]
      refine wp_mono hrest (fun r u hu => ⟨⟨?_, hu.1.tracks, hu.1.pos⟩, ?_⟩) fun _ h => h
      · dsimp only
        rw [hu.1.ret]
        simp [gather, Int.add_assoc]
      · have hcells := hu.2
        rw [scattered] at hcells ⊢
        rw [List.zipWith_cons_cons, List.flatten_cons, ht.2, hcells]
        exact (cells_add a o v.len (gather vs).len).symm

end Vectors

section Calls

variable {σ : Type} {D I : σ → Prop} {s : σ}

theorem wp_returning {m : Prog σ ℤ} {n : ℤ} (h : Prog.wp m (fun r t => r = n ∧ I t) D s) :
    Prog.wp (returning m) (fun r t => r = (n, []) ∧ I t) D s := by
  rw [returning, wp_bind]
  exact wp_mono h (fun r t ht => ⟨by rw [ht.1], ht.2⟩) fun _ h => h

theorem wp_delivering {m : Prog σ (ℤ × Buf)} {n : ℕ} {l : List UInt8}
    (h : Prog.wp m (fun r t => r.1 = n ∧ bytes r.2 n = l ∧ I t) D s) :
    Prog.wp (delivering m) (fun r t => r = ((n : ℤ), l) ∧ I t) D s := by
  rw [delivering, wp_bind]
  refine wp_mono h (fun r t ht => ⟨?_, ht.2.2⟩) fun _ h => h
  rw [ht.1, Int.toNat_natCast, ht.2.1]

theorem wp_scattering {iov : List Iovec} {m : Prog σ (ℤ × List Buf)} {data : ℕ → UInt8} {o n : ℕ}
    (h : Prog.wp m (fun r t => r.1 = n ∧ scattered iov r.2 = cells data o n ∧ I t) D s) :
    Prog.wp (scattering iov m) (fun r t => r = ((n : ℤ), cells data o n) ∧ I t) D s := by
  rw [scattering, wp_bind]
  refine wp_mono h (fun r t ht => ⟨?_, ht.2.2⟩) fun _ h => h
  rw [ht.1, Int.toNat_natCast, ht.2.1, List.take_of_length_le (by simp [cells])]

end Calls

section CurPos

variable {d fuel : ℕ} {f : File UInt8} {c : Call UInt8} {w : World Stick} {v : Segment UInt8}

/-- The driver's cursor is that of the file. -/
structure AtCurPos (d : ℕ) (f : File UInt8) (w : World Stick) : Prop where
  tracks : Tracks d f.data w
  pos : w.drv.gCurPos = (f.cursor : ℤ)

theorem wp_seekIn_set (hw : AtCurPos d f w) (size : Driver → ℤ) {o : ℤ} (hc : (Call.seekSet o).SeeksIn f) :
    Prog.wp (returning (seekIn size o seekSet))
      (fun r t => r = f.result (.seekSet o) ∧ AtCurPos d (f.step (.seekSet o)) t) (fun _ => False) w := by
  obtain ⟨hlow, -⟩ := hc
  exact wp_returning ⟨rfl, hw.tracks.moved _, (Int.toNat_of_nonneg hlow).symm⟩

theorem wp_seekIn_cur (hw : AtCurPos d f w) (size : Driver → ℤ) {o : ℤ} (hc : (Call.seekCur o).SeeksIn f) :
    Prog.wp (returning (seekIn size o seekCur))
      (fun r t => r = f.result (.seekCur o) ∧ AtCurPos d (f.step (.seekCur o)) t) (fun _ => False) w := by
  obtain ⟨hlow, -⟩ := hc
  have hsum : w.drv.gCurPos + o = f.cursor + o := by rw [hw.pos]
  exact wp_returning ⟨hsum, hw.tracks.moved _, hsum.trans (Int.toNat_of_nonneg hlow).symm⟩

theorem wp_read_atCursor (hw : AtCurPos d f w) (hfuel : 2 ^ 32 ≤ fuel) (hc : Serviceable d f (.read v)) :
    Prog.wp (delivering (atCursor fun pos => scsiIoInternal stick fuel v.base v.len pos false))
      (fun r t => r = f.result (.read v) ∧ AtCurPos d (f.step (.read v)) t) (fun _ => False) w := by
  have hin := hc.inside _ List.mem_cons_self
  have hread := hw.tracks.wp_read hfuel v.base (hc.carried _ List.mem_cons_self)
  rw [← hw.pos] at hread
  simp only [File.result, File.step, File.readAt_of_inside hin, File.amount_of_inside hin, File.moveTo_add]
  refine wp_delivering (wp_mono
    (wp_atCursor (R := fun b => bytes b v.len = cells f.data f.cursor v.len) hread)
    (fun r t ht => ?_) fun _ h => h)
  exact ⟨ht.1.ret, ht.2, ht.1.tracks, by rw [ht.1.pos, hw.pos]; rfl⟩

theorem wp_write_atCursor (hw : AtCurPos d f w) (hfuel : 2 ^ 32 ≤ fuel) (hc : Serviceable d f (.write v)) :
    Prog.wp (returning (usbScsiWriteInternal stick fuel v.base v.len))
      (fun r t => r = f.result (.write v) ∧ AtCurPos d (f.step (.write v)) t) (fun _ => False) w := by
  have hin := hc.inside _ List.mem_cons_self
  have hx := hc.carried _ List.mem_cons_self
  have hwrite := hw.tracks.wp_usbScsiWriteInternal hfuel hw.pos v.base hx
  rw [hx.i64_count] at hwrite
  simp only [File.result, File.step, File.writeAt_of_inside hin, File.amount_of_inside hin, File.moveTo_add]
  exact wp_returning (wp_mono hwrite (fun r t ht => ⟨ht.ret, ht.tracks, ht.pos⟩) fun _ h => h)

/-- A positional read leaves the driver as it is, seen through the window. -/
theorem wp_pread_file {o : ℕ} {x : ℤ} (hw : Tracks d f.data w) (hpos : w.drv.gCurPos = x)
    (hfuel : 2 ^ 32 ≤ fuel)
    (hc : Serviceable d f (.pread v o)) :
    Prog.wp (delivering (scsiIoInternal stick fuel v.base v.len o false))
      (fun r t => r = f.result (.pread v o) ∧ Tracks d f.data t ∧ t.drv.gCurPos = x) (fun _ => False) w := by
  simp only [File.result, File.readAt_of_inside (hc.inside _ List.mem_cons_self)]
  refine wp_delivering (wp_mono (hw.wp_read hfuel v.base (hc.carried _ List.mem_cons_self)) (fun r t ht => ?_)
    fun _ h => h)
  exact ⟨ht.1.ret, ht.2, ht.1.tracks, ht.1.pos.trans hpos⟩

theorem wp_pwrite_file {o : ℕ} {x : ℤ} (hw : Tracks d f.data w) (hpos : w.drv.gCurPos = x)
    (hfuel : 2 ^ 32 ≤ fuel)
    (hc : Serviceable d f (.pwrite v o)) :
    Prog.wp (returning (usbScsiPwriteInternal stick fuel v.base v.len o))
      (fun r t => r = f.result (.pwrite v o) ∧ Tracks d (f.step (.pwrite v o)).data t ∧ t.drv.gCurPos = x)
      (fun _ => False) w := by
  have hin := hc.inside _ List.mem_cons_self
  simp only [File.result, File.step, File.writeAt_of_inside hin, File.amount_of_inside hin]
  refine wp_returning ?_
  rw [usbScsiPwriteInternal, wp_bind]
  exact wp_mono (hw.wp_write hfuel v.base (hc.carried _ List.mem_cons_self))
    (fun r t ht => ⟨ht.ret, ht.tracks, ht.pos.trans hpos⟩) fun _ h => h

theorem wp_sync_file (hw : AtCurPos d f w) :
    Prog.wp (returning (usbScsiSync stick)) (fun r t => r = f.result .sync ∧ AtCurPos d (f.step .sync) t)
      (fun _ => False) w :=
  wp_returning (wp_mono hw.tracks.wp_sync (fun _ _ ht => ⟨ht.1.ret, ht.1.tracks, ht.1.pos.trans hw.pos⟩)
    fun _ h => h)

/-- The calls of NTFS. -/
theorem wp_ntfsCall (hw : AtCurPos d f w) (hfuel : 2 ^ 32 ≤ fuel) (hoffers : Adapter.ntfs.Offers c)
    (hc : Serviceable d f c) :
    Prog.wp (ntfsCall stick fuel c) (fun r t => r = f.result c ∧ AtCurPos d (f.step c) t)
      (fun _ => False) w := by
  cases c with
  | seekSet o => exact wp_seekIn_set hw _ hc.seeksIn
  | seekCur o => exact wp_seekIn_cur hw _ hc.seeksIn
  | read v => exact wp_read_atCursor hw hfuel hc
  | write v => exact wp_write_atCursor hw hfuel hc
  | pread v o =>
    exact wp_mono (wp_pread_file hw.tracks hw.pos hfuel hc) (fun r t ht => ⟨ht.1, ht.2.1, ht.2.2⟩)
      fun _ h => h
  | pwrite v o =>
    exact wp_mono (wp_pwrite_file hw.tracks hw.pos hfuel hc) (fun r t ht => ⟨ht.1, ht.2.1, ht.2.2⟩)
      fun _ h => h
  | writev vs => exact hoffers.elim
  | pwritev vs o => exact hoffers.elim
  | preadv vs o => exact hoffers.elim
  | sync => exact wp_sync_file hw

/-- The calls of XFS. -/
theorem wp_xfsCall (hw : AtCurPos d f w) (hfuel : 2 ^ 32 ≤ fuel) (hc : Serviceable d f c) :
    Prog.wp (xfsCall stick fuel c) (fun r t => r = f.result c ∧ AtCurPos d (f.step c) t)
      (fun _ => False) w := by
  cases c with
  | seekSet o => exact wp_seekIn_set hw _ hc.seeksIn
  | seekCur o => exact wp_seekIn_cur hw _ hc.seeksIn
  | read v =>
    rw [xfsCall, (hc.carried _ List.mem_cons_self).i64_count]
    exact wp_read_atCursor hw hfuel hc
  | write v =>
    rw [xfsCall, (hc.carried _ List.mem_cons_self).i64_count]
    exact wp_write_atCursor hw hfuel hc
  | pread v o =>
    rw [xfsCall, (hc.carried _ List.mem_cons_self).i64_count]
    exact wp_mono (wp_pread_file hw.tracks hw.pos hfuel hc) (fun r t ht => ⟨ht.1, ht.2.1, ht.2.2⟩)
      fun _ h => h
  | pwrite v o =>
    rw [xfsCall, (hc.carried _ List.mem_cons_self).i64_count]
    exact wp_mono (wp_pwrite_file hw.tracks hw.pos hfuel hc) (fun r t ht => ⟨ht.1, ht.2.1, ht.2.2⟩)
      fun _ h => h
  | writev vs =>
    have hin := inside_gather hc.inside
    simp only [File.result, File.step, File.writeAt_of_inside hin, File.amount_of_inside hin, File.moveTo_add]
    refine wp_returning (wp_mono (wp_xfsWritevLoop hw.tracks hfuel hw.pos hc.carried 0) (fun r t ht => ?_)
      fun _ h => h)
    exact ⟨by rw [ht.ret, Nat.zero_add], ht.tracks, ht.pos⟩
  | pwritev vs o =>
    have hin := inside_gather hc.inside
    simp only [File.result, File.step, File.writeAt_of_inside hin, File.amount_of_inside hin]
    refine wp_returning (wp_mono (wp_xfsPwritevLoop hw.tracks hfuel hc.carried 0) (fun r t ht => ?_)
      fun _ h => h)
    exact ⟨by rw [ht.ret, Nat.zero_add], ht.tracks, ht.pos.trans hw.pos⟩
  | preadv vs o =>
    simp only [File.result, File.step, File.readAt_of_inside (inside_gather hc.inside)]
    refine wp_scattering (wp_mono (wp_xfsPreadvLoop hw.tracks hfuel hc.carried 0) (fun r t ht => ?_)
      fun _ h => h)
    exact ⟨by rw [ht.1.ret, Nat.zero_add], ht.2, ht.1.tracks, ht.1.pos.trans hw.pos⟩
  | sync => exact wp_sync_file hw

end CurPos

section Own

variable {d fuel : ℕ} {f : File UInt8} {c : Call UInt8}

/-- The calls of exFAT. -/
theorem wp_exfatCall (p : Exfat.Params) {s : Exfat.Device Stick} (hs : Tracks d f.data s.1)
    (hpos : s.2 = some (f.cursor : ℤ)) (hfuel : 2 ^ 32 ≤ fuel) (hoffers : (Adapter.exfat p).Offers c)
    (hc : Serviceable d f c) :
    Prog.wp (exfatCall stick fuel p c)
      (fun r t => r = f.result c ∧ Tracks d (f.step c).data t.1 ∧ t.2 = some ((f.step c).cursor : ℤ))
        (fun _ => False) s := by
  have hat : ∀ {α : Type} {g : ℤ → Prog (Exfat.Device Stick) α} {Q : α → Exfat.Device Stick → Prop},
      Prog.wp (g f.cursor) Q (fun _ => False) s → Prog.wp (Exfat.atPosition g) Q (fun _ => False) s := by
    intro α g Q h
    rw [Exfat.atPosition, wp_bind, wp_read, hpos]
    exact h
  cases c with
  | seekSet o =>
    refine wp_returning (hat ⟨rfl, hs, ?_⟩)
    exact congrArg some (Int.toNat_of_nonneg hc.seeksIn.1).symm
  | seekCur o =>
    refine wp_returning (hat ⟨rfl, hs, ?_⟩)
    exact congrArg some (Int.toNat_of_nonneg hc.seeksIn.1).symm
  | read v =>
    have hin := hc.inside _ List.mem_cons_self
    have hx := hc.carried _ List.mem_cons_self
    simp only [File.result, File.step, File.readAt_of_inside hin, File.amount_of_inside hin, File.moveTo_add]
    refine wp_delivering (hat ?_)
    rw [usbScsiPreadInternal, hx.i64_count]
    refine wp_mono (wp_transferred (R := fun b => bytes b v.len = cells f.data f.cursor v.len) hpos
      (hs.wp_read hfuel v.base hx)) (fun r t ht => ?_) fun _ h => h
    exact ⟨ht.1.ret, ht.2.2, ht.1.tracks, ht.2.1⟩
  | write v =>
    have hin := hc.inside _ List.mem_cons_self
    have hx := hc.carried _ List.mem_cons_self
    simp only [File.result, File.step, File.writeAt_of_inside hin, File.amount_of_inside hin, File.moveTo_add]
    refine wp_returning (hat ?_)
    rw [wp_bind, hx.i64_count]
    refine wp_mono (wp_transferred (R := fun _ => True) hpos (wp_mono (hs.wp_write hfuel v.base hx)
      (fun r t ht => ⟨ht, trivial⟩) fun _ h => h)) (fun r t ht => ?_) fun _ h => h
    exact ⟨ht.1.ret, ht.1.tracks, ht.2.1⟩
  | pread v o =>
    have hread := wp_pread_file hs rfl hfuel hc
    rw [delivering, wp_bind] at hread
    rw [exfatCall, (hc.carried _ List.mem_cons_self).i64_count, delivering, wp_bind,
      Exfat.exfatPread, wp_left]
    exact wp_mono hread (fun r t ht => ⟨ht.1, ht.2.1, hpos⟩) fun _ h => h
  | pwrite v o =>
    have hwrite := wp_pwrite_file hs rfl hfuel hc
    rw [returning, wp_bind] at hwrite
    rw [exfatCall, (hc.carried _ List.mem_cons_self).i64_count, returning, wp_bind,
      Exfat.exfatPwrite, wp_left]
    exact wp_mono hwrite (fun r t ht => ⟨ht.1, ht.2.1, hpos⟩) fun _ h => h
  | writev vs => exact hoffers.elim
  | pwritev vs o => exact hoffers.elim
  | preadv vs o => exact hoffers.elim
  | sync => exact wp_returning ⟨rfl, hs, hpos⟩

/-- The calls of UDF. -/
theorem wp_udfCall {s : World Stick × ℤ} (hs : Tracks d f.data s.1) (hpos : s.2 = (f.cursor : ℤ))
    (hfuel : 2 ^ 32 ≤ fuel) (hoffers : Adapter.udf.Offers c) (hc : Serviceable d f c) :
    Prog.wp (udfCall stick fuel c)
      (fun r t => r = f.result c ∧ Tracks d (f.step c).data t.1 ∧ t.2 = ((f.step c).cursor : ℤ))
        (fun _ => False) s := by
  cases c with
  | seekSet o =>
    refine wp_returning ⟨rfl, hs, ?_⟩
    exact (Int.toNat_of_nonneg hc.seeksIn.1).symm
  | seekCur o =>
    have hsum : s.2 + o = f.cursor + o := by rw [hpos]
    refine wp_returning ⟨hsum, hs, ?_⟩
    exact hsum.trans (Int.toNat_of_nonneg hc.seeksIn.1).symm
  | read v =>
    have hin := hc.inside _ List.mem_cons_self
    have hx := hc.carried _ List.mem_cons_self
    have hread := hs.wp_read hfuel v.base hx
    rw [← hpos] at hread
    simp only [File.result, File.step, File.readAt_of_inside hin, File.amount_of_inside hin, File.moveTo_add]
    rw [udfCall, udfReadNointr, hx.i64_count]
    refine wp_delivering (wp_mono
      (wp_atUsbOffset (R := fun b => bytes b v.len = cells f.data f.cursor v.len) hread)
      (fun r t ht => ?_) fun _ h => h)
    exact ⟨ht.1.ret, ht.2.2, ht.1.tracks, by rw [ht.2.1, hpos]; rfl⟩
  | write v =>
    have hin := hc.inside _ List.mem_cons_self
    have hx := hc.carried _ List.mem_cons_self
    have hwrite := hs.wp_write hfuel v.base hx
    rw [← hpos] at hwrite
    simp only [File.result, File.step, File.writeAt_of_inside hin, File.amount_of_inside hin, File.moveTo_add]
    rw [udfCall, udfWriteNointr, hx.i64_count]
    refine wp_returning ?_
    rw [wp_bind]
    refine wp_mono (wp_atUsbOffset (R := fun _ => True)
      (wp_mono hwrite (fun r t ht => ⟨ht, trivial⟩) fun _ h => h))
      (fun r t ht => ?_) fun _ h => h
    exact ⟨ht.1.ret, ht.1.tracks, by rw [ht.2.1, hpos]; rfl⟩
  | pread v o => exact hoffers.elim
  | pwrite v o => exact hoffers.elim
  | writev vs => exact hoffers.elim
  | pwritev vs o => exact hoffers.elim
  | preadv vs o => exact hoffers.elim
  | sync => exact hoffers.elim

end Own

section Runs

variable {A : Adapter} {d fuel : ℕ} {f : File UInt8} {s : World Stick × A.Own}

/-- One call of an adapter does what the file does. -/
theorem Adapter.Backs.wp_call {c : Call UInt8} (hs : A.Backs d f s) (hfuel : 2 ^ 32 ≤ fuel)
    (hoffers : A.Offers c)
    (hc : Serviceable d f c) :
    Prog.wp (A.call stick fuel c) (fun r t => r = f.result c ∧ A.Backs d (f.step c) t)
      (fun _ => False) s := by
  obtain ⟨hw, hpos⟩ := hs
  cases A with
  | ntfs =>
    rw [Adapter.call, wp_left]
    refine wp_mono (wp_ntfsCall ⟨hw, Option.some.inj hpos⟩ hfuel hoffers hc) (fun r t ht => ?_) fun _ h => h
    exact ⟨ht.1, ht.2.tracks, congrArg some ht.2.pos⟩
  | xfs =>
    rw [Adapter.call, wp_left]
    refine wp_mono (wp_xfsCall ⟨hw, Option.some.inj hpos⟩ hfuel hc) (fun r t ht => ?_) fun _ h => h
    exact ⟨ht.1, ht.2.tracks, congrArg some ht.2.pos⟩
  | exfat p =>
    exact wp_mono (wp_exfatCall p hw hpos hfuel hoffers hc) (fun r t ht => ⟨ht.1, ht.2.1, ht.2.2⟩)
      fun _ h => h
  | udf =>
    refine wp_mono (wp_udfCall hw (Option.some.inj hpos) hfuel hoffers hc) (fun r t ht => ?_) fun _ h => h
    exact ⟨ht.1, ht.2.1, congrArg some ht.2.2⟩

/-- A run of calls does what the file does, call by call. -/
theorem Adapter.Backs.wp_run {cs : List (Call UInt8)} (hs : A.Backs d f s) (hfuel : 2 ^ 32 ≤ fuel)
    (hoffers : ∀ c ∈ cs, A.Offers c) (hcs : Along File.step (Serviceable d) f cs) :
    Prog.wp (A.run stick fuel cs)
      (fun rs t => rs = (f.results cs).map (fun r => (r.1, some (r.2 : ℤ))) ∧ A.Backs d (f.after cs) t)
      (fun _ => False) s := by
  induction cs generalizing f s with
  | nil => exact ⟨rfl, hs⟩
  | cons c cs ih =>
    rw [Adapter.run, wp_bind]
    refine wp_mono (hs.wp_call hfuel (hoffers c List.mem_cons_self) hcs.1) (fun r t ht => ?_) fun _ h => h
    rw [wp_bind, wp_read, wp_bind]
    refine wp_mono (ih ht.2 (fun c' hc' => hoffers c' (List.mem_cons_of_mem _ hc')) hcs.2) (fun rs u hu => ?_)
      fun _ h => h
    refine ⟨?_, hu.2⟩
    rw [hu.1, ht.1, ht.2.cursor]
    rfl

/-- Each adapter is a flat file on its window, as long as the loop carries out every transfer. -/
theorem adapter_follows {cs : List (Call UInt8)} (hs : A.Backs d f s) (hoffers : ∀ c ∈ cs, A.Offers c)
    (hcs : Along File.step (Serviceable d) f cs) : A.Follows d f s cs := by
  obtain ⟨rs, t, hrun, rfl, ht⟩ := wp_returns (hs.wp_run (Nat.le_refl (2 ^ 32)) hoffers hcs)
  obtain ⟨r, u, hsync, hu, hmedium⟩ := wp_returns ht.tracks.wp_sync
  obtain rfl : r = 0 := hu.ret
  refine ⟨2 ^ 32, t, u, hrun, hsync, fun i => ?_⟩
  rw [Nat.add_comm]
  exact hmedium i

end Runs

/-- Segments of every kind, an empty one among them, across the boundaries of sectors. -/
theorem adapter_follows_vectors :
    let f : File UInt8 := ⟨fun _ => 1, 1048576, 0⟩
    let cs : List (Call UInt8) := [.seekSet 100, .write ⟨fun _ => 2, 3000⟩,
      .pwritev [⟨fun _ => 3, 5⟩, ⟨fun _ => 4, 0⟩, ⟨fun _ => 5, 7⟩] 2500, .seekCur (-605), .sync,
      .read ⟨zeros, 4⟩,
      .preadv [⟨zeros, 2⟩, ⟨zeros, 0⟩, ⟨zeros, 9⟩] 2503]
    Adapter.xfs.Follows 4096 f (onesStick, ()) cs ∧
      (f.results cs).map (fun r => (r.1.1, r.2)) =
        [(100, 100), (3000, 3100), (12, 3100), (2495, 2495), (0, 2495),
        (4, 2499), (11, 2499)] ∧
      ((f.results cs).map fun r => r.1.2).getLast? = some [3, 3, 5, 5, 5, 5, 5, 5, 5, 2, 2] := by
  intro f cs
  have hidle : Idle onesStick := ⟨rfl, rfl, rfl⟩
  refine ⟨adapter_follows ⟨?_, rfl⟩ (fun _ _ => trivial) ?_, by decide, by decide⟩
  · exact hidle.tracks ⟨fun _ => rfl, fun _ => rfl⟩
  · simp only [f, cs, Along, File.step, File.moveTo, File.writeAt, and_true]
    refine ⟨⟨?_, ?_, ?_⟩, ⟨?_, ?_, ?_⟩, ⟨?_, ?_, ?_⟩, ⟨?_, ?_, ?_⟩, ⟨?_, ?_, ?_⟩, ⟨?_, ?_, ?_⟩,
      ⟨?_, ?_, ?_⟩⟩ <;>
      simp [Call.SeeksIn, Call.transfers, transfersFrom, Transfer.Inside, Carried, File.amount]

/-- A write of 4 GiB or more never returns, even from a faultless stick. -/
theorem wp_scsiIoInternal_write_stuck {w : World Stick} (hw : Ready w) (hf : Faultless w.dev.spec)
    {count o : ℕ}
    (hreach : Reach w o count) (hlong : 4294967296 ≤ count) (buf : Buf) (fuel : ℕ) :
    Prog.wp (scsiIoInternal stick fuel buf count o true) (fun _ _ => False) (fun _ => True) w := by
  let w' : World Stick := { w with requests := w.requests ++ [⟨buf, count, o, true⟩] }
  obtain ⟨hactual, hbelow⟩ := hreach.actual (by omega)
  simp only [scsiIoInternal, wp_bind, wp_update, wp_globals, hw.sectorSize, hactual]
  change Prog.wp _ _ _ w'
  -- what is left stays a number that 32 bits cannot hold
  refine wp_loop (fun i t => WriteSoFar w' (place w o) count buf i.1 t ∧ i.2 = buf ∧
    Stuck true count (place w o) i.1)
    (fun _ _ _ => trivial) ?_ fuel (0, buf)
      ⟨WriteSoFar.start (hw.asked _) (place w o) count buf, rfl, .inl (by omega)⟩
  rintro ⟨done, b⟩ t ⟨ht, rfl, hstuck⟩
  obtain ⟨hlt, hnext⟩ := stuck_passLength (Int.natCast_nonneg _) hstuck
  have hat : 0 < count → (place w o : ℤ) = place w o ∧ place w o + count ≤ 2199023255552 :=
    fun _ => ⟨rfl, hbelow⟩
  have hpass := wp_ioLoop_write hat ht
  refine wp_mono (wp_and hpass (wp_ioLoop_done ht.ready.sectorSize b hlt)) (fun r u hu => ?_)
    fun _ h => h.1.elim
  rcases r with ⟨next, b'⟩ | x
  · obtain ⟨⟨⟨hb, hnew⟩, -⟩, -, rfl⟩ := hu
    exact ⟨hnew, hb, hnext⟩
  · obtain ⟨⟨k, hret⟩, hneg, -⟩ := hu
    have := hret.full hf
    omega

/-- A stick of 16 GiB of ones, partitioned at block 4096. -/
def roomyStick : World Stick :=
  { drv := { gSectorCount := 33554432, gDriveOffsetSectors := 4096 }
    dev := { spec := { fate := fun _ => .done, lastLba := 33554431, config := none },
             medium := fun _ => 1 }
    trace := []
    requests := []
    accesses := [] }

/-- One `dev_write` of 4 GiB, well inside the window. -/
theorem not_adapter_follows :
    let f : File UInt8 := ⟨fun _ => 1, 17177772032, 0⟩
    let c : Call UInt8 := .write ⟨zeros, 4294967296⟩
    Adapter.ntfs.Backs 4096 f (roomyStick, ()) ∧ Adapter.ntfs.Offers c ∧ c.SeeksIn f ∧
      (∀ x ∈ c.transfers f.cursor, x.Inside f.size) ∧ ¬Adapter.ntfs.Follows 4096 f (roomyStick, ()) [c] := by
  intro f c
  have hidle : Idle roomyStick := ⟨rfl, rfl, rfl⟩
  have hfaultless : Faultless roomyStick.dev.spec := ⟨fun _ => rfl, fun _ => rfl⟩
  refine ⟨⟨hidle.tracks hfaultless, rfl⟩, trivial, trivial, ?_, ?_⟩
  · simp [f, c, Call.transfers, Transfer.Inside]
  · rintro ⟨fuel, t, u, hrun, -⟩
    obtain ⟨r, v, hcall, -⟩ := bind_returns hrun
    have hreach : Reach roomyStick 0 4294967296 := fun _ => by simp [place, roomyStick]
    have hnever : Prog.wp (Adapter.ntfs.call stick fuel c) (fun _ _ => False)
        (fun _ => True) (roomyStick, ()) := by
      have hio := wp_scsiIoInternal_write_stuck hidle.ready hfaultless hreach (Nat.le_refl _) zeros fuel
      rw [Adapter.call, wp_left]
      change Prog.wp (returning (devWrite stick fuel zeros ((4294967296 : ℕ) : ℤ))) _ _ roomyStick
      rw [returning, devWrite, wp_bind, wp_bind, atCursor, wp_bind, wp_globals, wp_bind]
      exact wp_mono hio (fun _ _ h => h.elim) fun _ h => h
    exact Prog.wp_run hnever hcall

end FormatStick
