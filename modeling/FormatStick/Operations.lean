import FormatStick.CachedIo

/-!
# Runs of pread, pwrite and sync

The purpose of the cached path is a flat byte array: `FlatArray` states it, with
no blocks, no cache and no failures. A run of the driver on a faultless stick
returns what the array returns, and after a sync the medium is the array. When
commands may fail, the bytes of an accepted write are still the ones read back
or synced, as long as no flush of the write cache is among the failures.
-/
namespace FormatStick
open Splice WriteBack

/-- The operations an engine uses the driver through. -/
inductive Op
  | pread (buf : Buf) (count offset : ℤ)
  | pwrite (buf : Buf) (count offset : ℤ)
  | sync

/-- A return value together with the bytes a read delivered. -/
abbrev Result := ℤ × List UInt8

variable {δ : Type}

def runOp (P : Platform δ) (fuel : ℕ) : Op → Prog (World δ) Result
  | .pread buf count offset => do
    let r ← usbScsiPreadInternal P fuel buf count offset
    pure (r.1, bytes r.2 count.toNat)
  | .pwrite buf count offset => do
    let r ← usbScsiPwriteInternal P fuel buf count offset
    pure (r, [])
  | .sync => do
    let r ← usbScsiSync P
    pure (r, [])

def runOps (P : Platform δ) (fuel : ℕ) : List Op → Prog (World δ) (List Result)
  | [] => pure []
  | op :: ops => do
    let r ← runOp P fuel op
    let rs ← runOps P fuel ops
    pure (r :: rs)

namespace FlatArray

/-- What one operation returns on a flat array. -/
def result (a : ℕ → UInt8) : Op → Result
  | .pread _ count offset => (count, bytes (window a offset.toNat) count.toNat)
  | .pwrite _ count _ => (count, [])
  | .sync => (0, [])

/-- What one operation makes of a flat array. -/
def step (a : ℕ → UInt8) : Op → ℕ → UInt8
  | .pwrite buf count offset => splice a offset.toNat buf count.toNat
  | _ => a

/-- The array after a list of operations. -/
def after (a : ℕ → UInt8) (ops : List Op) : ℕ → UInt8 := ops.foldl step a

/-- What a list of operations returns. -/
def results (a : ℕ → UInt8) : List Op → List Result
  | [] => []
  | op :: ops => result a op :: results (step a op) ops

end FlatArray

/-- The requests the 32-bit arithmetic of the loop is made for, with the drive offset
at block `d`: a non-negative offset, a count below 2^32 - 1024, and no byte at or past
block 2^32. -/
def Op.InRange (d : ℕ) : Op → Prop
  | .pread _ count offset | .pwrite _ count offset =>
    0 ≤ offset ∧ 0 ≤ count ∧ count < 2 ^ 32 - 1024 ∧
      (0 < count → d * 512 + offset + count ≤ 2 ^ 32 * 512)
  | .sync => True

/-- The operation is one that the loop carries out: below block 2^32, and no wider than its
32-bit `remaining` and the rounding of a read can hold. -/
def Op.Fits (d : ℕ) : Op → Prop
  | .pread _ count offset =>
    0 ≤ offset ∧ 0 ≤ count ∧ offset % 512 + count + 511 < 4294967296 ∧
      (0 < count → d * 512 + offset + count ≤ 2199023255552)
  | .pwrite _ count offset =>
    0 ≤ offset ∧ 0 ≤ count ∧ count < 4294967296 ∧
      (0 < count → d * 512 + offset + count ≤ 2199023255552)
  | .sync => True

theorem Op.InRange.fits {d : ℕ} {op : Op} (h : op.InRange d) : op.Fits d := by
  cases op with
  | pread buf count offset =>
    obtain ⟨h₀, h₁, h₂, h₃⟩ := h
    exact ⟨h₀, h₁, by omega, h₃⟩
  | pwrite buf count offset =>
    obtain ⟨h₀, h₁, h₂, h₃⟩ := h
    exact ⟨h₀, h₁, by omega, h₃⟩
  | sync => trivial

/-- The operation writes byte `i` of the window. -/
def Op.Writes (i : ℕ) : Op → Prop
  | .pwrite _ count offset => offset ≤ i ∧ i < offset + count
  | _ => False

/-- The outcome of one operation on a stick, in terms of the view of its store. The
window's byte `i` is byte `i + d * 512` of the stick. -/
structure OpDone (w : World Stick) (op : Op) (r : Result) (t : World Stick) : Prop where
  frame : ∃ rs, Frame w rs t
  ready : Ready t
  below : ∀ i < w.drv.gDriveOffsetSectors * 512, Lossless w t →
    (store t).view i = (store w).view i
  keeps : ∀ i, ¬op.Writes i → Lossless w t →
    (store t).view (i + w.drv.gDriveOffsetSectors * 512) =
      (store w).view (i + w.drv.gDriveOffsetSectors * 512)
  full : ∀ a, (∀ i, (store w).view (i + w.drv.gDriveOffsetSectors * 512) = a i) →
    Lossless w t → r.1 = (FlatArray.result a op).1 → r = FlatArray.result a op ∧
      ∀ i, (store t).view (i + w.drv.gDriveOffsetSectors * 512) = FlatArray.step a op i
  synced : op = .sync → Lossless w t → t.dev.medium = (store t).view
  returns : ∀ a, Faultless w.dev.spec → r.1 = (FlatArray.result a op).1

theorem wp_runOp {w : World Stick} (hw : Ready w) (fuel : ℕ) {op : Op}
    (hop : op.Fits w.drv.gDriveOffsetSectors) :
    Prog.wp (runOp stick fuel op) (OpDone w op) (fun _ => fuel < 2 ^ 32) w := by
  cases op with
  | pread buf count offset =>
    obtain ⟨h₀, h₁, h₂, h₃⟩ := hop
    obtain ⟨o, rfl⟩ := Int.eq_ofNat_of_zero_le h₀
    obtain ⟨n, rfl⟩ := Int.eq_ofNat_of_zero_le h₁
    have hreach : Reach w o n := fun hn => by
      have := h₃ (by omega)
      unfold place
      omega
    have hfit : place w o % 512 + n + 511 < 4294967296 := by
      unfold place
      omega
    simp only [runOp, usbScsiPreadInternal, Prog.wp_bind, Prog.wp_pure]
    refine Prog.wp_mono (wp_scsiIoInternal_read hw fuel buf hreach) ?_ ?_
    · rintro r t ⟨k, ⟨b, hb⟩, hret, hfull⟩
      have hview : Lossless w t → (store t).view = (store w).view := hb.view
      refine ⟨⟨_, hb.frame.asked⟩, hb.ready, fun i _ hl => by rw [hview hl],
        fun i _ hl => by rw [hview hl], fun a ha hl hr => ?_, fun h => (by simp at h),
        fun _ hf => hfull hf⟩
      refine ⟨?_, fun i => by rw [hview hl, ha]; rfl⟩
      rcases hret with ⟨hr', hd⟩ | hr'
      · refine Prod.ext hr ?_
        simp only [FlatArray.result, bytes, Int.toNat_natCast, hd hfit hl]
        refine List.map_congr_left fun i hi => ?_
        rw [splice_of_mem (Nat.zero_le _) (by have := List.mem_range.mp hi; omega), Nat.sub_zero,
          window_apply, window_apply, ← ha]
        change (store w).view _ = _
        congr 1
        unfold place
        omega
      · simp only [FlatArray.result] at hr
        omega
    · rintro t ⟨hf, -⟩
      have := hf hfit
      omega
  | pwrite buf count offset =>
    obtain ⟨h₀, h₁, h₂, h₃⟩ := hop
    obtain ⟨o, rfl⟩ := Int.eq_ofNat_of_zero_le h₀
    obtain ⟨n, rfl⟩ := Int.eq_ofNat_of_zero_le h₁
    have hreach : Reach w o n := fun hn => by
      have := h₃ (by omega)
      unfold place
      omega
    simp only [runOp, usbScsiPwriteInternal, Prog.wp_bind, Prog.wp_pure]
    refine Prog.wp_mono (wp_scsiIoInternal_write hw fuel buf hreach) ?_ ?_
    · rintro r t ⟨k, hk, hret, -, hfull⟩
      have hview : Lossless w t → (store t).view = splice (store w).view (place w o) buf k :=
        hk.view
      have hkn := hk.le
      refine ⟨⟨_, hk.frame.asked⟩, hk.ready, fun i hi hl => ?_, fun i hi hl => ?_,
        fun a ha hl hr => ⟨Prod.ext hr rfl, fun i => ?_⟩, fun h => (by simp at h), fun _ hf => hfull hf⟩
      · rw [hview hl, splice_of_lt (by unfold place; omega)]
      · simp only [Op.Writes, not_and] at hi
        rw [hview hl]
        by_cases hlt : i < o
        · rw [splice_of_lt (by unfold place; omega)]
        · have := hi (by omega)
          rw [splice_of_ge (by unfold place; omega)]
      · simp only [FlatArray.result] at hr
        have hkn : k = n := by
          rcases hret with ⟨-, hk⟩ | hr'
          · exact hk
          · omega
        rw [hview hl, hkn]
        simp only [FlatArray.step, Int.toNat_natCast, splice, place, ha]
        split_ifs <;> first | rfl | omega | (congr 1; omega)
    · rintro t ⟨hf, -⟩
      have := hf (by omega)
      omega
  | sync =>
    simp only [runOp, Prog.wp_bind, Prog.wp_pure]
    refine Prog.wp_mono (wp_usbScsiSync hw) ?_ (fun _ h => h.elim)
    intro r t h
    have hview : Lossless w t → (store t).view = (store w).view := fun hl =>
      h.settled.view_eq (not_not_intro hl)
    refine ⟨⟨_, h.frame⟩, h.ready, fun i _ hl => by rw [hview hl], fun i _ hl => by rw [hview hl],
      fun a ha hl hr => ⟨Prod.ext hr rfl, fun i => by rw [hview hl, ha]; rfl⟩,
      fun _ hl => (Store.view_of_empty h.settled.size_eq).symm, fun _ hf => h.executes hf⟩

/-- A driver for 512-byte sectors with nothing cached. -/
structure Idle (w : World Stick) : Prop where
  sectorSize : w.drv.gSectorSize = 512
  blockSize : w.dev.spec.blockSize = 512
  empty : w.drv.gCacheSectors = 0

theorem Idle.ready {w : World Stick} (h : Idle w) : Ready w := by
  have hno : ¬0 < w.drv.gCacheSectors := by rw [h.empty]; decide
  exact ⟨h.sectorSize, h.blockSize, by rw [h.empty]; decide, fun hf => absurd hf hno,
    fun hf => absurd hf hno⟩

theorem Idle.view {w : World Stick} (h : Idle w) : (store w).view = w.dev.medium :=
  Store.view_of_empty (show w.drv.gCacheSectors * 512 = 0 by rw [h.empty])

/-- A faultless stick behind a driver at block `d`, whose window holds `a`. -/
structure Tracks (d : ℕ) (a : ℕ → UInt8) (w : World Stick) : Prop where
  ready : Ready w
  faultless : Faultless w.dev.spec
  driveOffset : w.drv.gDriveOffsetSectors = d
  view : ∀ i, (store w).view (i + d * 512) = a i

theorem Idle.tracks {w : World Stick} (h : Idle w) (hf : Faultless w.dev.spec) :
    Tracks w.drv.gDriveOffsetSectors (window w.dev.medium (w.drv.gDriveOffsetSectors * 512)) w where
  ready := h.ready
  faultless := hf
  driveOffset := rfl
  view i := by rw [h.view, window_apply, Nat.add_comm]

/-- One operation on a faultless stick. -/
theorem Tracks.wp_runOp {d : ℕ} {a : ℕ → UInt8} {w : World Stick} (hw : Tracks d a w) {fuel : ℕ}
    (hfuel : 2 ^ 32 ≤ fuel) {op : Op} (hop : op.Fits d) :
    Prog.wp (runOp stick fuel op)
      (fun r t => OpDone w op r t ∧ r = FlatArray.result a op ∧ Tracks d (FlatArray.step a op) t)
      (fun _ => False) w := by
  obtain ⟨hready, hf, rfl, ha⟩ := hw
  refine Prog.wp_mono (FormatStick.wp_runOp hready fuel hop) ?_ (fun _ h => by omega)
  intro r t h
  obtain ⟨rs, hframe⟩ := h.frame
  obtain ⟨hr, hstep⟩ := h.full a ha (hframe.lossless hf) (h.returns a hf)
  exact ⟨h, hr, h.ready, hframe.spec ▸ hf, hframe.driveOffset, hstep⟩

/-- The run lemma without faults: the view follows the array, operation by operation. -/
theorem wp_runOps_faultless {w : World Stick} (hw : Ready w) (hf : Faultless w.dev.spec)
    {fuel : ℕ} (hfuel : 2 ^ 32 ≤ fuel) (ops : List Op) {a : ℕ → UInt8}
    (hops : ∀ op ∈ ops, op.InRange w.drv.gDriveOffsetSectors)
    (ha : ∀ i, (store w).view (i + w.drv.gDriveOffsetSectors * 512) = a i) :
    Prog.wp (runOps stick fuel ops)
      (fun rs t => rs = FlatArray.results a ops ∧
        (∀ i, (store t).view (i + w.drv.gDriveOffsetSectors * 512) = FlatArray.after a ops i) ∧
        (∀ i < w.drv.gDriveOffsetSectors * 512, (store t).view i = (store w).view i) ∧
        (ops.getLast? = some .sync → t.dev.medium = (store t).view) ∧ (ops = [] → t = w))
      (fun _ => False) w := by
  induction ops generalizing w a with
  | nil => exact ⟨rfl, ha, fun _ _ => rfl, fun h => absurd h (by simp), fun _ => rfl⟩
  | cons op ops ih =>
    simp only [runOps, Prog.wp_bind, Prog.wp_pure]
    refine Prog.wp_mono (wp_runOp hw fuel (hops op List.mem_cons_self).fits) ?_ (fun _ h => by omega)
    intro r t h
    obtain ⟨rs, hframe⟩ := h.frame
    have hlt := hframe.lossless hf
    obtain ⟨hr, hstep⟩ := h.full a ha hlt (h.returns a hf)
    rw [← hframe.driveOffset] at hops hstep
    refine Prog.wp_mono (ih h.ready (hframe.spec ▸ hf)
      (fun op' hop' => hops op' (List.mem_cons_of_mem _ hop')) hstep) ?_ (fun _ h => h)
    rintro rs' u ⟨hrs, hafter, hbelow, hsync, hnil⟩
    rw [hframe.driveOffset] at hafter hbelow
    refine ⟨by rw [hr, hrs]; rfl, hafter, fun i hi => by rw [hbelow i hi, h.below i hi hlt], ?_,
      fun hc => absurd hc (List.cons_ne_nil _ _)⟩
    intro hlast
    rw [List.getLast?_cons] at hlast
    cases hops' : ops.getLast? with
    | none =>
      -- the only operation is the sync itself
      obtain rfl : ops = [] := List.getLast?_eq_none_iff.mp hops'
      rw [hops', Option.getD_none, Option.some.injEq] at hlast
      rw [hnil rfl]
      exact h.synced hlast hlt
    | some last =>
      rw [hops', Option.getD_some] at hlast
      exact hsync (hops'.trans hlast)

/-- The cached driver refines a flat byte array: on a faultless stick every operation
returns what the array returns, and a final sync leaves the array on the medium. -/
theorem runOps_refines_flatArray {w : World Stick} (hw : Idle w) (hf : Faultless w.dev.spec)
    (ops : List Op) (hops : ∀ op ∈ ops, op.InRange w.drv.gDriveOffsetSectors) {fuel : ℕ}
    (hfuel : 2 ^ 32 ≤ fuel) :
    let start := w.drv.gDriveOffsetSectors * 512
    ∃ t, runOps stick fuel ops w =
        (some (FlatArray.results (window w.dev.medium start) ops), t) ∧
      (ops.getLast? = some .sync →
        (∀ i, t.dev.medium (start + i) = FlatArray.after (window w.dev.medium start) ops i) ∧
        ∀ i < start, t.dev.medium i = w.dev.medium i) := by
  intro start
  have ha : ∀ i, (store w).view (i + start) = window w.dev.medium start i := fun i => by
    rw [hw.view, window_apply, Nat.add_comm]
  obtain ⟨rs, t, hrun, hrs, hafter, hbelow, hsync, -⟩ :=
    Prog.wp_returns (wp_runOps_faultless hw.ready hf hfuel ops hops ha)
  refine ⟨t, by rw [hrun, hrs], fun hlast => ⟨fun i => ?_, fun i hi => ?_⟩⟩
  · rw [hsync hlast, Nat.add_comm, hafter]
  · rw [hsync hlast, hbelow i hi, hw.view]

/-- A stick of ones, partitioned at block 4096. -/
def onesStick : World Stick :=
  { drv := { gDriveOffsetSectors := 4096 }
    dev := { spec := { fate := fun _ => .done, lastLba := 1048575, config := none },
             medium := fun _ => 1 }
    trace := []
    requests := []
    accesses := [] }

theorem runOps_refines_flatArray_overlap :
    let ops : List Op := [.pwrite (fun _ => 2) 3000 100, .pwrite (fun _ => 3) 1024 512,
      .pread zeros 4 510, .sync]
    ∃ t, runOps stick (2 ^ 32) ops onesStick =
        (some [(3000, []), (1024, []), (4, [2, 2, 3, 3]), (0, [])], t) ∧
      t.dev.medium (4096 * 512 + 600) = 3 ∧ t.dev.medium (4096 * 512 + 4000) = 1 := by
  intro ops
  obtain ⟨t, hrun, hsync⟩ := runOps_refines_flatArray (w := onesStick) ⟨rfl, rfl, rfl⟩
    ⟨fun _ => rfl, fun _ => rfl⟩ ops (by
      intro op hop
      simp only [ops, List.mem_cons, List.not_mem_nil, or_false] at hop
      rcases hop with rfl | rfl | rfl | rfl <;> simp [Op.InRange, onesStick])
    (Nat.le_refl _)
  obtain ⟨hin, -⟩ := hsync rfl
  exact ⟨t, hrun, hin 600, hin 4000⟩

/-- Across any run, failures included, a byte that no operation writes stays in the view
unless a flush fails. -/
theorem wp_runOps_keeps {w : World Stick} (hw : Ready w) (fuel : ℕ) (ops : List Op)
    (hops : ∀ op ∈ ops, op.InRange w.drv.gDriveOffsetSectors) :
    Prog.wp (runOps stick fuel ops)
      (fun _ t => Ready t ∧ (∃ rs, Frame w rs t) ∧ ∀ i, (∀ op ∈ ops, ¬op.Writes i) →
        Lossless w t → (store t).view (i + w.drv.gDriveOffsetSectors * 512) =
          (store w).view (i + w.drv.gDriveOffsetSectors * 512))
      (fun _ => fuel < 2 ^ 32) w := by
  induction ops generalizing w with
  | nil => exact ⟨hw, ⟨[], Frame.refl w⟩, fun _ _ _ => rfl⟩
  | cons op ops ih =>
    simp only [runOps, Prog.wp_bind, Prog.wp_pure]
    refine Prog.wp_mono (wp_runOp hw fuel (hops op List.mem_cons_self).fits) ?_ (fun _ h => h)
    intro r t h
    obtain ⟨rs, hframe⟩ := h.frame
    rw [← hframe.driveOffset] at hops
    refine Prog.wp_mono (ih h.ready fun op' hop' => hops op' (List.mem_cons_of_mem _ hop')) ?_
      (fun _ h => h)
    rintro _ u ⟨hu, ⟨rs', hframe'⟩, hkeep⟩
    refine ⟨hu, ⟨_, hframe.trans hframe'⟩, fun i hi hl => ?_⟩
    rw [hframe.driveOffset] at hkeep
    rw [hkeep i (fun op' hop' => hi op' (List.mem_cons_of_mem _ hop')) (hl.right hframe.trace),
      h.keeps i (hi op List.mem_cons_self) (hl.left hframe.trace hframe'.trace)]

/-- A run in which a pwrite returned its full count, no later operation wrote to its
range, and `last` came at the end with the result `r`. -/
structure AcceptedWrite (fuel : ℕ) (w : World Stick) (before : List Op) (buf : Buf) (count offset : ℤ)
    (later : List Op) (last : Op) (r : Result) (t : World Stick) : Prop where
  run : ∃ rs rs' w₁ w₂ w₃, runOps stick fuel before w = (some rs, w₁) ∧
    runOp stick fuel (.pwrite buf count offset) w₁ = (some (count, []), w₂) ∧
    runOps stick fuel later w₂ = (some rs', w₃) ∧ runOp stick fuel last w₃ = (some r, t)
  untouched : ∀ op ∈ later ++ [last], ∀ i, offset ≤ (i : ℕ) → i < offset + count → ¬op.Writes i

/-- What the accepted write is owed: a sync that reports success has the bytes on the
medium, and a read that covers them and reports success returns them. -/
structure Kept (w : World Stick) (buf : Buf) (count offset : ℤ) (last : Op) (r : Result)
    (t : World Stick) : Prop where
  synced : last = .sync → r.1 = 0 → ∀ i < count.toNat,
    t.dev.medium (offset.toNat + i + w.drv.gDriveOffsetSectors * 512) = buf i
  reread : ∀ buf' c o, last = .pread buf' c o → o ≤ offset → offset + count ≤ o + c → r.1 = c →
    ∀ i < count.toNat, r.2[(offset - o).toNat + i]? = some (buf i)

/-- An accepted write is kept in every run whose flushes of the write cache all succeed,
whatever else fails. -/
theorem acceptedWrite_kept {fuel : ℕ} {w t : World Stick} {before later : List Op} {buf : Buf}
    {count offset : ℤ} {last : Op} {r : Result} (hw : Idle w)
    (hrun : AcceptedWrite fuel w before buf count offset later last r t)
    (hrange : ∀ op ∈ before ++ .pwrite buf count offset :: (later ++ [last]),
      op.InRange w.drv.gDriveOffsetSectors)
    (hflush : Lossless w t) : Kept w buf count offset last r t := by
  obtain ⟨⟨rs, rs', w₁, w₂, w₃, h₁, h₂, h₃, h₄⟩, hfree⟩ := hrun
  obtain ⟨hr₁, ⟨_, hf₁⟩, -⟩ := Prog.wp_run (wp_runOps_keeps hw.ready fuel before fun op hop =>
    hrange op (List.mem_append_left _ hop)) h₁
  have hmid : ∀ op ∈ .pwrite buf count offset :: (later ++ [last]),
      op.InRange w₁.drv.gDriveOffsetSectors := fun op hop =>
    hf₁.driveOffset ▸ hrange op (List.mem_append_right _ hop)
  have hwr := Prog.wp_run (wp_runOp hr₁ fuel (hmid _ List.mem_cons_self).fits) h₂
  obtain ⟨_, hf₂⟩ := hwr.frame
  have htail : ∀ op ∈ later ++ [last], op.InRange w₂.drv.gDriveOffsetSectors := fun op hop =>
    hf₂.driveOffset ▸ hmid op (List.mem_cons_of_mem _ hop)
  obtain ⟨hr₃, ⟨_, hf₃⟩, hkeep⟩ := Prog.wp_run (wp_runOps_keeps hwr.ready fuel later fun op hop =>
    htail op (List.mem_append_left _ hop)) h₃
  have hlast := Prog.wp_run (wp_runOp hr₃ fuel
    (hf₃.driveOffset ▸ (htail last (List.mem_append_right _ (List.mem_singleton_self _))).fits)) h₄
  obtain ⟨_, hf₄⟩ := hlast.frame
  obtain ⟨h₀, hc, -, -⟩ := hmid _ List.mem_cons_self
  obtain ⟨o, rfl⟩ := Int.eq_ofNat_of_zero_le h₀
  obtain ⟨n, rfl⟩ := Int.eq_ofNat_of_zero_le hc
  -- the ways from the write on, of which nothing is lost either
  have hl₁ : Lossless w₁ t := hflush.right hf₁.trace
  have hl₂ : Lossless w₂ t := hl₁.right hf₂.trace
  have hw₂ : Lossless w₁ w₂ := hl₁.left hf₂.trace (hf₃.trace.trans hf₄.trace)
  have hw₃ : Lossless w₂ w₃ := hl₂.left hf₃.trace hf₄.trace
  have ht : Lossless w₃ t := hl₂.right hf₃.trace
  have hd₁ := hf₁.driveOffset
  have hd₂ := hf₂.driveOffset.trans hd₁
  have hd₃ := hf₃.driveOffset.trans hd₂
  -- the written bytes are in the view from the write on
  have hview : ∀ i < n, (store w₃).view (o + i + w.drv.gDriveOffsetSectors * 512) = buf i := by
    intro i hi
    have hk := hkeep (o + i) (fun op hop => hfree op (List.mem_append_left _ hop) (o + i)
      (by omega) (by omega)) hw₃
    have hs := (hwr.full (fun i => (store w₁).view (i + w₁.drv.gDriveOffsetSectors * 512))
      (fun _ => rfl) hw₂ rfl).2 (o + i)
    rw [hd₂] at hk
    rw [hd₁] at hs
    rw [hk, hs]
    simp only [FlatArray.step, Int.toNat_natCast]
    rw [splice_at hi]
  refine ⟨?_, ?_⟩
  · rintro rfl - i hi
    have hk := hlast.keeps (o + i) (fun h => h) ht
    rw [hd₃] at hk
    rw [hlast.synced rfl ht, Int.toNat_natCast, hk, hview i (by simpa using hi)]
  · rintro buf' c o' rfl ho' hcover hr i hi
    have hlo : 0 ≤ o' := (htail _ (List.mem_append_right _ (List.mem_singleton_self _))).1
    obtain ⟨p, rfl⟩ := Int.eq_ofNat_of_zero_le hlo
    have hfull := (hlast.full (fun i => (store w₃).view (i + w₃.drv.gDriveOffsetSectors * 512))
      (fun _ => rfl) ht hr).1
    rw [hfull]
    simp only [FlatArray.result, bytes, Int.toNat_natCast, hd₃, List.getElem?_map] at hi ⊢
    rw [List.getElem?_range (by omega)]
    simp only [Option.map_some, window_apply, Option.some.injEq]
    rw [← hview i hi]
    congr 1
    omega

/-- A blank stick that loses its `k`-th command in a transfer. -/
def losingStick (k : ℕ) : World Stick :=
  { drv := {}
    dev := { spec :=
               { fate := fun i => if i = k then .broken else .done, lastLba := 1048575, config := none },
             medium := zeros }
    trace := []
    requests := []
    accesses := [] }

/-- A read that fails between the write and the sync does the write no harm. -/
theorem acceptedWrite_kept_failedRead :
    let w := losingStick 1
    let w₁ := (runOp stick 2 (.pwrite (fun _ => 7) 512 0) w).2
    let w₂ := (runOps stick 2 [.pread zeros 512 4096] w₁).2
    let t := (runOp stick 2 .sync w₂).2
    (runOps stick 2 [.pread zeros 512 4096] w₁).1.map (List.map Prod.fst) = some [-1] ∧
      Kept w (fun _ => 7) 512 0 .sync (0, []) t := by
  intro w w₁ w₂ t
  refine ⟨by decide +kernel, @acceptedWrite_kept 2 w t [] [.pread zeros 512 4096] _ _ _ _ _
    ⟨rfl, rfl, rfl⟩ ⟨⟨_, _, w, w₁, w₂, rfl, Prog.eq_of_fst (by decide +kernel),
      Prog.eq_of_fst (Option.some_get (by decide +kernel)).symm, Prog.eq_of_fst (by decide +kernel)⟩,
      ?_⟩ ?_ (by decide +kernel)⟩
  · intro op hop i _ _
    simp only [List.cons_append, List.nil_append, List.mem_cons, List.not_mem_nil, or_false] at hop
    rcases hop with rfl | rfl <;> exact id
  · intro op hop
    simp only [List.cons_append, List.nil_append, List.mem_cons, List.not_mem_nil, or_false] at hop
    rcases hop with rfl | rfl | rfl <;> simp [Op.InRange, w, losingStick]

/-- The flush of a sync is lost, and the sync returns 0 all the same. -/
theorem acceptedWrite_lost :
    let w := losingStick 0
    let w₁ := (runOp stick 2 (.pwrite (fun _ => 7) 512 0) w).2
    let t := (runOp stick 2 .sync w₁).2
    AcceptedWrite 2 w [] (fun _ => 7) 512 0 [] .sync (0, []) t ∧
      ¬Kept w (fun _ => 7) 512 0 .sync (0, []) t := by
  intro w w₁ t
  refine ⟨⟨⟨_, _, w, w₁, w₁, rfl, Prog.eq_of_fst (by decide +kernel), rfl,
    Prog.eq_of_fst (by decide +kernel)⟩, ?_⟩, fun h => ?_⟩
  · intro op hop i _ _
    rw [List.mem_singleton.mp hop]
    exact id
  · exact absurd (h.synced rfl rfl 0 (by decide)) (by decide +kernel)

end FormatStick
