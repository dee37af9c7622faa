import FormatStick.Acceptance
import FormatStick.Stable

/-!
# The progress of the transfer loop

`scsi_io_internal` narrows what is left of a request to 32 bits. A request of 4 GiB or more
therefore reaches a point where nothing seems to be left, and a read just below that wraps in
the rounding of its length. Every other request moves on with each pass.
-/
namespace FormatStick
open Splice Prog

variable {δ : Type} {P : Platform δ}

/-- The bytes that one pass transfers. -/
def passLength (isWrite : Bool) (offsetInSector remaining : ℕ) : ℕ :=
  if isWrite = false then toCopy 512 offsetInSector remaining
  else if offsetInSector = 0 ∧ 512 ≤ remaining then u32 ((min (remaining / 512) 2048 : ℕ) * 512)
  else min (u32 (512 - offsetInSector)) remaining

/-- A device that accepts every command, and a host with enough memory. -/
structure Obliging (P : Platform δ) : Prop where
  exchange : ∀ usb c data d, ∃ csw, (P.exchange usb c data d).csw = some csw ∧ csw.status = 0
  malloc : ∀ d, (P.malloc d).1 = true

section Passes

variable {w : World δ}

theorem wp_scsiCommand_sized (c : Cmd) (data : Buf) :
    Prog.wp (scsiCommand P c data) (fun r t => t.drv.gSectorSize = w.drv.gSectorSize ∧ (Obliging P → r.1 = 0))
      (fun _ => False) w := by
  rw [scsiCommand, wp_bind, wp_globals]
  refine wp_ite (fun _ => ⟨rfl, fun _ => rfl⟩) fun _ => ?_
  rw [wp_bind, wp_transact]
  cases hcsw : (P.exchange w.drv.usb c data w.dev).csw with
  | none =>
    refine ⟨rfl, fun h => ?_⟩
    obtain ⟨csw, hsome, -⟩ := h.exchange w.drv.usb c data w.dev
    rw [hcsw] at hsome
    cases hsome
  | some csw =>
    refine wp_ite (fun _ => ⟨rfl, fun _ => rfl⟩) fun hbad => wp_ite (fun _ => ⟨rfl, fun _ => rfl⟩) fun _ => ?_
    refine ⟨rfl, fun h => ?_⟩
    obtain ⟨csw', hsome, hok⟩ := h.exchange w.drv.usb c data w.dev
    rw [hcsw] at hsome
    cases hsome
    exact absurd hok hbad

theorem wp_scsiFlushCacheInternal_sized :
    Prog.wp (scsiFlushCacheInternal P) (fun _ t => t.drv.gSectorSize = w.drv.gSectorSize)
      (fun _ => False) w := by
  rw [scsiFlushCacheInternal, wp_bind, wp_globals]
  cases w.drv.gWriteCache with
  | none => rfl
  | some cache =>
    refine wp_ite (fun _ => rfl) fun _ => ?_
    rw [wp_bind, wp_writeCache, write10, wp_bind]
    exact wp_mono (wp_scsiCommand_sized _ cache) (fun _ _ h => h.1) fun _ h => h

/-- What a pass returns, and that the sector size stays 512. -/
def PassDone (P : Platform δ) (isWrite : Bool) (offsetInSector remaining : ℕ) (r : Option (ℕ × Buf))
    (t : World δ) : Prop :=
  t.drv.gSectorSize = 512 ∧ (∀ x, r = some x → x.1 = passLength isWrite offsetInSector remaining) ∧
    (Obliging P → r ≠ none)

theorem wp_readPass_done (hw : w.drv.gSectorSize = 512) (buf : Buf)
    (totalDone lba offsetInSector remaining : ℕ) :
    Prog.wp (readPass P buf totalDone lba offsetInSector remaining)
      (PassDone P false offsetInSector remaining)
      (fun _ => False) w := by
  rw [readPass, wp_bind]
  refine wp_mono wp_scsiFlushCacheInternal_sized (fun _ t ht => ?_) fun _ h => h
  rw [hw] at ht
  rw [wp_bind, wp_globals, ht, wp_bind, wp_readBounce, read10]
  refine wp_mono (wp_scsiCommand_sized _ t.drv.gBounceBuffer) (fun r u hu => ?_) fun _ h => h
  rw [ht] at hu
  refine wp_ite (fun hne => ?_) fun _ => ?_
  · exact ⟨hu.1, fun _ h => absurd h.symm (Option.some_ne_none _), fun h => absurd (hu.2 h) hne⟩
  · exact ⟨hu.1, fun _ h => (Option.some.inj h) ▸ rfl, fun _ => Option.some_ne_none _⟩

theorem wp_cachePass_done (hw : w.drv.gSectorSize = 512) (buf : Buf) (totalDone lba : ℕ) {remaining : ℕ}
    (hrem : 512 ≤ remaining) :
    Prog.wp (cachePass P buf totalDone lba remaining) (PassDone P true 0 remaining) (fun _ => False) w := by
  have hlen : passLength true 0 remaining =
      u32 ((if remaining / 512 > 2048 then 2048 else remaining / 512 : ℕ) * 512) := by
    have hmin : min (remaining / 512) 2048 = if remaining / 512 > 2048 then 2048 else remaining / 512 := by
      split_ifs <;> omega
    rw [passLength, if_neg (by decide), if_pos ⟨rfl, hrem⟩, hmin]
  rw [cachePass, wp_bind, wp_globals, hw]
  refine wp_ite (fun _ => ?_) fun _ => ?_
  · rw [wp_bind, wp_copyToCache, wp_bind, wp_assign]
    exact ⟨hw, fun _ h => (Option.some.inj h) ▸ hlen.symm, fun _ => Option.some_ne_none _⟩
  · rw [wp_bind]
    refine wp_mono wp_scsiFlushCacheInternal_sized (fun _ t ht => ?_) fun _ h => h
    rw [hw] at ht
    have halloc : Prog.wp (allocateCache P)
        (fun r u => u.drv.gSectorSize = 512 ∧ (Obliging P → r = true)) (fun _ => False) t := by
      rw [allocateCache, wp_bind, wp_globals]
      refine wp_ite (fun _ => ⟨ht, fun _ => rfl⟩) fun _ => ?_
      rw [wp_bind, wp_malloc]
      refine wp_ite (fun hno => ⟨ht, fun h => ?_⟩) fun _ => ⟨ht, fun _ => rfl⟩
      exact absurd ((h.malloc t.dev).symm.trans hno) (by decide)
    rw [wp_bind]
    refine wp_mono halloc (fun r u hu => wp_ite (fun hno => ?_) fun _ => ?_) fun _ h => h
    · exact ⟨hu.1, fun _ h => absurd h.symm (Option.some_ne_none _),
        fun h => by rw [hu.2 h] at hno; cases hno⟩
    · rw [wp_bind, wp_assign, wp_bind, wp_copyToCache, wp_bind, wp_assign]
      exact ⟨hu.1, fun _ h => (Option.some.inj h) ▸ hlen.symm, fun _ => Option.some_ne_none _⟩

theorem wp_modifyPass_done (hw : w.drv.gSectorSize = 512) (buf : Buf) (totalDone lba : ℕ)
    {offsetInSector remaining : ℕ}
    (hnot : ¬(offsetInSector = 0 ∧ 512 ≤ remaining)) :
    Prog.wp (modifyPass P buf totalDone lba offsetInSector remaining)
      (PassDone P true offsetInSector remaining)
      (fun _ => False) w := by
  have hlen : passLength true offsetInSector remaining =
      if u32 ((512 : ℤ) - offsetInSector) < remaining then u32 ((512 : ℤ) - offsetInSector)
        else remaining := by
    rw [passLength, if_neg (by decide), if_neg hnot]
    split_ifs <;> omega
  rw [modifyPass, wp_bind]
  refine wp_mono wp_scsiFlushCacheInternal_sized (fun _ t ht => ?_) fun _ h => h
  rw [hw] at ht
  rw [wp_bind, wp_globals, ht, wp_bind, wp_readBounce, read10]
  refine wp_mono (wp_scsiCommand_sized _ t.drv.gBounceBuffer) (fun r u hu => ?_) fun _ h => h
  rw [ht] at hu
  refine wp_ite (fun hne => ?_) fun _ => ?_
  · exact ⟨hu.1, fun _ h => absurd h.symm (Option.some_ne_none _), fun h => absurd (hu.2 h) hne⟩
  · rw [wp_bind, wp_copyToBounce, wp_bind, wp_writeBounce, write10, wp_bind]
    refine wp_mono (wp_scsiCommand_sized _ _) (fun r' v hv => ?_) fun _ h => h
    have hsize : v.drv.gSectorSize = 512 := hv.1.trans hu.1
    refine wp_ite (fun hne => ?_) fun _ => ?_
    · exact ⟨hsize, fun _ h => absurd h.symm (Option.some_ne_none _), fun h => absurd (hv.2 h) hne⟩
    · exact ⟨hsize, fun _ h => (Option.some.inj h) ▸ hlen.symm, fun _ => Option.some_ne_none _⟩

/-- A pass transfers `passLength` bytes or gives up, which it does not with an obliging device. -/
theorem wp_ioPass_done (hw : w.drv.gSectorSize = 512) (isWrite : Bool) (count actual : ℤ) (buf : Buf)
    (totalDone : ℕ) :
    Prog.wp (ioPass P isWrite count actual buf totalDone)
      (PassDone P isWrite (u32 (Int.tmod (actual + totalDone) 512)) (u32 (count - totalDone)))
        (fun _ => False) w := by
  rw [ioPass, wp_bind, wp_globals, hw]
  cases isWrite with
  | false => exact wp_ite (fun _ => wp_readPass_done hw _ _ _ _ _) fun h => absurd rfl h
  | true =>
    refine wp_ite (fun h => by cases h) fun _ => wp_ite (fun h => ?_) fun h => wp_modifyPass_done hw _ _ _ h
    have hzero : u32 (Int.tmod (actual + totalDone) 512) = 0 := h.1
    rw [hzero]
    exact wp_cachePass_done hw _ _ _ h.2

end Passes

section Lengths

variable {isWrite : Bool} {count actual : ℤ} {totalDone : ℕ}

theorem passLength_le (isWrite : Bool) (offsetInSector remaining : ℕ) :
    passLength isWrite offsetInSector remaining ≤ remaining := by
  have hread : toCopy 512 offsetInSector remaining ≤ remaining := by
    rw [toCopy]
    split_ifs <;> omega
  have hcache : u32 ((min (remaining / 512) 2048 : ℕ) * 512) ≤ min (remaining / 512) 2048 * 512 := by
    unfold u32
    omega
  unfold passLength
  split_ifs <;> omega

/-- What a read of 512-byte sectors copies, where nothing wraps. -/
theorem toCopy_512 {offsetInSector remaining : ℕ} (ho : offsetInSector < 512) (hpos : 0 < remaining)
    (hfits : remaining + offsetInSector + 511 < 4294967296) :
    toCopy 512 offsetInSector remaining =
      min remaining (min ((remaining + offsetInSector + 511) / 512) 2048 * 512 - offsetInSector) := by
  have hround : u32 ((remaining : ℤ) + offsetInSector + (512 : ℕ) - 1) =
      remaining + offsetInSector + 511 := by
    unfold u32
    omega
  have hlen : readLen 512 offsetInSector remaining =
      min ((remaining + offsetInSector + 511) / 512) 2048 * 512 := by
    have hmin : ∀ x : ℕ, (if x > 2048 then 2048 else x) = min x 2048 := fun x => by
      split_ifs <;> omega
    rw [readLen, hround, hmin]
    exact u32_mul (b := 512) (by omega)
  have hcan : ∀ x : ℕ, offsetInSector ≤ x → x < 4294967296 →
      u32 ((x : ℤ) - offsetInSector) = x - offsetInSector := by
    unfold u32
    omega
  rw [toCopy, hlen, hcan _ (by omega) (by omega)]
  split_ifs <;> omega

/-- Where the rounding of its length wraps, a read asks for one sector or for none. -/
theorem readLen_512_wrapped {offsetInSector remaining : ℕ} (ho : offsetInSector < 512)
    (hr : remaining < 4294967296)
    (hwrap : 4294967296 ≤ remaining + offsetInSector + 511) :
    readLen 512 offsetInSector remaining = if remaining + offsetInSector ≤ 4294967296 then 0 else 512 := by
  have hround : u32 ((remaining : ℤ) + offsetInSector + (512 : ℕ) - 1) / 512 =
      if remaining + offsetInSector ≤ 4294967296 then 0 else 1 := by
    unfold u32
    split_ifs <;> omega
  rw [readLen, hround]
  by_cases hle : remaining + offsetInSector ≤ 4294967296
  · rw [if_pos hle, if_pos hle]
    rfl
  · rw [if_neg hle, if_neg hle]
    rfl

/-- It then copies up to the next sector, or nothing from the start of one. -/
theorem toCopy_512_wrapped {offsetInSector remaining : ℕ} (ho : offsetInSector < 512)
    (hr : remaining < 4294967296)
    (hwrap : offsetInSector = 0 ∧ 4294967296 ≤ remaining + 511 ∨ 4294967296 < remaining + offsetInSector) :
    toCopy 512 offsetInSector remaining = if offsetInSector = 0 then 0 else 512 - offsetInSector := by
  have hlen := readLen_512_wrapped ho hr (by omega)
  have hcan : u32 ((readLen 512 offsetInSector remaining : ℤ) - offsetInSector) =
      if offsetInSector = 0 then 0 else 512 - offsetInSector := by
    rw [hlen]
    unfold u32
    split_ifs <;> omega
  rw [toCopy, hcan]
  split_ifs <;> omega

/-- Or, from within a sector, all that is left. -/
theorem toCopy_512_overlong {offsetInSector remaining : ℕ} (ho : offsetInSector < 512)
    (hne : offsetInSector ≠ 0)
    (hwrap : 4294967296 ≤ remaining + offsetInSector + 511) (hle : remaining + offsetInSector ≤ 4294967296) :
    toCopy 512 offsetInSector remaining = remaining := by
  have hlen := readLen_512_wrapped ho (by omega) hwrap
  have hcan : u32 ((readLen 512 offsetInSector remaining : ℤ) - offsetInSector) =
      4294967296 - offsetInSector := by
    rw [hlen, if_pos hle]
    unfold u32
    omega
  rw [toCopy, hcan]
  split_ifs <;> omega

/-- The first byte of the pass in its sector. -/
def sectorOffset (actual : ℤ) (totalDone : ℕ) : ℕ := ((actual + totalDone) % 512).toNat

theorem u32_tmod (hactual : 0 ≤ actual) :
    u32 (Int.tmod (actual + totalDone) 512) = sectorOffset actual totalDone := by
  rw [Int.tmod_eq_emod_of_nonneg (by omega)]
  unfold u32 sectorOffset
  omega

/-- What is left fits the 32-bit arithmetic of the pass. -/
def Fits (isWrite : Bool) (count actual : ℤ) (totalDone : ℕ) : Prop :=
  count - totalDone + (if isWrite = false then sectorOffset actual totalDone + 511 else 0) < 4294967296

/-- A pass moves the request on, within what is left of it and by at most 1 MB. -/
def Step (count : ℤ) (totalDone done : ℕ) : Prop := 1 ≤ done ∧ (done : ℤ) ≤ count - totalDone ∧ done ≤ 1048576

theorem step_of_fits (hactual : isWrite = false → 0 ≤ actual) (hlt : (totalDone : ℤ) < count)
    (hfits : Fits isWrite count actual totalDone) :
    let d := passLength isWrite (u32 (Int.tmod (actual + totalDone) 512)) (u32 (count - totalDone))
    Step count totalDone d ∧ Fits isWrite count actual (totalDone + d) := by
  intro d
  have hle := passLength_le isWrite (u32 (Int.tmod (actual + totalDone) 512)) (u32 (count - totalDone))
  unfold Step
  cases isWrite with
  | false =>
    have hd : d = passLength false (sectorOffset actual totalDone) (u32 (count - totalDone)) :=
      congrArg (passLength false · _) (u32_tmod (hactual rfl))
    have hsector : sectorOffset actual totalDone < 512 := by
      unfold sectorOffset
      omega
    rw [Fits, if_pos rfl] at hfits ⊢
    have hrem : (u32 (count - totalDone) : ℤ) = count - totalDone := by
      unfold u32
      omega
    have hcopy : d = _ := hd.trans (toCopy_512 hsector (by omega) (by omega))
    unfold sectorOffset at *
    omega
  | true =>
    rw [Fits, if_neg (by decide)] at hfits ⊢
    have hrem : (u32 (count - totalDone) : ℤ) = count - totalDone := by
      unfold u32
      omega
    have hcache : u32 ((min (u32 (count - totalDone) / 512) 2048 : ℕ) * 512) =
        min (u32 (count - totalDone) / 512) 2048 * 512 :=
      u32_mul (b := 512) (by omega)
    -- before the start of the device the place in the sector is negative
    have hrest : 1 ≤ u32 ((512 : ℤ) - u32 (Int.tmod (actual + totalDone) 512)) ∧
        u32 ((512 : ℤ) - u32 (Int.tmod (actual + totalDone) 512)) ≤ 1048576 := by
      have hmost := Int.tmod_lt_of_pos (actual + totalDone) (b := 512) (by decide)
      have hleast := Int.lt_tmod_of_pos (actual + totalDone) (b := 512) (by decide)
      unfold u32
      omega
    have hd : d = passLength true (u32 (Int.tmod (actual + totalDone) 512)) (u32 (count - totalDone)) := rfl
    rw [passLength, if_neg (by decide), hcache] at hd
    split_ifs at hd <;> omega

/-- More is left than 32 bits hold, or so much that the rounding of a read wraps to nothing. -/
def Stuck (isWrite : Bool) (count actual : ℤ) (totalDone : ℕ) : Prop :=
  4294967296 ≤ count - totalDone ∨ isWrite = false ∧
    (sectorOffset actual totalDone = 0 ∧ 4294967296 ≤ count - totalDone + 511 ∨
      4294967296 < count - totalDone + sectorOffset actual totalDone)

theorem stuck_passLength (hactual : 0 ≤ actual) (hstuck : Stuck isWrite count actual totalDone) :
    (totalDone : ℤ) < count ∧ Stuck isWrite count actual
      (totalDone + passLength isWrite (u32 (Int.tmod (actual + totalDone) 512))
        (u32 (count - totalDone))) := by
  have hsector : sectorOffset actual totalDone < 512 := by
    unfold sectorOffset
    omega
  rw [u32_tmod hactual]
  unfold Stuck at *
  by_cases hbig : 4294967296 ≤ count - totalDone
  · -- a pass takes at most what is left modulo 2^32
    have hle := passLength_le isWrite (sectorOffset actual totalDone) (u32 (count - totalDone))
    have hrem : (u32 (count - totalDone) : ℤ) ≤ count - totalDone - 4294967296 := by
      unfold u32
      omega
    omega
  · obtain ⟨rfl, hwrap⟩ := hstuck.resolve_left hbig
    refine ⟨by omega, .inr ⟨rfl, ?_⟩⟩
    have hrem : (u32 (count - totalDone) : ℤ) = count - totalDone := by
      unfold u32
      omega
    have hdone : passLength false (sectorOffset actual totalDone) (u32 (count - totalDone)) = _ :=
      toCopy_512_wrapped hsector (u32_lt _) (by omega)
    rw [hdone]
    unfold sectorOffset at *
    split_ifs at * <;> omega

end Lengths

/-- Every pass moves the request on, the loop ends, and its result is -1 or the whole count. -/
structure Progresses (P : Platform δ) (isWrite : Bool) (buf : Buf) (count offset : ℤ)
    (w : World δ) : Prop where
  passes : ∀ fuel, Prog.Passes
    (ioLoop P isWrite count (offset + i64 (u64 (w.drv.gDriveOffsetSectors * w.drv.gSectorSize))))
    (fun i t => i.1 < count → ∀ x, (ioPass P isWrite count
      (offset + i64 (u64 (w.drv.gDriveOffsetSectors * w.drv.gSectorSize))) i.2 i.1 t).1 = some (some x) →
        Step count i.1 x.1) fuel (0, buf) { w with requests := w.requests ++ [⟨buf, count, offset, isWrite⟩] }
  ends : ∃ fuel, (scsiIoInternal P fuel buf count offset isWrite w).1 ≠ none
  result : ∀ fuel x, (scsiIoInternal P fuel buf count offset isWrite w).1 = some x → x.1 = -1 ∨ x.1 = count

section Requests

variable {isWrite : Bool} {count actual : ℤ}

/-- A pass of the loop on 512-byte sectors. -/
theorem wp_ioLoop_done {w : World δ} (hw : w.drv.gSectorSize = 512) (buf : Buf) {totalDone : ℕ}
    (hlt : totalDone < count) :
    Prog.wp (ioLoop P isWrite count actual (totalDone, buf))
      (fun r t => match r with
        | .inl i => t.drv.gSectorSize = 512 ∧
          i.1 = totalDone + passLength isWrite (u32 (Int.tmod (actual + totalDone) 512))
            (u32 (count - totalDone))
        | .inr x => x.1 = -1 ∧ ¬Obliging P) (fun _ => False) w := by
  rw [ioLoop, if_pos hlt, wp_bind]
  refine wp_mono (wp_ioPass_done hw isWrite count actual buf totalDone) (fun r t ht => ?_) fun _ h => h
  cases r with
  | none => exact ⟨rfl, fun h => ht.2.2 h rfl⟩
  | some x => exact ⟨ht.1, congrArg _ (ht.2.1 x rfl)⟩

/-- The place of the window on the device. -/
theorem actualOffset_eq {w : World δ} (hw : w.drv.gSectorSize = 512) (hd : w.drv.gDriveOffsetSectors < 2 ^ 54)
    (offset : ℤ) :
    offset + i64 (u64 (w.drv.gDriveOffsetSectors * w.drv.gSectorSize)) =
      offset + w.drv.gDriveOffsetSectors * 512 := by
  have hmul : u64 (w.drv.gDriveOffsetSectors * (512 : ℕ)) = w.drv.gDriveOffsetSectors * 512 :=
    u64_mul (by omega)
  rw [hw, hmul, i64_of_lt (by omega)]
  rfl

theorem wp_scsiIoInternal_window {w : World δ} (hw : w.drv.gSectorSize = 512)
    (hd : w.drv.gDriveOffsetSectors < 2 ^ 54)
    (fuel : ℕ) (buf : Buf) (offset : ℤ) {Q : ℤ × Buf → World δ → Prop} {D : World δ → Prop} :
    Prog.wp (scsiIoInternal P fuel buf count offset isWrite) Q D w ↔
      Prog.wp (loop (ioLoop P isWrite count (offset + w.drv.gDriveOffsetSectors * 512)) fuel (0, buf)) Q D
        { w with requests := w.requests ++ [⟨buf, count, offset, isWrite⟩] } := by
  rw [scsiIoInternal, wp_bind, wp_update, wp_bind, wp_globals]
  dsimp only
  rw [actualOffset_eq hw hd]

theorem sectorOffset_zero (actual : ℤ) : sectorOffset actual 0 = (actual % 512).toNat := by
  rw [sectorOffset, Int.natCast_zero, Int.add_zero]

/-- A request that fits ends, and completes if the device obliges. -/
theorem wp_loop_fits {w : World δ} (hw : w.drv.gSectorSize = 512) (hactual : isWrite = false → 0 ≤ actual)
    (hcount : 0 ≤ count)
    (hfits : Fits isWrite count actual 0) (buf : Buf) (fuel : ℕ) :
    Prog.wp (loop (ioLoop P isWrite count actual) fuel (0, buf))
      (fun x _ => x.1 = -1 ∧ ¬Obliging P ∨ x.1 = count)
      (fun _ => fuel ≤ count.toNat) w := by
  refine wp_loop_cut (fun i t => t.drv.gSectorSize = 512 ∧ (i.1 : ℤ) ≤ count ∧ Fits isWrite count actual i.1)
    (fun i => count.toNat - i.1) (fun _ _ _ h => h) ?_ ?start
  case start => exact ⟨hw, hcount, hfits⟩
  rintro ⟨done, b⟩ t ⟨ht, hle, hf⟩
  by_cases hlt : (done : ℤ) < count
  · obtain ⟨⟨hpos, hmost, -⟩, hnext⟩ := step_of_fits hactual hlt hf
    refine wp_mono (wp_ioLoop_done ht b hlt) (fun r u hu => ?_) fun _ h => h.elim
    rcases r with ⟨next, b'⟩ | x
    · obtain ⟨hu, rfl⟩ := hu
      exact ⟨⟨hu, by omega, hnext⟩, by omega⟩
    · exact .inl hu
  · rw [ioLoop, if_neg hlt]
    exact .inr (Int.le_antisymm hle (Int.not_lt.mp hlt))

/-- A stuck request never ends, if the device obliges. -/
theorem wp_loop_stuck {w : World δ} (hP : Obliging P) (hw : w.drv.gSectorSize = 512) (hactual : 0 ≤ actual)
    (hstuck : Stuck isWrite count actual 0) (buf : Buf) (fuel : ℕ) :
    Prog.wp (loop (ioLoop P isWrite count actual) fuel (0, buf)) (fun _ _ => False) (fun _ => True) w := by
  refine wp_loop (fun i t => t.drv.gSectorSize = 512 ∧ Stuck isWrite count actual i.1)
    (fun _ _ _ => trivial) ?_ fuel
    (0, buf) ⟨hw, hstuck⟩
  rintro ⟨done, b⟩ t ⟨ht, hs⟩
  obtain ⟨hlt, hnext⟩ := stuck_passLength hactual hs
  refine wp_mono (wp_ioLoop_done ht b hlt) (fun r u hu => ?_) fun _ h => h.elim
  rcases r with ⟨next, b'⟩ | x
  · obtain ⟨hu, rfl⟩ := hu
    exact ⟨hu, hnext⟩
  · exact hu.2 hP

/-- A stuck request never returns, if the device obliges. -/
theorem not_progresses_of_stuck {w : World δ} {offset : ℤ} {buf : Buf} (hP : Obliging P)
    (hw : w.drv.gSectorSize = 512)
    (hd : w.drv.gDriveOffsetSectors < 2 ^ 54) (hactual : 0 ≤ offset + (w.drv.gDriveOffsetSectors : ℤ) * 512)
    (hstuck : Stuck isWrite count (offset + w.drv.gDriveOffsetSectors * 512) 0) :
    ¬Progresses P isWrite buf count offset w := by
  intro h
  obtain ⟨fuel, hends⟩ := h.ends
  have hnever : Prog.wp (scsiIoInternal P fuel buf count offset isWrite) (fun _ _ => False)
      (fun _ => True) w := by
    rw [wp_scsiIoInternal_window hw hd]
    refine wp_loop_stuck hP ?_ hactual hstuck buf fuel
    exact hw
  obtain ⟨x, hx⟩ := Option.ne_none_iff_exists'.mp hends
  exact wp_run hnever (Prog.eq_of_fst hx)

/-- An overlong first pass copies more than 1 MB. -/
theorem not_progresses_of_overlong {w : World δ} {offset : ℤ} {buf : Buf} (hP : Obliging P)
    (hw : w.drv.gSectorSize = 512)
    (hd : w.drv.gDriveOffsetSectors < 2 ^ 54) (hactual : 0 ≤ offset + (w.drv.gDriveOffsetSectors : ℤ) * 512)
    (hlt : count < 4294967296) (hne : sectorOffset (offset + w.drv.gDriveOffsetSectors * 512) 0 ≠ 0)
    (hwrap : 4294967296 ≤ count + sectorOffset (offset + w.drv.gDriveOffsetSectors * 512) 0 + 511)
    (hle : count + sectorOffset (offset + w.drv.gDriveOffsetSectors * 512) 0 ≤ 4294967296) :
    ¬Progresses P false buf count offset w := by
  intro h
  obtain ⟨hpass, -⟩ := h.passes 1
  rw [actualOffset_eq hw hd] at hpass
  have hsector : sectorOffset (offset + w.drv.gDriveOffsetSectors * 512) 0 < 512 := by
    unfold sectorOffset
    omega
  obtain ⟨r, t, hrun, -, hlength, hsome⟩ := wp_returns (wp_ioPass_done (P := P)
    (w := { w with requests := w.requests ++ [⟨buf, count, offset, false⟩] }) hw false count
    (offset + w.drv.gDriveOffsetSectors * 512) buf 0)
  obtain ⟨x, rfl⟩ := Option.ne_none_iff_exists'.mp (hsome hP)
  obtain ⟨-, -, hmost⟩ := hpass (show ((0 : ℕ) : ℤ) < count by omega) x (by rw [hrun])
  have hall : u32 (count - (0 : ℕ)) = count := by
    unfold u32
    omega
  have hcopy : toCopy 512 _ (u32 (count - (0 : ℕ))) = u32 (count - (0 : ℕ)) :=
    toCopy_512_overlong hsector hne (by omega) (by omega)
  rw [hlength x rfl, u32_tmod hactual, passLength, if_pos rfl, hcopy] at hmost
  omega

end Requests

/-- The device that only says yes. -/
def obliging : Platform Unit where
  exchange usb _ data d := ⟨some ⟨0x53425355, usb.gTag, 0, 0⟩, data, usb, d⟩
  requestSense usb d := (usb, d)
  malloc d := (true, d)
  rand d := (0, d)
  wrapSysDevice _ d := (some 0, d)
  activeConfig _ d := (some [], d)

theorem obliging_obliges : Obliging obliging := ⟨fun _ _ _ _ => ⟨_, rfl, rfl⟩, fun _ => rfl⟩

/-- The process when the library is loaded. -/
def obligingWorld : World Unit := ⟨{}, (), [], [], []⟩

/-- Requests move on with every pass, on every device and whatever it answers, exactly if they fit. -/
theorem scsiIoInternal_progresses_iff (isWrite : Bool) {count offset : ℤ} (hcount : 0 ≤ count)
    (hoffset : 0 ≤ offset) :
    (∀ (δ : Type) (P : Platform δ) (buf : Buf) (w : World δ), w.drv.gSectorSize = 512 →
      w.drv.gDriveOffsetSectors < 2 ^ 54 →
      Progresses P isWrite buf count offset w) ↔
      count + (if isWrite = false then offset % 512 + 511 else 0) < 4294967296 := by
  constructor
  · intro h
    by_contra hno
    have hall := h Unit obliging zeros obligingWorld rfl (by decide)
    have hzero : offset + (obligingWorld.drv.gDriveOffsetSectors : ℤ) * 512 = offset := Int.add_zero offset
    have hsector := sectorOffset_zero offset
    by_cases hstuck : Stuck isWrite count offset 0
    · exact not_progresses_of_stuck obliging_obliges rfl (by decide) (hzero.symm ▸ hoffset)
        (hzero.symm ▸ hstuck) hall
    · have hlt := (not_or.mp hstuck).1
      cases isWrite with
      | false =>
        rw [if_pos rfl] at hno
        simp only [Stuck, true_and] at hstuck
        refine not_progresses_of_overlong obliging_obliges rfl (by decide) (hzero.symm ▸ hoffset) (by omega)
          ?_ ?_ ?_ hall <;> rw [hzero] <;> omega
      | true =>
        rw [if_neg (by decide)] at hno
        omega
  · intro hfits δ P buf w hw hd
    have hactual : 0 ≤ offset + (w.drv.gDriveOffsetSectors * 512 : ℤ) := by omega
    have hfits : Fits isWrite count (offset + (w.drv.gDriveOffsetSectors * 512 : ℤ)) 0 := by
      rw [Fits, sectorOffset_zero, Int.add_mul_emod_self_right]
      split_ifs at hfits ⊢ <;> omega
    have hrun : ∀ fuel, Prog.wp (scsiIoInternal P fuel buf count offset isWrite)
        (fun x _ => x.1 = -1 ∨ x.1 = count)
        (fun _ => fuel ≤ count.toNat) w := fun fuel => by
      rw [wp_scsiIoInternal_window hw hd]
      refine wp_mono (wp_loop_fits ?_ (fun _ => hactual) hcount hfits buf fuel)
        (fun x _ hx => hx.imp_left And.left) fun _ h => h
      exact hw
    refine ⟨fun fuel => ?_, ⟨count.toNat + 1, ?_⟩, fun fuel x hx =>
      wp_run (Q := fun x _ => x.1 = -1 ∨ x.1 = count) (hrun fuel) (Prog.eq_of_fst hx)⟩
    · rw [actualOffset_eq hw hd]
      refine passes_of_invariant (I := fun i t => t.drv.gSectorSize = 512 ∧
        Fits isWrite count (offset + (w.drv.gDriveOffsetSectors * 512 : ℤ)) i.1) ?_ fuel ?start
      case start => exact ⟨hw, hfits⟩
      rintro ⟨done, b⟩ t ⟨ht, hf⟩
      refine ⟨fun hlt x hx => ?_, ?_⟩
      · have hpass := wp_run (wp_ioPass_done ht isWrite count _ b done) (Prog.eq_of_fst hx)
        rw [hpass.2.1 x rfl]
        exact (step_of_fits (fun _ => hactual) hlt hf).1
      · by_cases hlt : (done : ℤ) < count
        · refine wp_mono (wp_ioLoop_done ht b hlt) (fun r u hu => ?_) fun _ h => h.elim
          rcases r with ⟨next, b'⟩ | x
          · obtain ⟨hu, rfl⟩ := hu
            exact ⟨hu, (step_of_fits (fun _ => hactual) hlt hf).2⟩
          · trivial
        · rw [ioLoop, if_neg hlt]
          trivial
    · obtain ⟨x, t, hx, -⟩ := wp_returns_of (hrun (count.toNat + 1)) fun _ h => absurd h (by omega)
      rw [hx]
      exact Option.some_ne_none _

/-- A write of 4 GiB never returns. -/
theorem scsiIoInternal_stalls : ¬Progresses obliging true zeros 4294967296 0 obligingWorld :=
  not_progresses_of_stuck obliging_obliges rfl (by decide) (by decide) (.inl (by decide))

/-- A read of 1000 bytes from the middle of a sector moves on to its end. -/
theorem scsiIoInternal_progresses_iff_read : Progresses obliging false zeros 1000 100 obligingWorld :=
  (scsiIoInternal_progresses_iff false (by decide) (by decide)).mpr (by decide) Unit obliging zeros
    obligingWorld rfl (by decide)

end FormatStick
