import FormatStick.DeviceOps

/-!
# Views of the volume size

The driver tells the size of the volume in six places. Four of them agree. `dev_seek` looks
at the disk behind the drive offset and not at the partition, and the answer to BLKGETSIZE,
which its callers take in blocks of 512 bytes, is in bytes.
-/
namespace FormatStick

variable {δ : Type}

/-- The states of the driver in which the partition fits the disk. Sector count and size are
what READ CAPACITY can return. -/
structure Driver.Fits (g : Driver) : Prop where
  count : g.gSectorCount ≤ 2 ^ 32
  size : g.gSectorSize < 2 ^ 32
  partition : g.gDriveOffsetSectors + g.gPartitionSectors ≤ g.gSectorCount

/-- The bytes of the volume. -/
def volumeBytes (g : Driver) : ℕ := usbScsiGetUsableSectors g * g.gSectorSize

/-- The six views of the volume size, all equal to `v` bytes. -/
structure Views (w : World δ) (v : ℕ) : Prop where
  usable : volumeBytes w.drv = v
  devSeek : (devSeek 0 seekEnd w).1 = some (v : ℤ)
  lseek : (usbScsiLseekInternal 0 seekEnd w).1 = some (v : ℤ)
  stat : (devStat w.drv).stSize = v
  blkGetSize64 : ∀ request, request = 0x80081272 ∨ request = 0x80041272 →
    devIoctl w.drv request = some (.size v)
  blkGetSize : ∃ blocks, devIoctl w.drv 0x1260 = some (.size blocks) ∧ blocks * 512 = v

/-- The driver tells one size. -/
def ViewsAgree (w : World δ) : Prop := ∃ v, Views w v

theorem u64_lt (x : ℤ) : u64 x < 2 ^ 64 := by
  unfold u64
  omega

theorem i64_eq_zero {x : ℕ} (hx : x < 2 ^ 64) : i64 x = 0 ↔ x = 0 := by
  unfold i64
  rw [Int.bmod_def]
  omega

section Views

variable {w : World δ}

theorem seekIn_end (size : Driver → ℤ) : (seekIn size 0 seekEnd w).1 = some (size w.drv) := by
  have hset : ¬seekEnd = seekSet := by decide
  have hcur : ¬seekEnd = seekCur := by decide
  have hpos : (seekIn size 0 seekEnd w).1 = some (if seekEnd = seekSet then 0
      else if seekEnd = seekCur then w.drv.gCurPos + 0
      else if seekEnd = seekEnd then size w.drv + 0 else w.drv.gCurPos) := rfl
  rw [hpos, if_neg hset, if_neg hcur, if_pos rfl, Int.add_zero]

theorem devSeek_end : (devSeek 0 seekEnd w).1 =
    some (i64 (u64 ((u64 ((w.drv.gSectorCount : ℤ) - w.drv.gDriveOffsetSectors) : ℤ) * w.drv.gSectorSize))) :=
  seekIn_end _

theorem usbScsiLseekInternal_end : (usbScsiLseekInternal 0 seekEnd w).1 =
    some (i64 (u64 ((usbScsiGetUsableSectors w.drv : ℤ) * w.drv.gSectorSize))) :=
  seekIn_end _

theorem usable_zero (hg : w.drv.Fits) (h : usbScsiGetUsableSectors w.drv = 0) :
    w.drv.gPartitionSectors = 0 ∧
      (w.drv.gPartitionType ≠ 2 → w.drv.gSectorCount = w.drv.gDriveOffsetSectors) ∧
      (w.drv.gPartitionType = 2 → u64 ((w.drv.gSectorCount : ℤ) - w.drv.gDriveOffsetSectors) = 33) := by
  obtain ⟨hcount, -, hpart⟩ := hg
  unfold usbScsiGetUsableSectors at h
  by_cases hp : w.drv.gPartitionSectors = 0
  · refine ⟨hp, fun ht => ?_, fun ht => ?_⟩
    · simp only [hp, ht, false_and, if_true, if_false] at h
      unfold u64 at h
      omega
    · simp only [hp, ht, and_self, if_true] at h
      unfold u64 at h ⊢
      omega
  · simp [hp] at h

/-- The driver tells one size of a volume without bytes only. -/
theorem viewsAgree_of_fits (hg : w.drv.Fits) : ViewsAgree w ↔
    w.drv.gSectorSize = 0 ∨
      w.drv.gPartitionSectors = 0 ∧ w.drv.gSectorCount = w.drv.gDriveOffsetSectors ∧
        w.drv.gPartitionType ≠ 2 := by
  constructor
  · rintro ⟨v, hv⟩
    obtain ⟨blocks, hblocks, hbytes⟩ := hv.blkGetSize
    -- the answers to both requests are the same number
    have h64 : devIoctl w.drv 0x80081272 = devIoctl w.drv 0x1260 := rfl
    rw [hv.blkGetSize64 _ (.inl rfl), hblocks] at h64
    obtain rfl : v = blocks := by simpa using h64
    obtain rfl : v = 0 := by omega
    rcases Nat.mul_eq_zero.mp hv.usable with husable | hsize
    · obtain ⟨hp, hne, htwo⟩ := usable_zero hg husable
      by_cases ht : w.drv.gPartitionType = 2
      · have hseek := hv.devSeek
        rw [devSeek_end, htwo ht] at hseek
        have hzero : u64 ((33 : ℕ) * w.drv.gSectorSize) = 0 :=
          (i64_eq_zero (u64_lt _)).mp (Option.some.inj hseek)
        have hlt : 33 * w.drv.gSectorSize < 2 ^ 64 := by
          have hsize := hg.size
          omega
        rw [u64_mul hlt] at hzero
        exact .inl ((Nat.mul_eq_zero.mp hzero).resolve_left (by decide))
      · exact .inr ⟨hp, hne ht, ht⟩
    · exact .inl hsize
  · intro h
    have hzero : volumeBytes w.drv = 0 ∧
        (u64 ((w.drv.gSectorCount : ℤ) - w.drv.gDriveOffsetSectors) : ℤ) * w.drv.gSectorSize = 0 := by
      rcases h with hsize | ⟨hp, hcount, ht⟩
      · simp [volumeBytes, hsize]
      · simp [volumeBytes, usbScsiGetUsableSectors, hp, hcount, ht, u64]
    obtain ⟨hvolume, hdisk⟩ := hzero
    have husable : (usbScsiGetUsableSectors w.drv : ℤ) * w.drv.gSectorSize = 0 := by exact_mod_cast hvolume
    refine ⟨0, hvolume, ?_, ?_, ?_, ?_, 0, ?_, rfl⟩
    · rw [devSeek_end, hdisk]
      rfl
    · rw [usbScsiLseekInternal_end, husable]
      rfl
    · rw [devStat, husable]
      rfl
    · intro request hr
      rw [devIoctl, if_pos (hr.imp_right .inl), husable]
      rfl
    · rw [devIoctl, if_pos (.inr (.inr rfl)), husable]
      rfl

theorem i64_u64 {x : ℕ} (h : x < 2 ^ 63) : i64 (u64 x) = x := by
  rw [u64_of_lt (by omega), i64_of_lt h]

/-- `dev_seek` tells the size of the disk behind the drive offset. -/
theorem devSeek_end_iff (hg : w.drv.Fits)
    (h : (w.drv.gSectorCount - w.drv.gDriveOffsetSectors) * w.drv.gSectorSize < 2 ^ 63) :
    (devSeek 0 seekEnd w).1 = some (volumeBytes w.drv : ℤ) ↔
      w.drv.gSectorSize = 0 ∨ if w.drv.gPartitionSectors = 0 then w.drv.gPartitionType ≠ 2
        else w.drv.gDriveOffsetSectors + w.drv.gPartitionSectors = w.drv.gSectorCount := by
  obtain ⟨hcount, -, hpart⟩ := hg
  have hdisk : u64 ((w.drv.gSectorCount : ℤ) - w.drv.gDriveOffsetSectors) =
      w.drv.gSectorCount - w.drv.gDriveOffsetSectors := by
    unfold u64
    omega
  have husable : w.drv.gSectorCount - w.drv.gDriveOffsetSectors = usbScsiGetUsableSectors w.drv ↔
      if w.drv.gPartitionSectors = 0 then w.drv.gPartitionType ≠ 2
        else w.drv.gDriveOffsetSectors + w.drv.gPartitionSectors = w.drv.gSectorCount := by
    unfold usbScsiGetUsableSectors
    by_cases hp : w.drv.gPartitionSectors = 0
    · by_cases ht : w.drv.gPartitionType = 2
      · simp only [hp, ht, hdisk, and_self, if_true, ne_eq, not_true_eq_false, iff_false]
        unfold u64
        omega
      · simp [hp, ht, hdisk]
    · simp only [hp, and_false, if_false]
      omega
  rw [devSeek_end, hdisk, ← Int.natCast_mul, i64_u64 h, Option.some.injEq, Int.natCast_inj,
    volumeBytes, ← husable]
  constructor
  · intro heq
    rcases Nat.eq_zero_or_pos w.drv.gSectorSize with hsize | hpos
    · exact .inl hsize
    · exact .inr (Nat.eq_of_mul_eq_mul_right hpos heq)
  · rintro (hsize | heq)
    · rw [hsize, Nat.mul_zero, Nat.mul_zero]
    · rw [heq]

/-- The views of the volume size agree on volumes without bytes only. Four of them always do,
below 2^63 bytes; `dev_seek` does where the partition takes the rest of the disk. -/
theorem viewsAgree_iff (hg : w.drv.Fits) :
    (ViewsAgree w ↔ w.drv.gSectorSize = 0 ∨
      w.drv.gPartitionSectors = 0 ∧ w.drv.gSectorCount = w.drv.gDriveOffsetSectors ∧
        w.drv.gPartitionType ≠ 2) ∧
    (volumeBytes w.drv < 2 ^ 63 →
      (usbScsiLseekInternal 0 seekEnd w).1 = some (volumeBytes w.drv : ℤ) ∧
        (devStat w.drv).stSize = volumeBytes w.drv ∧
        ∀ request, request = 0x80081272 ∨ request = 0x80041272 →
          devIoctl w.drv request = some (.size (volumeBytes w.drv))) ∧
    ((w.drv.gSectorCount - w.drv.gDriveOffsetSectors) * w.drv.gSectorSize < 2 ^ 63 →
      ((devSeek 0 seekEnd w).1 = some (volumeBytes w.drv : ℤ) ↔
        w.drv.gSectorSize = 0 ∨ if w.drv.gPartitionSectors = 0 then w.drv.gPartitionType ≠ 2
          else w.drv.gDriveOffsetSectors + w.drv.gPartitionSectors = w.drv.gSectorCount)) := by
  refine ⟨viewsAgree_of_fits hg, fun hlt => ?_, devSeek_end_iff hg⟩
  have hbytes : u64 ((usbScsiGetUsableSectors w.drv : ℤ) * w.drv.gSectorSize) = volumeBytes w.drv :=
    u64_mul (Nat.lt_trans hlt (by decide))
  refine ⟨?_, ?_, fun request hr => ?_⟩
  · rw [usbScsiLseekInternal_end, hbytes, i64_of_lt hlt]
  · rw [devStat, hbytes, i64_of_lt hlt]
  · rw [devIoctl, if_pos (hr.imp_right .inl), hbytes]

end Views

/-- An MBR partition of 4096 sectors behind the first 4096 of a disk of 70000. -/
def cappedDriver : World Unit :=
  ⟨{ gSectorCount := 70000, gDriveOffsetSectors := 4096, gPartitionSectors := 4096, gPartitionType := 1 }, (),
    [], [], []⟩

theorem viewsAgree_iff_capped : cappedDriver.drv.Fits ∧ ¬ViewsAgree cappedDriver := by
  have hfits : cappedDriver.drv.Fits := ⟨by decide, by decide, by decide⟩
  refine ⟨hfits, fun h => ?_⟩
  rcases (viewsAgree_iff hfits).1.mp h with h | h
  · exact absurd h (by decide)
  · exact absurd h.1 (by decide)

/-- On a whole disk of 70000 sectors BLKGETSIZE is 512 times too large. -/
theorem views_blkGetSize : ({ gSectorCount := 70000 } : Driver).Fits ∧
    ¬ViewsAgree (⟨{ gSectorCount := 70000 }, (), [], [], []⟩ : World Unit) := by
  refine ⟨⟨by decide, by decide, by decide⟩, ?_⟩
  rintro ⟨v, hv⟩
  obtain ⟨blocks, hblocks, hbytes⟩ := hv.blkGetSize
  have hsize : v = 35840000 := hv.usable.symm
  have hblocks' : devIoctl ({ gSectorCount := 70000 } : Driver) 0x1260 = some (.size 35840000) := by decide
  obtain rfl : 35840000 = blocks := by simpa using hblocks'.symm.trans hblocks
  omega

end FormatStick
