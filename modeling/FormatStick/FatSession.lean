import FormatStick.Stages

/-!
# FAT sessions

A session that returns passed through all of its stages; a FAT session that does not
return was cut in one of them. What is known at each of these points is collected here,
for the results about whole sessions.
-/
namespace FormatStick
open Splice WriteBack

/-- The states between the stages of a session that got as far as its last sync. -/
structure SessionRun (fuel : ℕ) (engine : ℕ → Prog (World Stick) ℤ) (fd clusterSize partitionType fsType : ℤ)
    (w : World Stick) (part : ℕ) (w₁ w₂ w₃ w₄ : World Stick) (formatRes : ℤ) (t : World Stick) : Prop where
  prepared : prepare stick fd clusterSize partitionType fsType w = (some (some part), w₁)
  partitioned : createPartition stick partitionType fsType part w₁ = (some (), w₂)
  wiped : ∃ r, usbScsiWipePartitionHead stick fuel fsType w₂ = (some r, w₃)
  formatted : formatStage stick fuel engine clusterSize fsType part w₃ = (some formatRes, w₄)
  synced : ∃ r, usbScsiSync stick w₄ = (some r, t)

/-- A session that returns was rejected or ran to its end. -/
theorem startStableFormat_run {fuel : ℕ} {engine : ℕ → Prog (World Stick) ℤ}
    {fd clusterSize partitionType fsType : ℤ} {w t : World Stick} {b : Bool}
    (h : startStableFormat stick fuel engine fd clusterSize partitionType fsType w = (some b, t)) :
    (b = false ∧ prepare stick fd clusterSize partitionType fsType w = (some none, t)) ∨
      ∃ part w₁ w₂ w₃ w₄ formatRes, b = decide (formatRes = 0) ∧
        SessionRun fuel engine fd clusterSize partitionType fsType w part w₁ w₂ w₃ w₄ formatRes t := by
  obtain ⟨prepared, w₁, h₁, h⟩ := Prog.bind_returns h
  cases prepared with
  | none =>
    obtain ⟨hb, rfl⟩ := Prod.mk.inj h
    exact .inl ⟨(Option.some.inj hb).symm, h₁⟩
  | some part =>
    obtain ⟨_, w₂, h₂, h⟩ := Prog.bind_returns h
    obtain ⟨r₃, w₃, h₃, h⟩ := Prog.bind_returns h
    obtain ⟨formatRes, w₄, h₄, h⟩ := Prog.bind_returns h
    obtain ⟨r₅, w₅, h₅, h⟩ := Prog.bind_returns h
    obtain ⟨hb, rfl⟩ := Prod.mk.inj h
    exact .inr ⟨part, w₁, w₂, w₃, w₄, formatRes, (Option.some.inj hb).symm, h₁, h₂, ⟨r₃, h₃⟩, h₄, ⟨r₅, h₅⟩⟩

/-- What is known of the states before the file system is written. -/
structure Windowed (clusterSize partitionType fsType : ℤ) (w : World Stick) (part : ℕ)
    (w₁ w₂ w₃ : World Stick) :
    Prop where
  prepared : Prepared clusterSize partitionType fsType w part w₁
  partitioned : Partitioned partitionType fsType part w₁ w₂
  wiped : Wiped fsType w₂ w₃

theorem Prepared.createPartition {clusterSize partitionType fsType : ℤ} {w w₁ : World Stick} {part : ℕ}
    (h : Prepared clusterSize partitionType fsType w part w₁) (hw : Resting w) :
    Prog.wp (createPartition stick partitionType fsType part)
      (fun _ t => Partitioned partitionType fsType part w₁ t) (fun _ => False) w₁ := by
  have hlast : sessionSectors w ≤ 4294967296 := hw.count
  refine wp_createPartition h.wrote.ready ?_ ?_ fsType part
  · rintro rfl
    have hfits := h.fits
    rw [h.count]
    rw [alignedOffset, if_pos (by decide)] at hfits
    omega
  · rw [h.count]
    exact hlast

theorem driveStart_le (partitionType : ℤ) : driveStart partitionType ≤ 4096 := by
  rw [driveStart]
  split_ifs <;> decide

theorem SessionRun.windowed {fuel : ℕ} {engine : ℕ → Prog (World Stick) ℤ}
    {fd clusterSize partitionType fsType : ℤ} {w w₁ w₂ w₃ w₄ t : World Stick} {part : ℕ} {formatRes : ℤ}
    (h : SessionRun fuel engine fd clusterSize partitionType fsType w part w₁ w₂ w₃ w₄ formatRes t)
    (hw : Resting w) : Windowed clusterSize partitionType fsType w part w₁ w₂ w₃ := by
  have hp : Prepared clusterSize partitionType fsType w part w₁ :=
    Prog.wp_run (a := some part) (wp_prepare hw fd clusterSize partitionType fsType) h.prepared
  have ht : Partitioned partitionType fsType part w₁ w₂ :=
    Prog.wp_run (a := ()) (hp.createPartition hw) h.partitioned
  obtain ⟨r, hr⟩ := h.wiped
  refine ⟨hp, ht, Prog.wp_run (a := r) (wp_usbScsiWipePartitionHead ht.wrote.ready ?_ fuel fsType) hr⟩
  rw [ht.offset]
  exact driveStart_le partitionType

namespace Windowed

variable {clusterSize partitionType fsType : ℤ} {w w₁ w₂ w₃ : World Stick} {part : ℕ}

/-- The globals the file system is written under. -/
theorem globals (h : Windowed clusterSize partitionType fsType w part w₁ w₂ w₃) :
    w₃.drv.gSectorCount = sessionSectors w ∧ w₃.drv.gDriveOffsetSectors = driveStart partitionType ∧
      w₃.drv.gPartitionType = partitionType ∧ w₃.drv.gPartitionSectors = part ∧
      w₃.drv.gCacheSectors = 0 := by
  obtain ⟨rs, hf, -⟩ := h.wiped.soFar.frame
  refine ⟨?_, ?_, ?_, ?_, ?_⟩
  · rw [hf.sectorCount, h.partitioned.count, h.prepared.count]
  · rw [hf.driveOffset, h.partitioned.offset]
  · rw [hf.partitionType, h.partitioned.type, h.prepared.type]
  · rw [hf.partitionSectors, h.partitioned.size]
  · exact h.wiped.empty (h.partitioned.empty h.prepared.empty)

theorem spec (h : Windowed clusterSize partitionType fsType w part w₁ w₂ w₃) : w₃.dev.spec = w.dev.spec :=
  h.wiped.soFar.wrote.spec.trans (h.partitioned.wrote.spec.trans h.prepared.wrote.spec)

end Windowed

/-- `usable_sectors` of the FAT formatter in a session. -/
def sessionUsable (n : ℕ) (partitionType : ℤ) : ℕ :=
  n - driveStart partitionType - if partitionType = 2 then 33 else 0

theorem Windowed.usable {clusterSize partitionType fsType : ℤ} {w w₁ w₂ w₃ : World Stick} {part : ℕ}
    (h : Windowed clusterSize partitionType fsType w part w₁ w₂ w₃) (hw : Resting w) :
    fatUsable w₃ = sessionUsable (sessionSectors w) partitionType ∧
      0 < sessionUsable (sessionSectors w) partitionType := by
  obtain ⟨hcount, hoff, htype, -⟩ := h.globals
  have hfits := h.prepared.fits
  have hlast : sessionSectors w ≤ 4294967296 := hw.count
  rw [fatUsable, fatUsableSectors, hcount, hoff, htype, sessionUsable]
  rw [alignedOffset, reservedEnd] at hfits
  rw [driveStart]
  by_cases h₂ : partitionType = 2
  · rw [if_pos (by omega), if_pos h₂] at hfits
    simp only [h₂, or_true, if_true]
    unfold u64
    omega
  · by_cases h₁ : partitionType = 1
    · rw [if_pos (by omega), if_neg h₂] at hfits
      simp only [h₁, true_or, if_true]
      rw [if_neg (by decide), if_neg (by decide)]
      unfold u64
      omega
    · simp only [h₁, h₂, or_self, if_false]
      unfold u64
      omega

theorem formatStage_fat {δ : Type} (P : Platform δ) (fuel : ℕ) (engine : ℕ → Prog (World δ) ℤ)
    (clusterSize : ℤ) {fsType : ℤ} (h : fsType = 1 ∨ fsType = 2 ∨ fsType = 3) (part : ℕ) :
    formatStage P fuel engine clusterSize fsType part =
      usbScsiFormatFat P fuel fsType (u32 clusterSize) usbDisk := by
  rw [formatStage, if_neg (by omega), if_neg (by omega), if_neg (by omega)]

theorem Windowed.ready {clusterSize partitionType fsType : ℤ} {w w₁ w₂ w₃ : World Stick} {part : ℕ}
    (h : Windowed clusterSize partitionType fsType w part w₁ w₂ w₃) : Ready w₃ := h.wiped.soFar.wrote.ready

/-- The FAT formatter in a session. -/
theorem Windowed.formatFat {clusterSize partitionType fsType : ℤ} {w w₁ w₂ w₃ : World Stick} {part : ℕ}
    (h : Windowed clusterSize partitionType fsType w part w₁ w₂ w₃) (hw : Resting w) (fuel : ℕ) :
    Prog.wp (usbScsiFormatFat stick fuel fsType (u32 clusterSize) usbDisk)
      (FatDone fsType (u32 clusterSize) usbDisk w₃)
      (fun t => FatSoFar fsType (u32 clusterSize) usbDisk w₃ t ∧
        (FatLoopsEnd (fatSizeSectors fsType (u32 clusterSize)
          (sessionUsable (sessionSectors w) partitionType)) →
          fuel < 4294967296)) w₃ := by
  obtain ⟨husable, hpos⟩ := h.usable hw
  obtain ⟨-, hoff, -⟩ := h.globals
  have hfat := wp_usbScsiFormatFat h.ready (hoff ▸ driveStart_le _) fuel fsType (u32 clusterSize) usbDisk
    (by rw [husable]; omega)
  rwa [fatSizeIn, husable] at hfat

/-- Without faults a FAT session that passes the size check returns `JNI_TRUE`, if the loops
over its tables end. -/
theorem startStableFormat_returns {w : World Stick} (hw : Resting w) (hf : Faultless w.dev.spec)
    (ha : Attached w.dev.spec) {clusterSize partitionType fsType : ℤ}
    (hfs : fsType = 1 ∨ fsType = 2 ∨ fsType = 3)
    (hfits : alignedOffset partitionType + reservedEnd partitionType < sessionSectors w)
    (hend : FatLoopsEnd
      (fatSizeSectors fsType (u32 clusterSize) (sessionUsable (sessionSectors w) partitionType)))
    {fuel : ℕ} (hfuel : 4294967296 ≤ fuel) (engine : ℕ → Prog (World Stick) ℤ) (fd : ℤ) :
    ∃ part w₁ w₂ w₃ w₄ t, SessionRun fuel engine fd clusterSize partitionType fsType w part w₁ w₂ w₃ w₄ 0 t ∧
      startStableFormat stick fuel engine fd clusterSize partitionType fsType w = (some true, t) := by
  obtain ⟨r, w₁, h₁, hprep⟩ := Prog.wp_returns_of (wp_prepare hw fd clusterSize partitionType fsType)
    fun t ht => ht.2.2 hf
  rcases r with _ | part
  · have := hprep.2 hf ha
    omega
  obtain ⟨⟨⟩, w₂, h₂, hpart⟩ := Prog.wp_returns (Prepared.createPartition hprep hw)
  have hoff : w₂.drv.gDriveOffsetSectors ≤ 4096 := hpart.offset ▸ driveStart_le _
  obtain ⟨r₃, w₃, h₃, hwiped⟩ := Prog.wp_returns_of
    (wp_usbScsiWipePartitionHead hpart.wrote.ready hoff fuel fsType) fun t ht => by
      have := ht.2
      omega
  have hwin : Windowed clusterSize partitionType fsType w part w₁ w₂ w₃ := ⟨hprep, hpart, hwiped⟩
  obtain ⟨r₄, w₄, h₄, hfat⟩ := Prog.wp_returns_of (hwin.formatFat hw fuel) fun t ht => by
    have := ht.2 hend
    omega
  obtain rfl : r₄ = 0 := hfat.full (hwin.spec ▸ hf)
  rw [← formatStage_fat stick fuel engine clusterSize hfs part] at h₄
  obtain ⟨r₅, t, h₅, -⟩ := Prog.wp_returns (wp_usbScsiSync hfat.soFar.wrote.ready)
  refine ⟨part, w₁, w₂, w₃, w₄, t, ⟨h₁, h₂, ⟨r₃, h₃⟩, h₄, ⟨r₅, h₅⟩⟩, ?_⟩
  rw [startStableFormat, Prog.bind_of_returns h₁]
  change ((do
    createPartition stick partitionType fsType part
    let _ ← usbScsiWipePartitionHead stick fuel fsType
    let formatRes ← formatStage stick fuel engine clusterSize fsType part
    let _ ← usbScsiSync stick
    pure (decide (formatRes = 0))) : Prog (World Stick) Bool) w₁ = _
  rw [Prog.bind_of_returns h₂, Prog.bind_of_returns h₃, Prog.bind_of_returns h₄, Prog.bind_of_returns h₅]
  rfl

/-- Where a FAT session is, at its end or where it is cut. -/
inductive FatSessionAt (fuel : ℕ) (clusterSize partitionType fsType : ℤ) (w : World Stick) :
    World Stick → Prop
  /-- rejected, or still wiping the old tables -/
  | clearing {t : World Stick} : t = w ∨ Wrote (ClearWrite (sessionSectors w)) w t → t.requests = w.requests →
      (Faultless w.dev.spec → Attached w.dev.spec →
        sessionSectors w ≤ alignedOffset partitionType + reservedEnd partitionType) →
      FatSessionAt fuel clusterSize partitionType fsType w t
  /-- wiping the head of the partition -/
  | wiping {part : ℕ} {w₁ w₂ t : World Stick} : Prepared clusterSize partitionType fsType w part w₁ →
      Partitioned partitionType fsType part w₁ w₂ → WipedSoFar fsType w₂ t → fuel ≤ 262144 →
      FatSessionAt fuel clusterSize partitionType fsType w t
  /-- writing the file system, or done with it -/
  | formatting {part : ℕ} {w₁ w₂ w₃ w₄ t : World Stick} :
      Windowed clusterSize partitionType fsType w part w₁ w₂ w₃ →
      FatSoFar fsType (u32 clusterSize) usbDisk w₃ w₄ → Frame w₄ [] t → Wrote (fun _ => False) w₄ t →
      FatSessionAt fuel clusterSize partitionType fsType w t

theorem wp_startStableFormat {w : World Stick} (hw : Resting w) (clusterSize partitionType : ℤ) {fsType : ℤ}
    (hfs : fsType = 1 ∨ fsType = 2 ∨ fsType = 3) (fuel : ℕ) (engine : ℕ → Prog (World Stick) ℤ) (fd : ℤ) :
    Prog.wp (startStableFormat stick fuel engine fd clusterSize partitionType fsType)
      (fun _ t => FatSessionAt fuel clusterSize partitionType fsType w t)
      (FatSessionAt fuel clusterSize partitionType fsType w) w := by
  rw [startStableFormat, Prog.wp_bind]
  refine Prog.wp_mono (wp_prepare hw fd clusterSize partitionType fsType) ?_ ?_
  · rintro (_ | part) w₁ h₁
    · obtain ⟨rfl | h, hsmall⟩ := h₁
      · exact .clearing (.inl rfl) rfl hsmall
      · exact .clearing (.inr (h.wrote.mono fun _ h => h.elim)) h.requests hsmall
    · change Prog.wp (do
        createPartition stick partitionType fsType part
        let _ ← usbScsiWipePartitionHead stick fuel fsType
        let formatRes ← formatStage stick fuel engine clusterSize fsType part
        let _ ← usbScsiSync stick
        pure (decide (formatRes = 0))) _ _ w₁
      rw [Prog.wp_bind]
      refine Prog.wp_mono (Prepared.createPartition h₁ hw) ?_ (fun _ h => h.elim)
      intro _ w₂ h₂
      rw [Prog.wp_bind]
      refine Prog.wp_mono (wp_usbScsiWipePartitionHead h₂.wrote.ready (h₂.offset ▸ driveStart_le _)
        fuel fsType)
        ?_ fun t ht => .wiping h₁ h₂ ht.1 ht.2
      intro _ w₃ h₃
      have hwin : Windowed clusterSize partitionType fsType w part w₁ w₂ w₃ := ⟨h₁, h₂, h₃⟩
      rw [formatStage_fat stick fuel engine clusterSize hfs part, Prog.wp_bind]
      refine Prog.wp_mono (hwin.formatFat hw fuel) ?_
        fun t ht => .formatting hwin ht.1 (Frame.refl t) (Wrote.refl ht.1.wrote.ready)
      intro r w₄ h₄
      rw [Prog.wp_bind]
      refine Prog.wp_mono (wp_usbScsiSync h₄.soFar.wrote.ready) ?_ (fun _ h => h.elim)
      intro _ t ht
      exact .formatting hwin h₄.soFar ht.frame (ht.wrote _)
  · rintro t ⟨ht, hreq, hf⟩
    exact .clearing (.inr ht) hreq fun h => absurd h hf

end FormatStick
