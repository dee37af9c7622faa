import FormatStick.Success
import FormatStick.Gpt

/-!
# The window of an engine

The first entry of the partition table describes the window that the driver is given. No
later stage changes it: an engine that stays inside its window is confined to the blocks
from the drive offset on, and the FAT formatter rewrites one byte of the table, the type.
-/
namespace FormatStick
open Splice WriteBack Fields

/-- What a run inside the first `size` bytes of the partition has done, or done so far. -/
structure Confined (size : ℕ) (w t : World Stick) : Prop where
  frame : ∃ rs, Frame w rs t
  wrote : Wrote (fun v => w.drv.gDriveOffsetSectors * 512 ≤ v.addr ∧
    v.addr + v.len ≤ w.drv.gDriveOffsetSectors * 512 + size) w t

section Confined

variable {size : ℕ} {w t u : World Stick}

theorem Confined.refl (hw : Ready w) : Confined size w w := ⟨⟨[], Frame.refl w⟩, Wrote.refl hw⟩

theorem Confined.trans (h : Confined size w t) (h' : Confined size t u) : Confined size w u := by
  obtain ⟨⟨rs, hf⟩, hw⟩ := h
  obtain ⟨⟨rs', hf'⟩, hw'⟩ := h'
  rw [hf.driveOffset] at hw'
  exact ⟨⟨_, hf.trans hf'⟩, hw.trans hw'⟩

theorem Synced.confined {r : ℤ} (h : Synced w r t) : Confined size w t := ⟨⟨[], h.frame⟩, h.wrote _⟩

/-- A request inside the window that is under way. -/
theorem WriteSoFar.confined {buf : Buf} {count o k : ℕ} (hin : o + count ≤ size)
    (h : WriteSoFar { w with requests := w.requests ++ [⟨buf, count, o, true⟩] } (place w o) count buf k t) :
    Confined size w t := by
  refine ⟨⟨_, h.frame.asked⟩, h.asked.wrote.mono fun v hv => ?_⟩
  rw [List.map_singleton, List.mem_singleton] at hv
  rw [hv]
  change _ ≤ o + w.drv.gDriveOffsetSectors * 512 ∧ o + w.drv.gDriveOffsetSectors * 512 + count ≤ _
  omega

theorem ReadSoFar.confined {buf b : Buf} {count o k : ℕ}
    (h : ReadSoFar { w with requests := w.requests ++ [⟨buf, count, o, false⟩] } (place w o) count
      buf k b t) :
    Confined size w t :=
  ⟨⟨_, h.frame.asked⟩, Wrote.of_frame h.frame.asked h.ready (fun φ hs _ => h.sat φ hs)
    fun n hn _ => h.below n ⟨hn.cached, hn.sent⟩⟩

/-- A confined program, started where a confined run ended. -/
theorem Confined.then {α : Type} {m : Prog (World Stick) α} (h : Confined size w t)
    (hm : Prog.wp m (fun _ u => Confined size t u) (Confined size t) t) :
    Prog.wp m (fun _ u => Confined size w u) (Confined size w) t :=
  Prog.wp_mono hm (fun _ _ hu => h.trans hu) fun _ hu => h.trans hu

theorem Confined.driveOffset (h : Confined size w t) :
    t.drv.gDriveOffsetSectors = w.drv.gDriveOffsetSectors := by
  obtain ⟨rs, hf⟩ := h.frame
  exact hf.driveOffset

/-- An engine that stays inside its window is confined, whatever fails and wherever it is cut. -/
theorem Engine.Inside.wp {e : Engine} (h : e.Inside size) (fuel : ℕ) {w : World Stick} (hw : Ready w)
    (hsize : w.drv.gDriveOffsetSectors * 512 + size ≤ 2199023255552) :
    Prog.wp (e.run stick fuel) (fun _ t => Confined size w t) (Confined size w) w := by
  induction h generalizing w with
  | done formatRes => exact Confined.refl hw
  | pread buf count o next hin _ ih =>
    rw [Engine.run, Prog.wp_bind, usbScsiPreadInternal]
    refine Prog.wp_mono (wp_scsiIoInternal_read hw fuel buf (fun _ => ?_)) ?_ ?_
    · rw [place]
      omega
    · rintro r t ⟨k, hr⟩
      obtain ⟨b, hr⟩ := hr.soFar
      have hc : Confined size w t := hr.confined
      exact hc.then (ih r hr.ready (hc.driveOffset.symm ▸ hsize))
    · rintro t ⟨-, k, b, hr⟩
      exact hr.confined
  | pwrite buf count o next hin _ ih =>
    rw [Engine.run, Prog.wp_bind, usbScsiPwriteInternal, Prog.wp_bind]
    refine Prog.wp_mono (wp_scsiIoInternal_write hw fuel buf (fun _ => ?_)) ?_ ?_
    · rw [place]
      omega
    · rintro r t ⟨k, hr⟩
      have hc := hr.soFar.confined hin
      exact hc.then (ih r.1 hc.wrote.ready (hc.driveOffset.symm ▸ hsize))
    · rintro t ⟨-, k, hr⟩
      exact hr.confined hin
  | sync next _ ih =>
    rw [Engine.run, Prog.wp_bind]
    refine Prog.wp_mono (wp_usbScsiSync hw) ?_ (fun _ h => h.elim)
    intro r t hr
    have hc : Confined size w t := hr.confined
    exact hc.then (ih r hr.ready (hc.driveOffset.symm ▸ hsize))

end Confined

/-- What the last stages may write: what the FAT formatter does, or what is in the window. -/
def VolumeWrite (clusterSize fsType : ℤ) (w : World Stick) (v : Write UInt8) : Prop :=
  FatWrite fsType (u32 clusterSize) usbDisk w v ∨ w.drv.gDriveOffsetSectors * 512 ≤ v.addr

/-- What writing the file system has done, or done so far. -/
structure VolumeSoFar (clusterSize fsType : ℤ) (w t : World Stick) : Prop where
  frame : ∃ rs, Frame w rs t
  wrote : Wrote (VolumeWrite clusterSize fsType w) w t

theorem Confined.volume {clusterSize fsType : ℤ} {size : ℕ} {w t : World Stick} (h : Confined size w t) :
    VolumeSoFar clusterSize fsType w t := ⟨h.frame, h.wrote.mono fun _ hv => .inr hv.1⟩

theorem FatSoFar.volume {clusterSize fsType : ℤ} {w t : World Stick}
    (h : FatSoFar fsType (u32 clusterSize) usbDisk w t) : VolumeSoFar clusterSize fsType w t := by
  obtain ⟨rs, hf, -⟩ := h.frame
  exact ⟨⟨_, hf⟩, h.wrote.mono fun _ hv => .inl hv⟩

theorem VolumeSoFar.sync {clusterSize fsType : ℤ} {w t u : World Stick} {r : ℤ}
    (h : VolumeSoFar clusterSize fsType w t) (hs : Synced t r u) : VolumeSoFar clusterSize fsType w u := by
  obtain ⟨rs, hf⟩ := h.frame
  exact ⟨⟨_, hf.trans hs.frame⟩, h.wrote.trans (hs.wrote _)⟩

/-- The file system of any type, by an engine that stays inside its window. -/
theorem Windowed.formatStage {clusterSize partitionType fsType : ℤ} {w w₁ w₂ w₃ : World Stick} {part : ℕ}
    (h : Windowed clusterSize partitionType fsType w part w₁ w₂ w₃) (hw : Resting w) (fuel : ℕ)
    {e : ℕ → Engine}
    (he : (e part).Inside (part * 512)) (hpart : driveStart partitionType + part ≤ 4294967296) :
    Prog.wp (formatStage stick fuel (fun part => (e part).run stick fuel) clusterSize fsType part)
      (fun _ t => VolumeSoFar clusterSize fsType w₃ t) (VolumeSoFar clusterSize fsType w₃) w₃ := by
  have hoff : w₃.drv.gDriveOffsetSectors = driveStart partitionType := h.globals.2.1
  -- an engine, started where the cache has at most been flushed
  have hengine : ∀ {u}, Confined (part * 512) w₃ u → Prog.wp ((e part).run stick fuel)
      (fun _ t => Confined (part * 512) w₃ t) (Confined (part * 512) w₃) u := fun hu =>
    hu.then (he.wp fuel hu.wrote.ready (by rw [hu.driveOffset, hoff]; omega))
  have hstart : Confined (part * 512) w₃ w₃ := Confined.refl h.ready
  rw [FormatStick.formatStage]
  refine Prog.wp_ite (fun _ => ?_) fun _ => Prog.wp_ite (fun _ => ?_) fun _ =>
    Prog.wp_ite (fun _ => ?_) fun _ => ?_
  · rw [Prog.wp_bind]
    refine Prog.wp_mono (hengine hstart) ?_ fun _ ht => ht.volume
    intro _ t ht
    rw [Prog.wp_bind]
    refine Prog.wp_mono (wp_usbScsiSync ht.wrote.ready) ?_ (fun _ h => h.elim)
    intro _ u hu
    exact ht.volume.sync hu
  · exact Prog.wp_mono (hengine hstart) (fun _ _ ht => ht.volume) fun _ ht => ht.volume
  · rw [Prog.wp_bind]
    refine Prog.wp_mono (wp_usbScsiSync h.ready) ?_ (fun _ h => h.elim)
    intro _ t ht
    rw [Prog.wp_bind]
    refine Prog.wp_mono (hengine ht.confined) ?_ fun _ hu => hu.volume
    intro _ u hu
    rw [Prog.wp_bind]
    refine Prog.wp_mono (wp_usbScsiSync hu.wrote.ready) ?_ (fun _ h => h.elim)
    intro _ x hx
    exact hu.volume.sync hx
  · exact Prog.wp_mono (h.formatFat hw fuel) (fun _ _ ht => ht.soFar.volume) fun _ ht => ht.1.volume

/-- Bytes of the sectors `T` hold what these hold, but for the partition type of an MBR. -/
def Keeps (T : List (ℕ × Buf)) (a : ℕ) (b : UInt8) : Prop :=
  ∀ x ∈ T, ∀ i < 512, i ≠ 450 → a = x.1 * 512 + i → b = x.2 i

/-- Writes behind the primary table, and new types of the partition, keep it. -/
theorem Wrote.keeps {W : Write UInt8 → Prop} {w t : World Stick} {T : List (ℕ × Buf)} (h : Wrote W w t)
    (hT : ∀ x ∈ T, x.1 < 34) (hs : (store w).Sat (Keeps T))
    (hW : ∀ v, W v → 4096 * 512 ≤ v.addr ∨ ∃ type, TypedWrite w.dev.medium type v) :
      (store t).Sat (Keeps T) := by
  refine h.sat _ hs fun v hv i hi x hx j hj hne ha => ?_
  have hlt := hT x hx
  rcases hW v hv with hfar | ⟨type, htyped⟩
  · omega
  · have hlen := htyped.len
    have haddr := htyped.addr
    obtain rfl : i = j := by omega
    rw [htyped.same i hj hne]
    exact hs.medium i x hx i hj hne (by omega)

/-- A session past its partition table: the table is kept, and the driver's window is the partition. -/
structure Formed (clusterSize partitionType fsType : ℤ) (w t : World Stick) : Prop where
  table : ∃ part w₁, Prepared clusterSize partitionType fsType w part w₁ ∧
    t.drv.gDriveOffsetSectors = driveStart partitionType ∧ t.drv.gPartitionSectors = part ∧
    (store t).Sat (Keeps (primaryTable partitionType fsType part w₁))

section Formed

variable {clusterSize partitionType fsType : ℤ} {w w₁ w₂ t u : World Stick} {part : ℕ}

theorem Prepared.part_bounds (hp : Prepared clusterSize partitionType fsType w part w₁) (hw : Resting w) :
    1 ≤ part ∧ alignedOffset partitionType + part + reservedEnd partitionType ≤ sessionSectors w := by
  have hlast : sessionSectors w ≤ 4294967296 := hw.count
  have hfits := hp.fits
  have hmax : maxUsableSectors (sessionSectors w) partitionType =
      sessionSectors w - alignedOffset partitionType - reservedEnd partitionType := by
    unfold maxUsableSectors u64
    omega
  have hpart := hp.part
  rw [partSectors, hmax] at hpart
  split_ifs at hpart with hcap
  · omega
  · omega

theorem Partitioned.formed (ht : Partitioned partitionType fsType part w₁ w₂)
    (hp : Prepared clusterSize partitionType fsType w part w₁) (hf : Faultless w.dev.spec) :
    (store w₂).Sat (Keeps (primaryTable partitionType fsType part w₁)) := by
  have hconfirmed := ht.wrote.confirmed (hp.wrote.spec ▸ hf)
  constructor
  · rintro a x hx i hi _ rfl
    exact ht.primary hp.empty (Confirmed.below hconfirmed 34) x hx i hi
  · intro i hi
    change i < w₂.drv.gCacheSectors * 512 at hi
    rw [ht.empty hp.empty] at hi
    omega

theorem wp_startStableFormat_formed (hw : Resting w) (hf : Faultless w.dev.spec) (ha : Attached w.dev.spec)
    (hpt : partitionType = 1 ∨ partitionType = 2)
    (haccept : alignedOffset partitionType + reservedEnd partitionType < sessionSectors w) (fuel : ℕ)
    {e : ℕ → Engine} (he : ∀ part, (e part).Inside (part * 512)) (fd : ℤ) :
    Prog.wp (startStableFormat stick fuel (fun part => (e part).run stick fuel) fd clusterSize
      partitionType fsType)
      (fun _ t => Formed clusterSize partitionType fsType w t)
        (Formed clusterSize partitionType fsType w) w := by
  have hstart : driveStart partitionType = 4096 := by rw [driveStart, if_pos hpt]
  rw [startStableFormat, Prog.wp_bind]
  refine Prog.wp_mono (wp_prepare hw fd clusterSize partitionType fsType) ?_ fun t ht => absurd hf ht.2.2
  rintro (_ | part) w₁ h₁
  · have := h₁.2 hf ha
    omega
  change Prog.wp (do
    createPartition stick partitionType fsType part
    let _ ← usbScsiWipePartitionHead stick fuel fsType
    let formatRes ← formatStage stick fuel (fun part => (e part).run stick fuel) clusterSize fsType part
    let _ ← usbScsiSync stick
    pure (decide (formatRes = 0))) _ _ w₁
  have hp : Prepared clusterSize partitionType fsType w part w₁ := h₁
  rw [Prog.wp_bind]
  refine Prog.wp_mono (hp.createPartition hw) ?_ (fun _ h => h.elim)
  intro _ w₂ ht
  have hlow : ∀ x ∈ primaryTable partitionType fsType part w₁, x.1 < 34 := fun x hx => (primaryTable_lt hx).1
  have h₂ := ht.formed hp hf
  -- the writes into the head of the partition
  have hwiped : ∀ {u}, WipedSoFar fsType w₂ u →
      (store u).Sat (Keeps (primaryTable partitionType fsType part w₁)) ∧
        Formed clusterSize partitionType fsType w u := by
    intro u hu
    have hsat := hu.wrote.keeps hlow h₂ (by
      rintro v ⟨q, ⟨i, -, rfl⟩, rfl⟩
      left
      change 4096 * 512 ≤ i * 262144 + w₂.drv.gDriveOffsetSectors * 512
      rw [ht.offset, hstart]
      omega)
    obtain ⟨rs, hframe, -⟩ := hu.frame
    exact ⟨hsat, part, w₁, hp, hframe.driveOffset.trans ht.offset,
      hframe.partitionSectors.trans ht.size, hsat⟩
  rw [Prog.wp_bind]
  refine Prog.wp_mono (wp_usbScsiWipePartitionHead ht.wrote.ready (ht.offset ▸ driveStart_le _)
    fuel fsType) ?_
    fun u hu => (hwiped hu.1).2
  intro _ w₃ hu
  have hwin : Windowed clusterSize partitionType fsType w part w₁ w₂ w₃ := ⟨hp, ht, hu⟩
  obtain ⟨-, hoff, -, hsize, -⟩ := hwin.globals
  -- the file system
  have hvolume : ∀ {x}, VolumeSoFar clusterSize fsType w₃ x →
      Formed clusterSize partitionType fsType w x := by
    intro x hx
    obtain ⟨rs, hframe⟩ := hx.frame
    refine ⟨part, w₁, hp, hframe.driveOffset.trans hoff, hframe.partitionSectors.trans hsize,
      hx.wrote.keeps hlow (hwiped hu.soFar).1 ?_⟩
    rintro v ((⟨_, -, hv⟩ | ⟨q, -⟩) | hv)
    · exact .inr ⟨_, hv⟩
    · left
      change 4096 * 512 ≤ q.offset.toNat + w₃.drv.gDriveOffsetSectors * 512
      rw [hoff, hstart]
      omega
    · left
      rw [hoff, hstart] at hv
      exact hv
  have hpart : driveStart partitionType + part ≤ 4294967296 := by
    have hlast : sessionSectors w ≤ 4294967296 := hw.count
    have hbounds := (hp.part_bounds hw).2
    rw [alignedOffset, if_pos (by omega)] at hbounds
    omega
  rw [Prog.wp_bind]
  refine Prog.wp_mono (hwin.formatStage hw fuel (he part) hpart) ?_ fun _ hx => hvolume hx
  intro _ w₄ hx
  rw [Prog.wp_bind]
  refine Prog.wp_mono (wp_usbScsiSync hx.wrote.ready) ?_ (fun _ h => h.elim)
  intro _ y hy
  exact hvolume (hx.sync hy)

theorem mbrSector_window (type : UInt8) {numSectors : ℕ} (h : numSectors < 4294967296) :
    leNat (mbrSector type numSectors) 454 4 = 4096 ∧ leNat (mbrSector type numSectors) 458 4 = numSectors ∧
      mbrSector type numSectors 510 = 0x55 ∧ mbrSector type numSectors 511 = 0xAA := by
  have hlen : numSectors % 256 ^ 4 = numSectors := Nat.mod_eq_of_lt h
  refine ⟨?_, ?_, ?_, ?_⟩
  · simp (disch := simp) only [mbrSector, leNat_put_of_disjoint, leNat_put, Nat.reducePow, Nat.reduceMod]
  · simp (disch := simp) only [mbrSector, leNat_put_of_disjoint, leNat_put, hlen]
  · exact put_at (i := 0) (show 0 < 2 by decide)
  · exact put_at (i := 1) (show 1 < 2 by decide)

end Formed

theorem leNat_header (n : ℕ) (diskGuid : List UInt8) (crc : BitVec 32) :
    leNat (sealHeader (gptHeader n diskGuid crc)) 0 8 = 0x5452415020494645 := by
  simp (disch := simp) only [sealHeader, gptHeader, leNat_put_of_disjoint, leNat_efiPart]

/-- The first entry of the partition table is the driver's window, and the signatures are there. -/
structure Described (partitionType : ℤ) (t : World Stick) : Prop where
  bootable : t.dev.medium 510 = 0x55 ∧ t.dev.medium 511 = 0xAA
  mbr : partitionType = 1 → leNat t.dev.medium (446 + 8) 4 = t.drv.gDriveOffsetSectors ∧
    leNat t.dev.medium (446 + 12) 4 = t.drv.gPartitionSectors
  gpt : partitionType = 2 → leNat (sector t.dev.medium 1) 0 8 = 0x5452415020494645 ∧
    leNat (sector t.dev.medium 2) 32 8 = t.drv.gDriveOffsetSectors ∧
    leNat (sector t.dev.medium 2) 40 8 + 1 = t.drv.gDriveOffsetSectors + t.drv.gPartitionSectors

section Kept

variable {T : List (ℕ × Buf)} {t : World Stick} {lba : ℕ} {b : Buf}

theorem Keeps.byte (h : (store t).Sat (Keeps T)) (hx : (lba, b) ∈ T) {i : ℕ} (hi : i < 512) (hne : i ≠ 450) :
    sector t.dev.medium lba i = b i := h.medium _ _ hx i hi hne rfl

/-- A field of a kept sector that the partition type is not part of. -/
theorem Keeps.field (h : (store t).Sat (Keeps T)) (hx : (lba, b) ∈ T) {a n : ℕ} (hin : a + n ≤ 512)
    (hne : a + n ≤ 450 ∨ 450 < a) : leNat (sector t.dev.medium lba) a n = leNat b a n :=
  leNat_congr fun i hi => Keeps.byte h hx (by omega) (by omega)

end Kept

theorem Formed.described {clusterSize partitionType fsType : ℤ} {w t : World Stick}
    (h : Formed clusterSize partitionType fsType w t) (hw : Resting w)
    (hpt : partitionType = 1 ∨ partitionType = 2) : Described partitionType t := by
  obtain ⟨part, w₁, hp, hoff, hsize, hkept⟩ := h.table
  have hlast : sessionSectors w ≤ 4294967296 := hw.count
  obtain ⟨hpos, hbounds⟩ := hp.part_bounds hw
  have hstart : driveStart partitionType = 4096 := by rw [driveStart, if_pos hpt]
  rw [alignedOffset, if_pos (by omega)] at hbounds
  rw [hstart] at hoff
  have hzero : sector t.dev.medium 0 = t.dev.medium := by
    rw [sector, Nat.zero_mul, window_zero]
  rcases hpt with rfl | rfl
  · have hmbr : (0, mbrIn 1 fsType part w₁) ∈ primaryTable 1 fsType part w₁ := List.mem_singleton_self _
    obtain ⟨h₁, h₂, h₃, h₄⟩ := mbrSector_window (partitionId 1 fsType) (show part < 4294967296 by omega)
    rw [← mbrNumSectors_eq (show 4096 + part ≤ sessionSectors w by omega) hlast, ← hp.count] at h₁ h₂ h₃ h₄
    refine ⟨⟨?_, ?_⟩, fun _ => ⟨?_, ?_⟩, fun h => absurd h (by decide)⟩
    · rw [← hzero, Keeps.byte hkept hmbr (by decide) (by decide)]
      exact h₃
    · rw [← hzero, Keeps.byte hkept hmbr (by decide) (by decide)]
      exact h₄
    · rw [← hzero, Keeps.field hkept hmbr (by decide) (by decide), hoff]
      exact h₁
    · rw [← hzero, Keeps.field hkept hmbr (by decide) (by decide), hsize]
      exact h₂.trans (by rw [hp.count, mbrNumSectors_eq (by omega) hlast])
  · have hmbr : (0, (rolledTable w₁ part fsType).mbr) ∈ primaryTable 2 fsType part w₁ := List.mem_cons_self
    have hheader : (1, (rolledTable w₁ part fsType).header) ∈ primaryTable 2 fsType part w₁ :=
      List.mem_cons_of_mem _ List.mem_cons_self
    have hentries : (2, window (rolledTable w₁ part fsType).entries (0 * 512)) ∈
        primaryTable 2 fsType part w₁ :=
      List.mem_cons_of_mem _ (List.mem_cons_of_mem _
        ((mem_entrySectors (by decide) _ _).mpr ⟨0, by decide, rfl⟩))
    have hcount : w₁.drv.gSectorCount = sessionSectors w := hp.count
    rw [show reservedEnd 2 = 34 from rfl] at hbounds
    have hend : gptPartitionEnd w₁.drv.gSectorCount part = 4095 + part := by
      rw [hcount]
      exact gptPartitionEnd_eq hpos (by omega) (by omega) hlast
    obtain ⟨-, -, -, -, h₃, h₄⟩ := protectiveMbr_covers (rolled_length w₁.dev.spec w₁.dev.rolls 4)
      (show 67 ≤ w₁.drv.gSectorCount by omega) (hcount ▸ hlast)
    obtain ⟨entries, hrolled⟩ : ∃ entries, entries =
        gptEntries fsType (rolled w₁.dev.spec (w₁.dev.rolls + 4) 16)
        (gptPartitionEnd w₁.drv.gSectorCount part) := ⟨_, rfl⟩
    have hrange : leNat entries 32 8 = 4096 ∧
        leNat entries 40 8 = gptPartitionEnd w₁.drv.gSectorCount part := by
      rw [hrolled]
      exact leNat_gptEntries (by omega)
    have hfirst : window (rolledTable w₁ part fsType).entries (0 * 512) = entries := by
      rw [Nat.zero_mul, window_zero, hrolled]
      rfl
    rw [hfirst] at hentries
    refine ⟨⟨?_, ?_⟩, fun h => absurd h (by decide), fun _ => ⟨?_, ?_, ?_⟩⟩
    · rw [← hzero, Keeps.byte hkept hmbr (by decide) (by decide)]
      exact h₃
    · rw [← hzero, Keeps.byte hkept hmbr (by decide) (by decide)]
      exact h₄
    · rw [Keeps.field hkept hheader (by decide) (by decide)]
      exact leNat_header _ _ _
    · rw [Keeps.field hkept hentries (by decide) (by decide), hoff, hrange.1]
    · rw [Keeps.field hkept hentries (by decide) (by decide), hoff, hsize, hrange.2, hend]
      omega

/-- In a faultless session the first entry of the partition table describes the window of the
engine from the moment it is written, whatever the engine does inside of it. -/
theorem startStableFormat_window {w : World Stick} (hw : Resting w) (hf : Faultless w.dev.spec)
    (ha : Attached w.dev.spec) {partitionType : ℤ} (hpt : partitionType = 1 ∨ partitionType = 2)
    (haccept : alignedOffset partitionType + reservedEnd partitionType < w.dev.spec.sectors)
    (clusterSize fsType : ℤ) (fuel : ℕ) {e : ℕ → Engine} (he : ∀ part, (e part).Inside (part * 512))
    (fd : ℤ) :
    let t := (startStableFormat stick fuel (fun part => (e part).run stick fuel) fd clusterSize partitionType
      fsType w).2
    Described partitionType t ∧
      t.drv.gPartitionSectors = partSectors w.dev.spec.sectors clusterSize partitionType fsType := by
  intro t
  rw [← sessionSectors_eq hw hf ha] at haccept ⊢
  have hformed : Formed clusterSize partitionType fsType w t :=
    Prog.wp_state (wp_startStableFormat_formed hw hf ha hpt haccept fuel he fd)
  obtain ⟨part, w₁, hp, -, hsize, -⟩ := hformed.table
  exact ⟨hformed.described hw hpt, hsize.trans hp.part⟩

/-- An engine that writes the last byte of its partition and reads it back. -/
def lastByteEngine (part : ℕ) : Engine :=
  if part = 0 then .done 0
  else .pwrite zeros (1 : ℕ) (part * 512 - 1 : ℕ) fun _ =>
    .pread zeros (1 : ℕ) (part * 512 - 1 : ℕ) fun r => .sync fun _ => .done r.1

theorem lastByteEngine_inside (part : ℕ) : (lastByteEngine part).Inside (part * 512) := by
  rw [lastByteEngine]
  split_ifs with h
  · exact .done 0
  · refine .pwrite _ _ _ _ (by omega) fun _ => .pread _ _ _ _ (by omega) fun r => .sync _ fun _ => .done r.1

theorem startStableFormat_window_exfat :
    let t := (startStableFormat stick 4294967296
      (fun part => (lastByteEngine part).run stick 4294967296) 0 32768 2
      4 soundSession).2
    Described 2 t ∧ t.drv.gPartitionSectors = partSectors 70000 32768 2 4 :=
  startStableFormat_window (w := soundSession) (Idle.resting ⟨rfl, rfl, rfl⟩ (by decide) (Nat.zero_le _))
    ⟨fun _ => rfl, fun _ => rfl⟩ ⟨rfl, _, rfl, by decide, by decide⟩ (.inr rfl) (by decide) 32768 4
      4294967296 lastByteEngine_inside 0

end FormatStick
