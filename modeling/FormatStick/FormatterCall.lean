import FormatStick.SectorSize

/-!
# The call of the FAT formatter

On whatever device, a session that reports success called the formatter with the globals
of its own size check, and the formatter's first request was for the boot sector.
-/
namespace FormatStick
open Prog

variable {δ : Type} {P : Platform δ} {fuel : ℕ}

/-- The globals that `startStableFormat` leaves for the formatter on a device of `n` sectors. -/
structure SetUp (n : ℕ) (clusterSize partitionType fsType : ℤ) (w : World δ) : Prop where
  accepted : alignedOffset partitionType + reservedEnd partitionType < n
  count : w.drv.gSectorCount = n
  offset : w.drv.gDriveOffsetSectors = driveStart partitionType
  type : w.drv.gPartitionType = partitionType
  size : w.drv.gPartitionSectors = partSectors n clusterSize partitionType fsType

/-- The disk and the partition as the driver has them. -/
def Placed (v : ℕ × ℕ × ℤ × ℕ) (w : World δ) : Prop :=
  (w.drv.gSectorCount, w.drv.gDriveOffsetSectors, w.drv.gPartitionType, w.drv.gPartitionSectors) = v

theorem setUp_iff {n : ℕ} {clusterSize partitionType fsType : ℤ} {w : World δ} :
    SetUp n clusterSize partitionType fsType w ↔
    alignedOffset partitionType + reservedEnd partitionType < n ∧
      Placed (n, driveStart partitionType, partitionType,
        partSectors n clusterSize partitionType fsType) w := by
  rw [Placed, Prod.mk.injEq, Prod.mk.injEq, Prod.mk.injEq]
  exact ⟨fun h => ⟨h.accepted, h.count, h.offset, h.type, h.size⟩,
    fun h => ⟨h.1, h.2.1, h.2.2.1, h.2.2.2.1, h.2.2.2.2⟩⟩

theorem placed_writing (P : Platform δ) (v : ℕ × ℕ × ℤ × ℕ) : Writing P (Placed v) := by
  have hcached : Cached P (Placed v) := by
    apply cached_of_settings P
    intro w t h hw
    exact (congrArg (fun g : Driver =>
      (g.gSectorCount, g.gDriveOffsetSectors, g.gPartitionType, g.gPartitionSectors)) h).trans hw
  exact {
    hcached.direct with
    ioWrite := fun fuel buf count offset => keeps_io
      (fun _ _ hw => hw) (hcached.transfer fuel buf count offset true) }

theorem createPartition_placed {n d k part : ℕ} {ty partitionType fsType : ℤ} {w t : World δ}
    (hw : Placed (n, d, ty, k) w) (h : createPartition P partitionType fsType part w = (some (), t)) :
    Placed (n, driveStart partitionType, ty, part) t := by
  have hset : ∀ (start : ℕ) (u : World δ), Placed (n, d, ty, k) u → Prog.wp (do
      usbScsiSetPartitionOffset start
      usbScsiSetPartitionSize part) (fun _ t => Placed (n, start, ty, part) t) (fun _ => True) u := by
    intro start u hu
    simp only [Placed, Prod.mk.injEq] at hu
    simp [usbScsiSetPartitionOffset, usbScsiSetPartitionSize, Placed, hu]
  have hI := placed_writing P (n, d, ty, k)
  refine wp_run (Q := fun _ t => Placed (n, driveStart partitionType, ty, part) t) (D := fun _ => True) ?_ h
  rw [createPartition, driveStart]
  refine wp_ite (fun h₁ => ?_) fun h₁ => wp_ite (fun h₂ => ?_) fun h₂ => ?_
  · rw [if_pos (.inl h₁), wp_bind]
    exact wp_mono ((hI.usbScsiWriteMbr _ _).wp hw) (fun _ => hset 4096) fun _ _ => trivial
  · rw [if_pos (.inr h₂), wp_bind]
    exact wp_mono ((hI.usbScsiWriteGpt _ _).wp hw) (fun _ => hset 4096) fun _ _ => trivial
  · rw [if_neg (by simp [h₁, h₂])]
    exact hset 0 w hw

theorem prepare_placed {fd clusterSize partitionType fsType : ℤ} {part : ℕ} {w t : World δ}
    (h : prepare P fd clusterSize partitionType fsType w = (some (some part), t)) :
    ∃ n d k, alignedOffset partitionType + reservedEnd partitionType < n ∧
      part = partSectors n clusterSize partitionType fsType ∧ Placed (n, d, partitionType, k) t := by
  obtain ⟨handle, u, -, h⟩ := bind_returns h
  cases handle with
  | none => exact absurd (congrArg Prod.fst h) (by simp [pure])
  | some handle =>
    obtain ⟨_, v, -, h⟩ := bind_returns h
    refine wp_run (Q := fun r t => r = some part → ∃ n d k,
      alignedOffset partitionType + reservedEnd partitionType < n ∧
      part = partSectors n clusterSize partitionType fsType ∧ Placed (n, d, partitionType, k) t)
      (D := fun _ => True) ?_ h rfl
    rw [wp_bind, wp_globals]
    refine wp_ite (fun _ hr => by cases hr) fun hsmall => ?_
    have hI := placed_writing P
      (v.drv.gSectorCount, v.drv.gDriveOffsetSectors, partitionType, v.drv.gPartitionSectors)
    rw [wp_bind, usbScsiSetPartitionType, wp_assign, wp_bind]
    refine wp_mono (hI.usbScsiWipeMbr.wp rfl) (fun _ x hx => ?_) fun _ _ => trivial
    rw [wp_bind]
    refine wp_mono (hI.usbScsiWipeTail.wp hx) (fun _ y hy => ?_) fun _ _ => trivial
    intro hr
    exact ⟨_, _, _, Nat.lt_of_not_le hsmall, (Option.some.inj hr).symm, hy⟩

/-- A FAT session that returns `JNI_TRUE` called the formatter set up for its device, and the
formatter returned 0. -/
theorem startStableFormat_formatter {engine : ℕ → Prog (World δ) ℤ} {fd clusterSize partitionType fsType : ℤ}
    (hfs : fsType = 1 ∨ fsType = 2 ∨ fsType = 3) {w t : World δ}
    (h : startStableFormat P fuel engine fd clusterSize partitionType fsType w = (some true, t)) :
    ∃ n u v, SetUp n clusterSize partitionType fsType u ∧
      usbScsiFormatFat P fuel fsType (u32 clusterSize) usbDisk u = (some 0, v) ∧
        ∃ r, usbScsiSync P v = (some r, t) := by
  obtain ⟨prepared, w₁, h₁, h⟩ := bind_returns h
  cases prepared with
  | none => exact absurd (congrArg Prod.fst h) (by simp [pure])
  | some part =>
    obtain ⟨n, d, k, hacc, rfl, hw₁⟩ := prepare_placed h₁
    obtain ⟨_, w₂, h₂, h⟩ := bind_returns h
    obtain ⟨_, w₃, h₃, h⟩ := bind_returns h
    obtain ⟨formatRes, w₄, h₄, h⟩ := bind_returns h
    obtain ⟨r, w₅, h₅, h⟩ := bind_returns h
    obtain ⟨hres, rfl⟩ := Prod.mk.inj h
    obtain rfl : formatRes = 0 := of_decide_eq_true (Option.some.inj hres)
    have hw₃ := ((placed_writing P _).wipeHead fuel fsType).run (createPartition_placed hw₁ h₂) h₃
    rw [formatStage_fat P fuel _ clusterSize hfs] at h₄
    exact ⟨n, w₃, w₄, setUp_iff.mpr ⟨hacc, hw₃⟩, h₄, r, h₅⟩

/-- The requests begin with `rs`. -/
def Begun (rs : List Request) (w : World δ) : Prop := rs <+: w.requests

theorem begun_writing (P : Platform δ) (rs : List Request) : Writing P (Begun rs) := by
  have hcached : Cached P (Begun rs) := cached_log P (rs <+: ·)
  exact {
    hcached.direct with
    ioWrite := fun fuel buf count offset =>
      Keeps.bind (fun _ hw => List.IsPrefix.trans hw (List.prefix_append _ _))
      fun _ => hcached.transfer fuel buf count offset true }

section Requests

variable {fatType : ℤ} {clusterSize : ℕ} {label : List UInt8} {w t : World δ}

theorem issues_updateMbr (g : Driver) (type : UInt8) : Issues [] (updateMbr P g type) :=
  issues_silent fun rs => Keeps.ite ((cached_requested P rs).direct.updateMbrType type) (keeps_pure _)

/-- The formatter writes what its layout calls for as far as it gets. -/
theorem usbScsiFormatFat_issues (P : Platform δ) (fuel : ℕ) (label : List UInt8)
    (h : FatAddressable fatType (fatSizeSectors fatType clusterSize (fatUsableSectors w.drv))) :
    ∃ bs ps, ps <+: fatWrites 512 fatType (fatSizeSectors fatType clusterSize (fatUsableSectors w.drv)) bs ∧
      (usbScsiFormatFat P fuel fatType clusterSize label w).2.requests = w.requests ++ ps := by
  refine wp_state (I := fun t : World δ => ∃ bs ps,
    ps <+: fatWrites 512 fatType (fatSizeSectors fatType clusterSize (fatUsableSectors w.drv)) bs ∧
      t.requests = w.requests ++ ps) ?_
  rw [usbScsiFormatFat, wp_bind, wp_globals]
  refine wp_ite (fun _ => ⟨zeros, [], List.nil_prefix, (List.append_nil _).symm⟩) fun _ => ?_
  rw [wp_bind, wp_rand]
  refine wp_of_state ?_
  obtain ⟨ps, hps, ht⟩ := ((issues_updateMbr w.drv _).bindOf fun _ => issues_writeFat fuel h _)
    { w with dev := (P.rand w.dev).2 }
  exact ⟨_, ps, hps, ht⟩

/-- When it returns 0 it has written all of it. -/
theorem usbScsiFormatFat_requests
    (h : FatAddressable fatType (fatSizeSectors fatType clusterSize (fatUsableSectors w.drv)))
    (hrun : usbScsiFormatFat P fuel fatType clusterSize label w = (some 0, t)) :
    ∃ bs, t.requests = w.requests ++
      fatWrites 512 fatType (fatSizeSectors fatType clusterSize (fatUsableSectors w.drv)) bs := by
  by_cases husable : fatUsableSectors w.drv = 0
  · rw [usbScsiFormatFat, bind_of_returns (show globals w = (some w.drv, w) from rfl), if_pos husable] at hrun
    cases hrun
  · rw [usbScsiFormatFat, bind_of_returns (show globals w = (some w.drv, w) from rfl), if_neg husable] at hrun
    obtain ⟨serial, u, hu, hrun⟩ := bind_returns hrun
    obtain ⟨r, v, hv, hrun⟩ := bind_returns hrun
    have hsilent := wp_run (issues_updateMbr w.drv _ u) hv
    rw [List.append_nil] at hsilent
    have hall := writeFat_requests fuel h hrun
    rw [hsilent, ← (Prod.mk.inj hu).2] at hall
    exact ⟨_, hall⟩

/-- The first request of the formatter is for the boot sector of its window. -/
theorem usbScsiFormatFat_boot
    (h : usbScsiFormatFat P fuel fatType clusterSize label w = (some 0, t)) :
    0 < fatUsableSectors w.drv ∧ ∃ serial rs, t.requests = w.requests ++ writeRequest
      (fatBootSector fatType clusterSize w.drv.gDriveOffsetSectors (fatUsableSectors w.drv) serial label) 512
        0 :: rs := by
  refine wp_run (Q := fun r t => r = 0 → 0 < fatUsableSectors w.drv ∧ ∃ serial rs, t.requests =
      w.requests ++ writeRequest
      (fatBootSector fatType clusterSize w.drv.gDriveOffsetSectors (fatUsableSectors w.drv) serial label)
        512 0 :: rs)
      (D := fun _ => True) ?_ h rfl
  rw [usbScsiFormatFat, wp_bind, wp_globals]
  refine wp_ite (fun _ hr => by cases hr) fun husable => ?_
  rw [wp_bind, wp_rand, wp_bind]
  refine wp_mono (issues_updateMbr w.drv _ { w with dev := (P.rand w.dev).2 }) (fun _ u hu => ?_)
    fun _ _ => trivial
  rw [List.append_nil] at hu
  rw [writeFat, wp_bind]
  refine wp_mono (issues_io fuel _ 512 0 true u) (fun r v hv => ?_) fun _ _ => trivial
  rw [hu] at hv
  refine wp_ite (fun _ hr => by cases hr) fun _ => ?_
  rw [wp_bind]
  have hbegun : Keeps (Begun v.requests) (writeFatTables P fuel fatType (fatSizeSectors fatType clusterSize
      (fatUsableSectors w.drv))
        (fatBootSector fatType clusterSize w.drv.gDriveOffsetSectors (fatUsableSectors w.drv)
        (P.rand w.dev).1 label)) :=
    keeps_writeFatTables fatBuffers_any (fun _ _ _ _ _ _ => (begun_writing P v.requests).ioWrite _ _ _ _) fuel
      _ _ trivial
  refine wp_mono (hbegun.wp (s := v) List.prefix_rfl) (fun _ x hx _ => ?_) fun _ _ => trivial
  obtain ⟨rs, hrs⟩ := hx
  refine ⟨Nat.pos_of_ne_zero husable, (P.rand w.dev).1, rs, ?_⟩
  rw [← hrs, hv, List.append_assoc]
  rfl

end Requests

end FormatStick
