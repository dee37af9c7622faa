import FormatStick.Buffers

/-!
# Sessions are independent of history

Two processes with histories of their own run the same FAT session. Where the write cache of
neither is too small for the sectors of the stick, no access leaves the driver's buffers, and
one flag decides whether the two send the same commands.
-/
namespace FormatStick
open Splice Prog Runs

variable {δ : Type}

section Room

variable {P : Platform δ} {l : List Access} {size allocated : ℕ}

/-- There is room for the sectors of `size` bytes of a FAT session: one fits into the bounce buffer, and the
write cache, if it is there, holds as many of them as are ever cached. -/
structure Driver.HasRoom (g : Driver) (size : ℕ) : Prop where
  divisor : 0 < size
  sector : size ≤ bounceSize
  cache : g.gWriteCache.isSome → kMaxCacheSectors * size ≤ g.gWriteCacheSize

theorem Driver.HasRoom.allocation {g : Driver} (h : g.HasRoom size) (hs : g.gSectorSize = size) :
    kMaxCacheSectors * size ≤ g.allocation := by
  rw [Driver.allocation]
  split_ifs with hsome
  · exact h.cache hsome
  · have hmax : kMaxCacheSectors * size ≤ kMaxCacheSectors * bounceSize := Nat.mul_le_mul_left _ h.sector
    exact Nat.le_of_eq (hs.symm ▸ (u32_mul (Nat.lt_of_le_of_lt hmax (by decide))).symm)

/-- What a request keeps, in a window whose place does not wrap around. -/
def Sited (l : List Access) (size allocated : ℕ) (w : World δ) : Prop :=
  Measured l size allocated w ∧ w.drv.gDriveOffsetSectors ≤ 4096

theorem cached_offset (P : Platform δ) : Cached P fun w => w.drv.gDriveOffsetSectors ≤ 4096 := by
  refine cached_of_settings P fun w t h hw => ?_
  have hsame : t.drv.settings.gDriveOffsetSectors = w.drv.settings.gDriveOffsetSectors :=
    congrArg Driver.gDriveOffsetSectors h
  exact Nat.le_trans (Nat.le_of_eq hsame) hw

theorem sited_direct (l : List Access) (size allocated : ℕ) : Direct P (Sited l size allocated) :=
  (measured_direct l size allocated).and (cached_offset P).direct

/-- A write request never has more than 2048 sectors in the cache. -/
theorem sited_write (hs : 0 < size) (hmax : size ≤ bounceSize) (hroom : kMaxCacheSectors * size ≤ allocated)
    (fuel : ℕ) (buf : Buf) (count : ℤ) {offset : ℤ} (ho : 0 ≤ offset) :
    Keeps (Sited l size allocated) (scsiIoInternal P fuel buf count offset true) := by
  have hkept : Keeps (fun w : World δ => w.drv.gDriveOffsetSectors ≤ 4096)
      (scsiIoInternal P fuel buf count offset true) :=
    keeps_io (fun _ _ h => h) ((cached_offset P).transfer _ _ _ _ _)
  rintro w ⟨hw, hoffset⟩
  refine ⟨?_, hkept w hoffset⟩
  have hbytes : w.drv.gDriveOffsetSectors * size ≤ 4096 * bounceSize := Nat.mul_le_mul hoffset hmax
  have hholds : w.drv.Holds ⟨buf, count, offset, true⟩ := by
    refine ⟨hw.sectorSize.symm ▸ hs, hw.sectorSize.symm ▸ hmax, ?_, fun h => absurd h.symm Bool.false_ne_true,
      fun _ => ?_⟩
    · rw [Request.actualOffset, hw.sectorSize]
      unfold bounceSize at hbytes
      rw [u64_mul (by omega), i64_of_lt (by omega)]
      exact Int.add_nonneg ho (Int.natCast_nonneg _)
    · refine Nat.le_trans (Nat.mul_le_mul_right _ ((cachePeak_le _ _ _ _).2 hw.bounded.fill)) ?_
      rw [hw.sectorSize, hw.allocation]
      exact hroom
  have hnext : Measured l w.drv.gSectorSize w.drv.allocation
      (scsiIoInternal P fuel buf count offset true w).2 :=
    (io_bounded hw.bounded (.inr hholds)).2
  rwa [hw.sectorSize, hw.allocation] at hnext

theorem Measured.window {w : World δ} (h : Measured l size allocated w) (offset sectors : ℕ) (type : ℤ) :
    Measured l size allocated { w with drv := { w.drv with
      gDriveOffsetSectors := offset
      gPartitionSectors := sectors
      gPartitionType := type } } :=
  ⟨⟨h.bounded.fill, h.bounded.backed, h.bounded.inside, h.bounded.stays⟩, h.sectorSize, h.allocation⟩

/-- The partition starts at 2 MB, or at the first sector. -/
theorem wp_createPartition_sited {w : World δ} (hw : Measured l size allocated w) (partitionType fsType : ℤ)
    (part : ℕ) :
    Prog.wp (createPartition P partitionType fsType part) (fun _ t => Sited l size allocated t)
      (Measured l size allocated) w := by
  have htables := measured_direct (P := P) l size allocated
  have hset {t : World δ} (ht : Measured l size allocated t) {offset : ℕ} (ho : offset ≤ 4096) :
      Prog.wp (usbScsiSetPartitionOffset offset >>= fun _ => usbScsiSetPartitionSize part)
        (fun _ u => Sited l size allocated u) (Measured l size allocated) t := by
    rw [wp_bind, usbScsiSetPartitionOffset, wp_assign, usbScsiSetPartitionSize, wp_assign]
    exact ⟨ht.window _ _ _, ho⟩
  refine wp_ite (fun _ => ?_) fun _ => wp_ite (fun _ => ?_) fun _ => hset hw (Nat.zero_le _)
  · rw [wp_bind]
    exact wp_mono ((htables.usbScsiWriteMbr _ _).wp hw) (fun _ t ht => hset ht (Nat.le_refl _)) fun _ h => h
  · rw [wp_bind]
    exact wp_mono ((htables.usbScsiWriteGpt _ _).wp hw) (fun _ t ht => hset ht (Nat.le_refl _)) fun _ h => h

/-- From the size check on a FAT session needs no more room than that. -/
theorem measured_passed (hs : 0 < size) (hmax : size ≤ bounceSize)
    (hroom : kMaxCacheSectors * size ≤ allocated)
    (fuel : ℕ) {x : FormatSession δ} (hfat : x.fsType = 1 ∨ x.fsType = 2 ∨ x.fsType = 3) (part : ℕ) :
    Keeps (Measured l size allocated) (passed P fuel x part) := by
  have htables := measured_direct (P := P) l size allocated
  have hdirect := sited_direct (P := P) l size allocated
  have hwrite := sited_write (P := P) (l := l) hs hmax hroom fuel
  have hstage : Keeps (Sited l size allocated)
      (formatStage P fuel (fun part => (x.engine part).run P fuel) x.clusterSize x.fsType part) := by
    rw [formatStage, if_neg (by omega), if_neg (by omega), if_neg (by omega)]
    refine keeps_globals.bind fun g => Keeps.ite (keeps_pure _) (hdirect.rand.bind fun _ => ?_)
    refine Keeps.bind (Keeps.ite (hdirect.updateMbrType _) (keeps_pure _)) fun _ => ?_
    exact keeps_writeFat fatBuffers_any
      (fun fuel buf count _ _ ho => sited_write hs hmax hroom fuel buf count ho)
      fuel _ _ trivial
  refine Keeps.bind (fun w hw => hw.window _ _ _) fun _ => htables.usbScsiWipeMbr.bind fun _ =>
    htables.usbScsiWipeTail.bind fun _ => ?_
  refine Keeps.bind_into (fun w hw => wp_createPartition_sited hw _ _ _) (fun _ => ?_) fun _ h => h.1
  refine (hdirect.usbScsiWipePartitionHead fuel _ fun _ _ => hwrite _ _ (Int.natCast_nonneg _)).bind
    fun _ => ?_
  exact hstage.bind fun _ => hdirect.usbScsiSync.bind fun _ => keeps_pure _

theorem opens_allocation (P : Platform δ) (cache : Option Buf) (allocated : ℕ) :
    Opens P fun w => w.drv.gWriteCache = cache ∧ w.drv.gWriteCacheSize = allocated where
  command c data := by
    refine keeps_of_commanded (fun w t hw ht => ?_) data
    cases ht with
    | skipped _ => exact hw
    | sent _ e _ _ _ _ hdrv _ =>
      obtain ⟨u, b, hdrv⟩ := hdrv
      rw [hdrv]
      exact hw
  wrapSysDevice _ _ hw := hw
  activeConfig _ _ hw := hw
  assign _ hf w hw := ⟨(hf w.drv).1.trans hw.1, (hf w.drv).2.2.2.trans hw.2⟩

/-- A FAT session on a stick that there is room for leaves no buffer. -/
theorem run_within {fuel : ℕ} {x : FormatSession δ} (hfat : x.fsType = 1 ∨ x.fsType = 2 ∨ x.fsType = 3)
    {w : World δ}
    (hempty : CacheEmpty w) (hl : Within l w.accesses) {v : ℕ × ℕ} {u : World δ}
    (hv : ownCapacity P x.fd (x.start w) = (some (some v), u)) (hroom : w.drv.HasRoom v.2) :
    Within l (x.run P fuel w).accesses := by
  obtain ⟨handle, hhandle⟩ := wrapSysDevice_of_own hv
  have hstart : CacheEmpty (x.start w) ∧ Within l (x.start w).accesses := ⟨hempty, hl⟩
  obtain ⟨hnone, hwithin⟩ := ((opens_within (P := P) l).ownCapacity x.fd).run hstart hv
  have hcache : (x.start w).drv.gWriteCache = w.drv.gWriteCache ∧
      (x.start w).drv.gWriteCacheSize = w.drv.gWriteCacheSize :=
    ⟨rfl, rfl⟩
  obtain ⟨hthere, hsize⟩ := ((opens_allocation P _ _).ownCapacity x.fd).run hcache hv
  have hadopted : Measured l v.2 (adopt (some v) u).drv.allocation (adopt (some v) u) :=
    ⟨CacheEmpty.bounded hnone hwithin, rfl, rfl⟩
  have hallocation : kMaxCacheSectors * v.2 ≤ (adopt (some v) u).drv.allocation :=
    Driver.HasRoom.allocation
      ⟨hroom.divisor, hroom.sector, fun h => hsize.symm ▸ hroom.cache (hthere ▸ h)⟩ rfl
  refine run_of_probe fuel x hhandle hv (I := fun t => Within l t.accesses) (fun _ => hwithin) fun _ => ?_
  refine wp_mono ((measured_passed hroom.divisor hroom.sector hallocation fuel hfat _).wp hadopted) ?_ ?_
  · exact fun _ _ h => h.bounded.stays
  · exact fun _ h => h.bounded.stays

end Room

theorem not_voiced_of_same {es es' : List Sent} (hcmds : es.map Sent.cmd = es'.map Sent.cmd)
    (hnone : ∀ e ∈ es, e.cmd.opcode ≠ 0x35) : ¬∃ e ∈ es', e.cmd.opcode = 0x35 := by
  rintro ⟨e, he, hop⟩
  obtain ⟨f, hf, hcmd⟩ := List.mem_map.mp (hcmds ▸ List.mem_map_of_mem he)
  exact hnone f hf (hcmd ▸ hop)

/-- Sticks that differ only in how often memory was asked for, and always got it. -/
structure SameStick (d d' : Stick) : Prop where
  spec : d.spec = d'.spec
  heap : ∀ k, d.spec.heap k = true
  medium : d.medium = d'.medium
  served : d.served = d'.served
  rolls : d.rolls = d'.rolls

theorem sameStick_refl {d : Stick} (h : ∀ k, d.spec.heap k = true) : SameStick d d := ⟨rfl, h, rfl, rfl, rfl⟩

theorem SameStick.mediumAfter {d d' : Stick} (h : SameStick d d') {c : Cmd} {b b' : Buf}
    (hb : c.Outgoing → Agree c.dataLen b b') : d.mediumAfter c b = d'.mediumAfter c b' := by
  rw [Stick.mediumAfter, Stick.mediumAfter, h.medium, h.spec]
  split_ifs with hop
  · have hdata := hb (.inr hop)
    exact splice_congr fun i hi => hdata i hi
  · rfl

theorem SameStick.dataAfter {d d' : Stick} (h : SameStick d d') {c : Cmd} {b b' : Buf}
    (hb : c.opcode = 0x28 ∨ Agree c.dataLen b b') :
      Agree c.dataLen (d.dataAfter c b) (d'.dataAfter c b') := by
  rw [Stick.dataAfter, Stick.dataAfter, h.medium, h.spec]
  have hnone : Agree 0 b b' := fun _ hi => absurd hi (Nat.not_lt_zero _)
  split_ifs with hread hcap
  · exact hnone.splice 0 _ _ (.inr ⟨Nat.le_of_eq (Nat.zero_add _).symm, Nat.le_refl 0⟩)
  · exact (hb.resolve_left hread).splice 0 _ _ (.inl (Nat.le_refl _))
  · exact hb.resolve_left hread

theorem SameStick.exchange {u u' : Usb} {d d' : Stick} (hu : SameUsb u u') (h : SameStick d d') (c : Cmd)
    {b b' : Buf} (hb : c.Outgoing → Agree c.dataLen b b') :
    SameReply SameStick c b b' (Stick.exchange u c b d) (Stick.exchange u' c b' d') := by
  have husb : SameUsb { u with gTag := u32 (u.gTag + 1) } { u' with gTag := u32 (u'.gTag + 1) } :=
    ⟨hu.handle, hu.epIn, hu.epOut⟩
  have hdev : SameStick { d with served := d.served + 1 } { d' with served := d'.served + 1 } :=
    ⟨h.spec, h.heap, h.medium, congrArg (· + 1) h.served, h.rolls⟩
  have hexecutes : d.Executes c ↔ d'.Executes c := by
    rw [Stick.Executes, Stick.Executes, h.spec, h.served]
  have hfate : d.spec.fate d.served = d'.spec.fate d'.served := by rw [h.spec, h.served]
  rw [Stick.exchange, Stick.exchange]
  by_cases hx : d.Executes c
  · rw [if_pos hx, if_pos (hexecutes.mp hx)]
    refine ⟨rfl, fun _ _ hr => h.dataAfter hr, husb, h.spec, h.heap, ?_, congrArg (· + 1) h.served, h.rolls⟩
    exact h.mediumAfter hb
  · rw [if_neg hx, if_neg (mt hexecutes.mpr hx), ← hfate]
    split_ifs with hbroken hdone
    · exact ⟨rfl, fun _ h => absurd h (by simp), husb, hdev⟩
    · exact ⟨rfl, fun _ h => absurd h (by simp), husb, hdev⟩
    · exact ⟨rfl, fun _ h => absurd h (by simp), husb, hdev⟩

theorem sameStick_identical : Identical stick SameStick where
  exchange c _ _ hu h hb := h.exchange hu c hb
  requestSense hu h := ⟨⟨hu.handle, hu.epIn, hu.epOut⟩, h⟩
  malloc {d d'} h := by
    refine ⟨?_, h.spec, h.heap, h.medium, h.served, h.rolls⟩
    have hheap : d'.spec.heap d'.mallocs = true := h.spec ▸ h.heap d'.mallocs
    exact (h.heap d.mallocs).trans hheap.symm
  rand {d d'} h := by
    refine ⟨?_, h.spec, h.heap, h.medium, h.served, congrArg (· + 1) h.rolls⟩
    change d.spec.dice d.rolls = d'.spec.dice d'.rolls
    rw [h.spec, h.rolls]
  wrapSysDevice _ h := ⟨congrArg StickSpec.handle h.spec, h⟩
  activeConfig _ h := ⟨congrArg StickSpec.config h.spec, h⟩

theorem sameStick_ample : Ample stick SameStick where
  enough {d d'} h := by
    have hheap : d'.spec.heap d'.mallocs = true := h.spec ▸ h.heap d'.mallocs
    exact ⟨h.heap d.mallocs, hheap⟩
  left h := ⟨h.spec, h.heap, h.medium, h.served, h.rolls⟩
  right h := ⟨h.spec, h.heap, h.medium, h.served, h.rolls⟩

instance (e : Sent) : Decidable e.Unsupported :=
  decidable_of_iff (e.cmd.opcode = 0x35 ∧ e.csw.any fun c => c.status ≠ 0)
    (by simp [Sent.Unsupported, Option.any_eq_true])

theorem own_soundFat : own stick (loaded soundFat.dev) soundFat = some (some (70000, 512)) := by
      decide +kernel

/-- The FAT32 session on a stick that rejects its first SYNCHRONIZE CACHE. -/
def unsyncedFat : FormatSession Stick := { soundFat with
  dev := { soundSession.dev with spec := { soundSession.dev.spec with
    fate := fun i => if i = 19 then .rejected else .done } } }

theorem unsyncedFat_off :
    (unsyncedFat.run stick 4 (loaded soundFat.dev)).drv.gSyncCacheSupported = false := by
  decide +kernel

end FormatStick
