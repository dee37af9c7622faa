import FormatStick.Requests
import FormatStick.TableWriters

/-!
# What the FAT formatter does to a stick

Its requests are of a few kinds, whatever fails and wherever a loop is cut; once the
boot sector is accepted all of them are. The chunk loops end when their bound leaves
room for one more chunk below 2^32.
-/
namespace FormatStick
open Splice WriteBack Fields

/-- A request of the chunk loop over a region of `size` bytes at `base`, from byte `start` on. -/
structure ChunkRequest (base size start : ℕ) (q : Request) : Prop where
  chunk : ∃ j, 32768 ∣ j ∧ j < size ∧ (size ≤ 4294934528 → start ≤ j) ∧
    q = writeRequest zeros (min 32768 (size - j)) (u32 ((base : ℤ) + j))

theorem lands_zeroChunks (fuel : ℕ) {base size start : ℕ} (hbase : 512 ∣ base)
    (hsize : 512 ∣ size) (hlt : size < 4294967296) (hstart : 32768 ∣ start) :
    Lands (ChunkRequest base size start) (size ≤ 4294934528 → fuel < 4294967296)
      (zeroChunks stick fuel base size start) := by
  intro w hw
  refine Prog.wp_loop_progress (c := size ≤ 4294934528)
    (fun i t => (32768 ∣ i ∧ (size ≤ 4294934528 → start ≤ i)) ∧ LandedFor (ChunkRequest base size start) w t)
    (fun i => size - i) ?_ ?_ ⟨⟨hstart, fun _ => Nat.le_refl _⟩, LandedFor.refl hw.ready⟩
  · rintro i t ⟨-, h⟩ hf
    exact ⟨h.asked, fun hc => by have := hf hc; omega⟩
  · rintro i t ⟨⟨hi, hfrom⟩, h⟩
    refine Prog.wp_ite ?_ ?_
    · intro hin
      -- the last chunk is a short one
      have hmin : (if u32 ((size : ℤ) - i) > 32768 then 32768 else u32 ((size : ℤ) - i)) =
          min 32768 (size - i) := by
        unfold u32
        split_ifs <;> omega
      have hdvd : 512 ∣ u32 ((base : ℤ) + i) := dvd_u32 (by decide) (by omega)
      have hnext : 32768 ∣ u32 ((i : ℤ) + 32768) ∧
          (size ≤ 4294934528 → u32 ((i : ℤ) + 32768) = i + 32768) :=
        ⟨dvd_u32 (by decide) (by omega), fun hc => u32_add (b := 32768) (by omega)⟩
      have hplace := u32_lt ((base : ℤ) + i)
      have hchunk : ChunkRequest base size start
          (writeRequest zeros (min 32768 (size - i)) (u32 ((base : ℤ) + i))) := ⟨i, hi, hin, hfrom, rfl⟩
      rw [hmin, Prog.wp_bind]
      generalize u32 ((i : ℤ) + 32768) = next at hnext ⊢
      generalize u32 ((base : ℤ) + i) = o at hdvd hplace hchunk ⊢
      have hreq := Lands.request (C := size ≤ 4294934528 → fuel < 4294967296) fuel zeros
        (min 32768 (size - i)) o (by omega) (by omega) hdvd (by omega) hplace hchunk
        (fun hf _ => by omega) t (h.writable hw)
      refine Prog.wp_mono hreq ?_ ?_
      · intro r u hu
        refine ⟨⟨⟨hnext.1, fun hc => ?_⟩, h.trans hu⟩, fun hc => ?_⟩
        · have := hfrom hc
          have := hnext.2 hc
          omega
        · have := hnext.2 hc
          omega
      · intro u hu
        exact ⟨h.asked.trans hu.1, hu.2⟩
    · intro _
      exact h

/-- The requests of `usb_scsi_format_fat`. -/
inductive FatRequest (fatType : ℤ) (fatSize : ℕ) (bs : Buf) : Request → Prop
  | boot : FatRequest fatType fatSize bs (writeRequest bs 512 0)
  | backup : fatType = 1 → FatRequest fatType fatSize bs (writeRequest bs 512 3072)
  | fsInfo : fatType = 1 → FatRequest fatType fatSize bs (writeRequest fatFsInfo 512 512)
  | first (f : ℕ) : f < 2 → FatRequest fatType fatSize bs
      (writeRequest (fatFirstChunk fatType) 32768 (fatOffset fatType fatSize f))
  | rest (f : ℕ) (q : Request) : f < 2 →
      ChunkRequest (fatOffset fatType fatSize f) (u32 ((fatSize : ℤ) * 512)) 32768 q →
      FatRequest fatType fatSize bs q
  | root (q : Request) : fatType ≠ 1 →
      ChunkRequest (fatOffset fatType fatSize 2) (u32 ((fatRootDirSectors fatType : ℤ) * 512)) 0 q →
      FatRequest fatType fatSize bs q

section Tables

variable {fatType : ℤ} {fatSize : ℕ} {bs : Buf} {fuel : ℕ}

/-- The tables are small enough for the chunk loops to end. -/
def FatLoopsEnd (fatSize : ℕ) : Prop := u32 ((fatSize : ℤ) * 512) ≤ 4294934528

theorem fatOffset_dvd (fatType : ℤ) (fatSize f : ℕ) : 512 ∣ fatOffset fatType fatSize f :=
  dvd_u32 (by decide) (Int.dvd_mul_left _ _)

theorem fatOffset_lt (fatType : ℤ) (fatSize f : ℕ) : fatOffset fatType fatSize f < 4294967296 := u32_lt _

theorem lands_writeFatTable {f : ℕ} (hf : f < 2) :
    Lands (FatRequest fatType fatSize bs) (FatLoopsEnd fatSize → fuel < 4294967296)
      (writeFatTable stick fuel fatType fatSize f) := by
  refine Lands.bind ?_ fun _ => ?_
  · exact Lands.request fuel _ 32768 _ (by decide) (by decide) (fatOffset_dvd _ _ _) (by decide)
      (fatOffset_lt _ _ _) (.first f hf) fun h _ => by omega
  · refine (lands_zeroChunks fuel (fatOffset_dvd _ _ _) ?_ (u32_lt _) (by decide)).mono
      (fun q hq => .rest f q hf hq) id
    unfold u32
    omega

theorem lands_writeFatTables :
    Lands (FatRequest fatType fatSize bs) (FatLoopsEnd fatSize → fuel < 4294967296)
      (writeFatTables stick fuel fatType fatSize bs) := by
  rw [writeFatTables]
  split_ifs with h
  · refine Lands.bind ?_ fun _ => Lands.bind ?_ fun _ => Lands.bind (lands_writeFatTable (by decide)) fun _ =>
      lands_writeFatTable (by decide)
    · exact Lands.request fuel bs 512 3072 (by decide) (by decide) (by decide) (by decide)
        (by decide) (.backup h) fun h _ => by omega
    · exact Lands.request fuel fatFsInfo 512 512 (by decide) (by decide) (by decide) (by decide)
        (by decide) (.fsInfo h) fun h _ => by omega
  · have hroot : fatRootDirSectors fatType = 32 := by
      rw [fatRootDirSectors, fatRootDirEntries, if_neg h]
    refine Lands.bind (lands_writeFatTable (by decide)) fun _ =>
      Lands.bind (lands_writeFatTable (by decide)) fun _ => ?_
    refine (lands_zeroChunks fuel (fatOffset_dvd _ _ _) ?_ (u32_lt _) (by decide)).mono
      (fun q hq => .root q h hq) ?_
    · rw [hroot]
      decide
    · intro hf _
      refine hf ?_
      rw [hroot]
      decide

end Tables

section Region

variable {fatType : ℤ} {fatSize : ℕ} {bs : Buf} {q : Request}

theorem u32_le (x : ℕ) : u32 x ≤ x := by
  unfold u32
  omega

theorem fatOffset_le (fatType : ℤ) (fatSize f : ℕ) :
    fatOffset fatType fatSize f ≤ (fatReservedSectors fatType + f * fatSize) * 512 := by
  have hfat : u32 ((f : ℤ) * fatSize) ≤ f * fatSize := by
    rw [← Int.natCast_mul]
    exact u32_le _
  have hstart : u32 ((fatReservedSectors fatType : ℤ) + u32 ((f : ℤ) * fatSize)) ≤
      fatReservedSectors fatType + u32 ((f : ℤ) * fatSize) := by
    rw [← Int.natCast_add]
    exact u32_le _
  have hbytes := u32_le (u32 ((fatReservedSectors fatType : ℤ) + u32 ((f : ℤ) * fatSize)) * 512)
  rw [Int.natCast_mul] at hbytes
  exact Nat.le_trans hbytes (Nat.mul_le_mul_right 512 (Nat.le_trans hstart (Nat.add_le_add_left hfat _)))

/-- A chunk lies in its region. -/
theorem ChunkRequest.end_le {base size start : ℕ} (h : ChunkRequest base size start q) :
    q.offset.toNat + q.count.toNat ≤ base + size := by
  obtain ⟨j, -, hj, -, rfl⟩ := h.chunk
  have hplace := u32_le (base + j)
  rw [Int.natCast_add] at hplace
  change u32 ((base : ℤ) + j) + min 32768 (size - j) ≤ base + size
  omega

/-- The requests of the formatter stay below the end of the second FAT and 32 KB. -/
theorem FatRequest.end_le (h : FatRequest fatType fatSize bs q) :
    q.offset.toNat + q.count.toNat ≤ (fatReservedSectors fatType + 2 * fatSize + 64) * 512 := by
  have hres : 8 ≤ fatReservedSectors fatType := by
    unfold fatReservedSectors
    split_ifs <;> decide
  have hsize := u32_le (fatSize * 512)
  rw [Int.natCast_mul] at hsize
  cases h with
  | boot =>
    change 0 + 512 ≤ _
    omega
  | backup _ =>
    change 3072 + 512 ≤ _
    omega
  | fsInfo _ =>
    change 512 + 512 ≤ _
    omega
  | first f hf =>
    have hoff := fatOffset_le fatType fatSize f
    have : f * fatSize ≤ 2 * fatSize := Nat.mul_le_mul_right _ (by omega)
    change fatOffset fatType fatSize f + 32768 ≤ _
    omega
  | rest f _ hf hq =>
    have hoff := fatOffset_le fatType fatSize f
    have hend := hq.end_le
    have : (f + 1) * fatSize ≤ 2 * fatSize := Nat.mul_le_mul_right _ (by omega)
    rw [Nat.add_mul, Nat.one_mul] at this
    have : u32 ((fatSize : ℤ) * 512) ≤ fatSize * 512 := hsize
    omega
  | root _ hne hq =>
    have hoff := fatOffset_le fatType fatSize 2
    have hend := hq.end_le
    have hroot : u32 ((fatRootDirSectors fatType : ℤ) * 512) = 16384 := by
      rw [fatRootDirSectors, fatRootDirEntries, if_neg hne]
      decide
    omega

theorem fatSectorsPerCluster_bounds (fatType : ℤ) (clusterSize : ℕ) :
    1 ≤ fatSectorsPerCluster fatType clusterSize ∧ fatSectorsPerCluster fatType clusterSize ≤ 255 := by
  unfold fatSectorsPerCluster
  dsimp only
  generalize u8 (_ / 512) = x
  have := x.toNat_lt
  split_ifs <;> omega

theorem ceil_div_le {x d : ℕ} (hd : 516 ≤ d) : (x + d - 1) / d ≤ x / 516 + 1 :=
  calc (x + d - 1) / d ≤ (x + d) / d := Nat.div_le_div_right (Nat.sub_le _ _)
    _ = x / d + 1 := Nat.add_div_right x (by omega)
    _ ≤ x / 516 + 1 := Nat.add_le_add_right (Nat.div_le_div_left hd (by decide)) 1

/-- The size of a FAT with four bytes an entry, without conversions. -/
theorem fatSizeSectors_fat32 (clusterSize : ℕ) {usable : ℕ} (h : 32 ≤ usable) (hlt : usable ≤ 4294967296) :
    fatSizeSectors 1 clusterSize usable =
      ((usable - 32) * 4 + (512 * fatSectorsPerCluster 1 clusterSize + 8) - 1) /
      (512 * fatSectorsPerCluster 1 clusterSize + 8) := by
  obtain ⟨h₁, h₂⟩ := fatSectorsPerCluster_bounds 1 clusterSize
  unfold fatSizeSectors
  generalize fatSectorsPerCluster 1 clusterSize = spc at h₁ h₂ ⊢
  have htmp : u64 ((usable : ℤ) - fatReservedSectors 1) = usable - 32 := by
    unfold u64 fatReservedSectors
    rw [if_pos rfl]
    omega
  have hsum : u64 (((usable - 32 : ℕ) : ℤ) * 4 + ((512 * spc : ℕ) + 8) - 1) =
      (usable - 32) * 4 + (512 * spc + 8) - 1 := by
    unfold u64
    omega
  have hle := ceil_div_le (x := (usable - 32) * 4) (d := 512 * spc + 8) (by omega)
  simp only [if_true, htmp, hsum]
  exact u32_of_lt (by omega)

/-- The same for the types with at most two bytes an entry. -/
theorem fatSizeSectors_fat16 {fatType : ℤ} (hne : fatType ≠ 1) (clusterSize : ℕ) {usable : ℕ}
    (h : 40 ≤ usable)
    (hlt : usable ≤ 4294967296) :
    fatSizeSectors fatType clusterSize usable =
      ((usable - 40) * 2 + (512 * fatSectorsPerCluster fatType clusterSize + 4) - 1) /
        (512 * fatSectorsPerCluster fatType clusterSize + 4) := by
  obtain ⟨h₁, h₂⟩ := fatSectorsPerCluster_bounds fatType clusterSize
  unfold fatSizeSectors
  generalize fatSectorsPerCluster fatType clusterSize = spc at h₁ h₂ ⊢
  have htmp : u64 ((usable : ℤ) - fatReservedSectors fatType - fatRootDirSectors fatType) = usable - 40 := by
    unfold u64 fatReservedSectors fatRootDirSectors fatRootDirEntries
    rw [if_neg hne, if_neg hne]
    omega
  have hsum : u64 (((usable - 40 : ℕ) : ℤ) * 2 + ((512 * spc : ℕ) + 4) - 1) =
      (usable - 40) * 2 + (512 * spc + 4) - 1 := by
    unfold u64
    omega
  have hle := ceil_div_le (x := (usable - 40) * 2) (d := 512 * spc + 4) (by omega)
  simp only [hne, if_false, htmp, hsum]
  exact u32_of_lt (by omega)

/-- A FAT takes less than a hundredth of its volume. -/
theorem fatSizeSectors_le (fatType : ℤ) (clusterSize : ℕ) {usable : ℕ} (h : 40 ≤ usable)
    (hlt : usable ≤ 4294967296) : fatSizeSectors fatType clusterSize usable ≤ usable / 129 + 1 := by
  have hspc := (fatSectorsPerCluster_bounds fatType clusterSize).1
  by_cases hfat : fatType = 1
  · subst hfat
    rw [fatSizeSectors_fat32 clusterSize (show 32 ≤ usable by omega) hlt]
    have := ceil_div_le (x := (usable - 32) * 4)
      (show 516 ≤ 512 * fatSectorsPerCluster 1 clusterSize + 8 by omega)
    omega
  · rw [fatSizeSectors_fat16 hfat clusterSize h hlt]
    have := ceil_div_le (x := (usable - 40) * 2)
      (show 516 ≤ 512 * fatSectorsPerCluster fatType clusterSize + 4 by omega)
    omega

/-- On a volume that the wiped head fits into, the formatter stays inside the volume. -/
theorem FatRequest.inside {clusterSize usable : ℕ}
    (h : FatRequest fatType (fatSizeSectors fatType clusterSize usable) bs q)
    (hu : 65503 ≤ usable) (hlt : usable ≤ 4294967296) : q.offset.toNat + q.count.toNat ≤ usable * 512 := by
  have hend := h.end_le
  have hsize := fatSizeSectors_le fatType clusterSize (show 40 ≤ usable by omega) hlt
  have hres : fatReservedSectors fatType ≤ 32 := by
    unfold fatReservedSectors
    split_ifs <;> decide
  refine Nat.le_trans hend (Nat.mul_le_mul_right 512 ?_)
  omega

end Region

/-- Sector 0 with another partition type and otherwise as on the medium `m`. -/
structure TypedWrite (m : Buf) (type : UInt8) (v : Write UInt8) : Prop where
  addr : v.addr = 0
  len : v.len = 512
  typed : v.data 450 = type
  same : ∀ i < 512, i ≠ 450 → v.data i = m i

theorem wp_updateMbrType {w : World Stick} (hw : Ready w) (type : UInt8) :
    Prog.wp (updateMbrType stick type) (fun _ t => Stage (TypedWrite w.dev.medium type) w t)
      (fun _ => False) w := by
  rw [updateMbrType, Prog.wp_bind]
  refine Prog.wp_mono (wp_read10 hw (show 0 < 4294967296 by decide) (show 1 < 2 ^ 16 by decide) _) ?_
    (fun _ h => h)
  intro r t h
  have hread : Stage (TypedWrite w.dev.medium type) w t := Stage.of_quiet h.quiet _
  refine Prog.wp_ite ?_ ?_
  · intro _
    exact hread
  · intro hr
    have hdata : ∀ i < 512, r.2 i = w.dev.medium i := by
      intro i hi
      rcases h.result with ⟨-, hd⟩ | hr'
      · rw [hd, splice_of_mem (Nat.zero_le i) (show i < 0 + 1 * 512 by omega), Nat.sub_zero, Nat.zero_mul,
          window_zero]
      · exact absurd (by rw [hr']; decide) hr
    have htyped : TypedWrite w.dev.medium type (sectorWrite 1 (0, put r.2 450 [type])) := by
      have hbyte : put r.2 450 [type] (450 + 0) = [type].getD 0 0 := put_at Nat.one_pos
      refine ⟨Nat.zero_mul 512, Nat.one_mul 512, hbyte, fun i hi hne => ?_⟩
      rw [← hdata i hi]
      by_cases hlt : i < 450
      · exact put_of_lt hlt
      · exact put_of_ge (show 451 ≤ i by omega)
    refine Prog.wp_ite ?_ ?_
    · intro _
      rw [Prog.wp_bind]
      refine Prog.wp_mono (wp_write10 h.ready (show 0 < 4294967296 by decide)
        (show 1 < 2 ^ 16 by decide) _) ?_
        (fun _ h => h)
      intro _ u hu
      exact hread.trans (Stage.of_write hu htyped)
    · intro _
      exact hread

section Format

variable (fatType : ℤ) (clusterSize : ℕ) (label : List UInt8) (w : World Stick)

/-- `usable_sectors` in a state. -/
abbrev fatUsable : ℕ := fatUsableSectors w.drv

/-- `fat_size_sectors` in a state. -/
def fatSizeIn : ℕ := fatSizeSectors fatType clusterSize (fatUsable w)

/-- The boot sector that is encoded in a state. -/
def fatBootIn : Buf :=
  fatBootSector fatType clusterSize w.drv.gDriveOffsetSectors (fatUsable w)
    (w.dev.spec.dice w.dev.rolls) label

/-- The writes of `usb_scsi_format_fat`. -/
inductive FatWrite : Write UInt8 → Prop
  | typed (v : Write UInt8) : w.drv.gPartitionType = 1 →
      TypedWrite w.dev.medium (fatMbrType fatType w.drv.gDriveOffsetSectors (fatUsable w)) v → FatWrite v
  | request (q : Request) : FatRequest fatType (fatSizeIn fatType clusterSize w)
      (fatBootIn fatType clusterSize label w) q → FatWrite (q.write w.drv.gDriveOffsetSectors)

/-- What has happened since `w`, with the boot sector asked for. -/
structure FatSoFar (t : World Stick) : Prop where
  frame : ∃ rs, Frame w (writeRequest (fatBootIn fatType clusterSize label w) 512 0 :: rs) t ∧
    ∀ q ∈ rs, FatRequest fatType (fatSizeIn fatType clusterSize w) (fatBootIn fatType clusterSize label w) q
  wrote : Wrote (FatWrite fatType clusterSize label w) w t

/-- What `usb_scsi_format_fat` does: when it returns 0, all its requests were accepted. -/
structure FatDone (r : ℤ) (t : World Stick) : Prop where
  soFar : FatSoFar fatType clusterSize label w t
  result : r = -1 ∨ r = 0 ∧ ∃ u rs,
    Stage (FatWrite fatType clusterSize label w) w u ∧
    Landed u (writeRequest (fatBootIn fatType clusterSize label w) 512 0 :: rs) t ∧
    ∀ q ∈ rs, FatRequest fatType (fatSizeIn fatType clusterSize w) (fatBootIn fatType clusterSize label w) q
  full : Faultless w.dev.spec → r = 0

end Format

section Format

variable {fatType : ℤ} {clusterSize : ℕ} {label : List UInt8} {w : World Stick}

/-- The requests after the partition type is updated, as writes since `w`. -/
theorem FatSoFar.of_asked {u t : World Stick} {rs : List Request}
    (hu : Stage (FatWrite fatType clusterSize label w) w u)
    (ht : Asked u (writeRequest (fatBootIn fatType clusterSize label w) 512 0 :: rs) t)
    (hrs : ∀ q ∈ rs, FatRequest fatType (fatSizeIn fatType clusterSize w)
      (fatBootIn fatType clusterSize label w) q) :
    FatSoFar fatType clusterSize label w t := by
  refine ⟨⟨rs, hu.frame.trans ht.frame, hrs⟩, hu.wrote.trans (ht.wrote.mono fun v hv => ?_)⟩
  obtain ⟨q, hq, rfl⟩ := List.mem_map.mp hv
  rw [hu.frame.driveOffset]
  refine .request q ?_
  rcases List.mem_cons.mp hq with rfl | hq
  · exact .boot
  · exact hrs q hq

/-- The boot sector is written and then, once there is a cache, everything is accepted. -/
theorem wp_writeFat {u : World Stick} (hu : Ready u) (hoff : u.drv.gDriveOffsetSectors ≤ 4096) (fuel : ℕ)
    (fatType : ℤ) (fatSize : ℕ) (bs : Buf) :
    Prog.wp (writeFat stick fuel fatType fatSize bs)
      (fun r t => ∃ rs, Asked u (writeRequest bs 512 0 :: rs) t ∧
        (∀ q ∈ rs, FatRequest fatType fatSize bs q) ∧
        (r = -1 ∨ r = 0 ∧ Landed u (writeRequest bs 512 0 :: rs) t) ∧ (Faultless u.dev.spec → r = 0))
      (fun t => (∃ rs, Asked u (writeRequest bs 512 0 :: rs) t ∧ ∀ q ∈ rs, FatRequest fatType fatSize bs q) ∧
        (FatLoopsEnd fatSize → fuel < 4294967296)) u := by
  have hreq := wp_writeRequest hu fuel bs 512 0 (by decide) (by decide) (by decide)
    (by decide) (by omega)
  have hnone : ∀ q ∈ ([] : List Request), FatRequest fatType fatSize bs q :=
    fun _ hq => absurd hq List.not_mem_nil
  rw [writeFat, Prog.wp_bind]
  refine Prog.wp_mono hreq ?_ ?_
  · intro r t h
    refine Prog.wp_ite ?_ ?_
    · intro hr
      exact ⟨[], h.asked, hnone, .inl rfl, fun hf => absurd (h.full hf) hr⟩
    · intro hr
      rw [not_not] at hr
      have hland : Landed u [writeRequest bs 512 0] t := h.landed hr
      have hwritable : Writable t := ⟨h.asked.wrote.ready, h.cache hr, h.asked.frame.driveOffset.symm ▸ hoff⟩
      rw [Prog.wp_bind]
      have hlands : Lands (FatRequest fatType fatSize bs) (FatLoopsEnd fatSize → fuel < 4294967296)
          (writeFatTables stick fuel fatType fatSize bs) := lands_writeFatTables
      refine Prog.wp_mono (hlands t hwritable) ?_ ?_
      · rintro _ x ⟨rs, hx, hrs⟩
        exact ⟨rs, (hland.trans hx).asked, hrs, .inr ⟨rfl, hland.trans hx⟩, fun _ => rfl⟩
      · rintro x ⟨⟨rs, hx, hrs⟩, hf⟩
        exact ⟨⟨rs, h.asked.trans hx, hrs⟩, hf⟩
  · rintro t ⟨ht, hf⟩
    exact ⟨⟨[], ht, hnone⟩, fun _ => by omega⟩

theorem wp_usbScsiFormatFat (hw : Ready w) (hoff : w.drv.gDriveOffsetSectors ≤ 4096) (fuel : ℕ)
    (fatType : ℤ) (clusterSize : ℕ) (label : List UInt8) (husable : fatUsable w ≠ 0) :
    Prog.wp (usbScsiFormatFat stick fuel fatType clusterSize label) (FatDone fatType clusterSize label w)
      (fun t => FatSoFar fatType clusterSize label w t ∧
        (FatLoopsEnd (fatSizeIn fatType clusterSize w) → fuel < 4294967296)) w := by
  have hrand : Quiet w { w with dev := { w.dev with rolls := w.dev.rolls + 1 } } := Quiet.of_dev hw rfl rfl
  -- the type of the partition, in an MBR
  have htype : Prog.wp (updateMbr stick w.drv (fatMbrType fatType w.drv.gDriveOffsetSectors (fatUsable w)))
      (fun _ u => Stage (FatWrite fatType clusterSize label w) w u) (fun _ => False)
      { w with dev := { w.dev with rolls := w.dev.rolls + 1 } } := by
    refine Prog.wp_ite (fun h => ?_) fun _ => Stage.of_quiet hrand _
    refine Prog.wp_mono (wp_updateMbrType hrand.ready _) ?_ (fun _ h => h)
    intro _ u hu
    exact (Stage.of_quiet hrand _).trans ⟨hu.frame, hu.wrote.mono fun v hv => .typed v h hv, hu.empty⟩
  rw [usbScsiFormatFat, Prog.wp_bind, wp_globals]
  refine Prog.wp_ite (fun h => absurd h husable) fun _ => ?_
  rw [Prog.wp_bind, wp_rand, Prog.wp_bind]
  refine Prog.wp_mono htype ?_ (fun _ h => h.elim)
  intro _ u hu
  have hfat := wp_writeFat hu.wrote.ready (hu.frame.driveOffset.symm ▸ hoff) fuel fatType
    (fatSizeIn fatType clusterSize w) (fatBootIn fatType clusterSize label w)
  refine Prog.wp_mono hfat ?_ ?_
  · rintro r t ⟨rs, ht, hrs, hresult, hfull⟩
    refine ⟨FatSoFar.of_asked hu ht hrs, ?_, fun hf => hfull (hu.frame.spec ▸ hf)⟩
    rcases hresult with hr | ⟨hr, hland⟩
    · exact .inl hr
    · exact .inr ⟨hr, u, rs, hu, hland, hrs⟩
  · rintro t ⟨⟨rs, ht, hrs⟩, hf⟩
    exact ⟨FatSoFar.of_asked hu ht hrs, hf⟩

end Format

end FormatStick
