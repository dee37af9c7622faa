import FormatStick.FatContainment
import FormatStick.Progress

/-!
# The arithmetic of the FAT formatter

Which inputs keep every fixed-width expression of `usb_scsi_format_fat` at its mathematical
value: none of its subtractions falls below zero, no narrowing loses bits and no byte offset
wraps. Then its chunk loops end and write every byte of their regions once.
-/
namespace FormatStick
open Splice Prog TableSizing

/-- `cluster_size` with its defaults. -/
def fatClusterBytes (fatType : ℤ) (clusterSize : ℕ) : ℕ :=
  if clusterSize = 0 then if fatType = 1 then 4096 else if fatType = 2 then 2048 else 512 else clusterSize

/-- `fat_size_sectors` for the globals `g`. -/
abbrev fatSizeFor (fatType : ℤ) (clusterSize : ℕ) (g : Driver) : ℕ :=
  fatSizeSectors fatType clusterSize (fatUsableSectors g)

/-- Every expression of the formatter has the value that it has without widths. -/
structure FatExact (fatType : ℤ) (clusterSize : ℕ) (g : Driver) : Prop where
  usable : (fatUsableSectors g : ℤ) = fatVolume g
  area : fatReservedSectors fatType + fatRootDirSectors fatType ≤ fatUsableSectors g
  sectorsPerCluster : (u8 (fatClusterBytes fatType clusterSize / 512)).toNat =
    fatClusterBytes fatType clusterSize / 512
  fatSize : fatSizeFor fatType clusterSize g = tableSize (fatUsableSectors g - fatOverhead fatType)
    (fatEntriesPerSector fatType) (fatSectorsPerCluster fatType clusterSize)
  fatSize16 : fatType ≠ 1 → u16 (fatSizeFor fatType clusterSize g) =
    fatSizeFor fatType clusterSize g
  totalSectors : u32 (fatUsableSectors g) = fatUsableSectors g
  fatBytes : u32 ((fatSizeFor fatType clusterSize g : ℤ) * 512) =
    fatSizeFor fatType clusterSize g * 512
  offset : ∀ f, f ≤ 1 ∨ fatType ≠ 1 ∧ f = 2 →
    fatOffset fatType (fatSizeFor fatType clusterSize g) f =
      (fatReservedSectors fatType + f * fatSizeFor fatType clusterSize g) * 512
  chunk : ∀ f ≤ 1, ∀ k, 32768 * (k + 1) < fatSizeFor fatType clusterSize g * 512 →
    u32 ((fatOffset fatType (fatSizeFor fatType clusterSize g) f : ℤ) + (32768 * (k + 1) : ℕ)) =
      fatOffset fatType (fatSizeFor fatType clusterSize g) f + 32768 * (k + 1)
  counter : ∀ k, 32768 * (k + 1) < fatSizeFor fatType clusterSize g * 512 →
    u32 ((32768 * (k + 1) : ℕ) + 32768) = 32768 * (k + 2)

/-- The inputs of the formatter on which its arithmetic is exact: there is room for the reserved
area, and the clusters, the volume and the tables are small enough. -/
def FatInRange (n driveOffset : ℕ) (partitionType fatType : ℤ) (clusterSize : ℕ) : Prop :=
  let front := driveOffset + if partitionType = 2 then 33 else 0
  let spc := max 1 (fatClusterBytes fatType clusterSize / 512)
  front + fatOverhead fatType ≤ n ∧ n - front < 4294967296 ∧ fatClusterBytes fatType clusterSize < 131072 ∧
    n - front ≤ fatOverhead fatType + (if fatType = 1 then 4194304 else 65535) *
      (fatEntriesPerSector fatType * spc + 2)

instance (n driveOffset : ℕ) (partitionType fatType : ℤ) (clusterSize : ℕ) :
    Decidable (FatInRange n driveOffset partitionType fatType clusterSize) := by
  unfold FatInRange
  infer_instance

section Exact

variable {fatType : ℤ} {clusterSize : ℕ} {g : Driver}

theorem fatSectorsPerCluster_eq (fatType : ℤ) {clusterSize : ℕ}
    (h : fatClusterBytes fatType clusterSize < 131072) :
    fatSectorsPerCluster fatType clusterSize = max 1 (fatClusterBytes fatType clusterSize / 512) := by
  have hnarrow : (u8 (fatClusterBytes fatType clusterSize / 512)).toNat =
      fatClusterBytes fatType clusterSize / 512 := by
    rw [u8, UInt8.toNat_ofNat']
    omega
  change (if (u8 (fatClusterBytes fatType clusterSize / 512)).toNat = 0 then 1
    else (u8 (fatClusterBytes fatType clusterSize / 512)).toNat) = _
  rw [hnarrow]
  split_ifs <;> omega

/-- A chunk of a table that its loop comes to starts below byte 2^32. -/
theorem FatAddressable.chunk_lt {fatSize f k : ℕ} (h : FatAddressable fatType fatSize) (hf : f ≤ 1)
    (hk : 32768 * (k + 1) < fatSize * 512) :
    (fatReservedSectors fatType + f * fatSize) * 512 + 32768 * (k + 1) < 4294967296 := by
  have hbound := h.bound.1
  have hmul : f * fatSize ≤ fatSize := Nat.le_trans (Nat.mul_le_mul_right _ hf) (Nat.le_of_eq (Nat.one_mul _))
  have hlast : k + 1 ≤ (fatSize - 1) / 64 := by omega
  have hsector : fatReservedSectors fatType + f * fatSize + 64 * (k + 1) < 8388608 := by omega
  calc (fatReservedSectors fatType + f * fatSize) * 512 + 32768 * (k + 1)
      = (fatReservedSectors fatType + f * fatSize + 64 * (k + 1)) * 512 := by ring
    _ < 8388608 * 512 := Nat.mul_lt_mul_of_pos_right hsector (by decide)

/-- A table of at most 2^22 or 2^16 - 1 sectors is one whose chunks stay below byte 2^32. -/
theorem FatExact.fatSize_le (h : FatExact fatType clusterSize g) :
    fatSizeFor fatType clusterSize g ≤ if fatType = 1 then 4194304 else 65535 := by
  by_cases hfat : fatType = 1
  · rw [if_pos hfat]
    by_contra hbig
    have hbytes := u32_lt ((fatSizeFor fatType clusterSize g : ℤ) * 512)
    rw [h.fatBytes] at hbytes
    obtain ⟨k, hk⟩ : ∃ k, k + 1 = 65536 := ⟨65535, rfl⟩
    have hlast := h.chunk 1 (Nat.le_refl 1) k (by omega)
    have hlt := u32_lt ((fatOffset fatType (fatSizeFor fatType clusterSize g) 1 : ℤ) + (32768 * (k + 1) : ℕ))
    rw [hlast, h.offset 1 (.inl (Nat.le_refl 1)), fatReservedSectors, if_pos hfat] at hlt
    omega
  · rw [if_neg hfat]
    have h16 := h.fatSize16 hfat
    unfold u16 at h16
    omega

theorem FatExact.addressable (h : FatExact fatType clusterSize g) :
    FatAddressable fatType (fatSizeFor fatType clusterSize g) := by
  have hle := h.fatSize_le
  unfold FatAddressable
  split_ifs at hle ⊢ <;> omega

theorem fatExact_iff (hcount : g.gSectorCount ≤ 4294967296) :
    FatExact fatType clusterSize g ↔
      FatInRange g.gSectorCount g.gDriveOffsetSectors g.gPartitionType fatType clusterSize := by
  unfold FatInRange
  dsimp only
  constructor
  · intro h
    have husable := h.usable
    rw [fatVolume] at husable
    have htotal := u32_lt (fatUsableSectors g)
    rw [h.totalSectors] at htotal
    have harea : fatOverhead fatType ≤ fatUsableSectors g := h.area
    have hcluster : fatClusterBytes fatType clusterSize < 131072 := by
      have hlt := (u8 (fatClusterBytes fatType clusterSize / 512)).toNat_lt
      rw [h.sectorsPerCluster] at hlt
      omega
    have hsize := h.fatSize_le
    rw [h.fatSize, tableSize_le_iff, share, fatSectorsPerCluster_eq fatType hcluster] at hsize
    have hfront : g.gSectorCount - (g.gDriveOffsetSectors + if g.gPartitionType = 2 then 33 else 0) =
        fatUsableSectors g := by
      split_ifs at husable ⊢ <;> omega
    rw [hfront]
    refine ⟨?_, htotal, hcluster, by omega⟩
    split_ifs at husable ⊢ <;> omega
  · rintro ⟨hfront, htotal, hcluster, hsize⟩
    have hover := fatOverhead_eq fatType
    have hvolume : fatVolume g =
        (g.gSectorCount - (g.gDriveOffsetSectors + if g.gPartitionType = 2 then 33 else 0) : ℕ) := by
      unfold fatVolume
      split_ifs at hfront ⊢ <;> omega
    have hpos : 0 < fatVolume g := by
      split_ifs at hover <;> omega
    obtain ⟨husable, hlt⟩ := fatUsableSectors_eq hcount hpos
    have hfront' : g.gSectorCount - (g.gDriveOffsetSectors + if g.gPartitionType = 2 then 33 else 0) =
        fatUsableSectors g := by
      omega
    rw [hfront'] at htotal hsize
    have harea : fatOverhead fatType ≤ fatUsableSectors g := by omega
    have hquotient := fatSizeSectors_eq clusterSize harea hlt
    have hle : fatSizeFor fatType clusterSize g ≤ if fatType = 1 then 4194304 else 65535 := by
      rw [fatSizeFor, hquotient, tableSize_le_iff, share, fatSectorsPerCluster_eq fatType hcluster]
      omega
    have haddress : FatAddressable fatType (fatSizeFor fatType clusterSize g) := by
      unfold FatAddressable
      split_ifs at hle ⊢ <;> omega
    have hoffset : ∀ f, f ≤ 1 ∨ fatType ≠ 1 ∧ f = 2 → _ := fun f hf => haddress.offset hf
    obtain ⟨hbound, hcounter⟩ := haddress.bound
    refine
      { usable := husable
        area := harea
        sectorsPerCluster := ?_
        fatSize := hquotient
        fatSize16 := fun hne => u16_of_lt ?_
        totalSectors := u32_of_lt htotal
        fatBytes := u32_mul (b := 512) (by omega)
        offset := hoffset
        chunk := fun f hf k hk => ?_
        counter := fun k hk => ?_ }
    · rw [u8, UInt8.toNat_ofNat']
      omega
    · rw [if_neg hne] at hle
      omega
    · rw [hoffset f (.inl hf), u32_add (haddress.chunk_lt hf hk)]
    · have hlast : 32768 * (k + 1) + 32768 < 4294967296 := by omega
      exact (u32_add (b := 32768) hlast).trans (Nat.mul_succ 32768 (k + 1)).symm

end Exact

/-- The request writes byte `b` of the window. -/
def Request.Covers (b : ℕ) (q : Request) : Prop := q.offset ≤ b ∧ b < q.offset + q.count

instance (b : ℕ) (q : Request) : Decidable (q.Covers b) := inferInstanceAs (Decidable (_ ∧ _))

/-- The chunks of a region write each of its bytes once, and no others. -/
theorem zeroWrites_covers (start size i b : ℕ) :
    (zeroWrites 512 start size i).countP (fun q => q.Covers b) =
      if (start + i) * 512 ≤ b ∧ b < (start + size) * 512 then 1 else 0 := by
  obtain ⟨m, hm⟩ : ∃ m, m = size - i := ⟨_, rfl⟩
  induction m using Nat.strong_induction_on generalizing i with
  | _ m ih =>
    by_cases h : i < size
    · have hrest := ih (size - (i + 64)) (by omega) (i + 64) rfl
      have hfirst : (writeAt 512 zeros (512 * min 64 (size - i)) (start + i)).Covers b ↔
          (start + i) * 512 ≤ b ∧ b < (start + i + min 64 (size - i)) * 512 := by
        simp only [Request.Covers, writeAt, writeRequest]
        omega
      rw [zeroWrites_of_lt h, List.countP_cons, hrest]
      simp only [decide_eq_true_eq, hfirst]
      split_ifs <;> omega
    · rw [zeroWrites_of_le (by omega), if_neg (by omega)]
      rfl

section Ends

variable {δ α β : Type} {P : Platform δ} {I : World δ → Prop} {fuel : ℕ}

/-- Where `I` holds the program returns, and `I` holds again. -/
def Ends (I : World δ → Prop) (m : Prog (World δ) α) : Prop :=
  ∀ w, I w → Prog.wp m (fun _ t => I t) (fun _ => False) w

theorem ends_pure (a : α) : Ends I (pure a : Prog (World δ) α) := fun _ hw => hw

theorem Ends.bind {m : Prog (World δ) β} {f : β → Prog (World δ) α} (hm : Ends I m) (hf : ∀ b, Ends I (f b)) :
    Ends I (m >>= f) := by
  intro w hw
  rw [wp_bind]
  exact wp_mono (hm w hw) (fun b t ht => hf b t ht) fun _ h => h

theorem Ends.ite {c : Prop} [Decidable c] {m n : Prog (World δ) α} (hm : Ends I m) (hn : Ends I n) :
    Ends I (if c then m else n) := fun w hw => wp_ite (fun _ => hm w hw) fun _ => hn w hw

/-- Sectors of 512 bytes and one of the places where a partition begins. -/
structure Framed (w : World δ) : Prop where
  size : w.drv.gSectorSize = 512
  offset : w.drv.gDriveOffsetSectors ≤ 4096

theorem cached_framed (P : Platform δ) : Cached P Framed :=
  cached_of_settings P fun _ _ h hw =>
    ⟨(congrArg Driver.gSectorSize h).trans hw.size,
      (congrArg Driver.gDriveOffsetSectors h).trans_le hw.offset⟩

theorem ends_scsiCommand (c : Cmd) (data : Buf) : Ends Framed (scsiCommand P c data) := fun w hw =>
  wp_mono (wp_with (wp_scsiCommand_ends P c data w) (wp_mono (((cached_framed P).command c data).wp hw)
    (fun _ _ h => h) fun _ _ => trivial)) (fun _ _ h => h.2) fun _ h => h

theorem ends_updateMbr (g : Driver) (type : UInt8) : Ends Framed (updateMbr P g type) := by
  refine Ends.ite ((ends_scsiCommand _ _).bind
    fun r => Ends.ite (ends_pure _) (Ends.ite ?_ (ends_pure _))) (ends_pure _)
  exact ((ends_scsiCommand _ _).bind fun _ => ends_pure _).bind fun _ => ends_pure _

/-- Write requests below 4 GiB return, and complete if the device obliges. -/
theorem attains_write (buf : Buf) {count : ℤ} (offset : ℤ) (hcount : 0 ≤ count ∧ count < 4294967296)
    (hfuel : count < fuel) :
    Attains Framed (fun x => x.1 = -1 ∧ ¬Obliging P ∨ x.1 = count)
      (scsiIoInternal P fuel buf count offset true) := by
  intro w hw
  have hkeeps := keeps_io (P := P) (I := Framed) (fun _ _ h => ⟨h.size, h.offset⟩)
    ((cached_framed P).transfer fuel buf count offset true)
  have hends : Prog.wp (scsiIoInternal P fuel buf count offset true)
      (fun x _ => x.1 = -1 ∧ ¬Obliging P ∨ x.1 = count) (fun _ => False) w := by
    have hstart := hw.offset
    have hfits : Fits true count (offset + w.drv.gDriveOffsetSectors * 512) 0 := by
      rw [Fits, if_neg (by decide)]
      omega
    rw [wp_scsiIoInternal_window hw.size (by omega)]
    refine wp_mono (wp_loop_fits ?_ (fun h => by cases h) hcount.1 hfits buf fuel) (fun _ _ h => h)
      fun _ h => ?_
    · exact hw.size
    · omega
  exact wp_mono (wp_and hends (hkeeps.wp hw)) (fun _ _ h => h) fun _ h => h.1

theorem ends_write (buf : Buf) {count : ℤ} (offset : ℤ) (hcount : 0 ≤ count ∧ count < 4294967296)
    (hfuel : count < fuel) :
    Ends Framed (scsiIoInternal P fuel buf count offset true) := fun w hw =>
  wp_mono (attains_write buf offset hcount hfuel w hw) (fun _ _ h => h.2) fun _ h => h

theorem ends_zeroChunks (hfuel : 4294967296 ≤ fuel) {base size i : ℕ} (hsize : size ≤ 4294934528)
    (hi : 32768 ∣ i) :
    Ends Framed (zeroChunks P fuel base size i) := by
  intro w hw
  refine wp_loop_cut (fun j t => 32768 ∣ j ∧ Framed t) (fun j => size - j) (fun _ _ _ hf => ?_) ?_ ⟨hi, hw⟩
  · omega
  · rintro j t ⟨hj, ht⟩
    refine wp_ite (fun hin => ?_) fun _ => ht
    have hnext : u32 ((j : ℤ) + 32768) = j + 32768 := by
      unfold u32
      omega
    have hcount : (if u32 ((size : ℤ) - j) > 32768 then 32768 else u32 ((size : ℤ) - j)) ≤ 32768 := by
      split_ifs <;> omega
    rw [wp_bind]
    refine wp_mono (ends_write zeros _ (by omega) (by omega) t ht) (fun _ u hu => ?_) fun _ h => h
    rw [hnext]
    exact ⟨⟨by omega, hu⟩, by omega⟩

theorem ends_writeFatTable (hfuel : 4294967296 ≤ fuel) {fatType : ℤ} {fatSize : ℕ}
    (h : FatLoopsEnd fatSize) (f : ℕ) :
    Ends Framed (writeFatTable P fuel fatType fatSize f) := by
  rw [writeFatTable]
  refine Ends.bind ?_ fun _ => ends_zeroChunks hfuel h (Nat.dvd_refl _)
  exact ends_write _ _ (by decide) (by omega)

theorem ends_writeFatTables (hfuel : 4294967296 ≤ fuel) {fatType : ℤ} {fatSize : ℕ} (h : FatLoopsEnd fatSize)
    (bs : Buf) :
    Ends Framed (writeFatTables P fuel fatType fatSize bs) := by
  have hroot : u32 ((fatRootDirSectors fatType : ℤ) * 512) ≤ 4294934528 := by
    unfold fatRootDirSectors fatRootDirEntries
    split_ifs <;> decide
  refine Ends.ite ?_ ?_
  · refine Ends.bind ?_ fun _ => Ends.bind ?_ fun _ =>
      (ends_writeFatTable hfuel h 0).bind fun _ => ends_writeFatTable hfuel h 1
    · exact ends_write bs _ (by decide) (by omega)
    · exact ends_write fatFsInfo _ (by decide) (by omega)
  · refine (ends_writeFatTable hfuel h 0).bind fun _ => (ends_writeFatTable hfuel h 1).bind fun _ => ?_
    exact ends_zeroChunks hfuel hroot (Nat.dvd_zero _)

theorem ends_writeFat (hfuel : 4294967296 ≤ fuel) {fatType : ℤ} {fatSize : ℕ} (h : FatLoopsEnd fatSize)
    (bs : Buf) :
    Ends Framed (writeFat P fuel fatType fatSize bs) := by
  rw [writeFat]
  refine Ends.bind ?_ fun _ =>
    Ends.ite (ends_pure _) ((ends_writeFatTables hfuel h _).bind fun _ => ends_pure _)
  exact ends_write bs _ (by decide) (by omega)

/-- The formatter returns, if its chunk loops do not run into the end of the 32-bit range. -/
theorem ends_usbScsiFormatFat (hfuel : 4294967296 ≤ fuel) {fatType : ℤ} {clusterSize : ℕ} (label : List UInt8)
    {w : World δ} (hw : Framed w)
    (h : FatLoopsEnd (fatSizeFor fatType clusterSize w.drv)) :
    Prog.wp (usbScsiFormatFat P fuel fatType clusterSize label) (fun _ t => Framed t) (fun _ => False) w := by
  rw [usbScsiFormatFat, wp_bind, wp_globals]
  refine wp_ite (fun _ => hw) fun _ => ?_
  rw [wp_bind, wp_rand]
  exact ((ends_updateMbr w.drv _).bind fun _ => ends_writeFat hfuel h _) _ ⟨hw.size, hw.offset⟩

end Ends

/-- What the loops of a formatter that returned 0 wrote: after the head of each table every byte of the
rest once, and every byte of the root directory once. -/
structure WrittenOnce {δ : Type} (fatType : ℤ) (fatSize : ℕ) (w t : World δ) : Prop where
  requests : ∃ bs, t.requests = w.requests ++ fatWrites 512 fatType fatSize bs
  table : ∀ f ≤ 1, ∀ b : ℕ,
    (zeroWrites 512 (fatReservedSectors fatType + f * fatSize) fatSize 64).countP (fun q => q.Covers b) =
      if (fatReservedSectors fatType + f * fatSize + 64) * 512 ≤ b ∧
        b < (fatReservedSectors fatType + f * fatSize + fatSize) * 512
      then 1 else 0
  root : ∀ b : ℕ,
    (zeroWrites 512 (fatReservedSectors fatType + 2 * fatSize) (fatRootDirSectors fatType) 0).countP
      (fun q => q.Covers b) =
      if (fatReservedSectors fatType + 2 * fatSize) * 512 ≤ b ∧
        b < (fatReservedSectors fatType + 2 * fatSize + fatRootDirSectors fatType) * 512
      then 1 else 0

/-- With these inputs the formatter ends on every device, and where it returns 0 its arithmetic was exact
and its loops wrote their regions once. -/
def FormatsExactly (n driveOffset : ℕ) (partitionType fatType : ℤ) (clusterSize : ℕ) : Prop :=
  ∀ (δ : Type) (P : Platform δ) (label : List UInt8) (w : World δ), Seated n driveOffset partitionType w →
    (w.drv.gSectorSize = 512 → ∃ fuel, (usbScsiFormatFat P fuel fatType clusterSize label w).1 ≠ none) ∧
    ∀ fuel t, usbScsiFormatFat P fuel fatType clusterSize label w = (some 0, t) →
      FatExact fatType clusterSize w.drv ∧ WrittenOnce fatType (fatSizeFor fatType clusterSize w.drv) w t

/-- A faultless stick and a driver with these globals. -/
def seatedStick (n driveOffset : ℕ) (partitionType : ℤ) : World Stick :=
  { onesStick with
    drv := { gSectorCount := n, gDriveOffsetSectors := driveOffset, gPartitionType := partitionType } }

theorem FormatsExactly.exact {n driveOffset : ℕ} {partitionType fatType : ℤ} {clusterSize : ℕ}
    (h : FormatsExactly n driveOffset partitionType fatType clusterSize) (hoffset : driveOffset ≤ 4096)
    (husable : fatUsable (seatedStick n driveOffset partitionType) ≠ 0) :
    FatExact fatType clusterSize (seatedStick n driveOffset partitionType).drv := by
  have hidle : Idle (seatedStick n driveOffset partitionType) := ⟨rfl, rfl, rfl⟩
  obtain ⟨hends, hexact⟩ := h Stick stick usbDisk (seatedStick n driveOffset partitionType) ⟨rfl, rfl, rfl⟩
  obtain ⟨fuel, hsome⟩ := hends rfl
  obtain ⟨r, hr⟩ := Option.ne_none_iff_exists'.mp hsome
  have hdone := wp_run (wp_usbScsiFormatFat hidle.ready hoffset fuel fatType clusterSize usbDisk husable)
    (Prog.eq_of_fst hr)
  obtain rfl : r = 0 := hdone.full ⟨fun _ => rfl, fun _ => rfl⟩
  exact (hexact fuel _ (Prog.eq_of_fst hr)).1

theorem FatExact.writtenOnce {δ : Type} {P : Platform δ} {fuel : ℕ} {fatType : ℤ} {clusterSize : ℕ}
    {label : List UInt8}
    {w t : World δ} (h : FatExact fatType clusterSize w.drv)
    (hrun : usbScsiFormatFat P fuel fatType clusterSize label w = (some 0, t)) :
    WrittenOnce fatType (fatSizeFor fatType clusterSize w.drv) w t where
  requests := usbScsiFormatFat_requests h.addressable hrun
  table _ _ b := zeroWrites_covers _ _ 64 b
  root b := zeroWrites_covers _ _ 0 b

/-- The arithmetic is exact on these inputs; where the volume is empty there is nothing to be exact. -/
theorem formatsExactly_iff {n driveOffset : ℕ} (hn : n ≤ 4294967296)
    (hoffset : driveOffset = 0 ∨ driveOffset = 4096)
    (partitionType fatType : ℤ) (clusterSize : ℕ) :
    FormatsExactly n driveOffset partitionType fatType clusterSize ↔
      n = (driveOffset + if partitionType = 2 then 33 else 0) ∨
        FatInRange n driveOffset partitionType fatType clusterSize := by
  constructor
  · intro h
    by_cases hempty : n = driveOffset + if partitionType = 2 then 33 else 0
    · exact .inl hempty
    · refine .inr ((fatExact_iff hn).mp (h.exact (by omega) ?_))
      unfold fatUsable fatUsableSectors seatedStick u64
      dsimp only
      split_ifs at hempty ⊢ <;> omega
  · rintro (hempty | hrange) δ P label w hw
    · have hnone : fatUsableSectors w.drv = 0 := by
        unfold fatUsableSectors u64
        rw [hw.count, hw.offset, hw.type, hempty]
        dsimp only
        split_ifs <;> omega
      have hrun : ∀ fuel, usbScsiFormatFat P fuel fatType clusterSize label w = (some (-1), w) :=
          fun fuel => by
        have hite : ∀ m : Prog (World δ) ℤ, (if fatUsableSectors w.drv = 0 then pure (-1) else m) w =
            (some (-1), w) := fun m => by
          rw [if_pos hnone]
          rfl
        exact hite _
      refine ⟨fun _ => ⟨0, by rw [hrun]; exact Option.some_ne_none _⟩, fun fuel t ht => ?_⟩
      rw [hrun] at ht
      cases ht
    · have hexact : FatExact fatType clusterSize w.drv := by
        rw [fatExact_iff (hw.count.symm ▸ hn), hw.count, hw.offset, hw.type]
        exact hrange
      refine ⟨fun hsize => ⟨4294967296, ?_⟩, fun fuel t ht => ⟨hexact, hexact.writtenOnce ht⟩⟩
      have hframed : Framed w := ⟨hsize, by rw [hw.offset]; omega⟩
      obtain ⟨r, t, hrun, -⟩ :=
        wp_returns (ends_usbScsiFormatFat (P := P) (Nat.le_refl _) label hframed hexact.addressable.loopsEnd)
      rw [hrun]
      exact Option.some_ne_none _

/-- FAT16 on a stick of 128 GiB: the size of its tables does not fit the boot sector. -/
theorem formatsExactly_fat16_large : ¬FormatsExactly 268435456 4096 1 2 4096 := by
  intro h
  have hexact := h.exact (Nat.le_refl _) (by decide)
  exact absurd (hexact.fatSize16 (by decide)) (by decide)

/-- FAT16 on one of 1 GiB. -/
theorem formatsExactly_iff_small : FormatsExactly 2097152 4096 1 2 4096 :=
  (formatsExactly_iff (by decide) (.inr rfl) 1 2 4096).mpr (by decide)

end FormatStick
