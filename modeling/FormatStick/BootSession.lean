import FormatStick.BootSectors
import FormatStick.Gpt
import FormatStick.SessionEnds

/-!
# What a session's boot sector says of its partition

Over whole sessions, on whatever device: the total in the boot sector against the length of the
partition, and the first sector against the drive offset.
-/
namespace FormatStick
open Prog Exfat

/-- The length that the table records of a partition; a disk without a table is all partition. -/
def tableSectors (partitionType : ℤ) (n part : ℕ) : ℕ :=
  if partitionType = 1 then mbrNumSectors n part
  else if partitionType = 2 then gptPartitionEnd n part - 4095
  else part

section Sizes

variable {n : ℕ} {clusterSize partitionType fsType : ℤ}

theorem partSectors_bounds (clusterSize fsType : ℤ) (hn : n ≤ 4294967296)
    (hacc : alignedOffset partitionType + reservedEnd partitionType < n) :
    1 ≤ partSectors n clusterSize partitionType fsType ∧
      alignedOffset partitionType + reservedEnd partitionType + partSectors n clusterSize partitionType
        fsType ≤ n := by
  obtain ⟨-, hpos⟩ := sessionUsable_eq hn hacc
  have hmax : maxUsableSectors n partitionType =
      n - (alignedOffset partitionType + reservedEnd partitionType) := by
    unfold maxUsableSectors u64
    omega
  unfold partSectors
  split_ifs <;> omega

/-- The table records the length that the driver is given. -/
theorem tableSectors_eq (hn : n ≤ 4294967296)
    (hacc : alignedOffset partitionType + reservedEnd partitionType < n) :
    tableSectors partitionType n (partSectors n clusterSize partitionType fsType) =
      partSectors n clusterSize partitionType fsType := by
  obtain ⟨hpos, hfits⟩ := partSectors_bounds clusterSize fsType hn hacc
  generalize partSectors n clusterSize partitionType fsType = part at *
  unfold alignedOffset reservedEnd at hfits
  rw [tableSectors]
  by_cases h₁ : partitionType = 1
  · rw [if_pos h₁]
    rw [if_pos (by omega), if_neg (by omega)] at hfits
    exact mbrNumSectors_eq hfits hn
  by_cases h₂ : partitionType = 2
  · rw [if_neg h₁, if_pos h₂]
    rw [if_pos (by omega), if_pos h₂] at hfits
    rw [gptPartitionEnd_eq hpos (by omega) (by omega) hn]
    omega
  · rw [if_neg h₁, if_neg h₂]

/-- The sessions whose FAT volume is no longer than its partition: not with a GPT, for which the
formatter reserves a sector less than the session does; and not where the session caps the partition.
A volume of 2^32 sectors is recorded as one of none. -/
def FatBootFits (n : ℕ) (clusterSize partitionType fsType : ℤ) : Prop :=
  partitionType ≠ 2 ∧
    (n = 4294967296 ∧ partitionType ≠ 1 ∨
      partitionType ≤ 1 ∧
        (fsCapSectors clusterSize fsType = 0 ∨ maxUsableSectors n partitionType ≤
          fsCapSectors clusterSize fsType))

instance (n : ℕ) (clusterSize partitionType fsType : ℤ) :
    Decidable (FatBootFits n clusterSize partitionType fsType) := by
  unfold FatBootFits
  infer_instance

theorem fatBootFits_iff (hn : n ≤ 4294967296)
    (hacc : alignedOffset partitionType + reservedEnd partitionType < n) :
    u32 (sessionUsable n partitionType) ≤ partSectors n clusterSize partitionType fsType ↔
      FatBootFits n clusterSize partitionType fsType := by
  obtain ⟨husable, hpos⟩ := sessionUsable_eq hn hacc
  have hmax : maxUsableSectors n partitionType =
      n - (alignedOffset partitionType + reservedEnd partitionType) := by
    unfold maxUsableSectors u64
    omega
  have hcut : u32 (sessionUsable n partitionType) =
      if sessionUsable n partitionType = 4294967296 then 0 else sessionUsable n partitionType := by
    have hle : sessionUsable n partitionType ≤ 4294967296 := by
      unfold sessionUsable
      omega
    unfold u32
    split_ifs <;> omega
  unfold alignedOffset reservedEnd at hmax
  unfold FatBootFits partSectors
  rw [hcut, husable]
  generalize fsCapSectors clusterSize fsType = cap at *
  generalize maxUsableSectors n partitionType = most at *
  split_ifs at hmax ⊢ <;> omega

end Sizes

section Runs

variable {δ : Type} {P : Platform δ} {fuel : ℕ} {n k : ℕ} {clusterSize partitionType fsType : ℤ}

theorem keeps_usbScsiFormatExfat {I : World δ → Prop} (hI : Writing P I) (fuel : ℕ)
    (upcaseTable : Buf) (size : ℕ)
    (label : List ℕ) : Keeps I (usbScsiFormatExfat P fuel upcaseTable size label) := by
  unfold usbScsiFormatExfat
  refine keeps_globals.bind fun g => ?_
  dsimp only
  generalize setupSpcBits fuel 9 (size / 512 : ℕ) (i64 (usbScsiGetUsableSectors g) * 512) = chosen
  cases chosen with
  | none => exact keeps_cut
  | some bits =>
    refine hI.rand.bind fun serial => hI.malloc.bind fun allocated => ?_
    exact keeps_alongside (keeps_mkfs (hI.ioWrite fuel) _ hI.malloc upcaseTable) _

theorem setUp_writing (P : Platform δ) (n : ℕ) (clusterSize partitionType fsType : ℤ) :
    Writing P (SetUp n clusterSize partitionType fsType) := by
  have hplaced := placed_writing P
    (n, driveStart partitionType, partitionType, partSectors n clusterSize partitionType fsType)
  have hkeeps : ∀ {α : Type} {m : Prog (World δ) α},
      Keeps (Placed (n, driveStart partitionType, partitionType,
      partSectors n clusterSize partitionType fsType)) m →
        Keeps (SetUp n clusterSize partitionType fsType) m :=
    fun hm w hw => setUp_iff.mpr ⟨hw.accepted, hm w (setUp_iff.mp hw).2⟩
  exact {
    write := fun lba blocks data h₁ h₂ => hkeeps (hplaced.write lba blocks data h₁ h₂)
    readMbr := hkeeps hplaced.readMbr
    syncCache := hkeeps hplaced.syncCache
    flush := hkeeps hplaced.flush
    malloc := hkeeps hplaced.malloc
    rand := hkeeps hplaced.rand
    ioWrite := fun fuel buf count offset => hkeeps (hplaced.ioWrite fuel buf count offset) }

/-- What holds at the end of a session: it has written no boot sector, or it was set up for its device
and has written those of `B` if that has `n` sectors. -/
def BootsOn (n k : ℕ) (clusterSize partitionType fsType : ℤ) (B : Buf → Prop) (w : World δ) : Prop :=
  BootsFrom k (fun _ => False) w.requests ∨
    ∃ m, SetUp m clusterSize partitionType fsType w ∧ (m = n → BootsFrom k B w.requests)

theorem prepare_silent {rs : List Request} {fd : ℤ} :
    Keeps (Requested (δ := δ) rs) (prepare P fd clusterSize partitionType fsType) :=
  (opens_requested P rs).prepare (cached_requested P rs).direct (fun _ => keeps_update fun _ hw => hw) _ _ _ _

theorem bootsFrom_start (rs : List Request) (B : Buf → Prop) : BootsFrom rs.length B rs := by
  refine ⟨Nat.le_refl _, fun q hq => ?_⟩
  rw [List.drop_length] at hq
  exact absurd hq List.not_mem_nil

/-- Before the formatter runs, no boot sector is written. -/
theorem unbooted_writing_zeros {B : Buf → Prop} (fuel : ℕ) (count offset : ℤ) :
    Keeps (fun w : World δ => BootsFrom k B w.requests) (scsiIoInternal P fuel zeros count offset true) :=
  keeps_log_io P fun _ hl => hl.append fun hq => absurd (show zeros 0 = 0xEB from hq.jump) (by decide)

/-- The boot sectors of a session are those of its formatter. -/
theorem startStableFormat_boots {engine : ℕ → Prog (World δ) ℤ} {B : Buf → Prop} {fd : ℤ} {w : World δ}
    (hset : ∀ m part, Keeps (SetUp m clusterSize partitionType fsType)
      (formatStage P fuel engine clusterSize fsType part))
    (hboots : ∀ u part, SetUp n clusterSize partitionType fsType u →
      BootsFrom w.requests.length B u.requests →
      BootsFrom w.requests.length B (formatStage P fuel engine clusterSize fsType part u).2.requests) :
    BootsOn n w.requests.length clusterSize partitionType fsType B
      (startStableFormat P fuel engine fd clusterSize partitionType fsType w).2 := by
  have hlog := cached_log P (BootsFrom w.requests.length fun _ => False)
  refine wp_state ?_
  rw [startStableFormat, wp_bind]
  refine wp_mono (wp_and (prepare_silent.wp (s := w) rfl) (wp_of_run fun a t h => h)) ?_ ?_
  · rintro (_ | part) t ⟨ht, hrun⟩
    · exact .inl (ht.symm ▸ bootsFrom_start _ _)
    obtain ⟨m, d, j, hacc, rfl, hplaced⟩ := prepare_placed hrun
    have hnone : BootsFrom w.requests.length (fun _ => False) t.requests := ht.symm ▸ bootsFrom_start _ _
    dsimp only
    rw [wp_bind]
    refine wp_mono (wp_and ((hlog.direct.createPartition (fun _ _ h => h) (fun _ _ h => h) _ _ _).wp hnone)
      (wp_of_run fun a t h => h)) ?_ fun _ h => .inl h.1
    rintro ⟨⟩ u ⟨hu, hrun⟩
    have hu' : SetUp m clusterSize partitionType fsType u :=
      setUp_iff.mpr ⟨hacc, createPartition_placed hplaced hrun⟩
    rw [wp_bind]
    refine wp_mono (wp_and ((hlog.direct.usbScsiWipePartitionHead fuel fsType
      fun _ _ => unbooted_writing_zeros fuel _ _).wp hu)
      (((setUp_writing P m _ _ _).wipeHead fuel fsType).wp hu')) ?_ fun _ h => .inl h.1
    rintro _ v ⟨hv, hv'⟩
    have hformat : BootsOn n w.requests.length clusterSize partitionType fsType B
        (formatStage P fuel engine clusterSize fsType
          (partSectors m clusterSize partitionType fsType) v).2 := by
      refine .inr ⟨m, hset m _ v hv', ?_⟩
      rintro rfl
      exact hboots v _ hv' ⟨hv.1, fun q hq hboot => (hv.2 q hq hboot).elim⟩
    refine Keeps.after (wp_of_state hformat) fun _ => Keeps.bind ?_ fun _ => keeps_pure _
    rintro x (hx | ⟨m, hx, hxboots⟩)
    · exact .inl (hlog.direct.usbScsiSync x hx)
    · exact .inr ⟨m, (setUp_writing P m _ _ _).usbScsiSync x hx, fun hm =>
        (cached_log P (BootsFrom w.requests.length B)).direct.usbScsiSync x (hxboots hm)⟩
  · rintro t ⟨ht, -⟩
    exact .inl (ht.symm ▸ bootsFrom_start _ _)

theorem formatStage_exfat (engine : ℕ → Prog (World δ) ℤ) (clusterSize : ℤ) (part : ℕ) :
    formatStage P fuel engine clusterSize 4 part = engine part := by
  rw [formatStage, if_neg (by decide), if_pos (.inl rfl)]

/-- The boot sector fits the partition of its session. -/
def Describes (n : ℕ) (clusterSize partitionType fsType : ℤ) (bs : Buf) : Prop :=
  bootSectors fsType bs ≤ partSectors n clusterSize partitionType fsType ∧
    bootStart fsType bs = driveStart partitionType

theorem describes_fat_iff (hn : n ≤ 4294967296) (hfs : fsType ≠ 4) {w : World δ}
    (hw : SetUp n clusterSize partitionType fsType w) (size serial : ℕ) (label : List UInt8) :
    Describes n clusterSize partitionType fsType
        (fatBootSector fsType size w.drv.gDriveOffsetSectors (fatUsableSectors w.drv) serial label) ↔
      FatBootFits n clusterSize partitionType fsType := by
  have hstart : u32 (driveStart partitionType) = driveStart partitionType :=
    u32_of_lt (Nat.lt_of_le_of_lt (driveStart_le partitionType) (by decide))
  rw [Describes, bootSectors_fat _ _ _ _ _ _ hfs, bootStart_fat _ _ _ _ _ _ hfs, (hw.usable hn).1,
    hw.offset, hstart,
    fatBootFits_iff hn hw.accepted]
  exact and_iff_left rfl

theorem SetUp.partition (hn : n ≤ 4294967296) {w : World δ}
    (hw : SetUp n clusterSize partitionType fsType w) :
    usbScsiGetUsableSectors w.drv = partSectors n clusterSize partitionType fsType ∧
      partSectors n clusterSize partitionType fsType ≤ 4294967296 := by
  obtain ⟨hpos, hfits⟩ := partSectors_bounds clusterSize fsType hn hw.accepted
  rw [usbScsiGetUsableSectors, hw.size, if_neg (by omega), if_neg (by omega)]
  omega

/-- The first sector that the exFAT formatter records is never that of a partition. -/
theorem not_describes_exfat (usable bits serial : ℕ) (label : List ℕ) :
    ¬Describes n clusterSize partitionType 4 (superBlock (params usable bits serial label)) := by
  rintro ⟨-, hstart⟩
  rw [(boot_superBlock usable bits serial label).1, driveStart] at hstart
  split_ifs at hstart
  omega

/-- On a device of `n` sectors, whatever it does, the boot sectors that a session writes fit its
partition, as the partition table and the driver have it. -/
def BootDescribed (n : ℕ) (clusterSize partitionType fsType : ℤ) : Prop :=
  ∀ (δ : Type) (P : Platform δ) (fuel : ℕ) (upcaseTable : Buf) (label : List ℕ) (fd : ℤ) (w : World δ),
    let t := (startStableFormat P fuel
      (fun _ => usbScsiFormatExfat P fuel upcaseTable (u32 clusterSize) label)
      fd clusterSize partitionType fsType w).2
    t.drv.gSectorCount = n → ∀ q ∈ t.requests.drop w.requests.length, q.IsBoot →
      bootSectors fsType q.buf ≤ t.drv.gPartitionSectors ∧
        tableSectors partitionType n t.drv.gPartitionSectors = t.drv.gPartitionSectors ∧
        bootStart fsType q.buf = t.drv.gDriveOffsetSectors

/-- The sessions of which that holds. -/
def BootFits (n : ℕ) (clusterSize partitionType fsType : ℤ) : Prop :=
  if fsType = 4 then ExfatRefused (u32 clusterSize) (partSectors n clusterSize partitionType fsType)
  else FatBootFits n clusterSize partitionType fsType

theorem keeps_formatStage {I : World δ → Prop} (hI : Writing P I) (clusterSize : ℤ)
    (hfs : fsType = 1 ∨ fsType = 2 ∨ fsType = 3 ∨ fsType = 4) (fuel : ℕ) (upcaseTable : Buf) (label : List ℕ)
    (part : ℕ) :
    Keeps I (formatStage P fuel (fun _ => usbScsiFormatExfat P fuel upcaseTable (u32 clusterSize) label)
      clusterSize fsType part) := by
  by_cases hexfat : fsType = 4
  · rw [hexfat, formatStage_exfat]
    exact keeps_usbScsiFormatExfat hI fuel upcaseTable _ label
  · rw [formatStage_fat P fuel _ clusterSize (by omega)]
    exact hI.usbScsiFormatFat fuel _ _ _

theorem bootsOn_of_fits (hn : n ≤ 4294967296) (hfs : fsType = 1 ∨ fsType = 2 ∨ fsType = 3 ∨ fsType = 4)
    (hfits : BootFits n clusterSize partitionType fsType) (P : Platform δ) (fuel : ℕ) (upcaseTable : Buf)
    (label : List ℕ)
    (fd : ℤ) (w : World δ) :
    BootsOn n w.requests.length clusterSize partitionType fsType
      (Describes n clusterSize partitionType fsType)
      (startStableFormat P fuel (fun _ => usbScsiFormatExfat P fuel upcaseTable (u32 clusterSize) label)
        fd clusterSize partitionType fsType w).2 := by
  rw [BootFits] at hfits
  refine startStableFormat_boots
    (fun m => keeps_formatStage (setUp_writing P m _ _ _) clusterSize hfs fuel upcaseTable label)
    fun u part hset hboots => ?_
  by_cases hexfat : fsType = 4
  · subst hexfat
    rw [if_pos rfl] at hfits
    obtain ⟨husable, hle⟩ := hset.partition hn
    obtain ⟨dev, hdev⟩ := usbScsiFormatExfat_refused (P := P) fuel (u32_lt _) hle hfits upcaseTable
      label husable
    rw [formatStage_exfat, hdev]
    exact hboots
  · rw [if_neg hexfat] at hfits
    rw [formatStage_fat P fuel _ clusterSize (by omega)]
    exact usbScsiFormatFat_boots P fuel fsType (u32 clusterSize) usbDisk u
      (fun serial => (describes_fat_iff hn hexfat hset _ serial _).mpr hfits) hboots

theorem bootDescribed_of_fits (hn : n ≤ 4294967296) (hfs : fsType = 1 ∨ fsType = 2 ∨ fsType = 3 ∨ fsType = 4)
    (hfits : BootFits n clusterSize partitionType fsType) :
      BootDescribed n clusterSize partitionType fsType := by
  intro δ P fuel upcaseTable label fd w t hcount q hq hboot
  rcases bootsOn_of_fits hn hfs hfits P fuel upcaseTable label fd w with hnone | ⟨m, hset, hboots⟩
  · exact (hnone.2 q hq hboot).elim
  · obtain rfl : m = n := hset.count.symm.trans hcount
    obtain ⟨htotal, hstart⟩ := (hboots rfl).2 q hq hboot
    rw [hset.size, hset.offset]
    exact ⟨htotal, tableSectors_eq hn hset.accepted, hstart⟩

/-- What the formatter reaches, the rest of the session keeps. -/
theorem after_formatter {I : World δ → Prop} (hI : Writing P I) {m : Prog (World δ) ℤ} {u : World δ}
    (h : I (m u).2) :
    I ((do
      let formatRes ← m
      let _ ← usbScsiSync P
      pure (decide (formatRes = 0)) : Prog (World δ) Bool) u).2 :=
  wp_state (Keeps.after (wp_of_state h) fun _ => hI.usbScsiSync.bind fun _ => keeps_pure _)

/-- A session of a device that obliges writes what its formatter writes. -/
theorem describes_of_bootDescribed (hn : n ≤ 4294967296)
    (hfs : fsType = 1 ∨ fsType = 2 ∨ fsType = 3 ∨ fsType = 4)
    (hacc : alignedOffset partitionType + reservedEnd partitionType < n)
    (h : BootDescribed n clusterSize partitionType fsType) :
    ∃ u, SetUp n clusterSize partitionType fsType u ∧ Framed u ∧ ∀ bs, (writeRequest bs 512 0).IsBoot →
      writeRequest bs 512 0 ∈ (formatStage (sized n) 4294967296
        (fun _ => usbScsiFormatExfat (sized n) 4294967296 zeros (u32 clusterSize) []) clusterSize fsType
        (partSectors n clusterSize partitionType fsType) u).2.requests →
      Describes n clusterSize partitionType fsType bs := by
  obtain ⟨u, hset, hframed, hrun⟩ := startStableFormat_sized clusterSize fsType hn hacc
    (Nat.le_refl 4294967296) (fun _ => usbScsiFormatExfat (sized n) 4294967296 zeros (u32 clusterSize) []) 0
  refine ⟨u, hset, hframed, fun bs hboot hmade => ?_⟩
  have hall := h Unit (sized n) 4294967296 zeros [] 0 obligingWorld
  rw [hrun] at hall
  have hwriting := setUp_writing (sized n) n clusterSize partitionType fsType
  have hend := after_formatter hwriting (keeps_formatStage hwriting clusterSize hfs 4294967296 zeros []
    (partSectors n clusterSize partitionType fsType) u hset)
  have hlog := after_formatter (writing_made (sized n) (writeRequest bs 512 0)) hmade
  obtain ⟨htotal, -, hstart⟩ := hall hend.count _ hlog hboot
  rw [hend.size] at htotal
  rw [hend.offset] at hstart
  exact ⟨htotal, hstart⟩

theorem fits_of_bootDescribed (hn : n ≤ 4294967296) (hfs : fsType = 1 ∨ fsType = 2 ∨ fsType = 3 ∨ fsType = 4)
    (hacc : alignedOffset partitionType + reservedEnd partitionType < n)
    (h : BootDescribed n clusterSize partitionType fsType) : BootFits n clusterSize partitionType fsType := by
  obtain ⟨u, hset, hframed, hall⟩ := describes_of_bootDescribed hn hfs hacc h
  rw [BootFits]
  by_cases hexfat : fsType = 4
  · subst hexfat
    rw [if_pos rfl]
    by_contra hno
    obtain ⟨husable, hle⟩ := hset.partition hn
    obtain ⟨serial, hmade⟩ :=
      usbScsiFormatExfat_boot_made (sized_obliges n) (Nat.le_refl _) (u32_lt _) hle hno zeros []
      hframed husable
    exact not_describes_exfat _ _ serial [] (hall _ (isBoot_superBlock _) (by rwa [formatStage_exfat]))
  · rw [if_neg hexfat]
    have hfat : fsType = 1 ∨ fsType = 2 ∨ fsType = 3 := by omega
    have hpos : fatUsableSectors u.drv ≠ 0 := by
      rw [(hset.usable hn).1]
      exact Nat.ne_of_gt (hset.usable hn).2.1
    obtain ⟨serial, hmade⟩ :=
      usbScsiFormatFat_boot_made (sized n) 4294967296 fsType (u32 clusterSize) usbDisk u hframed hpos
    rw [← formatStage_fat (sized n) 4294967296
      (fun _ => usbScsiFormatExfat (sized n) 4294967296 zeros (u32 clusterSize) [])
      clusterSize hfat (partSectors n clusterSize partitionType fsType)] at hmade
    exact (describes_fat_iff hn hexfat hset _ serial _).mp (hall _ (isBoot_fatBootSector _ _ _ _ _ _) hmade)

end Runs

/-- On every device that passes the size check the boot sector fits its partition exactly in these
sessions. -/
theorem bootDescribed_iff {n : ℕ} (hn : n ≤ 4294967296) {clusterSize partitionType fsType : ℤ}
    (hfs : fsType = 1 ∨ fsType = 2 ∨ fsType = 3 ∨ fsType = 4)
    (hacc : alignedOffset partitionType + reservedEnd partitionType < n) :
    BootDescribed n clusterSize partitionType fsType ↔ BootFits n clusterSize partitionType fsType :=
  ⟨fits_of_bootDescribed hn hfs hacc, bootDescribed_of_fits hn hfs⟩

/-- FAT32 behind an MBR on a stick of 32 GiB. -/
theorem bootDescribed_iff_mbr : BootDescribed 67108864 32768 1 1 :=
  (bootDescribed_iff (by decide) (.inl rfl) (by decide)).mpr (show FatBootFits 67108864 32768 1 1 by decide)

/-- With a GPT the volume is a sector longer than its partition, and an exFAT volume does not say
where it begins. -/
theorem not_bootDescribed : ¬BootDescribed 67108864 32768 2 1 ∧ ¬BootDescribed 67108864 0 1 4 := by
  refine ⟨fun h => ?_, fun h => ?_⟩
  · have hfits : FatBootFits 67108864 32768 2 1 := fits_of_bootDescribed (by decide) (.inl rfl) (by decide) h
    exact absurd hfits (by decide)
  · have hfits : ExfatRefused (u32 0) (partSectors 67108864 0 1 4) :=
      fits_of_bootDescribed (by decide) (.inr (.inr (.inr rfl))) (by decide) h
    exact absurd hfits (by decide)

end FormatStick
