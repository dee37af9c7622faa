import FormatStick.FatContainment
import FormatStick.ExfatClusters

/-!
# The boot sector and its partition

The session cuts the partition to what the file system can take and leaves 34 sectors to the
backup GPT. The FAT formatter takes the whole disk again, but for 33 sectors; the exFAT
formatter takes the partition, and a first sector that is always 2048.
-/
namespace FormatStick
open Splice Fields Prog Exfat

/-- The request is for a boot sector at the start of the window. -/
structure Request.IsBoot (q : Request) : Prop where
  write : q.isWrite = true
  start : q.offset = 0
  count : q.count = 512
  jump : q.buf 0 = 0xEB
  signature : q.buf 510 = 0x55 ∧ q.buf 511 = 0xAA

/-- The total of sectors in a boot sector. -/
def bootSectors (fsType : ℤ) (bs : Buf) : ℕ :=
  if fsType = 4 then leNat bs 0x48 8 else (BiosParameters.read bs).totalSectors

/-- The first sector of the partition in a boot sector. -/
def bootStart (fsType : ℤ) (bs : Buf) : ℕ := if fsType = 4 then leNat bs 0x40 8 else leNat bs 28 4

section Fat

variable (fatType : ℤ) (clusterSize driveOffset usable serial : ℕ) (label : List UInt8)

theorem fatBootSector_signature :
    fatBootSector fatType clusterSize driveOffset usable serial label 510 = 0x55 ∧
    fatBootSector fatType clusterSize driveOffset usable serial label 511 = 0xAA :=
  ⟨put_at (i := 0) (by decide), put_at (i := 1) (by decide)⟩

theorem isBoot_fatBootSector :
    (writeRequest (fatBootSector fatType clusterSize driveOffset usable serial label) 512 0).IsBoot :=
  ⟨rfl, rfl, rfl, fatBootSector_jump fatType clusterSize driveOffset usable serial label,
    fatBootSector_signature fatType clusterSize driveOffset usable serial label⟩

theorem bootStart_fat {fsType : ℤ} (hfs : fsType ≠ 4) :
    bootStart fsType (fatBootSector fatType clusterSize driveOffset usable serial label) =
      u32 driveOffset := by
  have hlt := u32_lt driveOffset
  rw [bootStart, if_neg hfs, fatBootSector, fatBiosParameters]
  split_ifs <;> simp (disch := simp) only [leNat_put_of_disjoint, leNat_put] <;> omega

/-- A volume of 2^32 sectors is one of none. -/
theorem bootSectors_fat {fsType : ℤ} (hfs : fsType ≠ 4) :
    bootSectors fsType (fatBootSector fatType clusterSize driveOffset usable serial label) = u32 usable := by
  rw [bootSectors, if_neg hfs, BiosParameters.totalSectors]
  by_cases hfat : fatType = 1
  · rw [hfat, read_fat32]
    rfl
  · obtain ⟨x, hread⟩ := read_fat16 hfat clusterSize driveOffset usable serial label
    rw [hread]
    dsimp only
    have hsmall : usable < 65536 → u32 usable = usable := fun h => u32_of_lt (by omega)
    split_ifs <;> omega

end Fat

section Log

variable {δ : Type}

theorem keeps_log_io (P : Platform δ) {L : List Request → Prop} {fuel : ℕ} {buf : Buf} {count offset : ℤ}
    {isWrite : Bool}
    (h : ∀ l, L l → L (l ++ [⟨buf, count, offset, isWrite⟩])) :
    Keeps (fun w => L w.requests) (scsiIoInternal P fuel buf count offset isWrite) :=
  Keeps.bind (fun _ hw => h _ hw) fun _ => (cached_log P L).transfer fuel buf count offset isWrite

/-- A request that was made stays in the log. -/
theorem writing_made (P : Platform δ) (q : Request) : Writing P (fun w => q ∈ w.requests) :=
  { (cached_log P (q ∈ ·)).direct with
    ioWrite := fun _ _ _ _ => keeps_log_io P fun _ hq => List.mem_append_left _ hq }

/-- Every boot sector from the request `n` on is one of `B`. -/
def BootsFrom (n : ℕ) (B : Buf → Prop) (l : List Request) : Prop :=
  n ≤ l.length ∧ ∀ q ∈ l.drop n, q.IsBoot → B q.buf

theorem BootsFrom.append {n : ℕ} {B : Buf → Prop} {l : List Request} (h : BootsFrom n B l) {q : Request}
    (hq : q.IsBoot → B q.buf) :
    BootsFrom n B (l ++ [q]) := by
  refine ⟨?_, fun q' hq' hboot => ?_⟩
  · rw [List.length_append]
    exact Nat.le_add_right_of_le h.1
  · rw [List.drop_append_of_le_length h.1, List.mem_append, List.mem_singleton] at hq'
    obtain hq' | rfl := hq'
    · exact h.2 q' hq' hboot
    · exact hq hboot

theorem wp_io_made (P : Platform δ) (fuel : ℕ) (buf : Buf) (count offset : ℤ) (isWrite : Bool) (w : World δ) :
    Prog.wp (scsiIoInternal P fuel buf count offset isWrite)
      (fun _ t => ⟨buf, count, offset, isWrite⟩ ∈ t.requests)
      (fun t => ⟨buf, count, offset, isWrite⟩ ∈ t.requests) w := by
  have hmade : Prog.wp (Prog.update
      fun w : World δ => { w with requests := w.requests ++ [⟨buf, count, offset, isWrite⟩] })
      (fun _ t => ⟨buf, count, offset, isWrite⟩ ∈ t.requests)
        (fun t => ⟨buf, count, offset, isWrite⟩ ∈ t.requests) w :=
    List.mem_append_right _ List.mem_cons_self
  exact Keeps.after hmade fun _ =>
    (cached_log P (⟨buf, count, offset, isWrite⟩ ∈ ·)).transfer fuel buf count offset isWrite

end Log

section FatRuns

variable {δ : Type} (P : Platform δ) (fuel : ℕ) (fatType : ℤ) (clusterSize : ℕ) (label : List UInt8)
    (w : World δ)

theorem fatBuffers_jump (B : Buf → Prop) : FatBuffers fun buf => buf 0 = 0xEB → B buf where
  zero h := absurd h (by decide)
  info h := absurd h (by decide)
  first fatType h := by
    refine absurd h ?_
    rw [fatFirstChunk]
    split_ifs <;> decide

/-- The FAT formatter writes the boot sectors of its volume and no others. -/
theorem usbScsiFormatFat_boots {n : ℕ} {B : Buf → Prop}
    (hB : ∀ serial, B (fatBootSector fatType clusterSize w.drv.gDriveOffsetSectors (fatUsableSectors w.drv)
      serial label))
    (hw : BootsFrom n B w.requests) :
      BootsFrom n B (usbScsiFormatFat P fuel fatType clusterSize label w).2.requests := by
  refine wp_state (I := fun t : World δ => BootsFrom n B t.requests) ?_
  rw [usbScsiFormatFat, wp_bind, wp_globals]
  refine wp_ite (fun _ => hw) fun _ => ?_
  rw [wp_bind, wp_rand]
  refine Keeps.wp (Keeps.bind ?_ fun _ => ?_) hw
  · exact Keeps.ite ((cached_log P _).direct.updateMbrType _) (keeps_pure _)
  · refine keeps_writeFat (fatBuffers_jump B) (fun _ _ _ _ hbuf _ => ?_) fuel _ _ fun _ => hB _
    exact keeps_log_io P fun _ hl => hl.append fun hq => hbuf hq.jump

/-- It writes one if there is anything to format. -/
theorem usbScsiFormatFat_boot_made (hw : Framed w) (husable : fatUsableSectors w.drv ≠ 0) :
    ∃ serial, writeRequest (fatBootSector fatType clusterSize w.drv.gDriveOffsetSectors
      (fatUsableSectors w.drv) serial label)
      512 0 ∈ (usbScsiFormatFat P fuel fatType clusterSize label w).2.requests := by
  refine ⟨(P.rand w.dev).1, wp_state (I := fun t : World δ => writeRequest _ 512 0 ∈ t.requests) ?_⟩
  rw [usbScsiFormatFat, wp_bind, wp_globals]
  refine wp_ite (fun h => absurd h husable) fun _ => ?_
  rw [wp_bind, wp_rand, wp_bind]
  refine wp_mono (ends_updateMbr w.drv _ { w with dev := (P.rand w.dev).2 } ⟨hw.size, hw.offset⟩)
    (fun _ u _ => ?_)
    fun _ h => h.elim
  refine Keeps.after (wp_io_made P fuel _ 512 0 true u) fun _ =>
    Keeps.ite (keeps_pure _) (Keeps.bind ?_ fun _ => keeps_pure _)
  exact keeps_writeFatTables fatBuffers_any (fun _ _ _ _ _ _ => (writing_made P _).ioWrite _ _ _ _) fuel
    _ _ trivial

end FatRuns

section ExfatRuns

variable (p : Params)

theorem superBlock_jump : superBlock p 0 = 0xEB := by
  have hjump : put zeros 0 [0xEB, 0x76, 0x90] 0 = 0xEB := rfl
  rw [superBlock]
  simp (disch := decide) only [put_of_lt, hjump]

theorem superBlock_signature : superBlock p 510 = 0x55 ∧ superBlock p 511 = 0xAA :=
  ⟨put_at (i := 0) (by decide), put_at (i := 1) (by decide)⟩

theorem isBoot_superBlock : (writeRequest (superBlock p) 512 0).IsBoot :=
  ⟨rfl, rfl, rfl, superBlock_jump p, superBlock_signature p⟩

/-- The first sector is the one that the bridge sets, the total that of the partition. -/
theorem boot_superBlock (usable bits serial : ℕ) (label : List ℕ) :
    bootStart 4 (superBlock (params usable bits serial label)) = 2048 ∧
      bootSectors 4 (superBlock (params usable bits serial label)) =
        u64 (Int.tdiv (params usable bits serial label).volumeSize 512) := by
  have hlt : u64 (Int.tdiv (params usable bits serial label).volumeSize 512) < 2 ^ 64 := by
    unfold u64
    omega
  have hfirst : (params usable bits serial label).firstSector = 2048 := rfl
  constructor
  · rw [bootStart, if_pos rfl, superBlock]
    simp (disch := simp only [List.length_cons, List.length_nil, leBytes_length]; omega)
      only [leNat_put_of_disjoint,
      leNat_put, hfirst, Nat.reducePow, Nat.reduceMod]
  · rw [bootSectors, if_pos rfl, superBlock]
    simp (disch := simp only [List.length_cons, List.length_nil, leBytes_length]; omega)
      only [leNat_put_of_disjoint,
      leNat_put, getSectorSize_params]
    omega

variable {p : Params} {δ : Type} {P : Platform δ} {fuel : ℕ}

/-- Where nothing is written, the formatter gives up at once. -/
theorem mkfs_silent (upcaseTable : Buf) (s : Device δ)
    (h : getClusterSize p = 0 ∨ checkSize p p.volumeSize = false) :
    (mkfs P fuel p upcaseTable s).2 = s := by
  unfold mkfs
  split_ifs with h₁ h₂
  · rfl
  · rfl
  · exact absurd h (not_or.mpr ⟨h₁, h₂⟩)

/-- The bridge gives up on a volume of `usable` sectors: the first division ends the process, or the
objects do not fit. -/
def ExfatRefused (clusterSize usable : ℕ) : Prop :=
  let p := params usable (chosenBits clusterSize usable) 0 []
  getClusterSize p = 0 ∨ checkSize p p.volumeSize = false

instance (clusterSize usable : ℕ) : Decidable (ExfatRefused clusterSize usable) := by
  unfold ExfatRefused
  infer_instance

/-- Serial number and label have no part in it. -/
theorem ExfatRefused.params {clusterSize usable : ℕ} (h : ExfatRefused clusterSize usable) (serial : ℕ)
    (label : List ℕ) :
    let p := params usable (chosenBits clusterSize usable) serial label
    getClusterSize p = 0 ∨ checkSize p p.volumeSize = false := h

theorem not_refused_params {clusterSize usable : ℕ} (h : ¬ExfatRefused clusterSize usable) (serial : ℕ)
    (label : List ℕ) :
    let p := Exfat.params usable (chosenBits clusterSize usable) serial label
    getClusterSize p ≠ 0 ∧ checkSize p p.volumeSize = true := by
  obtain ⟨hne, hcheck⟩ := not_or.mp h
  exact ⟨hne, Bool.eq_true_of_not_eq_false hcheck⟩

/-- Then the formatter has only asked for a serial number and for memory. -/
theorem usbScsiFormatExfat_refused (fuel : ℕ) {clusterSize usable : ℕ} (hcs : clusterSize < 2 ^ 32)
    (husable : usable ≤ 2 ^ 32)
    (h : ExfatRefused clusterSize usable) (upcaseTable : Buf) (label : List ℕ) {w : World δ}
    (hall : usbScsiGetUsableSectors w.drv = usable) :
    ∃ dev, (usbScsiFormatExfat P fuel upcaseTable clusterSize label w).2 = { w with dev := dev } := by
  refine wp_state (I := fun t : World δ => ∃ dev, t = { w with dev := dev }) ?_
  rw [usbScsiFormatExfat, wp_bind, wp_globals, hall]
  dsimp only
  rcases setupSpcBits_cases hcs husable fuel with hbits | ⟨hbits, -⟩
  · rw [hbits]
    dsimp only
    rw [wp_bind, wp_rand, wp_bind, wp_malloc]
    refine wp_of_state ⟨(P.malloc (P.rand w.dev).2).2, ?_⟩
    rw [alongside, mkfs_silent upcaseTable _ (h.params _ label)]
  · rw [hbits]
    exact ⟨w.dev, rfl⟩

theorem vbrWrite_boot (hP : Obliging P) {w : World δ} :
    Prog.wp (vbrWrite P fuel p) (fun _ => InWorld fun t => writeRequest (superBlock p) 512 0 ∈ t.requests)
      (InWorld fun t => writeRequest (superBlock p) 512 0 ∈ t.requests) (w, some 0) := by
  have hmalloc : Prog.wp (malloc P) (fun allocated _ => allocated = true) (fun _ => False) w :=
    hP.malloc w.dev
  have hI := writing_made P (writeRequest (superBlock p) 512 0)
  rw [vbrWrite, wp_bind, wp_left]
  refine wp_mono hmalloc (fun allocated u hallocated => ?_) fun _ h => h.elim
  rw [if_neg (by simp [hallocated])]
  refine Keeps.after (I := InWorld fun t => writeRequest (superBlock p) 512 0 ∈ t.requests) ?_
    fun _ => keeps_pure _
  rw [vbrSectors, List.cons_append, List.map_cons, Exfat.writeAll]
  refine Keeps.after (I := InWorld fun t => writeRequest (superBlock p) 512 0 ∈ t.requests) ?_ fun _ =>
    Keeps.ite (keeps_pure _) (keeps_writeAll (fun _ _ _ => hI.ioWrite _ _ _ _) _)
  rw [exfatWrite, atPosition, wp_bind, wp_read]
  dsimp only
  refine Keeps.after (I := InWorld fun t => writeRequest (superBlock p) 512 0 ∈ t.requests) ?_
    fun _ => keeps_pure _
  refine Keeps.after (I := InWorld fun t => writeRequest (superBlock p) 512 0 ∈ t.requests) ?_ fun _ =>
    Keeps.ite (Keeps.bind ?_ fun _ => keeps_pure _) (keeps_pure _)
  · rw [wp_left]
    exact wp_io_made P fuel (superBlock p) 512 0 true u
  · exact keeps_update fun _ hs => hs

/-- On a device that obliges everything is erased, and the boot sector is written. -/
theorem mkfs_boot (hP : Obliging P) (hfuel : 4294967296 ≤ fuel) (h : Sectored p) (hne : getClusterSize p ≠ 0)
    (hcheck : checkSize p p.volumeSize = true) (upcaseTable : Buf) {s : Device δ} (hs : Exfat.Opened s) :
    Prog.wp (mkfs P fuel p upcaseTable)
      (fun _ => InWorld fun t => writeRequest (superBlock p) 512 0 ∈ t.requests)
      (InWorld fun t => writeRequest (superBlock p) 512 0 ∈ t.requests) s := by
  have hI := writing_made P (writeRequest (superBlock p) 512 0)
  unfold mkfs
  rw [if_neg hne, if_neg (by simp [hcheck]), wp_bind]
  refine wp_mono (succeeds_erase hP hfuel h s hs) (fun r t ht => ?_) fun _ h => h.elim
  rw [if_neg (by omega)]
  refine Keeps.after (I := InWorld fun t => writeRequest (superBlock p) 512 0 ∈ t.requests) ?_
    fun _ => keeps_pure _
  obtain ⟨w, pos⟩ := t
  obtain ⟨-, pos, rfl⟩ := ht.2
  have hstart : roundUp 0 (getAlignment p .vbr) = 0 := by
    have halign : getAlignment p .vbr = 512 := h.sector
    rw [halign]
    decide
  rw [create, objects, forObjects, hstart]
  refine Keeps.after (I := InWorld fun t => writeRequest (superBlock p) 512 0 ∈ t.requests) ?_ fun _ =>
    Keeps.ite (keeps_pure _)
      (keeps_forObjects p (keeps_createObject (fun _ _ _ => hI.ioWrite _ _ _ _) p hI.malloc upcaseTable) _ _)
  exact vbrWrite_boot hP

/-- A volume that is not refused gets its boot sector. -/
theorem usbScsiFormatExfat_boot_made (hP : Obliging P) (hfuel : 4294967296 ≤ fuel) {clusterSize usable : ℕ}
    (hcs : clusterSize < 2 ^ 32) (husable : usable ≤ 2 ^ 32) (h : ¬ExfatRefused clusterSize usable)
    (upcaseTable : Buf)
    (label : List ℕ) {w : World δ} (hw : Framed w) (hall : usbScsiGetUsableSectors w.drv = usable) :
    ∃ serial, writeRequest (superBlock (params usable (chosenBits clusterSize usable) serial label)) 512 0 ∈
      (usbScsiFormatExfat P fuel upcaseTable clusterSize label w).2.requests := by
  refine ⟨(P.rand w.dev).1, wp_state (I := fun t : World δ => writeRequest _ 512 0 ∈ t.requests) ?_⟩
  have hmalloc : ∀ d, (P.malloc d).1 = true := hP.malloc
  obtain ⟨hne, hcheck⟩ := not_refused_params h (P.rand w.dev).1 label
  rw [usbScsiFormatExfat, wp_bind, wp_globals, hall]
  dsimp only
  rw [setupSpcBits_eq hcs husable (by omega)]
  dsimp only
  rw [wp_bind, wp_rand, wp_bind, wp_malloc, hmalloc, if_pos rfl, wp_alongside]
  exact mkfs_boot hP hfuel (sectored_params _ _ _ _) hne hcheck upcaseTable ⟨⟨hw.size, hw.offset⟩, 0, rfl⟩

end ExfatRuns

end FormatStick
