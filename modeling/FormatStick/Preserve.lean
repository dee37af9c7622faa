import FormatStick.Success
import FormatStick.Extent

/-!
# What the later stages leave of a GPT

The table at the start of the disk lies before the partition. The backup at its end is
kept as long as the head that is wiped ends before it: the FAT formatter stays inside a
volume that is larger than that head.
-/
namespace FormatStick
open Splice WriteBack Fields

/-- The stages of a session between the partition table and an engine: the FAT formatter is
one of them, an engine of another file system is not. -/
def afterTable {δ : Type} (P : Platform δ) (fuel : ℕ) (clusterSize fsType : ℤ) : Prog (World δ) Unit := do
  let _ ← usbScsiWipePartitionHead P fuel fsType
  if fsType = 0 ∨ 4 ≤ fsType ∧ fsType ≤ 10 then pure ()
  else do
    let _ ← usbScsiFormatFat P fuel fsType (u32 clusterSize) usbDisk
    pure ()

/-- What these stages have done, or done so far. -/
inductive AfterTable (fuel : ℕ) (clusterSize fsType : ℤ) (w : World Stick) : World Stick → Prop
  /-- cut while wiping -/
  | wiping {t : World Stick} : WipedSoFar fsType w t → fuel ≤ 262144 → AfterTable fuel clusterSize fsType w t
  /-- all wiped -/
  | formatting {u t : World Stick} : Wiped fsType w u →
      Wrote (FatWrite fsType (u32 clusterSize) usbDisk u) u t → AfterTable fuel clusterSize fsType w t

section Table

variable {clusterSize partitionType fsType : ℤ} {w w₁ w₂ t : World Stick} {part fuel : ℕ}

theorem wp_afterTable (hw : Resting w) (hp : Prepared clusterSize partitionType fsType w part w₁)
    (ht : Partitioned partitionType fsType part w₁ w₂) (fuel : ℕ) :
    Prog.wp (afterTable stick fuel clusterSize fsType) (fun _ t => AfterTable fuel clusterSize fsType w₂ t)
      (AfterTable fuel clusterSize fsType w₂) w₂ := by
  rw [afterTable, Prog.wp_bind]
  refine Prog.wp_mono (wp_usbScsiWipePartitionHead ht.wrote.ready (ht.offset ▸ driveStart_le _)
    fuel fsType) ?_
    fun t h => .wiping h.1 h.2
  intro _ u hu
  have hwin : Windowed clusterSize partitionType fsType w part w₁ w₂ u := ⟨hp, ht, hu⟩
  refine Prog.wp_ite (fun _ => .formatting hu (Wrote.refl hwin.ready)) fun _ => ?_
  rw [Prog.wp_bind]
  refine Prog.wp_mono (hwin.formatFat hw fuel) ?_ fun t h => .formatting hu h.1.wrote
  intro _ t h
  exact .formatting hu h.soFar.wrote

/-- A partition table lies before block 34 and in the last 33 blocks. -/
theorem partitionTable_bounds (hp : Prepared clusterSize partitionType fsType w part w₁) (hw : Resting w)
    (hn : 67 ≤ sessionSectors w) {x : ℕ × Buf} (hx : x ∈ partitionTable partitionType fsType part w₁) :
    x.1 < 34 ∨ sessionSectors w - 33 ≤ x.1 := by
  have hlast : sessionSectors w ≤ 4294967296 := hw.count
  rw [partitionTable, List.mem_append] at hx
  rcases hx with hx | hx
  · exact .inl (primaryTable_lt hx).1
  · split_ifs at hx
    · rw [hp.count] at hx
      exact .inr (GptTable.secondary_bounds _ hn hlast x hx).1
    · exact absurd hx List.not_mem_nil

/-- The writes of the later stages lie between the tables. -/
theorem AfterTable.keeps (h : AfterTable fuel clusterSize fsType w₂ t) (hw : Resting w)
    (hp : Prepared clusterSize 2 fsType w part w₁) (ht : Partitioned 2 fsType part w₁ w₂)
    (hroom : 4096 + wipeSize fsType / 512 + 33 ≤ sessionSectors w) {x : ℕ × Buf}
    (hx : x ∈ partitionTable 2 fsType part w₁) (hold : HoldsSector w₂.dev.medium x) :
    HoldsSector t.dev.medium x := by
  have hlast : sessionSectors w ≤ 4294967296 := hw.count
  obtain ⟨hlo, -, hdvd⟩ := wipeSize_bounds fsType
  have hbounds := partitionTable_bounds hp hw (by omega) hx
  have hempty₂ : w₂.drv.gCacheSectors = 0 := ht.empty hp.empty
  have hoff₂ : w₂.drv.gDriveOffsetSectors = 4096 := ht.offset
  -- the wiped head
  have hwiped : ∀ {u}, WipedSoFar fsType w₂ u → HoldsSector u.dev.medium x := by
    intro u hu
    refine hold.wrote hempty₂ hu.wrote ?_
    rintro v ⟨q, ⟨i, hi, rfl⟩, rfl⟩
    change i * 262144 + w₂.drv.gDriveOffsetSectors * 512 + 262144 ≤ x.1 * 512 ∨
      x.1 * 512 + 512 ≤ i * 262144 + w₂.drv.gDriveOffsetSectors * 512
    omega
  cases h with
  | wiping h _ => exact hwiped h
  | formatting hu hfat =>
    have hwin : Windowed clusterSize 2 fsType w part w₁ w₂ _ := ⟨hp, ht, hu⟩
    obtain ⟨-, hoff, htype, -, hempty⟩ := hwin.globals
    obtain ⟨husable, -⟩ := hwin.usable hw
    have hvolume : sessionUsable (sessionSectors w) 2 + 4129 = sessionSectors w := by
      rw [sessionUsable, if_pos rfl, driveStart, if_pos (.inr rfl)]
      omega
    refine (hwiped hu.soFar).wrote hempty hfat fun v hv => ?_
    cases hv with
    | typed v h₁ _ => exact absurd (htype.symm.trans h₁) (by decide)
    | request q hq =>
      have hend := hq.inside (by omega) (by omega)
      change q.offset.toNat + _ * 512 + q.count.toNat ≤ x.1 * 512 ∨ x.1 * 512 + 512 ≤ q.offset.toNat + _ * 512
      rw [hoff, driveStart, if_pos (.inr rfl)]
      omega

theorem fatBootSector_jump (fatType : ℤ) (clusterSize offset usable serial : ℕ) (label : List UInt8) :
    fatBootSector fatType clusterSize offset usable serial label 0 = 0xEB := by
  have hshared : fatBiosParameters fatType clusterSize offset usable 0 = 0xEB := by
    have hjump : ∀ x : UInt8, put zeros 0 [0xEB, x, 0x90] (0 + 0) = [0xEB, x, 0x90].getD 0 0 := fun x =>
      put_at (by simp)
    rw [fatBiosParameters]
    split_ifs <;> simp (disch := decide) only [put_of_lt] <;> exact hjump _
  rw [fatBootSector]
  split_ifs <;> simp (disch := decide) only [put_of_lt] <;> exact hshared

/-- The requests of the FAT formatter are for whole sectors, and each of these starts with a zero
or a byte of one of the structures. -/
theorem FatRequest.starts {fatType : ℤ} {fatSize clusterSize offset usable serial : ℕ} {label : List UInt8}
    {q : Request}
    (h : FatRequest fatType fatSize (fatBootSector fatType clusterSize offset usable serial label) q) :
    512 ∣ q.offset.toNat ∧ ∀ i < q.count.toNat, 512 ∣ i → q.buf i ∈ [0, 0xEB, 0x52, 0xF8] := by
  have hchunk : ∀ {base size start}, 512 ∣ base → ChunkRequest base size start q →
      512 ∣ q.offset.toNat ∧ ∀ i < q.count.toNat, 512 ∣ i → q.buf i ∈ [0, 0xEB, 0x52, 0xF8] := by
    rintro base size start hbase ⟨j, hj, -, -, rfl⟩
    refine ⟨?_, fun i _ _ => List.mem_cons_self⟩
    exact dvd_u32 (x := (base : ℤ) + j) (by decide) (by omega)
  have hfirst : ∀ b : Buf, b 0 ∈ [0, 0xEB, 0x52, 0xF8] → ∀ i < 512, 512 ∣ i →
      b i ∈ [0, 0xEB, 0x52, 0xF8] := by
    intro b hb i hi hdvd
    obtain rfl : i = 0 := by omega
    exact hb
  have hboot : ∀ i < 512, 512 ∣ i →
      fatBootSector fatType clusterSize offset usable serial label i ∈ [0, 0xEB, 0x52, 0xF8] := by
    refine hfirst _ ?_
    rw [fatBootSector_jump]
    decide
  cases h with
  | boot => exact ⟨Nat.dvd_zero 512, hboot⟩
  | backup _ => exact ⟨show 512 ∣ 3072 by decide, hboot⟩
  | fsInfo _ => exact ⟨show 512 ∣ 512 by decide, hfirst _ (by decide)⟩
  | first f _ =>
    refine ⟨fatOffset_dvd _ _ _, fun i _ hdvd => ?_⟩
    change fatFirstChunk fatType i ∈ _
    by_cases hi : i = 0
    · rw [hi, fatFirstChunk]
      split_ifs <;> decide
    · have hzero : fatFirstChunk fatType i = 0 := by
        rw [fatFirstChunk]
        split_ifs
        · exact put_of_ge (by simp; omega)
        · exact put_of_ge (by simp; omega)
        · exact put_of_ge (by simp; omega)
      rw [hzero]
      exact List.mem_cons_self
  | rest f _ _ hq => exact hchunk (fatOffset_dvd _ _ _) hq
  | root _ _ hq => exact hchunk (fatOffset_dvd _ _ _) hq

/-- The first byte of an entry array, where a wiped or formatted sector has another. -/
theorem gptEntries_starts (fsType : ℤ) (guid : List UInt8) (pEndLba : ℕ) :
    gptEntries fsType guid pEndLba 0 ∉ [0, 0xEB, 0x52, 0xF8] := by
  have htype : gptEntries fsType guid pEndLba 0 = (typeGuid fsType).getD 0 0 := by
    have hfirst : put zeros 0 (typeGuid fsType) (0 + 0) = (typeGuid fsType).getD 0 0 := by
      refine put_at ?_
      rw [typeGuid]
      split_ifs <;> decide
    rw [gptEntries]
    simp (disch := decide) only [put_of_lt]
    exact hfirst
  rw [htype, typeGuid]
  split_ifs <;> decide

/-- Sector `n - 33` of a disk of `n` sectors holds the first of the backup entries. -/
theorem partitionTable_backup (hp : Prepared clusterSize 2 fsType w part w₁) (hw : Resting w) :
    ∃ x ∈ partitionTable 2 fsType part w₁, x.1 = sessionSectors w - 33 ∧ x.2 0 ∉ [0, 0xEB, 0x52, 0xF8] := by
  have hlast : sessionSectors w ≤ 4294967296 := hw.count
  have hfits : 4096 + 34 < sessionSectors w := hp.fits
  have h₃₃ : u64 ((sessionSectors w : ℤ) - 33) = sessionSectors w - 33 := by
    unfold u64
    omega
  refine ⟨(sessionSectors w - 33 + 0, window (rolledTable w₁ part fsType).entries (0 * 512)), ?_, rfl, ?_⟩
  · rw [partitionTable, if_pos rfl, GptTable.secondary, hp.count, h₃₃]
    refine List.mem_append_right _ (List.mem_append_left _ ?_)
    exact (mem_entrySectors (by omega) _ _).mpr ⟨0, by decide, rfl⟩
  · exact gptEntries_starts fsType (rolled w₁.dev.spec (w₁.dev.rolls + 4) 16)
      (gptPartitionEnd w₁.drv.gSectorCount part)

/-- A head that reaches the backup entries takes them away, whatever the formatter writes over it. -/
theorem AfterTable.loses (h : AfterTable fuel clusterSize fsType w₂ t) (hfuel : 4294967296 ≤ fuel)
    (hw : Resting w)
    (hf : Faultless w.dev.spec) (hp : Prepared clusterSize 2 fsType w part w₁)
    (ht : Partitioned 2 fsType part w₁ w₂) (hroom : sessionSectors w < 4096 + wipeSize fsType / 512 + 33) :
    ∃ x ∈ partitionTable 2 fsType part w₁, x.1 ≠ 0 ∧ ¬HoldsSector t.dev.medium x := by
  have hfits : 4096 + 34 < sessionSectors w := hp.fits
  obtain ⟨x, hx, hlba, hstart⟩ := partitionTable_backup hp hw
  refine ⟨x, hx, by omega, ?_⟩
  have hspec : w₂.dev.spec = w.dev.spec := ht.wrote.spec.trans hp.wrote.spec
  cases h with
  | wiping _ hcut => omega
  | formatting hu hfat =>
    have hwin : Windowed clusterSize 2 fsType w part w₁ w₂ _ := ⟨hp, ht, hu⟩
    obtain ⟨-, -, htype, -, hempty⟩ := hwin.globals
    have hoff₂ : w₂.drv.gDriveOffsetSectors = 4096 := ht.offset
    have hsat := hfat.sat (fun a b => a = x.1 * 512 → b ∈ [0, 0xEB, 0x52, 0xF8]) ⟨?_, ?_⟩ ?_
    · intro hold
      refine hstart ?_
      rw [← hold 0 (by decide), Nat.add_zero]
      exact hsat.medium (x.1 * 512) rfl
    · rintro a rfl
      have hzero := hu.cleared (hspec ▸ hf) (x.1 * 512 - 4096 * 512) (by omega)
      rw [hoff₂, Nat.add_sub_of_le (by omega)] at hzero
      rw [show (store _).medium (x.1 * 512) = 0 from hzero]
      exact List.mem_cons_self
    · intro i hi
      change i < _ * 512 at hi
      rw [hempty] at hi
      omega
    · intro v hv i hi ha
      cases hv with
      | typed v h₁ _ => exact absurd (htype.symm.trans h₁) (by decide)
      | request q hq =>
        obtain ⟨hdvd, hstarts⟩ := hq.starts
        change q.offset.toNat + _ * 512 + i = _ at ha
        exact hstarts i hi (by omega)

end Table

/-- A faultless session with a GPT gets to the stages after its table, with the table on the medium. -/
theorem tabled {w : World Stick} (hw : Resting w) (hf : Faultless w.dev.spec) (ha : Attached w.dev.spec)
    (clusterSize fsType : ℤ) (haccept : alignedOffset 2 + reservedEnd 2 < sessionSectors w) (fd : ℤ) :
    ∃ part w₁ w₂, prepare stick fd clusterSize 2 fsType w = (some (some part), w₁) ∧
      createPartition stick 2 fsType part w₁ = (some (), w₂) ∧
      Prepared clusterSize 2 fsType w part w₁ ∧ Partitioned 2 fsType part w₁ w₂ ∧
      ∀ x ∈ partitionTable 2 fsType part w₁, HoldsSector w₂.dev.medium x := by
  obtain ⟨r, w₁, h₁, hprep⟩ :=
    Prog.wp_returns_of (wp_prepare hw fd clusterSize 2 fsType) fun t ht => ht.2.2 hf
  rcases r with _ | part
  · have := hprep.2 hf ha
    omega
  have hp : Prepared clusterSize 2 fsType w part w₁ := hprep
  obtain ⟨⟨⟩, w₂, h₂, ht⟩ := Prog.wp_returns (hp.createPartition hw)
  exact ⟨part, w₁, w₂, h₁, h₂, hp, ht, ht.full hp.empty (ht.wrote.confirmed (hp.wrote.spec ▸ hf))⟩

/-- After the table of a faultless session come stages that keep every header and entry of its GPT
if and only if the backup lies behind the head that they wipe. -/
theorem afterTable_preserves {w : World Stick} (hw : Resting w) (hf : Faultless w.dev.spec)
    (ha : Attached w.dev.spec)
    (clusterSize fsType : ℤ) (haccept : alignedOffset 2 + reservedEnd 2 < w.dev.spec.sectors) {fuel : ℕ}
    (hfuel : 4294967296 ≤ fuel) (fd : ℤ) :
    ∃ part w₁ w₂, prepare stick fd clusterSize 2 fsType w = (some (some part), w₁) ∧
      createPartition stick 2 fsType part w₁ = (some (), w₂) ∧
      (∀ x ∈ partitionTable 2 fsType part w₁, HoldsSector w₂.dev.medium x) ∧
      ((∀ x ∈ partitionTable 2 fsType part w₁, x.1 ≠ 0 →
          HoldsSector (afterTable stick fuel clusterSize fsType w₂).2.dev.medium x) ↔
        4096 + wipeSize fsType / 512 + 33 ≤ w.dev.spec.sectors) := by
  rw [← sessionSectors_eq hw hf ha] at haccept ⊢
  obtain ⟨part, w₁, w₂, h₁, h₂, hp, ht, hfull⟩ := tabled hw hf ha clusterSize fsType haccept fd
  have hafter := Prog.wp_state (wp_afterTable hw hp ht fuel)
  refine ⟨part, w₁, w₂, h₁, h₂, hfull, fun hkept => ?_, fun hroom x hx _ => ?_⟩
  · by_contra hroom
    obtain ⟨x, hx, hne, hlost⟩ := hafter.loses hfuel hw hf hp ht (by omega)
    exact hlost (hkept x hx hne)
  · exact hafter.keeps hw hp ht hroom hx (hfull x hx)

/-- A FAT32 volume on a stick of 512 MB. -/
theorem afterTable_preserves_512MB :
    ∃ part w₁ w₂, prepare stick 0 4096 2 1 (onesSession 1048576) = (some (some part), w₁) ∧
      createPartition stick 2 1 part w₁ = (some (), w₂) ∧
      ∀ x ∈ partitionTable 2 1 part w₁, x.1 ≠ 0 →
        HoldsSector (afterTable stick 4294967296 4096 1 w₂).2.dev.medium x := by
  obtain ⟨part, w₁, w₂, h₁, h₂, -, h⟩ := afterTable_preserves (onesSession_resting (n := 1048576) (by decide))
    (onesSession_faultless _) (onesSession_attached _) 4096 1 (by decide) (Nat.le_refl 4294967296) 0
  exact ⟨part, w₁, w₂, h₁, h₂, h.mpr (by decide)⟩

/-- On a stick of 32 MB the wiping takes the backup that was written a moment before. -/
theorem afterTable_backupLost :
    ∃ part w₁ w₂, prepare stick 0 4096 2 1 (onesSession 65536) = (some (some part), w₁) ∧
      createPartition stick 2 1 part w₁ = (some (), w₂) ∧
      ∃ x ∈ partitionTable 2 1 part w₁, x.1 ≠ 0 ∧ HoldsSector w₂.dev.medium x ∧
        ¬HoldsSector (afterTable stick 4294967296 4096 1 w₂).2.dev.medium x := by
  have hw : Resting (onesSession 65536) := onesSession_resting (by decide)
  have hn : sessionSectors (onesSession 65536) = 65536 := onesSession_sectors (by decide) (by decide)
  obtain ⟨part, w₁, w₂, h₁, h₂, hp, ht, hfull⟩ :=
    tabled hw (onesSession_faultless _) (onesSession_attached _) 4096 1
    (by rw [hn]; decide) 0
  have hafter := Prog.wp_state (wp_afterTable hw hp ht 4294967296)
  obtain ⟨x, hx, hne, hlost⟩ :=
    hafter.loses (Nat.le_refl _) hw (onesSession_faultless _) hp ht (by rw [hn]; decide)
  exact ⟨part, w₁, w₂, h₁, h₂, x, hx, hne, hfull x hx, hlost⟩

end FormatStick
