import FormatStick.FatSession

/-!
# Where the writes of a FAT session go

No write leaves a stick that has room for the 32 MB that are wiped at the head of the
partition. On a smaller one that passes the size check, the wiping runs past the end.
-/
namespace FormatStick
open Splice WriteBack

theorem wipeSize_fat {fsType : ℤ} (h : fsType = 1 ∨ fsType = 2 ∨ fsType = 3) :
    wipeSize fsType = 33554432 := by
  rw [wipeSize, if_neg (by omega)]

theorem partitionTable_lt {partitionType fsType : ℤ} {part : ℕ} {w : World Stick} {x : ℕ × Buf}
    (hpos : 67 ≤ w.drv.gSectorCount) (hn : w.drv.gSectorCount ≤ 4294967296)
    (hx : x ∈ partitionTable partitionType fsType part w) : x.1 < w.drv.gSectorCount := by
  rw [partitionTable, primaryTable] at hx
  rcases List.mem_append.mp hx with hx | hx
  · split_ifs at hx
    · rw [List.mem_singleton.mp hx]
      change 0 < w.drv.gSectorCount
      omega
    · have := GptTable.primary_lt _ x hx
      omega
    · exact absurd hx List.not_mem_nil
  · split_ifs at hx
    · exact (GptTable.secondary_bounds _ hpos hn x hx).2
    · exact absurd hx List.not_mem_nil

section Below

variable {clusterSize partitionType fsType : ℤ} {w w₁ w₂ w₃ t : World Stick} {part : ℕ}

theorem clearWrite_below {n : ℕ} (hn : 2048 ≤ n) {v : Write UInt8} (h : ClearWrite n v) :
    v.addr + v.len ≤ n * 512 := by
  rcases h with ⟨i, hi, rfl⟩ | ⟨lba, -, hlt, rfl⟩
  · change 128 * i * 512 + 128 * 512 ≤ n * 512
    omega
  · change lba * 512 + 1 * 512 ≤ n * 512
    omega

/-- Up to the partition table, every write is one of a sector of the stick. -/
theorem Partitioned.below (h : Partitioned partitionType fsType part w₁ w₂)
    (hp : Prepared clusterSize partitionType fsType w part w₁) (hw : Resting w)
    (hn : 65536 ≤ sessionSectors w) : Below w.trace.length (sessionSectors w) w₂ := by
  have hlast : sessionSectors w ≤ 4294967296 := hw.count
  have h₁ : Below w.trace.length (sessionSectors w) w₁ :=
    hp.wrote.below _ (Below.start hw.empty _) fun v hv => clearWrite_below (by omega) hv
  refine h.wrote.below _ h₁ fun v hv => ?_
  obtain ⟨x, hx, rfl⟩ := List.mem_map.mp hv
  have := partitionTable_lt (by rw [hp.count]; omega) (by rw [hp.count]; exact hlast) hx
  rw [hp.count] at this
  change x.1 * 512 + 1 * 512 ≤ _
  omega

theorem WipedSoFar.below (h : WipedSoFar fsType w₂ t) (hfs : fsType = 1 ∨ fsType = 2 ∨ fsType = 3) {k n : ℕ}
    (hb : Below k n w₂) (hn : w₂.drv.gDriveOffsetSectors + 65536 ≤ n) : Below k n t := by
  refine h.wrote.below _ hb ?_
  rintro v ⟨q, ⟨i, hi, rfl⟩, rfl⟩
  rw [wipeSize_fat hfs] at hi
  change i * 262144 + w₂.drv.gDriveOffsetSectors * 512 + 262144 ≤ n * 512
  omega

theorem FatSoFar.below {c : ℕ} (h : FatSoFar fsType c usbDisk w₃ t) {k n : ℕ} (hb : Below k n w₃)
    (hn : w₃.drv.gDriveOffsetSectors + fatUsable w₃ ≤ n) (hu : 65503 ≤ fatUsable w₃) (hlt : n ≤ 4294967296) :
    Below k n t := by
  refine h.wrote.below _ hb fun v hv => ?_
  cases hv with
  | typed v _ hv =>
    rw [hv.addr, hv.len]
    omega
  | request q hq =>
    have hin := hq.inside hu (by omega)
    change q.offset.toNat + w₃.drv.gDriveOffsetSectors * 512 + q.count.toNat ≤ n * 512
    omega

end Below

theorem FatSessionAt.below {fuel : ℕ} {clusterSize partitionType fsType : ℤ} {w t : World Stick}
    (h : FatSessionAt fuel clusterSize partitionType fsType w t) (hw : Resting w)
    (hfs : fsType = 1 ∨ fsType = 2 ∨ fsType = 3) (hn : driveStart partitionType + 65536 ≤ sessionSectors w) :
    Below w.trace.length (sessionSectors w) t := by
  have hlast : sessionSectors w ≤ 4294967296 := hw.count
  cases h with
  | clearing ht _ _ =>
    rcases ht with rfl | ht
    · exact Below.start hw.empty _
    · exact ht.below _ (Below.start hw.empty _) fun v hv => clearWrite_below (by omega) hv
  | wiping h₁ h₂ h₃ _ =>
    exact h₃.below hfs (h₂.below h₁ hw (by omega)) (by rw [h₂.offset]; exact hn)
  | formatting hwin hfat _ hsync =>
    have hoff := hwin.globals.2.1
    have h₂ := hwin.partitioned.below hwin.prepared hw (by omega)
    have h₃ := hwin.wiped.soFar.below hfs h₂ (by rw [hwin.partitioned.offset]; exact hn)
    have hu : fatUsable _ = _ := (hwin.usable hw).1
    have hbounds : 65503 ≤ sessionUsable (sessionSectors w) partitionType ∧
        driveStart partitionType + sessionUsable (sessionSectors w) partitionType ≤ sessionSectors w := by
      unfold sessionUsable
      split_ifs <;> omega
    have h₄ := hfat.below h₃ (by rw [hu, hoff]; exact hbounds.2) (by rw [hu]; exact hbounds.1) hlast
    exact hsync.below _ h₄ fun _ hv => hv.elim

/-- A stick of ones with `n` sectors that does all it is told. -/
def onesSession (n : ℕ) : World Stick :=
  { drv := {}
    dev := { spec := { fate := fun _ => .done, lastLba := n - 1,
                       config := some [⟨0x08, [(0x02, 0x81), (0x02, 0x02)]⟩] },
             medium := fun _ => 1 }
    trace := []
    requests := []
    accesses := [] }

theorem onesSession_trace (n : ℕ) : (onesSession n).trace = [] := rfl

theorem onesSession_resting {n : ℕ} (hn : n ≤ 4294967296) : Resting (onesSession n) :=
  Idle.resting ⟨rfl, rfl, rfl⟩ (by change n - 1 < 4294967296; omega) (Nat.zero_le _)

theorem onesSession_faultless (n : ℕ) : Faultless (onesSession n).dev.spec := ⟨fun _ => rfl, fun _ => rfl⟩

theorem onesSession_attached (n : ℕ) : Attached (onesSession n).dev.spec := by
  refine ⟨rfl, _, rfl, ?_, ?_⟩ <;> decide

theorem onesSession_sectors {n : ℕ} (hpos : 0 < n) (hn : n ≤ 4294967296) :
    sessionSectors (onesSession n) = n := by
  rw [sessionSectors_eq (onesSession_resting hn) (onesSession_faultless n) (onesSession_attached n)]
  exact Nat.sub_add_cancel hpos

/-- A stick of ones that was wiped up to a byte was written there. -/
theorem Windowed.wrote_end {clusterSize partitionType fsType : ℤ} {n part : ℕ} {w₁ w₂ w₃ : World Stick}
    (h : Windowed clusterSize partitionType fsType (onesSession n) part w₁ w₂ w₃) {i : ℕ}
    (hi : i < wipeSize fsType) :
    ∃ e ∈ w₃.trace, e.cmd.opcode = 0x2a ∧
      driveStart partitionType * 512 + i < (e.cmd.lba + e.cmd.blocks) * 512 := by
  have hall : Wrote (fun _ => True) (onesSession n) w₃ :=
    ((h.prepared.wrote.mono fun _ _ => trivial).trans (h.partitioned.wrote.mono fun _ _ => trivial)).trans
      (h.wiped.soFar.wrote.mono fun _ _ => trivial)
  have hspec : w₂.dev.spec = (onesSession n).dev.spec := h.partitioned.wrote.spec.trans h.prepared.wrote.spec
  have hzero := h.wiped.cleared (hspec ▸ onesSession_faultless n) i hi
  rw [h.partitioned.offset] at hzero
  obtain ⟨e, he, hop, -, hlt⟩ := hall.changes (driveStart partitionType * 512 + i) (by
    rw [hzero]
    exact show (0 : UInt8) ≠ 1 by decide)
  exact ⟨e, he, hop, hlt⟩

/-- A session that is not rejected writes the last sector of the wiped head, wherever that is. -/
theorem onesSession_writes {n : ℕ} (clusterSize : ℤ) {partitionType fsType : ℤ}
    (hfs : fsType = 1 ∨ fsType = 2 ∨ fsType = 3) (hn : n ≤ 4294967296)
    (haccept : alignedOffset partitionType + reservedEnd partitionType < n)
    (engine : ℕ → Prog (World Stick) ℤ) (fd : ℤ) :
    ∃ e ∈
      (startStableFormat stick 4294967296 engine fd clusterSize partitionType fsType (onesSession n)).2.trace,
      e.cmd.opcode = 0x2a ∧ driveStart partitionType + 65536 ≤ e.cmd.lba + e.cmd.blocks := by
  have hat := Prog.wp_state
    (wp_startStableFormat (onesSession_resting hn) clusterSize partitionType hfs 4294967296 engine
    fd)
  generalize (startStableFormat stick 4294967296 engine fd clusterSize partitionType fsType
    (onesSession n)).2 = t at hat ⊢
  cases hat with
  | clearing _ _ hsmall =>
    have hle := hsmall (onesSession_faultless n) (onesSession_attached n)
    rw [onesSession_sectors (by omega) hn] at hle
    omega
  | wiping _ _ _ hfuel => omega
  | formatting hwin hfat hframe _ =>
    obtain ⟨e, he, hop, hlt⟩ := hwin.wrote_end (i := 33554431) (by rw [wipeSize_fat hfs]; decide)
    exact ⟨e, hframe.trace.subset (hfat.wrote.trace.subset he), hop, by omega⟩

/-- Every WRITE(10) of a FAT session that goes by `n` sectors stays on the stick, whatever fails and
whatever the process did before, if and only if there is room for the wiped head of the partition. -/
theorem startStableFormat_extent {n : ℕ} {clusterSize partitionType fsType : ℤ}
    (hfs : fsType = 1 ∨ fsType = 2 ∨ fsType = 3) (hn : n ≤ 4294967296)
    (haccept : alignedOffset partitionType + reservedEnd partitionType < n) :
    (∀ w, Resting w → sessionSectors w = n → ∀ fuel engine fd,
      ∀ e ∈ (startStableFormat stick fuel engine fd clusterSize partitionType fsType w).2.trace.drop
          w.trace.length,
        e.cmd.opcode = 0x2a → e.cmd.lba + e.cmd.blocks ≤ n) ↔
      driveStart partitionType + 65536 ≤ n := by
  constructor
  · intro h
    have hsectors := onesSession_sectors (show 0 < n by omega) hn
    obtain ⟨e, he, hop, hle⟩ := onesSession_writes clusterSize hfs hn haccept (fun _ => pure 0) 0
    refine Nat.le_trans hle (h _ (onesSession_resting hn) hsectors 4294967296 (fun _ => pure 0) 0 e ?_ hop)
    rw [onesSession_trace, List.length_nil, List.drop_zero]
    exact he
  · rintro h w hw rfl fuel engine fd e he hop
    have hat := Prog.wp_state (wp_startStableFormat hw clusterSize partitionType hfs fuel engine fd)
    exact (hat.below hw hfs h).sent e he hop

/-- A stick of 512 MB with an MBR. -/
theorem startStableFormat_extent_512MB :
    Resting (onesSession 1048576) ∧
      ∀ e ∈ (startStableFormat stick 4294967296 (fun _ => pure 0) 0 4096 1 1 (onesSession 1048576)).2.trace,
        e.cmd.opcode = 0x2a → e.cmd.lba + e.cmd.blocks ≤ 1048576 := by
  have hrest : Resting (onesSession 1048576) := onesSession_resting (by decide)
  have hn := onesSession_sectors (n := 1048576) (by decide) (by decide)
  have haccept : alignedOffset 1 + reservedEnd 1 < 1048576 := by decide
  have hroom : driveStart 1 + 65536 ≤ 1048576 := by decide
  have hfs : (1 : ℤ) = 1 ∨ (1 : ℤ) = 2 ∨ (1 : ℤ) = 3 := .inl rfl
  have h := (@startStableFormat_extent 1048576 4096 1 1 hfs (by decide) haccept).mpr hroom _ hrest
    hn 4294967296
    (fun _ => pure 0) 0
  rw [onesSession_trace, List.length_nil, List.drop_zero] at h
  exact ⟨hrest, h⟩

/-- A stick of 5000 sectors passes the size check for an MBR and is written far past its end. -/
theorem startStableFormat_overrun :
    ∃ e ∈ (startStableFormat stick 4294967296 (fun _ => pure 0) 0 4096 1 1 (onesSession 5000)).2.trace,
      e.cmd.opcode = 0x2a ∧ ¬e.cmd.lba + e.cmd.blocks ≤ 5000 := by
  have haccept : alignedOffset 1 + reservedEnd 1 < 5000 := by decide
  have hfs : (1 : ℤ) = 1 ∨ (1 : ℤ) = 2 ∨ (1 : ℤ) = 3 := .inl rfl
  obtain ⟨e, he, hop, hle⟩ := onesSession_writes 4096 hfs (by decide) haccept (fun _ => pure 0) 0
  have hstart : driveStart 1 = 4096 := rfl
  exact ⟨e, he, hop, by omega⟩

end FormatStick
