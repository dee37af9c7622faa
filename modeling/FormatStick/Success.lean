import FormatStick.FatSession

/-!
# What a reported success is worth

A FAT session that returns `JNI_TRUE` has its partition table and everything the FAT
formatter asked for on the medium, unless a write of the table or a flush of the cache
under the formatter failed: these are the failures that do not reach the result.
-/
namespace FormatStick
open Splice WriteBack Fields

/-- What a success promises: the primary partition table encoded in `w₁`, and every byte the
formatter asked for between `w₃` and `w₄` with its last content. -/
structure Realised (partitionType fsType : ℤ) (part : ℕ) (w₁ w₃ w₄ t : World Stick) : Prop where
  table : ∀ x ∈ primaryTable partitionType fsType part w₁, HoldsSector t.dev.medium x
  content : ∃ rs, w₄.requests = w₃.requests ++ rs ∧ (∀ q ∈ rs, q.isWrite = true) ∧
    ∀ q ∈ rs, ∀ a, (q.write w₃.drv.gDriveOffsetSectors).addr ≤ a →
      a < (q.write w₃.drv.gDriveOffsetSectors).addr + (q.write w₃.drv.gDriveOffsetSectors).len →
      t.dev.medium a = writeAll zeros (rs.map (Request.write w₃.drv.gDriveOffsetSectors)) a

theorem FatRequest.isWrite {fatType : ℤ} {fatSize : ℕ} {bs : Buf} {q : Request}
    (h : FatRequest fatType fatSize bs q) : q.isWrite = true := by
  cases h with
  | boot => rfl
  | backup _ => rfl
  | fsInfo _ => rfl
  | first _ _ => rfl
  | rest _ _ _ hq =>
    obtain ⟨j, -, -, -, rfl⟩ := hq.chunk
    rfl
  | root _ _ hq =>
    obtain ⟨j, -, -, -, rfl⟩ := hq.chunk
    rfl

theorem mbrSector_type (type : UInt8) (numSectors : ℕ) : mbrSector type numSectors 450 = type := by
  have hbyte : put zeros 446 [0x80, 0, 0, 0, type, 0, 0, 0] (446 + 4) =
      [0x80, 0, 0, 0, type, 0, 0, 0].getD 4 0 :=
    put_at (by simp)
  rw [mbrSector, put_of_lt (by decide), put_of_lt (by decide), put_of_lt (by decide)]
  exact hbyte

theorem mbrSector_signature (type : UInt8) (numSectors : ℕ) : mbrSector type numSectors 510 = 0x55 := by
  have hbyte : ∀ f : Buf, put f 510 [0x55, 0xAA] (510 + 0) = [0x55, 0xAA].getD 0 0 :=
    fun f => put_at (by decide)
  exact hbyte _

/-- The FAT formatter puts the partition type into an MBR that is already there. -/
theorem fatMbrType_eq {fsType : ℤ} (h : fsType = 1 ∨ fsType = 2 ∨ fsType = 3) (usable : ℕ) :
    fatMbrType fsType 4096 usable = partitionId 1 fsType := by
  rcases h with rfl | rfl | rfl <;> simp [fatMbrType, partitionId]

/-- A session keeps the sectors of a partition table that are outside its partition. -/
theorem Windowed.holds {clusterSize partitionType fsType : ℤ} {w w₁ w₂ w₃ : World Stick} {part : ℕ}
    (h : Windowed clusterSize partitionType fsType w part w₁ w₂ w₃) {x : ℕ × Buf}
    (hx : x.1 < driveStart partitionType) (hold : HoldsSector w₂.dev.medium x) :
      HoldsSector w₃.dev.medium x := by
  refine hold.wrote (h.partitioned.empty h.prepared.empty) h.wiped.soFar.wrote fun v hv => ?_
  obtain ⟨q, ⟨i, -, rfl⟩, rfl⟩ := hv
  right
  rw [h.partitioned.offset]
  change x.1 * 512 + 512 ≤ i * 262144 + driveStart partitionType * 512
  omega

theorem primaryTable_lt {partitionType fsType : ℤ} {part : ℕ} {w : World Stick} {x : ℕ × Buf}
    (hx : x ∈ primaryTable partitionType fsType part w) : x.1 < 34 ∧ driveStart partitionType = 4096 := by
  rw [primaryTable] at hx
  split_ifs at hx with h₁ h₂
  · rw [List.mem_singleton.mp hx, h₁]
    exact ⟨Nat.zero_lt_succ 33, rfl⟩
  · rw [h₂]
    exact ⟨GptTable.primary_lt _ x hx, rfl⟩
  · exact absurd hx List.not_mem_nil

/-- The FAT formatter leaves the partition table as it was encoded. -/
theorem Windowed.formatted_holds {clusterSize partitionType fsType : ℤ}
    {w w₁ w₂ w₃ w₄ : World Stick} {part : ℕ}
    (h : Windowed clusterSize partitionType fsType w part w₁ w₂ w₃)
    (hfs : fsType = 1 ∨ fsType = 2 ∨ fsType = 3) {c : ℕ} (hd : Wrote (FatWrite fsType c usbDisk w₃) w₃ w₄)
    {x : ℕ × Buf} (hx : x ∈ primaryTable partitionType fsType part w₁) (hold : HoldsSector w₃.dev.medium x) :
    HoldsSector w₄.dev.medium x := by
  obtain ⟨-, hoff, htype, -, hempty⟩ := h.globals
  obtain ⟨hlt, hstart⟩ := primaryTable_lt hx
  refine hold.agreed hempty hd fun v hv i hi j hj ha => ?_
  cases hv with
  | typed v hp hv =>
    obtain rfl : partitionType = 1 := htype.symm.trans hp
    obtain rfl : x = (0, mbrIn 1 fsType part w₁) := List.mem_singleton.mp hx
    rw [hv.addr, hv.len] at *
    obtain rfl : i = j := by omega
    have hbyte := hold i hj
    by_cases hi : i = 450
    · rw [hi, hv.typed, hoff, hstart, fatMbrType_eq hfs]
      exact (mbrSector_type _ (mbrNumSectors w₁.drv.gSectorCount part)).symm
    · rw [hv.same i hj hi, ← hbyte, Nat.zero_mul, Nat.zero_add]
  | request q _ =>
    -- the partition starts behind the table
    change q.offset.toNat + w₃.drv.gDriveOffsetSectors * 512 + i = _ at ha
    rw [hoff, hstart] at ha
    omega

/-- Without faults every WRITE(10) of the partition table and of the formatter is confirmed. -/
theorem SessionRun.confirmed {fuel : ℕ} {engine : ℕ → Prog (World Stick) ℤ}
    {fd clusterSize partitionType fsType : ℤ} {w w₁ w₂ w₃ w₄ t : World Stick} {part : ℕ} {formatRes : ℤ}
    (h : SessionRun fuel engine fd clusterSize partitionType fsType w part w₁ w₂ w₃ w₄ formatRes t)
    (hw : Resting w) (hfs : fsType = 1 ∨ fsType = 2 ∨ fsType = 3) (hf : Faultless w.dev.spec) :
    Confirmed w₁ w₂ ∧ Confirmed w₃ t := by
  have hwin := h.windowed hw
  have hformat := h.formatted
  rw [formatStage_fat stick fuel engine clusterSize hfs part] at hformat
  have hfat : FatDone fsType (u32 clusterSize) usbDisk w₃ formatRes w₄ :=
    Prog.wp_run (a := formatRes) (hwin.formatFat hw fuel) hformat
  obtain ⟨r, hr⟩ := h.synced
  have hsync : Synced w₄ r t := Prog.wp_run (a := r) (wp_usbScsiSync hfat.soFar.wrote.ready) hr
  have hall : Wrote (FatWrite fsType (u32 clusterSize) usbDisk w₃) w₃ t :=
    hfat.soFar.wrote.trans (hsync.wrote _)
  exact ⟨hwin.partitioned.wrote.confirmed (hwin.prepared.wrote.spec ▸ hf), hall.confirmed (hwin.spec ▸ hf)⟩

/-- A session that reports success is a success, in every run whose writes of the partition
table below block 34 are confirmed and which loses no flush once the formatter is running. -/
theorem startStableFormat_success {fuel : ℕ} {engine : ℕ → Prog (World Stick) ℤ}
    {fd clusterSize partitionType fsType : ℤ} {w t : World Stick} (hw : Resting w)
    (hfs : fsType = 1 ∨ fsType = 2 ∨ fsType = 3)
    (hrun : startStableFormat stick fuel engine fd clusterSize partitionType fsType w = (some true, t)) :
    ∃ part w₁ w₂ w₃ w₄, SessionRun fuel engine fd clusterSize partitionType fsType w part w₁ w₂ w₃ w₄ 0 t ∧
      (ConfirmedBelow 34 w₁ w₂ → Lossless w₃ t → Realised partitionType fsType part w₁ w₃ w₄ t) := by
  obtain ⟨hb, -⟩ | ⟨part, w₁, w₂, w₃, w₄, formatRes, hb, hsession⟩ := startStableFormat_run hrun
  · exact absurd hb (by decide)
  obtain rfl : formatRes = 0 := of_decide_eq_true hb.symm
  refine ⟨part, w₁, w₂, w₃, w₄, hsession, fun htable hflush => ?_⟩
  have hwin := hsession.windowed hw
  obtain ⟨r, hsync⟩ := hsession.synced
  -- the formatter and the last sync
  have hformat := hsession.formatted
  rw [formatStage_fat stick fuel engine clusterSize hfs part] at hformat
  have hfat : FatDone fsType (u32 clusterSize) usbDisk w₃ 0 w₄ :=
    Prog.wp_run (a := 0) (hwin.formatFat hw fuel) hformat
  have hsynced : Synced w₄ r t := Prog.wp_run (a := r) (wp_usbScsiSync hfat.soFar.wrote.ready) hsync
  have hflush₄ : Lossless w₄ t := hflush.right hfat.soFar.wrote.trace
  have hmedium : t.dev.medium = (store w₄).view := hsynced.settled.medium_eq (not_not_intro hflush₄)
  constructor
  · intro x hx
    have h₂ : HoldsSector w₂.dev.medium x := hwin.partitioned.primary hwin.prepared.empty htable x hx
    obtain ⟨hlt, hstart⟩ := primaryTable_lt hx
    have h₃ : HoldsSector w₃.dev.medium x := hwin.holds (by omega) h₂
    exact hwin.formatted_holds hfs (hfat.soFar.wrote.trans (hsynced.wrote _)) hx h₃
  · obtain hr | ⟨-, u, rs, hu, hland, hrs⟩ := hfat.result
    · exact absurd hr (by decide)
    have hflushu : Lossless u w₄ :=
      (hflush.right hu.wrote.trace).left hland.asked.frame.trace hsynced.frame.trace
    refine ⟨writeRequest (fatBootIn fsType (u32 clusterSize) usbDisk w₃) 512 0 :: rs, ?_, ?_, ?_⟩
    · rw [hland.asked.frame.requests, hu.frame.requests, List.append_nil]
    · intro q hq
      rcases List.mem_cons.mp hq with rfl | hq
      · rfl
      · exact (hrs q hq).isWrite
    · intro q hq a h₁ h₂
      rw [hmedium, hland.view hflushu, hu.frame.driveOffset]
      exact writeAll_congr (.inr ⟨_, List.mem_map_of_mem hq, h₁, h₂⟩)

/-- A blank stick of 70000 sectors that loses its `k`-th command in a transfer. -/
def losingSession (k : ℕ) : World Stick :=
  { drv := {}
    dev := { spec := { fate := fun i => if i = k then .broken else .done, lastLba := 69999,
                       config := some [⟨0x08, [(0x02, 0x81), (0x02, 0x02)]⟩] },
             medium := zeros }
    trace := []
    requests := []
    accesses := [] }

/-- A stick that loses nothing in the session. -/
def soundSession : World Stick := { losingSession 0 with
  dev := { (losingSession 0).dev with spec := { (losingSession 0).dev.spec with fate := fun _ => .done } } }

theorem soundSession_succeeds :
    ∃ t, startStableFormat stick 4 (fun _ => pure 0) 0 4096 1 1 soundSession = (some true, t) :=
  ⟨_, Prog.eq_of_fst (by decide +kernel)⟩

theorem startStableFormat_success_sound :
    ∃ t, startStableFormat stick 4 (fun _ => pure 0) 0 4096 1 1 soundSession = (some true, t) ∧
      ∃ part w₁ w₂ w₃ w₄,
        SessionRun 4 (fun _ => pure 0) 0 4096 1 1 soundSession part w₁ w₂ w₃ w₄ 0 t ∧
        Realised 1 1 part w₁ w₃ w₄ t := by
  have hrest : Resting soundSession := Idle.resting ⟨rfl, rfl, rfl⟩ (by decide) (Nat.zero_le _)
  obtain ⟨t, hrun⟩ := soundSession_succeeds
  obtain ⟨part, w₁, w₂, w₃, w₄, hsession, hkept⟩ := startStableFormat_success hrest (.inl rfl) hrun
  obtain ⟨htable, hformat⟩ := hsession.confirmed hrest (.inl rfl) ⟨fun _ => rfl, fun _ => rfl⟩
  exact ⟨t, hrun, part, w₁, w₂, w₃, w₄, hsession, hkept (htable.below 34) hformat.lossless⟩

/-- The 56th command of this session writes the MBR. It is lost, and the session succeeds. -/
theorem startStableFormat_tableLost :
    ∃ t, startStableFormat stick 4 (fun _ => pure 0) 0 4096 1 1 (losingSession 55) = (some true, t) ∧
      ∃ part w₁ w₂ w₃ w₄,
        SessionRun 4 (fun _ => pure 0) 0 4096 1 1 (losingSession 55) part w₁ w₂ w₃ w₄ 0 t ∧
        ¬Realised 1 1 part w₁ w₃ w₄ t := by
  obtain ⟨t, ht⟩ : ∃ t, t = (startStableFormat stick 4 (fun _ => pure 0) 0 4096 1 1 (losingSession 55)).2 :=
    ⟨_, rfl⟩
  have hrun : startStableFormat stick 4 (fun _ => pure 0) 0 4096 1 1 (losingSession 55) = (some true, t) := by
    rw [ht]
    exact Prog.eq_of_fst (by decide +kernel)
  have hblank : t.dev.medium 510 ≠ 0x55 := by
    rw [ht]
    decide +kernel
  obtain ⟨hb, -⟩ | ⟨part, w₁, w₂, w₃, w₄, formatRes, hb, hsession⟩ := startStableFormat_run hrun
  · exact absurd hb (by decide)
  obtain rfl : formatRes = 0 := of_decide_eq_true hb.symm
  refine ⟨t, hrun, part, w₁, w₂, w₃, w₄, hsession, fun h => hblank ?_⟩
  have hmbr := h.table (0, mbrIn 1 1 part w₁) (List.mem_singleton_self _) 510 (by decide)
  rw [Nat.zero_mul, Nat.zero_add] at hmbr
  exact hmbr.trans (mbrSector_signature (partitionId 1 1) (mbrNumSectors w₁.drv.gSectorCount part))

end FormatStick
