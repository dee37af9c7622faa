import FormatStick.FatArithmetic
import FormatStick.FormatterCall

/-!
# Sessions that reach their formatter

The writers of the partition tables and the wipes come to an end on every device. A device that
obliges passes the size check by its capacity alone, and its session reaches the formatter.
-/
namespace FormatStick
open Splice Prog

section Ending

variable {δ : Type} {P : Platform δ} {fuel : ℕ}

theorem Ends.with_keeps {α : Type} {I J : World δ → Prop} {m : Prog (World δ) α} (hm : Ends I m)
    (hJ : Keeps J m) :
    Ends (fun w => I w ∧ J w) m := fun w hw =>
  wp_with (hm w hw.1) (wp_mono (hJ.wp hw.2) (fun _ _ h => h) fun _ _ => trivial)

theorem ends_assign {I : World δ → Prop} {f : Driver → Driver} (h : ∀ w, I w → I { w with drv := f w.drv }) :
    Ends I (assign f) := fun w hw => h w hw

theorem ends_globals {I : World δ → Prop} : Ends I (globals : Prog (World δ) Driver) := fun _ hw => hw

theorem ends_write10 (lba blocks : ℕ) (data : Buf) (len : ℕ) : Ends Framed (write10 P lba blocks data len) :=
  (ends_scsiCommand _ _).bind fun _ => ends_pure _

theorem ends_syncCache : Ends Framed (syncCache P) := (ends_scsiCommand _ _).bind fun _ => ends_pure _

theorem ends_usbScsiSync : Ends Framed (usbScsiSync P) := by
  refine Ends.bind (fun w hw => ?_) fun _ => ends_syncCache
  obtain ⟨r, hr⟩ := scsiFlushCacheInternal_ends P w
  have hframed : Framed (scsiFlushCacheInternal P w).2 := (cached_framed P).flush w hw
  unfold Prog.wp
  rw [hr]
  exact hframed

theorem ends_writeEach (blocks : ℕ) (ws : List (ℕ × Buf)) : Ends Framed (writeEach P blocks ws) := by
  induction ws with
  | nil => exact ends_pure _
  | cons x ws ih => exact (ends_write10 _ _ _ _).bind fun _ => Ends.ite (ends_pure _) ih

theorem ends_rand : Ends Framed (rand P) := fun _ hw => ⟨hw.size, hw.offset⟩

theorem ends_randBytes (n : ℕ) : Ends Framed (randBytes P n) := by
  induction n with
  | zero =>
    rw [randBytes_zero]
    exact ends_pure _
  | succ n ih =>
    rw [randBytes_succ]
    exact ends_rand.bind fun _ => ih.bind fun _ => ends_pure _

theorem ends_usbScsiWipeTail (P : Platform δ) : Ends Framed (usbScsiWipeTail P) :=
  ends_globals.bind fun _ => (ends_writeEach _ _).bind fun _ => ends_syncCache.bind fun _ => ends_pure _

theorem ends_usbScsiWriteMbr (part : ℕ) (type : UInt8) : Ends Framed (usbScsiWriteMbr P part type) :=
  ends_globals.bind fun _ => (ends_write10 _ _ _ _).bind fun _ => Ends.ite (ends_pure _) <|
    ends_syncCache.bind fun _ => ends_pure _

theorem ends_writeGptSectors (n : ℕ) (entries header : Buf) :
    Ends Framed (writeGptSectors P n entries header) := by
  refine (ends_write10 _ _ _ _).bind fun _ => Ends.ite (ends_pure _) ?_
  refine (ends_writeEach _ _).bind fun _ => Ends.ite (ends_pure _) ((ends_writeEach _ _).bind fun _ => ?_)
  exact (ends_write10 _ _ _ _).bind fun _ => ends_syncCache.bind fun _ => ends_pure _

theorem ends_usbScsiWriteGpt (part : ℕ) (fsType : ℤ) : Ends Framed (usbScsiWriteGpt P part fsType) := by
  refine ends_globals.bind fun g => (ends_randBytes _).bind fun _ => ?_
  refine (ends_write10 _ _ _ _).bind fun _ => Ends.ite (ends_pure _) ((ends_randBytes _).bind fun _ => ?_)
  exact (ends_randBytes _).bind fun _ => ends_writeGptSectors _ _ _

theorem ends_createPartition (partitionType fsType : ℤ) (part : ℕ) :
    Ends Framed (createPartition P partitionType fsType part) := by
  have hset : ∀ start ≤ 4096, Ends Framed (do
      usbScsiSetPartitionOffset start
      (usbScsiSetPartitionSize part : Prog (World δ) Unit)) := fun start hstart =>
    (ends_assign fun _ hw => ⟨hw.size, hstart⟩).bind fun _ => ends_assign fun _ hw => ⟨hw.size, hw.offset⟩
  refine Ends.ite ?_ (Ends.ite ?_ (hset 0 (by decide)))
  · exact (ends_usbScsiWriteMbr _ _).bind fun _ => hset 4096 (Nat.le_refl _)
  · exact (ends_usbScsiWriteGpt _ _).bind fun _ => hset 4096 (Nat.le_refl _)

theorem ends_wipeChunks (hfuel : 4294967296 ≤ fuel) (offsets : List ℕ) :
    Ends Framed (wipeChunks P fuel offsets) := by
  have hwrite : ∀ o : ℕ, Ends Framed (scsiIoInternal P fuel zeros 262144 o true) := fun o =>
    ends_write zeros o (by decide) (by omega)
  induction offsets with
  | nil => exact ends_pure _
  | cons o offsets ih =>
    exact (hwrite o).bind fun _ => Ends.ite ih ((hwrite o).bind fun _ => Ends.ite ih (ends_pure _))

theorem ends_usbScsiWipePartitionHead (hfuel : 4294967296 ≤ fuel) (fsType : ℤ) :
    Ends Framed (usbScsiWipePartitionHead P fuel fsType) := by
  have hmalloc : Ends Framed (malloc P) := fun _ hw => ⟨hw.size, hw.offset⟩
  refine hmalloc.bind fun _ => Ends.ite (ends_pure _) ((ends_wipeChunks hfuel _).bind fun _ => ?_)
  exact ends_usbScsiSync.bind fun _ => ends_pure _

theorem ends_usbScsiWipeMbr (hP : Obliging P) : Ends Framed (usbScsiWipeMbr P) := by
  intro w hw
  have hmalloc : (P.malloc w.dev).1 = true := hP.malloc w.dev
  rw [usbScsiWipeMbr, wp_bind, wp_malloc, hmalloc, if_neg (by decide)]
  refine ((ends_writeEach _ _).bind fun _ => ends_syncCache.bind fun _ => ends_pure _) _ ⟨hw.size, hw.offset⟩

end Ending

/-- A device of `n` sectors that accepts every command, and a host with enough memory. -/
def sized (n : ℕ) : Platform Unit :=
  { obliging with
    exchange := fun usb c data d =>
      ⟨some ⟨0x53425355, usb.gTag, 0, 0⟩, if c.opcode = 0x25 then splice data 0 (capacityData (n - 1) 512)
        8 else data, usb, d⟩
    activeConfig := fun _ d => (some [⟨0x08, [(0x02, 0x81), (0x02, 0x02)]⟩], d) }

theorem sized_obliges (n : ℕ) : Obliging (sized n) := ⟨fun _ _ _ _ => ⟨_, rfl, rfl⟩, fun _ => rfl⟩

section Sized

variable {n : ℕ}

theorem scsiCommand_sized {c : Cmd} (hc : c.opcode ≠ 0x35) (data : Buf) (w : World Unit) :
    ∃ l, scsiCommand (sized n) c data w =
      (some (0, if c.opcode = 0x25 then splice data 0 (capacityData (n - 1) 512) 8 else data),
        { w with trace := l }) := by
  have hsent : ¬(c.opcode = 0x35 ∧ w.drv.gSyncCacheSupported = false) := fun h => hc h.1
  rw [scsiCommand, bind_of_returns (show globals w = (some w.drv, w) from rfl), if_neg hsent]
  exact ⟨_, rfl⟩

theorem usbScsiInit_sized (hn : 1 ≤ n ∧ n ≤ 4294967296) (handle : ℕ) :
    Prog.wp (usbScsiInit (sized n) handle) (fun _ w => Framed w ∧ w.drv.gSectorCount = n)
      (fun _ => False) obligingWorld := by
  have hep : bulkEndpoints [⟨0x08, [(0x02, 0x81), (0x02, 0x02)]⟩] = (0x81, 0x02) := by decide
  have hdata : ∀ i < 8, (splice zeros 0 (capacityData (n - 1) 512) 8) i = capacityData (n - 1) 512 i :=
      fun i hi => by
    rw [splice_of_mem (Nat.zero_le i) (by omega), Nat.sub_zero]
  obtain ⟨hlast, hsize⟩ := be32_capacityData (by omega) (by decide) hdata
  have hcommand : ∀ {c : Cmd} {data : Buf} {w : World Unit} {Q : ℤ × Buf → World Unit → Prop},
      c.opcode ≠ 0x35 →
      (∀ l, Q (0, if c.opcode = 0x25 then splice data 0 (capacityData (n - 1) 512) 8 else data)
        { w with trace := l }) →
      Prog.wp (scsiCommand (sized n) c data) Q (fun _ => False) w := fun hc hQ => by
    obtain ⟨l, hl⟩ := scsiCommand_sized (n := n) hc _ _
    unfold Prog.wp
    rw [hl]
    exact hQ l
  rw [usbScsiInit, wp_bind, wp_assign, wp_bind]
  have hconf : ∀ w, activeConfig (sized n) handle w =
    (some (some [⟨0x08, [(0x02, 0x81), (0x02, 0x02)]⟩]), w) := fun _ => rfl
  rw [Prog.wp, hconf]
  dsimp only
  rw [wp_bind, wp_assign, hep, if_neg (by decide), wp_bind]
  refine hcommand ?_ fun l => ?_
  · decide
  rw [wp_bind, testUnitReady, wp_bind]
  refine hcommand ?_ fun l => ?_
  · decide
  rw [if_pos rfl, wp_pure, readCapacity, wp_bind]
  refine hcommand ?_ fun l => ?_
  · decide
  rw [if_pos rfl, wp_assign, if_pos (by decide), hlast, hsize]
  exact ⟨⟨rfl, Nat.zero_le _⟩, Nat.sub_add_cancel hn.1⟩

theorem wrapSysDevice_sized (fd : ℤ) (w : World Unit) :
    wrapSysDevice (sized n) fd w = (some (some 0), w) := rfl

-- the elaborator would otherwise run its sessions
attribute [irreducible] sized

theorem prepare_sized {clusterSize partitionType fsType : ℤ} (hn : n ≤ 4294967296)
    (hacc : alignedOffset partitionType + reservedEnd partitionType < n) (fd : ℤ) :
    Prog.wp (prepare (sized n) fd clusterSize partitionType fsType)
      (fun r w => r = some (partSectors n clusterSize partitionType fsType) ∧ Framed w ∧ ∃ d k,
        Placed (n, d, partitionType, k) w)
      (fun _ => False) obligingWorld := by
  rw [prepare, wp_bind, Prog.wp, wrapSysDevice_sized]
  dsimp only
  rw [wp_bind]
  refine wp_mono (usbScsiInit_sized ⟨by omega, hn⟩ 0) (fun _ w hw => ?_) fun _ h => h
  obtain ⟨hw, hcount⟩ := hw
  have hplaced := placed_writing (sized n)
    (n, w.drv.gDriveOffsetSectors, partitionType, w.drv.gPartitionSectors)
  have hwipe : Ends (fun t => Framed t ∧
    Placed (n, w.drv.gDriveOffsetSectors, partitionType, w.drv.gPartitionSectors) t)
    (usbScsiWipeMbr (sized n)) :=
      Ends.with_keeps (ends_usbScsiWipeMbr (sized_obliges n)) hplaced.usbScsiWipeMbr
  have htail : Ends (fun t => Framed t ∧
    Placed (n, w.drv.gDriveOffsetSectors, partitionType, w.drv.gPartitionSectors) t)
    (usbScsiWipeTail (sized n)) := Ends.with_keeps (ends_usbScsiWipeTail _) hplaced.usbScsiWipeTail
  have htyped : Placed (n, w.drv.gDriveOffsetSectors, partitionType, w.drv.gPartitionSectors)
      { w with drv := { w.drv with gPartitionType := partitionType } } := by
    rw [Placed, hcount]
  rw [wp_bind, wp_globals, hcount, if_neg (Nat.not_le.mpr hacc), wp_bind, usbScsiSetPartitionType,
    wp_assign, wp_bind]
  refine wp_mono (hwipe _ ⟨⟨hw.size, hw.offset⟩, htyped⟩) (fun _ t ht => ?_) fun _ h => h
  rw [wp_bind]
  exact wp_mono (htail t ht) (fun _ u hu => ⟨rfl, hu.1, _, _, hu.2⟩) fun _ h => h

/-- The session of such a device goes on to the formatter, set up for `n` sectors. -/
theorem startStableFormat_sized (clusterSize fsType : ℤ) {partitionType : ℤ} {fuel : ℕ} (hn : n ≤ 4294967296)
    (hacc : alignedOffset partitionType + reservedEnd partitionType < n) (hfuel : 4294967296 ≤ fuel)
    (engine : ℕ → Prog (World Unit) ℤ) (fd : ℤ) :
    ∃ u, SetUp n clusterSize partitionType fsType u ∧ Framed u ∧
      startStableFormat (sized n) fuel engine fd clusterSize partitionType fsType obligingWorld = (do
        let formatRes ← formatStage (sized n) fuel engine clusterSize fsType
          (partSectors n clusterSize partitionType fsType)
        let _ ← usbScsiSync (sized n)
        pure (decide (formatRes = 0))) u := by
  obtain ⟨_, w, h₁, rfl, hw, d, k, hplaced⟩ := wp_returns (prepare_sized hn hacc fd)
  obtain ⟨⟨⟩, t, h₂, ht⟩ := wp_returns (ends_createPartition partitionType fsType
    (partSectors n clusterSize partitionType fsType) w hw)
  obtain ⟨r, u, h₃, hu⟩ := wp_returns (ends_usbScsiWipePartitionHead hfuel fsType t ht)
  have hset := ((placed_writing (sized n) _).wipeHead fuel fsType).run (createPartition_placed hplaced h₂) h₃
  refine ⟨u, setUp_iff.mpr ⟨hacc, hset⟩, hu, ?_⟩
  rw [startStableFormat, bind_of_returns h₁]
  dsimp only
  rw [bind_of_returns h₂, bind_of_returns h₃]

end Sized

end FormatStick
