import FormatStick.Session
import FormatStick.FatWriter
import FormatStick.Operations
import FormatStick.Coupled

/-!
# The stages of a session

What each stage does to a stick, from the opening to the wiping of the partition's
head, in the shape of the writers: the set of its writes, and what the driver's
globals are afterwards.
-/
namespace FormatStick
open Splice WriteBack
open Prog (Coupled)

/-- An assignment to globals that the cache does not depend on. -/
theorem Wrote.assigned {W : Write UInt8 → Prop} {w : World Stick} (hw : Ready w) {g : Driver}
    (h₁ : g.gSectorSize = w.drv.gSectorSize) (h₂ : g.gCacheLba = w.drv.gCacheLba)
    (h₃ : g.gCacheSectors = w.drv.gCacheSectors) (h₄ : g.gWriteCache = w.drv.gWriteCache) :
    Wrote W w { w with drv := g } where
  ready := ⟨h₁.trans hw.sectorSize, hw.blockSize, h₃ ▸ hw.fill, fun h => h₄ ▸ hw.allocated (h₃ ▸ h),
    fun h => by
      change g.gCacheLba + g.gCacheSectors ≤ _
      rw [h₂, h₃]
      exact hw.reach (h₃ ▸ h)⟩
  spec := rfl
  trace := List.prefix_rfl
  confirmed _ := since_of_trace_eq rfl
  changes a ha := absurd rfl ha
  sat φ hs _ := by rwa [store_of_drv (t := w) (u := { w with drv := g }) rfl h₂ h₃ h₄ rfl]
  below n hn _ := ⟨fun h => by
    change g.gCacheLba + g.gCacheSectors ≤ n
    rw [h₂, h₃]
    exact hn.cached (h₃ ▸ h), hn.sent⟩

/-- A command that writes nothing. -/
theorem Served.quiet {w t : World Stick} {c : Cmd} {data : Buf} {r : ℤ × Buf} (h : Served w c data r t)
    (hw : Ready w) (hc : c.opcode ≠ 0x2a) : Quiet w t := by
  obtain ⟨u, hu⟩ := h.drv
  have hm : t.dev.medium = w.dev.medium := by
    rcases h.outcome with ⟨-, -, hm⟩ | ⟨-, -, hm⟩
    · rw [hm, Stick.mediumAfter, if_neg hc]
    · exact hm
  exact ⟨h.frame hw fun hop => absurd hop hc, h.ready hw, store_of_drv hu rfl rfl rfl hm,
    fun n hn => h.below hn fun hop => absurd hop hc⟩

/-- The stick has a mass-storage interface with bulk endpoints, and libusb opens it. -/
structure Attached (s : StickSpec) : Prop where
  handle : s.handle.isSome
  config : ∃ conf, s.config = some conf ∧ (bulkEndpoints conf).1 ≠ 0 ∧ (bulkEndpoints conf).2 ≠ 0

/-- What opening the stick does, and no more: its size may have been read. -/
structure Opened (w t : World Stick) : Prop where
  wrote : Wrote (fun _ => False) w t
  empty : w.drv.gCacheSectors = 0 → t.drv.gCacheSectors = 0
  requests : t.requests = w.requests
  count : t.drv.gSectorCount = w.drv.gSectorCount ∨ t.drv.gSectorCount = w.dev.spec.lastLba + 1

theorem Opened.of_quiet {w t : World Stick} (h : Quiet w t) : Opened w t :=
  ⟨h.wrote _, h.empty, by rw [h.frame.requests, List.append_nil], .inl h.frame.sectorCount⟩

theorem Opened.trans {w t u : World Stick} (h : Opened w t) (h' : Opened t u) : Opened w u := by
  refine ⟨h.wrote.trans h'.wrote, fun he => h'.empty (h.empty he), h'.requests.trans h.requests, ?_⟩
  rcases h'.count with hc | hc
  · rw [hc]
    exact h.count
  · rw [hc, h.wrote.spec]
    exact .inr rfl

/-- An assignment to globals that leaves cache and size alone. -/
theorem Opened.assigned {w : World Stick} (hw : Ready w) {g : Driver}
    (h₁ : g.gSectorSize = w.drv.gSectorSize) (h₂ : g.gCacheLba = w.drv.gCacheLba)
    (h₃ : g.gCacheSectors = w.drv.gCacheSectors) (h₄ : g.gWriteCache = w.drv.gWriteCache)
    (h₅ : g.gSectorCount = w.drv.gSectorCount ∨ g.gSectorCount = w.dev.spec.lastLba + 1) :
    Opened w { w with drv := g } :=
  ⟨Wrote.assigned hw h₁ h₂ h₃ h₄, fun he => h₃.trans he, rfl, h₅⟩

theorem wp_testUnitReady {w : World Stick} (hw : Ready w) (tries : ℕ) :
    Prog.wp (testUnitReady stick tries) (fun _ t => Quiet w t) (fun _ => False) w := by
  induction tries generalizing w with
  | zero => exact Quiet.of_dev hw rfl rfl
  | succ tries ih =>
    have hcmd := wp_scsiCommand (w := w) (c := ⟨[0x00, 0, 0, 0, 0, 0], 0x00, 0⟩) (by decide) zeros
    rw [testUnitReady, Prog.wp_bind]
    refine Prog.wp_mono hcmd ?_ (fun _ h => h)
    intro r t h
    have hq : Quiet w t := h.quiet hw (by decide)
    refine Prog.wp_ite (fun _ => hq) fun _ => ?_
    refine Prog.wp_mono (ih hq.ready) ?_ (fun _ h => h)
    intro _ u hu
    exact hq.trans hu

/-- The bytes READ CAPACITY returns, read back. -/
theorem be32_capacityData {lastLba blockSize : ℕ} (hl : lastLba < 4294967296) (hb : blockSize < 4294967296)
    {b : Buf} (h : ∀ i < 8, b i = capacityData lastLba blockSize i) :
    be32 b 0 = lastLba ∧ be32 b 4 = blockSize := by
  have hread : ∀ i, i + 4 ≤ 8 → be32 b i = be32 (capacityData lastLba blockSize) i := by
    intro i hi
    rw [be32, be32, h i (by omega), h (i + 1) (by omega), h (i + 2) (by omega), h (i + 3) (by omega)]
  rw [hread 0 (by decide), hread 4 (by decide)]
  simp only [be32, capacityData, u8, List.getD_cons_succ, List.getD_cons_zero, UInt8.toNat_ofNat',
    Nat.shiftRight_eq_div_pow, Nat.zero_add, Nat.reduceAdd]
  constructor <;> omega

theorem wp_readCapacity {w : World Stick} (hw : Ready w) (hlba : w.dev.spec.lastLba < 4294967296)
    (tries : ℕ) :
    Prog.wp (readCapacity stick tries)
      (fun _ t => Opened w t ∧ t.drv.gDriveOffsetSectors = w.drv.gDriveOffsetSectors ∧
        (Faultless w.dev.spec → 0 < tries → t.drv.gSectorCount = w.dev.spec.lastLba + 1))
      (fun _ => False) w := by
  induction tries generalizing w with
  | zero =>
    exact ⟨Opened.of_quiet (Quiet.of_dev hw rfl rfl), rfl, fun _ h => absurd h (Nat.lt_irrefl 0)⟩
  | succ tries ih =>
    have hcmd := wp_scsiCommand (w := w) (c := ⟨[0x25, 0, 0, 0, 0, 0, 0, 0, 0, 0], 0x80, 8⟩) (by decide) zeros
    have hfit : Cmd.Fits ⟨[0x25, 0, 0, 0, 0, 0, 0, 0, 0, 0], 0x80, 8⟩ w.dev.spec.blockSize := by
      rintro (h | h) <;> exact absurd h (by decide)
    rw [readCapacity, Prog.wp_bind]
    refine Prog.wp_mono hcmd ?_ (fun _ h => h)
    intro r t h
    have hq : Quiet w t := h.quiet hw (by decide)
    refine Prog.wp_ite ?_ ?_
    · intro hr
      have hdata : ∀ i < 8, r.2 i = capacityData w.dev.spec.lastLba 512 i := by
        intro i hi
        rcases h.outcome with ⟨-, hd, -⟩ | ⟨hr', -⟩
        · rw [hd, Stick.dataAfter, if_neg (by decide), if_pos (by decide), hw.blockSize,
            splice_of_mem (Nat.zero_le i) (show i < 0 + 8 by omega), Nat.sub_zero]
        · exact absurd (hr'.symm.trans hr) (by decide)
      obtain ⟨hlast, hsize⟩ := be32_capacityData hlba (by decide) hdata
      rw [wp_assign, hlast, hsize]
      refine ⟨(Opened.of_quiet hq).trans (Opened.assigned hq.ready hq.ready.sectorSize.symm rfl rfl rfl ?_),
        hq.frame.driveOffset, fun _ _ => rfl⟩
      rw [hq.frame.spec]
      exact .inr rfl
    · intro hr
      refine Prog.wp_mono (ih hq.ready (hq.frame.spec.symm ▸ hlba)) ?_ (fun _ h => h)
      rintro _ u ⟨hu, hoff, -⟩
      exact ⟨(Opened.of_quiet hq).trans hu, hoff.trans hq.frame.driveOffset,
        fun hf _ => absurd (h.executes hfit hf) hr⟩

@[simp] theorem wp_activeConfig {w : World Stick} {Q : Option (List Interface) → World Stick → Prop}
    {D : World Stick → Prop} (handle : ℕ) :
    Prog.wp (activeConfig stick handle) Q D w ↔ Q w.dev.spec.config w := Iff.rfl

theorem wp_usbScsiInit {w : World Stick} (hw : Ready w) (hlba : w.dev.spec.lastLba < 4294967296)
    (handle : ℕ) :
    Prog.wp (usbScsiInit stick handle)
      (fun _ t => Opened w t ∧ t.drv.gDriveOffsetSectors = 0 ∧
        (Faultless w.dev.spec → Attached w.dev.spec → t.drv.gSectorCount = w.dev.spec.lastLba + 1))
      (fun _ => False) w := by
  rw [usbScsiInit, Prog.wp_bind, wp_assign, Prog.wp_bind, wp_activeConfig]
  obtain ⟨t, ht⟩ : ∃ t : World Stick, t = { w with drv := { w.drv with
    usb := { w.drv.usb with gUsbHandle := some handle }
    gDriveOffsetSectors := 0
    gPartitionSectors := 0
    gPartitionType := 0
    gCurPos := 0 } } := ⟨_, rfl⟩
  have hopen : Opened w t := ht ▸ Opened.assigned hw rfl rfl rfl rfl (.inl rfl)
  have hoff : t.drv.gDriveOffsetSectors = 0 := by rw [ht]
  rw [← ht]
  rw [show t.dev.spec = w.dev.spec by rw [ht]]
  cases hconf : w.dev.spec.config with
  | none =>
    refine ⟨hopen, hoff, fun _ hs => ?_⟩
    obtain ⟨conf, hc, -⟩ := hs.config
    exact absurd (hconf.symm.trans hc) (Option.some_ne_none conf).symm
  | some conf =>
    simp only [Prog.wp_bind, wp_assign]
    obtain ⟨u, hu⟩ : ∃ u : World Stick, u = { t with drv := { t.drv with
      usb := { t.drv.usb with gEpIn := (bulkEndpoints conf).1, gEpOut := (bulkEndpoints conf).2 } } } :=
        ⟨_, rfl⟩
    have hopen' : Opened w u :=
      hopen.trans (hu ▸ Opened.assigned hopen.wrote.ready rfl rfl rfl rfl (.inl rfl))
    have hoff' : u.drv.gDriveOffsetSectors = 0 := by
      rw [hu]
      exact hoff
    rw [← hu]
    refine Prog.wp_ite ?_ ?_
    · intro hno
      refine ⟨hopen', hoff', fun _ hs => ?_⟩
      obtain ⟨conf', hc, h₁, h₂⟩ := hs.config
      obtain rfl := Option.some.inj (hconf.symm.trans hc)
      exact absurd hno (not_or.mpr ⟨h₁, h₂⟩)
    · intro _
      have hcmd := wp_scsiCommand (w := u) (c := ⟨[0x12, 0, 0, 0, 36, 0], 0x80, 36⟩) (by decide) zeros
      simp only [Prog.wp_bind]
      refine Prog.wp_mono hcmd ?_ (fun _ h => h)
      intro _ x hx
      have hq : Quiet u x := hx.quiet hopen'.wrote.ready (by decide)
      refine Prog.wp_mono (wp_testUnitReady hq.ready 3) ?_ (fun _ h => h)
      intro _ y hy
      have hspec : y.dev.spec = w.dev.spec := (hq.trans hy).frame.spec.trans hopen'.wrote.spec
      refine Prog.wp_mono (wp_readCapacity hy.ready (hspec ▸ hlba) 5) ?_ (fun _ h => h)
      rintro _ z ⟨hz, hzoff, hcount⟩
      refine ⟨hopen'.trans ((Opened.of_quiet (hq.trans hy)).trans hz), ?_, fun hf _ => ?_⟩
      · rw [hzoff, (hq.trans hy).frame.driveOffset, hoff']
      · rw [hcount (hspec ▸ hf) (by decide), hspec]

section Resized

/-- The same process with a sector size of 512 bytes in force. -/
def resize (w : World Stick) : World Stick := { w with drv := { w.drv with gSectorSize := 512 } }

/-- Two processes that differ in the sector size in force at most, which is 512 in the second if they do. -/
def Resized (w v : World Stick) : Prop := v = w ∨ v = resize w

theorem resized_of_commutes {α : Type} {m : Prog (World Stick) α}
    (hm : ∀ w, m (resize w) = ((m w).1, resize (m w).2)) : Coupled Resized Eq m m := by
  rintro w v (rfl | rfl)
  · unfold Prog.wpBoth
    rcases m v with ⟨_ | a, t⟩
    · exact .inl rfl
    · exact ⟨rfl, .inl rfl⟩
  · unfold Prog.wpBoth
    rw [hm]
    rcases m w with ⟨_ | a, t⟩
    · exact .inr rfl
    · exact ⟨rfl, .inr rfl⟩

/-- No command looks at the sector size. -/
theorem resized_scsiCommand (c : Cmd) (data : Buf) :
    Coupled Resized Eq (scsiCommand stick c data) (scsiCommand stick c data) := by
  have hglobals : Coupled Resized (fun g g' : Driver => g.gSyncCacheSupported = g'.gSyncCacheSupported)
      globals globals := by
    rintro w v (rfl | rfl)
    · exact ⟨rfl, .inl rfl⟩
    · exact ⟨rfl, .inr rfl⟩
  refine hglobals.bind fun g g' hg => Coupled.ite (by rw [hg]) (fun _ => Coupled.pure rfl) fun _ => ?_
  refine Coupled.seq (resized_of_commutes fun _ => rfl) fun r => ?_
  cases r.1 with
  | none => exact Coupled.pure rfl
  | some csw =>
    refine Coupled.ite Iff.rfl (fun _ => Coupled.pure rfl) fun _ =>
      Coupled.ite Iff.rfl (fun _ => ?_) fun _ => ?_
    · exact Coupled.seq (resized_of_commutes fun _ => rfl) fun _ => Coupled.pure rfl
    · exact Coupled.seq (resized_of_commutes fun _ => rfl) fun _ => Coupled.pure rfl

theorem resized_testUnitReady (tries : ℕ) :
    Coupled Resized Eq (testUnitReady stick tries) (testUnitReady stick tries) := by
  induction tries with
  | zero => exact Coupled.pure rfl
  | succ tries ih =>
    exact (resized_scsiCommand _ _).seq fun _ => Coupled.ite Iff.rfl (fun _ => Coupled.pure rfl) fun _ => ih

/-- READ CAPACITY makes the two the same. -/
theorem resized_readCapacity (tries : ℕ) :
    Coupled Resized Eq (readCapacity stick tries) (readCapacity stick tries) := by
  induction tries with
  | zero => exact Coupled.pure rfl
  | succ tries ih =>
    refine (resized_scsiCommand _ _).seq fun r => Coupled.ite Iff.rfl (fun _ => ?_) fun _ => ih
    rintro w v (rfl | rfl)
    · exact ⟨rfl, .inl rfl⟩
    · exact ⟨rfl, .inl rfl⟩

theorem resized_usbScsiInit (handle : ℕ) :
    Coupled Resized Eq (usbScsiInit stick handle) (usbScsiInit stick handle) := by
  refine Coupled.seq (resized_of_commutes fun _ => rfl) fun _ =>
    Coupled.seq (resized_of_commutes fun _ => rfl) fun conf => ?_
  cases conf with
  | none => exact Coupled.pure rfl
  | some conf =>
    refine Coupled.seq (resized_of_commutes fun _ => rfl) fun _ =>
      Coupled.ite Iff.rfl (fun _ => Coupled.pure rfl) fun _ => ?_
    exact (resized_scsiCommand _ _).seq fun _ => (resized_testUnitReady 3).seq fun _ => resized_readCapacity 5

end Resized

/-- The driver's globals once a session has opened its stick. -/
def opened (w : World Stick) : Driver :=
  match w.dev.spec.handle with
  | none => w.drv
  | some handle => (usbScsiInit stick handle w).2.drv

/-- The number of sectors a session goes by. -/
def sessionSectors (w : World Stick) : ℕ := (opened w).gSectorCount

/-- A process in which no session is running, whatever sticks it has served, and a stick that
READ CAPACITY(10) can describe. Once it is opened, sectors have 512 bytes. -/
structure Resting (w : World Stick) : Prop where
  empty : w.drv.gCacheSectors = 0
  blockSize : w.dev.spec.blockSize = 512
  lastLba : w.dev.spec.lastLba < 4294967296
  sectorSize : (opened w).gSectorSize = 512
  count : sessionSectors w ≤ 4294967296

/-- The number of sectors of a stick. -/
def StickSpec.sectors (s : StickSpec) : ℕ := s.lastLba + 1

section Resting

variable {w : World Stick}

theorem Resting.ready (hw : Resting w) : Ready (resize w) := Idle.ready ⟨rfl, hw.blockSize, hw.empty⟩

/-- A run from the resized process is one from the process itself. -/
theorem Wrote.of_resized {W : Write UInt8 → Prop} {t : World Stick} (h : Wrote W (resize w) t) :
    Wrote W w t :=
  ⟨h.ready, h.spec, h.trace, h.confirmed, h.changes, h.sat, fun n hn => h.below n ⟨hn.cached, hn.sent⟩⟩

theorem Opened.of_resized {t : World Stick} (h : Opened (resize w) t) : Opened w t :=
  ⟨h.wrote.of_resized, h.empty, h.requests, h.count⟩

/-- What opening the stick does to any process at rest. -/
theorem Resting.opens (hw : Resting w) {handle : ℕ} (hh : w.dev.spec.handle = some handle) :
    ∃ t, usbScsiInit stick handle w = (some (), t) ∧ t.drv = opened w ∧ Opened w t ∧
      (Faultless w.dev.spec → Attached w.dev.spec → t.drv.gSectorCount = w.dev.spec.sectors) := by
  obtain ⟨⟨⟩, t, hrun, ht, -, hcount⟩ := Prog.wp_returns (wp_usbScsiInit hw.ready hw.lastLba handle)
  have hopened : opened w = (usbScsiInit stick handle w).2.drv := by rw [opened, hh]
  have hsize := hw.sectorSize
  have hboth := resized_usbScsiInit handle w (resize w) (.inr rfl)
  unfold Prog.wpBoth at hboth
  rw [hrun] at hboth
  rw [hopened] at hsize ⊢
  rcases hown : usbScsiInit stick handle w with ⟨_ | ⟨⟩, u⟩ <;> rw [hown] at hboth hsize
  · exact hboth.elim
  · obtain rfl : t = u := by
      rcases hboth.2 with h | h
      · exact h
      · rw [h, resize, ← hsize]
    exact ⟨t, rfl, rfl, ht.of_resized, hcount⟩

/-- Without faults a session goes by the sectors of its stick. -/
theorem sessionSectors_eq (hw : Resting w) (hf : Faultless w.dev.spec) (ha : Attached w.dev.spec) :
    sessionSectors w = w.dev.spec.sectors := by
  obtain ⟨handle, hh⟩ := Option.isSome_iff_exists.mp ha.handle
  obtain ⟨t, -, ht, -, hcount⟩ := hw.opens hh
  rw [sessionSectors, ← ht]
  exact hcount hf ha

/-- A process at rest whose last stick had sectors of 512 bytes. -/
theorem Idle.resting (hw : Idle w) (hl : w.dev.spec.lastLba < 4294967296)
    (hc : w.drv.gSectorCount ≤ 4294967296) :
    Resting w := by
  have hopened : (opened w).gSectorSize = 512 ∧ (opened w).gSectorCount ≤ 4294967296 := by
    rw [opened]
    cases w.dev.spec.handle with
    | none => exact ⟨hw.sectorSize, hc⟩
    | some handle =>
      obtain ⟨_, t, hrun, ht, -⟩ := Prog.wp_returns (wp_usbScsiInit hw.ready hl handle)
      have hstate : (usbScsiInit stick handle w).2 = t := congrArg Prod.snd hrun
      dsimp only
      rw [hstate]
      refine ⟨ht.wrote.ready.sectorSize, ?_⟩
      rcases ht.count with h | h <;> rw [h]
      · exact hc
      · exact hl
  exact ⟨hw.empty, hw.blockSize, hl, hopened.1, hopened.2⟩

end Resting

/-- The writes before there is a partition. -/
def ClearWrite (n : ℕ) (v : Write UInt8) : Prop := HeadWrite v ∨ TailWrite n v

/-- What `startStableFormat` has done when the old tables are wiped. -/
structure Prepared (clusterSize partitionType fsType : ℤ) (w : World Stick) (part : ℕ) (t : World Stick) :
    Prop where
  wrote : Wrote (ClearWrite (sessionSectors w)) w t
  empty : t.drv.gCacheSectors = 0
  requests : t.requests = w.requests
  count : t.drv.gSectorCount = sessionSectors w
  type : t.drv.gPartitionType = partitionType
  fits : alignedOffset partitionType + reservedEnd partitionType < sessionSectors w
  part : part = partSectors (sessionSectors w) clusterSize partitionType fsType

theorem wp_prepare {w : World Stick} (hw : Resting w) (fd clusterSize partitionType fsType : ℤ) :
    Prog.wp (prepare stick fd clusterSize partitionType fsType)
      (fun r t => match r with
        | none => (t = w ∨ Opened w t) ∧ (Faultless w.dev.spec → Attached w.dev.spec →
          sessionSectors w ≤ alignedOffset partitionType + reservedEnd partitionType)
        | some part => Prepared clusterSize partitionType fsType w part t)
      (fun t => Wrote (ClearWrite (sessionSectors w)) w t ∧ t.requests = w.requests ∧
        ¬Faultless w.dev.spec) w := by
  rw [prepare, Prog.wp_bind]
  change Prog.wp (match w.dev.spec.handle with | none => _ | some handle => _) _ _ w
  cases hh : w.dev.spec.handle with
  | none => exact ⟨.inl rfl, fun _ hs => absurd hs.handle (by simp [hh])⟩
  | some handle =>
    obtain ⟨t, hrun, hdrv, ht, -⟩ := hw.opens hh
    refine Prog.wp_bind_of_returns hrun ?_
    have hsectors : t.drv.gSectorCount = sessionSectors w := congrArg Driver.gSectorCount hdrv
    rw [Prog.wp_bind, wp_globals, hsectors]
    refine Prog.wp_ite (fun hsmall => ⟨.inr ht, fun _ _ => hsmall⟩) fun hfits => ?_
    have hopen : Wrote (ClearWrite (sessionSectors w)) w
        { t with drv := { t.drv with gPartitionType := partitionType } } :=
      (ht.wrote.mono fun _ h => h.elim).trans (Wrote.assigned ht.wrote.ready rfl rfl rfl rfl)
    rw [usbScsiSetPartitionType, Prog.wp_bind, wp_assign, Prog.wp_bind]
    refine Prog.wp_mono (wp_usbScsiWipeMbr hopen.ready) ?_ ?_
    · intro _ x hx
      have hhead := hopen.trans (hx.wrote.mono fun _ h => .inl h)
      have hn : x.drv.gSectorCount = sessionSectors w := hx.frame.sectorCount.trans hsectors
      have hlast : sessionSectors w ≤ 4294967296 := hw.count
      rw [Prog.wp_bind]
      refine Prog.wp_mono (wp_usbScsiWipeTail hx.wrote.ready (by omega) (by omega)) ?_ (fun _ h => h.elim)
      intro _ y hy
      rw [hn] at hy
      have hempty : y.drv.gCacheSectors = 0 := hy.empty (hx.empty (ht.empty hw.empty))
      refine ⟨hhead.trans (hy.wrote.mono fun _ h => .inr h), hempty, ?_, hy.frame.sectorCount.trans hn, ?_,
        Nat.lt_of_not_le hfits, rfl⟩
      · rw [hy.frame.requests, hx.frame.requests, List.append_nil, List.append_nil]
        exact ht.requests
      · exact hy.frame.partitionType.trans hx.frame.partitionType
    · rintro x ⟨hx, hf⟩
      refine ⟨hopen.trans (hx.wrote.mono fun _ h => .inl h), ?_, ?_⟩
      · rw [hx.frame.requests, List.append_nil]
        exact ht.requests
      · rwa [show t.dev.spec = w.dev.spec from ht.wrote.spec] at hf

/-- The drive offset a session gives its driver. -/
def driveStart (partitionType : ℤ) : ℕ := if partitionType = 1 ∨ partitionType = 2 then 4096 else 0

section Partition

variable (partitionType fsType : ℤ) (part : ℕ) (w : World Stick)

/-- The MBR that a session encodes in a state. -/
def mbrIn : Buf :=
  mbrSector (partitionId partitionType fsType) (mbrNumSectors w.drv.gSectorCount part)

/-- The sectors of the partition table at the start of the disk. -/
def primaryTable : List (ℕ × Buf) :=
  if partitionType = 1 then [(0, mbrIn partitionType fsType part w)]
  else if partitionType = 2 then (rolledTable w part fsType).primary
  else []

/-- All sectors of the partition table. -/
def partitionTable : List (ℕ × Buf) :=
  primaryTable partitionType fsType part w ++
    if partitionType = 2 then (rolledTable w part fsType).secondary w.drv.gSectorCount else []

/-- What creating the partition has done. -/
structure Partitioned (t : World Stick) : Prop where
  wrote : Wrote (· ∈ (partitionTable partitionType fsType part w).map (sectorWrite 1)) w t
  empty : w.drv.gCacheSectors = 0 → t.drv.gCacheSectors = 0
  requests : t.requests = w.requests
  count : t.drv.gSectorCount = w.drv.gSectorCount
  type : t.drv.gPartitionType = w.drv.gPartitionType
  offset : t.drv.gDriveOffsetSectors = driveStart partitionType
  size : t.drv.gPartitionSectors = part
  primary : w.drv.gCacheSectors = 0 → ConfirmedBelow 34 w t →
    ∀ x ∈ primaryTable partitionType fsType part w, HoldsSector t.dev.medium x
  full : w.drv.gCacheSectors = 0 → Confirmed w t →
    ∀ x ∈ partitionTable partitionType fsType part w, HoldsSector t.dev.medium x

end Partition

theorem wp_createPartition {w : World Stick} (hw : Ready w) {partitionType : ℤ}
    (hgpt : partitionType = 2 → 67 ≤ w.drv.gSectorCount) (hn : w.drv.gSectorCount ≤ 4294967296)
    (fsType : ℤ) (part : ℕ) :
    Prog.wp (createPartition stick partitionType fsType part)
      (fun _ t => Partitioned partitionType fsType part w t) (fun _ => False) w := by
  -- the window that follows the table
  have hwindow : ∀ {W : Write UInt8 → Prop} (u : World Stick) (o : ℕ), Wrote W w u →
      Wrote W w { u with drv := { u.drv with gDriveOffsetSectors := o, gPartitionSectors := part } } :=
    fun u o hu => hu.trans (Wrote.assigned hu.ready rfl rfl rfl rfl)
  rw [createPartition]
  refine Prog.wp_ite ?_ fun h₁ => Prog.wp_ite ?_ ?_
  · rintro rfl
    have hone : partitionTable 1 fsType part w = [(0, mbrIn 1 fsType part w)] := by
      simp [partitionTable, primaryTable]
    rw [Prog.wp_bind]
    refine Prog.wp_mono (wp_usbScsiWriteMbr hw part (partitionId 1 fsType)) ?_ (fun _ h => h)
    intro _ u hu
    have hwrote : Wrote (· ∈ (partitionTable 1 fsType part w).map (sectorWrite 1)) w u := by
      rw [hone]
      exact hu.stage.wrote.mono fun v hv => by rw [hv]; exact List.mem_singleton_self _
    have hholds : ConfirmedBelow 34 w u → ∀ x ∈ [(0, mbrIn 1 fsType part w)], HoldsSector u.dev.medium x := by
      intro hc x hx
      rw [List.mem_singleton.mp hx]
      exact hu.holds hc
    refine ⟨hwindow u 4096 hwrote, hu.stage.empty, ?_, hu.stage.frame.sectorCount,
      hu.stage.frame.partitionType,
      rfl, rfl, fun _ hc => ?_, fun _ hc => ?_⟩
    · rw [← List.append_nil w.requests]
      exact hu.stage.frame.requests
    · rw [primaryTable, if_pos rfl]
      exact hholds hc
    · rw [hone]
      exact hholds (Confirmed.below hc 34)
  · rintro rfl
    have hall : partitionTable 2 fsType part w =
        (rolledTable w part fsType).primary ++ (rolledTable w part fsType).secondary w.drv.gSectorCount := by
      simp [partitionTable, primaryTable]
    rw [Prog.wp_bind]
    refine Prog.wp_mono (wp_usbScsiWriteGpt hw (hgpt rfl) hn part fsType) ?_ (fun _ h => h)
    intro r u hu
    have hwrote : Wrote (· ∈ (partitionTable 2 fsType part w).map (sectorWrite 1)) w u := by
      rw [hall]
      refine hu.stage.wrote.mono ?_
      rintro v ⟨x, hx, rfl⟩
      exact List.mem_map_of_mem hx
    refine ⟨hwindow u 4096 hwrote, hu.stage.empty, ?_, hu.stage.frame.sectorCount,
      hu.stage.frame.partitionType,
      rfl, rfl, fun he hc => ?_, fun he hc => ?_⟩
    · rw [← List.append_nil w.requests]
      exact hu.stage.frame.requests
    · rw [primaryTable, if_neg (by decide), if_pos rfl]
      exact hu.primary he hc
    · rw [hall]
      exact (hu.full he hc).2
  · intro h₂
    have hnone : partitionTable partitionType fsType part w = [] := by
      simp [partitionTable, primaryTable, h₁, h₂]
    have hempty : ∀ x ∈ partitionTable partitionType fsType part w, HoldsSector w.dev.medium x := by
      rw [hnone]
      exact fun _ hx => absurd hx List.not_mem_nil
    refine ⟨hwindow w 0 (Wrote.refl hw), id, rfl, rfl, rfl, ?_, rfl, fun _ _ x hx => ?_, fun _ _ => hempty⟩
    · rw [driveStart, if_neg (not_or.mpr ⟨h₁, h₂⟩)]
    · exact hempty x (List.mem_append_left _ hx)

/-- What wiping the chunks at `offsets` has done: without faults, all of them, once each. -/
structure ChunksDone (offsets : List ℕ) (w : World Stick) (rs : List Request) (t : World Stick) : Prop where
  asked : Asked w rs t
  mem : ∀ q ∈ rs, ∃ o ∈ offsets, q = writeRequest zeros 262144 o
  full : Faultless w.dev.spec → Landed w rs t ∧ ∀ o ∈ offsets, writeRequest zeros 262144 o ∈ rs

theorem wp_wipeChunks {w : World Stick} (hw : Ready w) (hoff : w.drv.gDriveOffsetSectors ≤ 4096) (fuel : ℕ)
    (offsets : List ℕ) (hoffsets : ∀ o ∈ offsets, 512 ∣ o ∧ o < 4294967296) :
    Prog.wp (wipeChunks stick fuel offsets) (fun _ t => ∃ rs, ChunksDone offsets w rs t)
      (fun t => (∃ rs, Asked w rs t ∧ ∀ q ∈ rs, ∃ o ∈ offsets, q = writeRequest zeros 262144 o) ∧
        fuel ≤ 262144) w := by
  induction offsets generalizing w with
  | nil =>
    exact ⟨[], Asked.refl hw, fun _ hq => absurd hq List.not_mem_nil, fun _ => ⟨Landed.refl hw,
      fun _ ho => absurd ho List.not_mem_nil⟩⟩
  | cons o offsets ih =>
    obtain ⟨hdvd, hlt⟩ := hoffsets o List.mem_cons_self
    have hrest := fun (t : World Stick) (ht : Ready t) (hto : t.drv.gDriveOffsetSectors ≤ 4096) =>
      ih ht hto fun o' ho' => hoffsets o' (List.mem_cons_of_mem _ ho')
    -- the chunks that follow, after one or two requests for this one
    have hthen : ∀ t rs, Asked w rs t → (∀ q ∈ rs, q = writeRequest zeros 262144 o) →
        (Faultless w.dev.spec → Landed w rs t ∧ rs ≠ []) →
        Prog.wp (wipeChunks stick fuel offsets) (fun _ u => ∃ rs, ChunksDone (o :: offsets) w rs u)
          (fun u => (∃ rs, Asked w rs u ∧ ∀ q ∈ rs, ∃ o' ∈ o :: offsets, q = writeRequest zeros 262144 o') ∧
            fuel ≤ 262144) t := by
      intro t rs ht hrs hfull
      have hmem : ∀ rs' : List Request, (∀ q ∈ rs', ∃ o' ∈ offsets, q = writeRequest zeros 262144 o') →
          ∀ q ∈ rs ++ rs', ∃ o' ∈ o :: offsets, q = writeRequest zeros 262144 o' := by
        intro rs' hrs' q hq
        rcases List.mem_append.mp hq with hq | hq
        · exact ⟨o, List.mem_cons_self, hrs q hq⟩
        · obtain ⟨o', ho', hq⟩ := hrs' q hq
          exact ⟨o', List.mem_cons_of_mem _ ho', hq⟩
      refine Prog.wp_mono (hrest t ht.wrote.ready (ht.frame.driveOffset.symm ▸ hoff)) ?_ ?_
      · rintro _ u ⟨rs', hu⟩
        refine ⟨rs ++ rs', ht.trans hu.asked, hmem rs' hu.mem, fun hf => ?_⟩
        obtain ⟨hl, hne⟩ := hfull hf
        obtain ⟨hl', hall⟩ := hu.full (ht.frame.spec ▸ hf)
        refine ⟨hl.trans hl', fun o' ho' => ?_⟩
        rcases List.mem_cons.mp ho' with rfl | ho'
        · obtain ⟨q, hq⟩ := List.exists_mem_of_ne_nil rs hne
          exact List.mem_append_left _ (hrs q hq ▸ hq)
        · exact List.mem_append_right _ (hall o' ho')
      · rintro u ⟨⟨rs', hu, hrs'⟩, hf⟩
        exact ⟨⟨rs ++ rs', ht.trans hu, hmem rs' hrs'⟩, hf⟩
    have hcut : ∀ t rs, Asked w rs t → (∀ q ∈ rs, q = writeRequest zeros 262144 o) →
        ∃ rs, Asked w rs t ∧ ∀ q ∈ rs, ∃ o' ∈ o :: offsets, q = writeRequest zeros 262144 o' :=
      fun t rs ht hrs => ⟨rs, ht, fun q hq => ⟨o, List.mem_cons_self, hrs q hq⟩⟩
    have hone : ∀ q ∈ [writeRequest zeros 262144 o], q = writeRequest zeros 262144 o := fun q hq =>
      List.mem_singleton.mp hq
    have htwo : ∀ q ∈ [writeRequest zeros 262144 o] ++ [writeRequest zeros 262144 o],
        q = writeRequest zeros 262144 o := fun q hq => by
      rcases List.mem_append.mp hq with hq | hq
      · exact hone q hq
      · exact hone q hq
    have hreq := wp_writeRequest hw fuel zeros 262144 o (by decide) (by decide) hdvd (by decide)
      (show o + _ + 262144 ≤ _ by omega)
    rw [wipeChunks, Prog.wp_bind]
    refine Prog.wp_mono hreq ?_ fun t ht => ⟨hcut t _ ht.1 hone, ht.2⟩
    intro r t ht
    refine Prog.wp_ite ?_ ?_
    · intro hr
      exact hthen t _ ht.asked hone fun _ => ⟨ht.landed hr, List.cons_ne_nil _ _⟩
    · intro hr
      have hfail : ¬Faultless w.dev.spec := fun hf => hr (ht.full hf)
      have hretry := wp_writeRequest ht.asked.wrote.ready fuel zeros 262144 o (by decide) (by decide) hdvd
        (by decide) (show o + _ + 262144 ≤ _ by rw [ht.asked.frame.driveOffset]; omega)
      rw [Prog.wp_bind]
      refine Prog.wp_mono hretry ?_ fun u hu => ⟨hcut u _ (ht.asked.trans hu.1) htwo, hu.2⟩
      intro r' u hu
      refine Prog.wp_ite (fun _ => ?_) fun _ => ?_
      · exact hthen u _ (ht.asked.trans hu.asked) htwo fun hf => absurd hf hfail
      · obtain ⟨rs, ha, hmem⟩ := hcut u _ (ht.asked.trans hu.asked) htwo
        exact ⟨rs, ha, hmem, fun hf => absurd hf hfail⟩

/-- The requests of `usb_scsi_wipe_partition_head`. -/
def WipeRequest (fsType : ℤ) (q : Request) : Prop :=
  ∃ i < wipeSize fsType / 262144, q = writeRequest zeros 262144 (i * 262144)

/-- What wiping the partition's head has done, or done so far. -/
structure WipedSoFar (fsType : ℤ) (w t : World Stick) : Prop where
  frame : ∃ rs, Frame w rs t ∧ ∀ q ∈ rs, WipeRequest fsType q
  wrote : Wrote (fun v => ∃ q, WipeRequest fsType q ∧ v = q.write w.drv.gDriveOffsetSectors) w t

/-- What wiping the partition's head has done. -/
structure Wiped (fsType : ℤ) (w t : World Stick) : Prop where
  soFar : WipedSoFar fsType w t
  empty : w.drv.gCacheSectors = 0 → t.drv.gCacheSectors = 0
  cleared : Faultless w.dev.spec →
    ∀ i < wipeSize fsType, t.dev.medium (w.drv.gDriveOffsetSectors * 512 + i) = 0

theorem wipeSize_bounds (fsType : ℤ) : 33554432 ≤ wipeSize fsType ∧ wipeSize fsType ≤ 134217728 ∧
    262144 ∣ wipeSize fsType := by
  rw [wipeSize]
  split_ifs <;> decide

theorem Asked.wiped {fsType : ℤ} {w t : World Stick} {rs : List Request} (h : Asked w rs t)
    (hrs : ∀ q ∈ rs, ∃ o ∈ (List.range (wipeSize fsType / 262144)).map (· * 262144), q =
      writeRequest zeros 262144 o) :
    WipedSoFar fsType w t := by
  have hmem : ∀ q ∈ rs, WipeRequest fsType q := by
    intro q hq
    obtain ⟨o, ho, hq⟩ := hrs q hq
    obtain ⟨i, hi, rfl⟩ := List.mem_map.mp ho
    exact ⟨i, List.mem_range.mp hi, hq⟩
  refine ⟨⟨rs, h.frame, hmem⟩, h.wrote.mono fun v hv => ?_⟩
  obtain ⟨q, hq, rfl⟩ := List.mem_map.mp hv
  exact ⟨q, hmem q hq, rfl⟩

theorem Synced.wrote {w t : World Stick} {r : ℤ} (h : Synced w r t) (W : Write UInt8 → Prop) : Wrote W w t :=
  Wrote.of_frame h.frame h.ready (fun _ hs _ => h.settled.sat hs) fun n hn _ => h.below n hn

theorem WipedSoFar.trans {fsType : ℤ} {w t u : World Stick} (h : Quiet w t) (h' : WipedSoFar fsType t u) :
    WipedSoFar fsType w u := by
  obtain ⟨⟨rs, hf, hrs⟩, hw⟩ := h'
  rw [h.frame.driveOffset] at hw
  exact ⟨⟨rs, h.frame.trans hf, hrs⟩, (h.wrote _).trans hw⟩

theorem wp_usbScsiWipePartitionHead {w : World Stick} (hw : Ready w)
    (hoff : w.drv.gDriveOffsetSectors ≤ 4096) (fuel : ℕ) (fsType : ℤ) :
    Prog.wp (usbScsiWipePartitionHead stick fuel fsType) (fun _ t => Wiped fsType w t)
      (fun t => WipedSoFar fsType w t ∧ fuel ≤ 262144) w := by
  obtain ⟨hlo, hhi, hdvd⟩ := wipeSize_bounds fsType
  have hq : Quiet w { w with dev := { w.dev with mallocs := w.dev.mallocs + 1 } } := Quiet.of_dev hw rfl rfl
  rw [usbScsiWipePartitionHead, Prog.wp_bind, wp_malloc]
  refine Prog.wp_ite ?_ ?_
  · intro hno
    have hfail : ¬Faultless w.dev.spec := fun hf =>
      absurd ((hf.heap w.dev.mallocs).symm.trans hno) (by decide)
    refine ⟨WipedSoFar.trans hq ?_, hq.empty, fun hf => absurd hf hfail⟩
    exact (Asked.refl hq.ready).wiped fun _ h => absurd h List.not_mem_nil
  · intro _
    have hchunks := wp_wipeChunks hq.ready hoff fuel
      ((List.range (wipeSize fsType / 262144)).map (· * 262144)) fun o ho => by
        obtain ⟨i, hi, rfl⟩ := List.mem_map.mp ho
        have := List.mem_range.mp hi
        exact ⟨by omega, by omega⟩
    rw [Prog.wp_bind]
    refine Prog.wp_mono hchunks ?_ ?_
    · rintro _ t ⟨rs, ht⟩
      rw [Prog.wp_bind]
      refine Prog.wp_mono (wp_usbScsiSync ht.asked.wrote.ready) ?_ (fun _ h => h.elim)
      intro r u hu
      have hsofar : WipedSoFar fsType w t := WipedSoFar.trans hq (ht.asked.wiped ht.mem)
      obtain ⟨⟨rs', hframe, hrs'⟩, hwrote⟩ := hsofar
      refine ⟨⟨⟨rs', by rw [← List.append_nil rs']; exact hframe.trans hu.frame, hrs'⟩,
        hwrote.trans (hu.wrote _)⟩, fun _ => hu.empty, fun hf i hi => ?_⟩
      -- nothing is lost, so the medium is the view with every chunk cleared
      obtain ⟨hland, hall⟩ := ht.full hf
      have hlt : Lossless t u := hu.frame.lossless (ht.asked.frame.spec ▸ hf)
      have hmedium : u.dev.medium = (store t).view := hu.settled.medium_eq (not_not_intro hlt)
      rw [hmedium, hland.view (ht.asked.frame.lossless hf)]
      refine writeAll_of_forall (p := (· = 0)) _ (fun v hv _ _ => ?_) (.inr ?_)
      · obtain ⟨q, hq, rfl⟩ := List.mem_map.mp hv
        obtain ⟨o, -, rfl⟩ := ht.mem q hq
        rfl
      · have hin : i / 262144 * 262144 ∈ (List.range (wipeSize fsType / 262144)).map (· * 262144) :=
          List.mem_map_of_mem (List.mem_range.mpr (by omega))
        refine ⟨_, List.mem_map_of_mem (hall _ hin), ?_⟩
        change i / 262144 * 262144 + w.drv.gDriveOffsetSectors * 512 ≤ _ ∧
          _ < i / 262144 * 262144 + w.drv.gDriveOffsetSectors * 512 + 262144
        omega
    · rintro t ⟨⟨rs, ht, hrs⟩, hf⟩
      exact ⟨WipedSoFar.trans hq (ht.wiped hrs), hf⟩

end FormatStick
