import FormatStick.Stable
import FormatStick.Runs
import FormatStick.Success

/-!
# Sessions in one process

The sessions of a process share the driver's globals, whatever stick each of them
finds. A session that passes the size check on what an earlier one left formats with
a stranger's geometry; every other session that writes has asked its own stick.
-/
namespace FormatStick
open Splice Prog Runs

variable {δ : Type}

/-- A session of the process: what the app asks for, and the device that is there. -/
structure FormatSession (δ : Type) where
  dev : δ
  fd : ℤ
  clusterSize : ℤ
  partitionType : ℤ
  fsType : ℤ
  engine : ℕ → Engine

namespace FormatSession

variable (P : Platform δ) (fuel : ℕ) (w : World δ) (x : FormatSession δ)

/-- The device is plugged in. -/
def start : World δ := { w with dev := x.dev }

/-- `startStableFormat` in the state that the process is in. -/
def run : World δ :=
  (startStableFormat P fuel (fun part => (x.engine part).run P fuel) x.fd x.clusterSize
    x.partitionType x.fsType
    (x.start w)).2

/-- The sector count that the size check asks for more than. -/
def leastSectors : ℕ := alignedOffset x.partitionType + reservedEnd x.partitionType

end FormatSession

/-- `g_sector_count` and `g_sector_size` as READ CAPACITY(10) returns them, in at most
`tries` times. -/
def capacity (P : Platform δ) : ℕ → Prog (World δ) (Option (ℕ × ℕ))
  | 0 => pure none
  | tries + 1 => do
    let r ← scsiCommand P ⟨[0x25, 0, 0, 0, 0, 0, 0, 0, 0, 0], 0x80, 8⟩ zeros
    if r.1 = 0 then pure (some (be32 r.2 0 + 1, be32 r.2 4)) else capacity P tries

/-- `usb_scsi_init` up to the assignment of what READ CAPACITY returned. -/
def probe (P : Platform δ) (handle : ℕ) : Prog (World δ) (Option (ℕ × ℕ)) := do
  assign fun g => { g with
    usb := { g.usb with gUsbHandle := some handle }
    gDriveOffsetSectors := 0
    gPartitionSectors := 0
    gPartitionType := 0
    gCurPos := 0 }
  let conf ← activeConfig P handle
  match conf with
  | none => pure none
  | some conf => do
    assign fun g => { g with
      usb := { g.usb with gEpIn := (bulkEndpoints conf).1, gEpOut := (bulkEndpoints conf).2 } }
    if (bulkEndpoints conf).1 = 0 ∨ (bulkEndpoints conf).2 = 0 then pure none
    else do
      let _ ← scsiCommand P ⟨[0x12, 0, 0, 0, 36, 0], 0x80, 36⟩ zeros
      testUnitReady P 3
      capacity P 5

/-- The geometry that a session reads from its device, if it does. -/
def ownCapacity (P : Platform δ) (fd : ℤ) : Prog (World δ) (Option (ℕ × ℕ)) := do
  let handle ← wrapSysDevice P fd
  match handle with
  | none => pure none
  | some handle => probe P handle

/-- What READ CAPACITY returned becomes the driver's geometry. -/
def adopt (v : Option (ℕ × ℕ)) (w : World δ) : World δ :=
  match v with
  | none => w
  | some v => { w with drv := { w.drv with gSectorCount := v.1, gSectorSize := v.2 } }

theorem adopt_geometry (v : ℕ × ℕ) (w : World δ) : Geometry v (adopt (some v) w) := rfl

/-- Commands were sent that satisfy `p`, and the geometry is as it was. So is the flag for
SYNCHRONIZE CACHE, if that command is not among them. -/
structure Sends (p : Cmd → Prop) (w t : World δ) : Prop where
  geometry : Geometry (w.drv.gSectorCount, w.drv.gSectorSize) t
  sync : (∀ c, p c → c.opcode ≠ 0x35) → t.drv.gSyncCacheSupported = w.drv.gSyncCacheSupported
  sent : ∃ es, t.trace = w.trace ++ es ∧ ∀ e ∈ es, p e.cmd

namespace Sends

variable {p : Cmd → Prop} {w t u : World δ}

theorem of_trace (hg : Geometry (w.drv.gSectorCount, w.drv.gSectorSize) t)
    (hs : t.drv.gSyncCacheSupported = w.drv.gSyncCacheSupported) (h : t.trace = w.trace) : Sends p w t :=
  ⟨hg, fun _ => hs, [], h.trans (List.append_nil _).symm, fun _ he => absurd he List.not_mem_nil⟩

theorem trans (h : Sends p w t) (h' : Sends p t u) : Sends p w u := by
  obtain ⟨hg, hs, es, hes, hp⟩ := h
  obtain ⟨hg', hs', fs, hfs, hp'⟩ := h'
  refine ⟨hg'.trans hg, fun hsync => (hs' hsync).trans (hs hsync), es ++
    fs, by rw [hfs, hes, List.append_assoc], fun e he => ?_⟩
  rcases List.mem_append.mp he with he | he
  · exact hp e he
  · exact hp' e he

theorem mono {q : Cmd → Prop} (h : Sends p w t) (hpq : ∀ c, p c → q c) : Sends q w t := by
  obtain ⟨hg, hs, es, hes, hp⟩ := h
  exact ⟨hg, fun hq => hs fun c hc => hq c (hpq c hc), es, hes, fun e he => hpq e.cmd (hp e he)⟩

end Sends

/-- The three commands of `usb_scsi_init` satisfy `p`. -/
def Probes (p : Cmd → Prop) : Prop :=
  p ⟨[0x12, 0, 0, 0, 36, 0], 0x80, 36⟩ ∧ p ⟨[0x00, 0, 0, 0, 0, 0], 0x00, 0⟩ ∧
    p ⟨[0x25, 0, 0, 0, 0, 0, 0, 0, 0, 0], 0x80, 8⟩

section Probe

variable (P : Platform δ) {p : Cmd → Prop} {w : World δ}

/-- `scsi_command` sends what it is given and nothing else. -/
theorem wp_scsiCommand_sends {c : Cmd} (hp : p c) (data : Buf) :
    Prog.wp (scsiCommand P c data) (fun _ t => Sends p w t) (fun _ => False) w := by
  refine wp_mono (wp_scsiCommand_commanded P c data) (fun _ t ht => ?_) fun _ h => h
  cases ht with
  | skipped _ => exact Sends.of_trace rfl rfl rfl
  | sent _ e _ hcmd htrace _ hdrv hsync =>
    obtain ⟨u, b, hdrv⟩ := hdrv
    refine ⟨by rw [Geometry, hdrv], fun hp' => ?_, [e], htrace, fun f hf => ?_⟩
    · have hop : ¬e.Unsupported := fun h => hp' c hp (hcmd ▸ h.1)
      rw [or_iff_left hop] at hsync
      cases h : w.drv.gSyncCacheSupported with
      | false => exact hsync.mpr h
      | true => exact eq_true_of_ne_false fun h' => absurd ((hsync.mp h').symm.trans h) (by decide)
    · rw [List.mem_singleton.mp hf, hcmd]
      exact hp

theorem wp_testUnitReady_sends (hp : p ⟨[0x00, 0, 0, 0, 0, 0], 0x00, 0⟩) (tries : ℕ) :
    Prog.wp (testUnitReady P tries) (fun _ t => Sends p w t) (fun _ => False) w := by
  induction tries generalizing w with
  | zero => exact Sends.of_trace rfl rfl rfl
  | succ tries ih =>
    rw [testUnitReady, wp_bind]
    refine wp_mono (wp_scsiCommand_sends P hp _) (fun r t ht => ?_) (fun _ h => h)
    exact wp_ite (fun _ => ht) fun _ => wp_mono ih (fun _ _ hu => ht.trans hu) fun _ h => h

theorem wp_capacity_sends (hp : p ⟨[0x25, 0, 0, 0, 0, 0, 0, 0, 0, 0], 0x80, 8⟩) (tries : ℕ) :
    Prog.wp (capacity P tries) (fun _ t => Sends p w t) (fun _ => False) w := by
  induction tries generalizing w with
  | zero => exact Sends.of_trace rfl rfl rfl
  | succ tries ih =>
    rw [capacity, wp_bind]
    refine wp_mono (wp_scsiCommand_sends P hp _) (fun r t ht => ?_) (fun _ h => h)
    exact wp_ite (fun _ => ht) fun _ => wp_mono ih (fun _ _ hu => ht.trans hu) fun _ h => h

theorem wp_wrapSysDevice_platform {Q : Option ℕ → World δ → Prop} {D : World δ → Prop} (fd : ℤ) :
    Prog.wp (wrapSysDevice P fd) Q D w ↔
      Q (P.wrapSysDevice fd w.dev).1 { w with dev := (P.wrapSysDevice fd w.dev).2 } := Iff.rfl

theorem wp_activeConfig_platform {Q : Option (List Interface) → World δ → Prop} {D : World δ → Prop}
    (handle : ℕ) :
    Prog.wp (activeConfig P handle) Q D w ↔
      Q (P.activeConfig handle w.dev).1 { w with dev := (P.activeConfig handle w.dev).2 } := Iff.rfl

/-- The device is asked for three things. -/
theorem wp_probe_sends (hp : Probes p) (handle : ℕ) :
    Prog.wp (probe P handle) (fun _ t => Sends p w t) (fun _ => False) w := by
  rw [probe, wp_bind, wp_assign, wp_bind, wp_activeConfig_platform]
  cases (P.activeConfig handle w.dev).1 with
  | none => exact Sends.of_trace rfl rfl rfl
  | some conf =>
    rw [wp_bind, wp_assign]
    refine wp_ite (fun _ => Sends.of_trace rfl rfl rfl) fun _ => ?_
    rw [wp_bind]
    refine wp_mono (wp_scsiCommand_sends P hp.1 _) (fun _ t ht => ?_) (fun _ h => h)
    rw [wp_bind]
    refine wp_mono (wp_testUnitReady_sends P hp.2.1 3) (fun _ u hu => ?_) (fun _ h => h)
    refine wp_mono (wp_capacity_sends P hp.2.2 5) (fun _ y hy => ?_) (fun _ h => h)
    refine Sends.trans ?_ (ht.trans (hu.trans hy))
    exact Sends.of_trace rfl rfl rfl

theorem wp_readCapacity_adopt {Q : Unit → World δ → Prop} {D : World δ → Prop} (tries : ℕ)
    (h : Prog.wp (capacity P tries) (fun v t => Q () (adopt v t)) D w) :
    Prog.wp (readCapacity P tries) Q D w := by
  induction tries generalizing w with
  | zero => exact h
  | succ tries ih =>
    rw [capacity, wp_bind] at h
    rw [readCapacity, wp_bind]
    refine wp_mono h (fun r t ht => ?_) (fun _ h => h)
    by_cases hr : r.1 = 0
    · rw [if_pos hr] at ht ⊢
      exact ht
    · rw [if_neg hr] at ht ⊢
      exact ih ht

/-- `usb_scsi_init` adopts what its probe returns. -/
theorem wp_usbScsiInit_adopt {Q : Unit → World δ → Prop} {D : World δ → Prop} (handle : ℕ)
    (h : Prog.wp (probe P handle) (fun v t => Q () (adopt v t)) D w) :
    Prog.wp (usbScsiInit P handle) Q D w := by
  rw [probe, wp_bind, wp_assign, wp_bind, wp_activeConfig_platform] at h
  rw [usbScsiInit, wp_bind, wp_assign, wp_bind, wp_activeConfig_platform]
  cases hconf : (P.activeConfig handle w.dev).1 with
  | none =>
    rw [hconf] at h
    exact h
  | some conf =>
    simp only [hconf] at h
    rw [wp_bind, wp_assign] at h ⊢
    by_cases heps : (bulkEndpoints conf).1 = 0 ∨ (bulkEndpoints conf).2 = 0
    · rw [if_pos heps] at h ⊢
      exact h
    · rw [if_neg heps, wp_bind] at h ⊢
      refine wp_mono h (fun _ t ht => ?_) (fun _ h => h)
      rw [wp_bind] at ht ⊢
      exact wp_mono ht (fun _ u hu => wp_readCapacity_adopt P 5 hu) (fun _ h => h)

end Probe

/-- A WRITE(10) was sent on the way from `w` to `t`. -/
def Writes (w t : World δ) : Prop := ∃ e ∈ t.trace.drop w.trace.length, e.cmd.opcode = 0x2a

theorem Sends.not_writes {w t : World δ} (h : Sends (fun c => c.opcode ≠ 0x2a) w t) : ¬Writes w t := by
  obtain ⟨-, -, es, hes, hp⟩ := h
  rintro ⟨e, he, hop⟩
  rw [hes, List.drop_left] at he
  exact hp e he hop

theorem Sends.writes {p : Cmd → Prop} {w t u : World δ} {e : Sent} (h : Sends p w t)
    (he : t.trace ++ [e] <+: u.trace) (hop : e.cmd.opcode = 0x2a) : Writes w u := by
  obtain ⟨-, -, es, hes, -⟩ := h
  obtain ⟨fs, hfs⟩ := he
  refine ⟨e, ?_, hop⟩
  rw [← hfs, hes, List.append_assoc, List.append_assoc, List.drop_left]
  exact List.mem_append_right _ (List.mem_append_left _ (List.mem_singleton_self e))

section Session

variable (P : Platform δ) (fuel : ℕ) (w : World δ) (x : FormatSession δ)

/-- The geometry that the session's device returned. -/
def own : Option (Option (ℕ × ℕ)) := (ownCapacity P x.fd (x.start w)).1

/-- The buffer that the first wipe clears is there. -/
def Allocated : Prop := (P.malloc (ownCapacity P x.fd (x.start w)).2.dev).1 = true

/-- If the session writes, READ CAPACITY succeeded for it, and the driver has the geometry
that it returned. -/
def OwnGeometry : Prop := Writes w (x.run P fuel w) →
  ∃ v, own P w x = some (some v) ∧ Geometry v (x.run P fuel w)

/-- What keeps a session from writing with an earlier stick's geometry. -/
inductive Grounded : Prop
  | unopened (h : (P.wrapSysDevice x.fd x.dev).1 = none)
  | read (v : ℕ × ℕ) (h : own P w x = some (some v))
  | refused (h : w.drv.gSectorCount ≤ x.leastSectors)
  | starved (h : ¬Allocated P w x)

variable {P w}

/-- The geometry is `v`, and a WRITE(10) followed what was sent in `w`. -/
def WritesOn (v : ℕ × ℕ) (w t : World δ) : Prop :=
  ∃ e : Sent, e.cmd.opcode = 0x2a ∧ Steady v (w.trace ++ [e]) t

theorem keeps_writesOn {α : Type} {v : ℕ × ℕ} {m : Prog (World δ) α} (h : ∀ l, Keeps (Steady v l) m) :
    Keeps (WritesOn v w) m := by
  rintro t ⟨e, hop, ht⟩
  exact ⟨e, hop, h _ t ht⟩

theorem wp_write10_writesOn {v : ℕ × ℕ} (hw : Geometry v w) (lba blocks : ℕ) (data : Buf) (len : ℕ) :
    Prog.wp (write10 P lba blocks data len) (fun _ t => WritesOn v w t) (fun _ => False) w := by
  have hop : (Cmd.mk (cdb10 0x2a lba blocks) 0x00 len).opcode ≠ 0x35 := by
    show (0x2a : UInt8) ≠ 0x35
    decide
  rw [write10, wp_bind, scsiCommand, wp_bind, wp_globals, if_neg fun h => hop h.1, wp_bind, wp_transact]
  split
  · exact ⟨_, rfl, hw, List.prefix_rfl⟩
  · refine wp_ite (fun _ => ⟨_, rfl, hw, List.prefix_rfl⟩) fun _ => wp_ite (fun h => absurd h hop) fun _ => ?_
    rw [wp_bind, wp_sense]
    exact ⟨_, rfl, hw, List.prefix_rfl⟩

/-- What a session that passed the size check with geometry `v` has done: it has kept the
geometry, and it has written unless it found no memory. -/
def Formats (P : Platform δ) (v : ℕ × ℕ) (w t : World δ) : Prop :=
  if (P.malloc w.dev).1 = true then WritesOn v w t else Sends (fun _ => False) w t

/-- The wipe of the old MBR starts with a WRITE(10), if it has its buffer; without it the
session goes no further. -/
theorem wp_usbScsiWipeMbr_writesOn {v : ℕ × ℕ} (hw : Geometry v w) :
    Prog.wp (usbScsiWipeMbr P) (fun _ t => (P.malloc w.dev).1 = true ∧ WritesOn v w t)
      (fun t => Formats P v w t) w := by
  rw [usbScsiWipeMbr, wp_bind, wp_malloc]
  refine wp_ite (fun hno => ?_) fun hyes => ?_
  · rw [wp_cut, Formats, if_neg (by rw [hno]; decide)]
    exact Sends.of_trace rfl rfl rfl
  · rw [Bool.not_eq_false] at hyes
    simp only [Formats, hyes, true_and, if_true]
    rw [wp_bind, show List.range 16 = 0 :: (List.range 15).map (· + 1) from rfl, List.map_cons,
      writeEach, wp_bind]
    refine wp_mono (wp_write10_writesOn (v := v) (by exact hw) _ _ _ _) (fun r t ht => ?_) (fun _ h => h.elim)
    have heach : Keeps (WritesOn v w) (if r ≠ 0 then pure false
        else writeEach P 128 (((List.range 15).map (· + 1)).map fun i => (128 * i, zeros))) :=
      keeps_writesOn fun l =>
        Keeps.ite (keeps_pure _) ((steady P v l).writeEach (by decide) (Nat.le_refl _) _)
    refine wp_mono (heach.wp ht) (fun _ u hu => ?_) (fun _ h => h)
    have hsync : Keeps (WritesOn v w) (do
        let _ ← syncCache P
        pure 0 : Prog (World δ) ℤ) := keeps_writesOn fun l =>
      (steady P v l).syncCache.bind fun _ => keeps_pure _
    exact hsync.wp hu

theorem Formats.geometry {t : World δ} (h : Formats P (w.drv.gSectorCount, w.drv.gSectorSize) w t) :
    Geometry (w.drv.gSectorCount, w.drv.gSectorSize) t := by
  rw [Formats] at h
  split_ifs at h
  · obtain ⟨e, -, he⟩ := h
    exact he.geometry
  · exact h.geometry

/-- The session from the size check on. -/
def formatOn (P : Platform δ) (fuel : ℕ) (x : FormatSession δ) (part : ℕ) : Prog (World δ) Bool := do
  createPartition P x.partitionType x.fsType part
  let _ ← usbScsiWipePartitionHead P fuel x.fsType
  let formatRes ← formatStage P fuel (fun part => (x.engine part).run P fuel) x.clusterSize x.fsType part
  let _ ← usbScsiSync P
  pure (decide (formatRes = 0))

theorem Stable.formatOn {I : World δ → Prop} (hI : Stable P I) (part : ℕ) :
    Keeps I (formatOn P fuel x part) := by
  refine (hI.createPartition hI.offset hI.size _ _ _).bind fun _ => (hI.wipeHead fuel _).bind fun _ => ?_
  refine (hI.formatStage fuel (fun _ => hI.engine fuel _) _ _ _).bind fun _ => ?_
  exact hI.usbScsiSync.bind fun _ => keeps_pure _

/-- The session from the size check on: the wipe of the old tables and the format. -/
def passed (P : Platform δ) (fuel : ℕ) (x : FormatSession δ) (part : ℕ) : Prog (World δ) Bool := do
  usbScsiSetPartitionType x.partitionType
  let _ ← usbScsiWipeMbr P
  let _ ← usbScsiWipeTail P
  formatOn P fuel x part

/-- `part_sectors` on a device of geometry `v`. -/
def FormatSession.part (x : FormatSession δ) (v : ℕ × ℕ) : ℕ :=
  partSectors v.1 x.clusterSize x.partitionType x.fsType

/-- A session whose probe returned `v` in `u` ends there, or it goes on to format. -/
theorem startStableFormat_probed {handle : ℕ} (hhandle : (P.wrapSysDevice x.fd x.dev).1 = some handle)
    {v : Option (ℕ × ℕ)} {u : World δ} (hv : ownCapacity P x.fd (x.start w) = (some v, u)) :
    startStableFormat P fuel (fun part => (x.engine part).run P fuel) x.fd x.clusterSize
        x.partitionType x.fsType
        (x.start w) =
      if (adopt v u).drv.gSectorCount ≤ x.leastSectors then (some false, adopt v u)
      else passed P fuel x (x.part ((adopt v u).drv.gSectorCount, (adopt v u).drv.gSectorSize))
        (adopt v u) := by
  obtain ⟨t, ht⟩ : ∃ t : World δ, t = { x.start w with dev := (P.wrapSysDevice x.fd x.dev).2 } := ⟨_, rfl⟩
  have hwrap : wrapSysDevice P x.fd (x.start w) = (some (some handle), t) := by
    rw [ht, ← hhandle]
    rfl
  have hprobe : probe P handle t = (some v, u) := by
    rwa [ownCapacity, bind_of_returns hwrap] at hv
  have hinit : usbScsiInit P handle t = (some (), adopt v u) := by
    obtain ⟨_, y, hrun, hy⟩ := wp_returns (wp_usbScsiInit_adopt P (Q := fun _ y => y = adopt v u)
      (D := fun _ => False) (w := t) handle (by rw [wp, hprobe]))
    rw [hrun, hy]
  have hglobals : globals (adopt v u) = (some (adopt v u).drv, adopt v u) := rfl
  rw [startStableFormat, prepare, bind_bind, bind_of_returns hwrap]
  change ((usbScsiInit P handle >>= _) >>= _) t = _
  rw [bind_bind, bind_of_returns hinit, bind_bind, bind_of_returns hglobals]
  by_cases h : (adopt v u).drv.gSectorCount ≤ x.leastSectors
  · rw [if_pos h, if_pos (show _ ≤ alignedOffset x.partitionType + reservedEnd x.partitionType from h)]
    rfl
  · rw [if_neg h, if_neg (show ¬_ ≤ alignedOffset x.partitionType + reservedEnd x.partitionType from h)]
    simp only [bind_bind]
    rfl

/-- What a session that passes the size check ends with. -/
theorem run_of_probe {handle : ℕ} (hhandle : (P.wrapSysDevice x.fd x.dev).1 = some handle)
    {v : Option (ℕ × ℕ)} {u : World δ} (hv : ownCapacity P x.fd (x.start w) = (some v, u))
    {I : World δ → Prop} (hrefused : (adopt v u).drv.gSectorCount ≤ x.leastSectors → I (adopt v u))
    (hpassed : x.leastSectors < (adopt v u).drv.gSectorCount →
      Prog.wp (passed P fuel x (x.part ((adopt v u).drv.gSectorCount, (adopt v u).drv.gSectorSize)))
        (fun _ t => I t) I (adopt v u)) :
    I (x.run P fuel w) := by
  rw [FormatSession.run, startStableFormat_probed fuel x hhandle hv]
  split_ifs with h
  · exact hrefused h
  · exact wp_state (hpassed (Nat.lt_of_not_le h))

/-- The outcome of a session whose probe ended in `u`. -/
theorem run_probed {handle : ℕ} (hhandle : (P.wrapSysDevice x.fd x.dev).1 = some handle)
    {v : Option (ℕ × ℕ)} {u : World δ} (hv : ownCapacity P x.fd (x.start w) = (some v, u)) :
    (adopt v u).drv.gSectorCount ≤ x.leastSectors ∧ x.run P fuel w = adopt v u ∨
      x.leastSectors < (adopt v u).drv.gSectorCount ∧
        Formats P ((adopt v u).drv.gSectorCount, (adopt v u).drv.gSectorSize) (adopt v u)
          (x.run P fuel w) := by
  obtain ⟨g, hg⟩ : ∃ g, g = adopt v u := ⟨_, rfl⟩
  rw [← hg]
  refine run_of_probe fuel x hhandle hv (I := fun y => g.drv.gSectorCount ≤ x.leastSectors ∧ y = g ∨
    x.leastSectors < g.drv.gSectorCount ∧ Formats P (g.drv.gSectorCount, g.drv.gSectorSize) g y) ?_ ?_
  · rw [← hg]
    exact fun hle => .inl ⟨hle, rfl⟩
  rw [← hg]
  intro hlt
  have hformats : ∀ y, Formats P (g.drv.gSectorCount, g.drv.gSectorSize) g y →
      g.drv.gSectorCount ≤ x.leastSectors ∧ y = g ∨
        x.leastSectors < g.drv.gSectorCount ∧ Formats P (g.drv.gSectorCount, g.drv.gSectorSize) g y :=
    fun y hy => .inr ⟨hlt, hy⟩
  rw [passed, wp_bind, usbScsiSetPartitionType, wp_assign, wp_bind]
  refine wp_mono (wp_usbScsiWipeMbr_writesOn (v := (g.drv.gSectorCount, g.drv.gSectorSize)) rfl) ?_ ?_
  · rintro _ y ⟨ha, hy⟩
    -- the geometry and the WRITE(10) stay, whatever follows
    have hon : ∀ z, WritesOn (g.drv.gSectorCount, g.drv.gSectorSize) g z →
        Formats P (g.drv.gSectorCount, g.drv.gSectorSize) g z := fun z hz => by
      rw [Formats, if_pos ha]
      exact hz
    have htail : Keeps (WritesOn (g.drv.gSectorCount, g.drv.gSectorSize) g) (usbScsiWipeTail P) :=
      keeps_writesOn fun l => (steady P _ l).usbScsiWipeTail
    rw [wp_bind]
    refine wp_mono (htail.wp hy) (fun _ z hz => ?_) (fun z hz => hformats z (hon z hz))
    have hrest := keeps_writesOn (w := g) fun l =>
      (steady P (g.drv.gSectorCount, g.drv.gSectorSize) l).formatOn fuel x
      (x.part (g.drv.gSectorCount, g.drv.gSectorSize))
    exact wp_mono (hrest.wp hz) (fun _ z hz => hformats z (hon z hz)) (fun z hz => hformats z (hon z hz))
  · intro y hy
    refine hformats y ?_
    rw [Formats] at hy ⊢
    refine ite_prop_iff_or.mpr ?_
    exact (ite_prop_iff_or.mp hy).imp id fun h => ⟨h.1, h.2.geometry, h.2.sync, h.2.sent⟩

theorem ownCapacity_returns (p : Cmd → Prop) (hp : Probes p) :
    ∃ v u, ownCapacity P x.fd (x.start w) = (some v, u) ∧ Sends p w u := by
  refine wp_returns ?_
  rw [ownCapacity, wp_bind, wp_wrapSysDevice_platform]
  cases (P.wrapSysDevice x.fd (x.start w).dev).1 with
  | none => exact Sends.of_trace rfl rfl rfl
  | some handle =>
    refine wp_mono (wp_probe_sends P hp handle) (fun _ t ht => ?_) (fun _ h => h)
    exact ⟨ht.geometry, ht.sync, ht.sent⟩

theorem wrapSysDevice_of_own {w : World δ} {x : FormatSession δ} {v : ℕ × ℕ} {u : World δ}
    (hv : ownCapacity P x.fd (x.start w) = (some (some v), u)) :
    ∃ handle, (P.wrapSysDevice x.fd x.dev).1 = some handle := by
  cases hhandle : (P.wrapSysDevice x.fd x.dev).1 with
  | some handle => exact ⟨handle, rfl⟩
  | none =>
    have hwrap : wrapSysDevice P x.fd (x.start w) =
        (some none, { x.start w with dev := (P.wrapSysDevice x.fd x.dev).2 }) := by
      rw [← hhandle]
      rfl
    rw [ownCapacity, bind_of_returns hwrap] at hv
    cases congrArg Prod.fst hv

/-- A session works with its own geometry exactly where it is grounded. -/
theorem ownGeometry_iff : OwnGeometry P fuel w x ↔ Grounded P w x := by
  cases hhandle : (P.wrapSysDevice x.fd x.dev).1 with
  | none =>
    -- the session ends before it sends anything
    refine ⟨fun _ => .unopened hhandle, fun _ hwrites => absurd hwrites ?_⟩
    refine Sends.not_writes (wp_state (I := fun t => Sends _ w t) ?_)
    rw [startStableFormat, wp_bind, prepare, wp_bind, wp_wrapSysDevice_platform]
    have hno : (P.wrapSysDevice x.fd (x.start w).dev).1 = none := hhandle
    rw [hno]
    exact Sends.of_trace rfl rfl rfl
  | some handle =>
    obtain ⟨v, u, hv, hsends⟩ := ownCapacity_returns (P := P) (w := w) x (fun c => c.opcode ≠ 0x2a)
      ⟨by decide, by decide, by decide⟩
    have hown : own P w x = some v := congrArg Prod.fst hv
    cases v with
    | some v =>
      refine ⟨fun _ => .read v hown, fun _ hwrites => ⟨v, hown, ?_⟩⟩
      rcases run_probed fuel x hhandle hv with ⟨-, hrun⟩ | ⟨-, hf⟩
      · rw [hrun]
        exact adopt_geometry v u
      · exact hf.geometry
    | none =>
      have hcount : u.drv.gSectorCount = w.drv.gSectorCount := congrArg Prod.fst hsends.geometry
      have hallocated : Allocated P w x ↔ (P.malloc u.dev).1 = true := by
        rw [Allocated, hv]
      rcases run_probed fuel x hhandle hv with ⟨hle, hrun⟩ | ⟨hlt, hf⟩
      · have hquiet : ¬Writes w (x.run P fuel w) := by
          rw [hrun]
          exact hsends.not_writes
        exact ⟨fun _ => .refused (hcount ▸ hle), fun _ hwrites => absurd hwrites hquiet⟩
      · rw [Formats] at hf
        split_ifs at hf with ha
        · obtain ⟨e, hop, he⟩ := hf
          have hwrites : Writes w (x.run P fuel w) := hsends.writes he.sent hop
          constructor
          · intro h
            obtain ⟨v, hv', -⟩ := h hwrites
            exact absurd (hown.symm.trans hv') (by simp)
          · intro h
            cases h with
            | unopened h => exact absurd (hhandle.symm.trans h) (by simp)
            | read v h => exact absurd (hown.symm.trans h) (by simp)
            | refused h => exact absurd h (Nat.not_le_of_lt (hcount ▸ hlt))
            | starved h => exact absurd (hallocated.mpr ha) h
        · have hquiet : ¬Writes w (x.run P fuel w) :=
            (hsends.trans (hf.mono fun _ h => h.elim)).not_writes
          exact ⟨fun _ => .starved (mt hallocated.mp ha), fun _ hwrites => absurd hwrites hquiet⟩

end Session

/-- The sessions of a process that work with their own geometry throughout are those whose
sessions are grounded, each in the state that the earlier ones left. -/
theorem sessions_own_geometry (P : Platform δ) (fuel : ℕ) (w : World δ) (xs : List (FormatSession δ)) :
    Along (fun w x => x.run P fuel w) (OwnGeometry P fuel) w xs ↔
      Along (fun w x => x.run P fuel w) (Grounded P) w xs :=
  Along.congr fun _ x => ownGeometry_iff fuel x

/-- A FAT32 session on the stick that loses nothing. -/
def soundFat : FormatSession Stick := ⟨soundSession.dev, 0, 4096, 1, 1, fun _ => .done 0⟩

/-- The same on a larger stick that rejects READ CAPACITY all five times. -/
def deafFat : FormatSession Stick := { soundFat with
  dev := { soundSession.dev with spec := { soundSession.dev.spec with
    fate := fun i => if 2 ≤ i ∧ i < 7 then .rejected else .done
    lastLba := 1048575 } } }

/-- The larger stick is formatted as one of 70000 sectors. -/
theorem sessions_stale_geometry :
    ¬∀ xs : List (FormatSession Stick),
      Along (fun w x => x.run stick 4 w) (OwnGeometry stick 4) soundSession xs := by
  intro h
  obtain ⟨-, hstale, -⟩ := h [soundFat, deafFat]
  have hdeaf : own stick (soundFat.run stick 4 soundSession) deafFat = some none := by decide +kernel
  cases (ownGeometry_iff 4 deafFat).mp hstale with
  | unopened h => exact absurd h (by decide +kernel)
  | read v h => exact absurd (hdeaf.symm.trans h) (by simp)
  | refused h => exact absurd h (by decide +kernel)
  | starved h => exact h (by unfold Allocated; decide +kernel)

end FormatStick
