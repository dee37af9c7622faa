import FormatStick.BulkOnly

/-!
# What `scsi_command` accepts

The result codes of the transfers and the status byte: `scsi_command` looks at nothing
else. The number of bytes that a transfer moved, the signature, the tag and the residue
of the status wrapper are fetched and left alone. What a device has to do for a success
to be one is collected here, for single commands and for the passes of a read.
-/
namespace FormatStick
open Splice Fields

variable {δ : Type}

section Transfers

variable (B : Bus δ) (usb : Usb) (c : Cmd) (data : Buf) (d : δ)

/-- `cbw_pkt`. -/
def cbwPkt : Buf := cbw usb.gTag c.dataLen c.direction c.cdb

/-- `ep`. -/
def dataEp : UInt8 := if c.direction = 0x80 then usb.gEpIn else usb.gEpOut

/-- The transfer of the command block. -/
def blockTransfer : Transfer δ := usbTransfer B usb usb.gEpOut (cbwPkt usb c) 31 d

/-- The data phase, if there is one. -/
def dataTransfer : Transfer δ :=
  if 0 < c.dataLen then usbTransfer B usb (dataEp usb c) data c.dataLen (blockTransfer B usb c d).dev
  else ⟨0, data, (blockTransfer B usb c d).dev⟩

/-- The transfer of the status wrapper, into a cleared structure. -/
def statusTransfer : Transfer δ := usbTransfer B usb usb.gEpIn zeros 13 (dataTransfer B usb c data d).dev

/-- `csw_pkt`. -/
def cswPkt : Csw := .ofBytes (statusTransfer B usb c data d).data

/-- Every transfer is reported as a success, and the status byte is 0. -/
def Accepts : Prop :=
  (blockTransfer B usb c d).res = 0 ∧ (dataTransfer B usb c data d).res = 0 ∧
    (statusTransfer B usb c data d).res = 0 ∧ (cswPkt B usb c data d).status = 0

instance : Decidable (Accepts B usb c data d) := inferInstanceAs (Decidable (_ ∧ _))

variable (actual : UInt8 → Buf → ℕ → δ → ℕ)

/-- `actual` after the data phase: the bytes that it moved. -/
def delivered : ℕ :=
  if 0 < c.dataLen then actual (dataEp usb c) data c.dataLen (blockTransfer B usb c d).dev else 0

/-- The device took the whole command block, moved all of the data and confirmed this command;
`actual` is what libusb reports about the length of a transfer. -/
structure Confirms : Prop where
  wholeBlock : actual usb.gEpOut (cbwPkt usb c) 31 d = 31
  wholeData : delivered B usb c data d actual = c.dataLen
  wholeStatus : actual usb.gEpIn zeros 13 (dataTransfer B usb c data d).dev = 13
  signature : (cswPkt B usb c data d).signature = 0x53425355
  tag : (cswPkt B usb c data d).tag = usb.gTag
  residue : (cswPkt B usb c data d).dataResidue = 0

instance : Decidable (Confirms B usb c data d actual) :=
  decidable_of_iff (actual usb.gEpOut (cbwPkt usb c) 31 d = 31 ∧ delivered B usb c data d actual = c.dataLen ∧
      actual usb.gEpIn zeros 13 (dataTransfer B usb c data d).dev = 13 ∧
      (cswPkt B usb c data d).signature = 0x53425355 ∧ (cswPkt B usb c data d).tag = usb.gTag ∧
      (cswPkt B usb c data d).dataResidue = 0)
    ⟨fun ⟨h₁, h₂, h₃, h₄, h₅, h₆⟩ => ⟨h₁, h₂, h₃, h₄, h₅, h₆⟩,
      fun ⟨h₁, h₂, h₃, h₄, h₅, h₆⟩ => ⟨h₁, h₂, h₃, h₄, h₅, h₆⟩⟩

/-- The device has every transfer reported as a success and the status byte read as 0, and still
some transfer was short or the status wrapper is not one for this command without a residue. -/
def Deceives : Prop := Accepts B usb c data d ∧ ¬Confirms B usb c data d actual

end Transfers

/-- The exchange of one command, by its transfers. -/
theorem busExchange_eq (B : Bus δ) (usb : Usb) (c : Cmd) (data : Buf) (d : δ) :
    busExchange B usb c data d =
      let usb' := { usb with gTag := u32 (usb.gTag + 1) }
      if (blockTransfer B usb c d).res ≠ 0 then ⟨none, data, usb', (blockTransfer B usb c d).dev⟩
      else if (dataTransfer B usb c data d).res ≠ 0 then
        ⟨none, (dataTransfer B usb c data d).data, usb', (dataTransfer B usb c data d).dev⟩
      else if (statusTransfer B usb c data d).res ≠ 0 then
        ⟨none, (dataTransfer B usb c data d).data, usb', (statusTransfer B usb c data d).dev⟩
      else ⟨some (cswPkt B usb c data d), (dataTransfer B usb c data d).data, usb',
        (statusTransfer B usb c data d).dev⟩ :=
  rfl

/-- The status wrapper that `scsi_command` has to judge by. -/
theorem busExchange_csw (B : Bus δ) (usb : Usb) (c : Cmd) (data : Buf) (d : δ) :
    (∃ s, (busExchange B usb c data d).csw = some s ∧ s.status = 0) ↔ Accepts B usb c data d := by
  rw [busExchange_eq, Accepts]
  by_cases h₁ : (blockTransfer B usb c d).res = 0
  · by_cases h₂ : (dataTransfer B usb c data d).res = 0
    · by_cases h₃ : (statusTransfer B usb c data d).res = 0
      · simp [h₁, h₂, h₃]
      · simp [h₁, h₂, h₃]
    · simp [h₁, h₂]
  · simp [h₁]

/-- The return value of `scsi_command` for a command that is not SYNCHRONIZE CACHE. -/
theorem scsiCommand_returns (B : Bus δ) (host : Platform δ) (w : World δ) (c : Cmd) (data : Buf)
    (hop : c.opcode ≠ 0x35) : ∃ b t, scsiCommand (bulkOnly B host) c data w =
      (some (if Accepts B w.drv.usb c data w.dev then 0 else -1, b), t) := by
  have haccept := busExchange_csw B w.drv.usb c data w.dev
  rw [scsiCommand, Prog.bind_of_returns (show globals w = (some w.drv, w) from rfl), if_neg fun h => hop h.1]
  obtain ⟨t, ht⟩ : ∃ t, transact (bulkOnly B host) c data w =
      (some ((busExchange B w.drv.usb c data w.dev).csw, (busExchange B w.drv.usb c data w.dev).data), t) :=
        ⟨_, rfl⟩
  rw [Prog.bind_of_returns ht]
  cases hcsw : (busExchange B w.drv.usb c data w.dev).csw with
  | none =>
    rw [hcsw] at haccept
    have hno : ¬Accepts B w.drv.usb c data w.dev := fun h => by
      obtain ⟨s, hs, -⟩ := haccept.mpr h
      cases hs
    simp only [if_neg hno]
    exact ⟨_, _, rfl⟩
  | some s =>
    rw [hcsw] at haccept
    by_cases hs : s.status = 0
    · rw [if_pos (haccept.mp ⟨s, rfl, hs⟩)]
      simp only [hs, if_true]
      exact ⟨_, _, rfl⟩
    · have hno : ¬Accepts B w.drv.usb c data w.dev := fun h => by
        obtain ⟨s', hs', h₀⟩ := haccept.mpr h
        exact hs (Option.some.inj hs' ▸ h₀)
      simp only [if_neg hno, hs, hop, if_false]
      exact ⟨_, _, rfl⟩

section Reads

variable (B : Bus δ) (host : Platform δ) (actual : UInt8 → Buf → ℕ → δ → ℕ) (w : World δ)

/-- `scsi_command` returns 0 for a command other than SYNCHRONIZE CACHE only if the device confirmed it. -/
def ReturnsConfirmed (c : Cmd) (data : Buf) : Prop :=
  c.opcode ≠ 0x35 → ∀ b t, scsiCommand (bulkOnly B host) c data w = (some (0, b), t) →
    (cswPkt B w.drv.usb c data w.dev).status = 0 ∧ Confirms B w.drv.usb c data w.dev actual

/-- The length of the READ(10) of one pass. -/
def readLen (sectorSize offsetInSector remaining : ℕ) : ℕ :=
  let sectors := u32 (remaining + offsetInSector + sectorSize - 1) / sectorSize
  u32 ((if sectors > 2048 then 2048 else sectors : ℕ) * sectorSize)

/-- The READ(10) of one pass. -/
def readCmd (sectorSize lba offsetInSector remaining : ℕ) : Cmd :=
  let sectors := u32 (remaining + offsetInSector + sectorSize - 1) / sectorSize
  ⟨cdb10 0x28 lba (if sectors > 2048 then 2048 else sectors), 0x80,
    readLen sectorSize offsetInSector remaining⟩

/-- The driver once the pass has flushed the cache. -/
def flushed : World δ := (scsiFlushCacheInternal (bulkOnly B host) w).2

/-- One pass of a read copies only bytes of the bounce buffer that its READ(10) delivered. -/
def CopiesDelivered (buf : Buf) (totalDone lba offsetInSector remaining : ℕ) : Prop :=
  let u := flushed B host w
  let c := readCmd u.drv.gSectorSize lba offsetInSector remaining
  ∀ k b t, readPass (bulkOnly B host) buf totalDone lba offsetInSector remaining w = (some (some (k, b)), t) →
    ∀ i < k, offsetInSector + i < delivered B u.drv.usb c u.drv.gBounceBuffer u.dev actual

end Reads

/-- A command always comes to an end. -/
theorem wp_scsiCommand_ends (P : Platform δ) (c : Cmd) (data : Buf) (w : World δ) :
    Prog.wp (scsiCommand P c data) (fun _ _ => True) (fun _ => False) w := by
  rw [scsiCommand, Prog.wp_bind, wp_globals]
  refine Prog.wp_ite (fun _ => trivial) fun _ => ?_
  rw [Prog.wp_bind, wp_transact]
  cases (P.exchange w.drv.usb c data w.dev).csw with
  | none => trivial
  | some csw => exact Prog.wp_ite (fun _ => trivial) fun _ => Prog.wp_ite (fun _ => trivial) fun _ => trivial

theorem scsiFlushCacheInternal_ends (P : Platform δ) (w : World δ) :
    ∃ r, scsiFlushCacheInternal P w = (some r, (scsiFlushCacheInternal P w).2) := by
  have hwp : Prog.wp (scsiFlushCacheInternal P) (fun _ _ => True) (fun _ => False) w := by
    rw [scsiFlushCacheInternal, Prog.wp_bind, wp_globals]
    cases w.drv.gWriteCache with
    | none => trivial
    | some cache =>
      refine Prog.wp_ite (fun _ => trivial) fun _ => ?_
      rw [Prog.wp_bind, wp_writeCache, write10, Prog.wp_bind]
      exact Prog.wp_mono (wp_scsiCommand_ends P _ cache w) (fun _ _ _ => trivial) fun _ h => h
  obtain ⟨r, t, hr, -⟩ := Prog.wp_returns hwp
  exact ⟨r, by rw [hr]⟩

section Reads

variable {B : Bus δ} {host : Platform δ} {actual : UInt8 → Buf → ℕ → δ → ℕ} {w : World δ}

/-- A success is one, exactly where the device does not deceive. -/
theorem returnsConfirmed_iff (c : Cmd) (data : Buf) :
    ReturnsConfirmed B host actual w c data ↔
      (c.opcode ≠ 0x35 → ¬Deceives B w.drv.usb c data w.dev actual) := by
  refine imp_congr_right fun hop => ?_
  obtain ⟨b, t, hrun⟩ := scsiCommand_returns B host w c data hop
  rw [hrun]
  constructor
  · rintro h ⟨hacc, hno⟩
    rw [if_pos hacc] at h
    exact hno (h b t rfl).2
  · intro h b' t' heq
    by_cases hacc : Accepts B w.drv.usb c data w.dev
    · exact ⟨hacc.2.2.2, not_not.mp fun hno => h ⟨hacc, hno⟩⟩
    · rw [if_neg hacc] at heq
      exact absurd (Prod.mk.inj (Option.some.inj (Prod.mk.inj heq).1)).1 (by decide)

/-- The bytes that a pass copies, once its READ(10) was accepted. -/
def toCopy (sectorSize offsetInSector remaining : ℕ) : ℕ :=
  let canCopy := u32 ((readLen sectorSize offsetInSector remaining : ℤ) - offsetInSector)
  if remaining < canCopy then remaining else canCopy

/-- A pass, by the READ(10) that it sends once the cache is flushed. -/
theorem readPass_returns (B : Bus δ) (host : Platform δ) (w : World δ) (buf : Buf)
    (totalDone lba offsetInSector remaining : ℕ) :
    let u := flushed B host w
    let c := readCmd u.drv.gSectorSize lba offsetInSector remaining
    ∃ b t, readPass (bulkOnly B host) buf totalDone lba offsetInSector remaining w =
      (some (if Accepts B u.drv.usb c u.drv.gBounceBuffer u.dev then
        some (toCopy u.drv.gSectorSize offsetInSector remaining, b) else none), t) := by
  intro u c
  obtain ⟨r, hflush⟩ := scsiFlushCacheInternal_ends (bulkOnly B host) w
  have hop : c.opcode ≠ 0x35 := by
    change (0x28 : UInt8) ≠ 0x35
    decide
  obtain ⟨b, t, hread⟩ := scsiCommand_returns B host u c u.drv.gBounceBuffer hop
  let sectors := u32 (remaining + offsetInSector + u.drv.gSectorSize - 1) / u.drv.gSectorSize
  let sectors := if sectors > 2048 then 2048 else sectors
  have hbounce : readBounce (bulkOnly B host) lba sectors c.dataLen u =
      (some (if Accepts B u.drv.usb c u.drv.gBounceBuffer u.dev then 0 else -1, b), { t with
        drv := { t.drv with gBounceBuffer := b }
        accesses := t.accesses ++ [⟨.gBounceBuffer, 0, c.dataLen, bounceSize⟩] }) := by
    have hglobals : (globals : Prog (World δ) Driver) u = (some u.drv, u) := rfl
    rw [readBounce, Prog.bind_of_returns hglobals]
    exact Prog.bind_of_returns hread
  have hpass : readPass (bulkOnly B host) buf totalDone lba offsetInSector remaining w =
      (do
        let r ← readBounce (bulkOnly B host) lba sectors c.dataLen
        if r.1 ≠ 0 then pure none
        else do
          let toCopy := toCopy u.drv.gSectorSize offsetInSector remaining
          let buf ← copyFromBounce buf totalDone r.2 offsetInSector toCopy
          pure (some (toCopy, buf)) :
        Prog (World δ) (Option (ℕ × Buf))) u := by
    rw [readPass, Prog.bind_of_returns hflush]
    rfl
  rw [hpass, Prog.bind_of_returns hbounce]
  by_cases hacc : Accepts B u.drv.usb c u.drv.gBounceBuffer u.dev
  · simp only [if_pos hacc]
    exact ⟨_, _, rfl⟩
  · simp only [if_neg hacc]
    exact ⟨zeros, _, rfl⟩

/-- Copying stays inside of what is asked for, if there is anything to copy and to ask for. -/
theorem toCopy_le {sectorSize offsetInSector remaining : ℕ} (hoff : offsetInSector < 4294967296) :
    (∀ i < toCopy sectorSize offsetInSector remaining, offsetInSector + i <
      readLen sectorSize offsetInSector remaining) ↔
      offsetInSector ≤ readLen sectorSize offsetInSector remaining ∨ remaining = 0 := by
  have hlen : readLen sectorSize offsetInSector remaining < 4294967296 := u32_lt _
  rw [toCopy]
  generalize readLen sectorSize offsetInSector remaining = len at hlen
  have hcan : (offsetInSector ≤ len → u32 ((len : ℤ) - offsetInSector) = len - offsetInSector) ∧
      (len < offsetInSector → 0 < u32 ((len : ℤ) - offsetInSector)) := by
    unfold u32
    omega
  generalize u32 ((len : ℤ) - offsetInSector) = canCopy at hcan
  constructor
  · intro h
    by_contra hno
    have hfirst := h 0 (by split_ifs <;> omega)
    omega
  · intro h i hi
    split_ifs at hi <;> omega

/-- A pass of a read copies what the device delivered, exactly where the device does not deceive and
the 32-bit length of the command reaches the first byte to copy. -/
theorem copiesDelivered_iff (buf : Buf) (totalDone lba offsetInSector remaining : ℕ)
    (hoff : offsetInSector < 4294967296) :
    let u := flushed B host w
    let c := readCmd u.drv.gSectorSize lba offsetInSector remaining
    (ReturnsConfirmed B host actual u c u.drv.gBounceBuffer ∧
        CopiesDelivered B host actual w buf totalDone lba offsetInSector remaining) ↔
      ¬Deceives B u.drv.usb c u.drv.gBounceBuffer u.dev actual ∧
        (Accepts B u.drv.usb c u.drv.gBounceBuffer u.dev →
          offsetInSector ≤ readLen u.drv.gSectorSize offsetInSector remaining ∨ remaining = 0) := by
  intro u c
  have hop : c.opcode ≠ 0x35 := by
    change (0x28 : UInt8) ≠ 0x35
    decide
  rw [returnsConfirmed_iff, imp_iff_right hop]
  refine and_congr_right fun hhonest => ?_
  obtain ⟨b, t, hpass⟩ := readPass_returns B host w buf totalDone lba offsetInSector remaining
  have hcopies : CopiesDelivered B host actual w buf totalDone lba offsetInSector remaining ↔
      ∀ k b t, readPass (bulkOnly B host) buf totalDone lba offsetInSector remaining w =
        (some (some (k, b)), t) →
        ∀ i < k, offsetInSector + i < delivered B u.drv.usb c u.drv.gBounceBuffer u.dev actual := Iff.rfl
  rw [hcopies, hpass]
  by_cases hacc : Accepts B u.drv.usb c u.drv.gBounceBuffer u.dev
  · have hwhole : delivered B u.drv.usb c u.drv.gBounceBuffer u.dev actual =
        readLen u.drv.gSectorSize offsetInSector remaining :=
      (not_not.mp fun hno => hhonest ⟨hacc, hno⟩ : Confirms B u.drv.usb c u.drv.gBounceBuffer
        u.dev actual).wholeData
    rw [imp_iff_right hacc, ← toCopy_le hoff, if_pos hacc, hwhole]
    constructor
    · intro h i hi
      exact h _ b t rfl i hi
    · intro h k b' t' heq i hi
      obtain rfl := (Prod.mk.inj (Option.some.inj (Option.some.inj (Prod.mk.inj heq).1))).1
      exact h i hi
  · rw [if_neg hacc]
    refine iff_of_true ?_ fun h => absurd h hacc
    intro k b' t' heq
    exact absurd (Option.some.inj (Prod.mk.inj heq).1) (by simp)

variable (B host actual)

/-- A pass of a read request, started with `totalDone` bytes read: its READ(10) returns 0 only if the
device confirmed it, and only bytes that it delivered are copied. -/
def PassDelivers (count actualOffset : ℤ) (i : ℕ × Buf) (t : World δ) : Prop :=
  i.1 < count →
    let lba := u32 (Int.tdiv (actualOffset + i.1) t.drv.gSectorSize)
    let offsetInSector := u32 (Int.tmod (actualOffset + i.1) t.drv.gSectorSize)
    let remaining := u32 (count - i.1)
    let u := flushed B host t
    ReturnsConfirmed B host actual u (readCmd u.drv.gSectorSize lba offsetInSector remaining)
      u.drv.gBounceBuffer ∧
      CopiesDelivered B host actual t i.2 i.1 lba offsetInSector remaining

/-- The device does not deceive in the pass, and the length of the READ(10) reaches the first byte to copy. -/
def PassHonest (count actualOffset : ℤ) (i : ℕ × Buf) (t : World δ) : Prop :=
  i.1 < count →
    let lba := u32 (Int.tdiv (actualOffset + i.1) t.drv.gSectorSize)
    let offsetInSector := u32 (Int.tmod (actualOffset + i.1) t.drv.gSectorSize)
    let remaining := u32 (count - i.1)
    let u := flushed B host t
    let c := readCmd u.drv.gSectorSize lba offsetInSector remaining
    ¬Deceives B u.drv.usb c u.drv.gBounceBuffer u.dev actual ∧
      (Accepts B u.drv.usb c u.drv.gBounceBuffer u.dev →
        offsetInSector ≤ readLen u.drv.gSectorSize offsetInSector remaining ∨ remaining = 0)

/-- `scsi_command` returns 0 only for a command that the device confirmed, and a read request copies
delivered bytes only, exactly where the device deceives in no command and in no pass. -/
theorem scsiCommand_confirmed (w : World δ) :
    (∀ c data, ReturnsConfirmed B host actual w c data ↔
      (c.opcode ≠ 0x35 → ¬Deceives B w.drv.usb c data w.dev actual)) ∧
    ∀ count actualOffset fuel buf,
      Prog.Passes (ioLoop (bulkOnly B host) false count actualOffset)
          (PassDelivers B host actual count actualOffset)
          fuel (0, buf) w ↔
        Prog.Passes (ioLoop (bulkOnly B host) false count actualOffset)
          (PassHonest B host actual count actualOffset)
          fuel (0, buf) w := by
  refine ⟨returnsConfirmed_iff, fun count actualOffset fuel buf => Prog.Passes.congr (fun i t => ?_) fuel _ w⟩
  exact imp_congr_right fun _ => copiesDelivered_iff i.2 i.1 _ _ _ (u32_lt _)

end Reads

/-- A bus on which every transfer succeeds and moves nothing. -/
def emptyBus : Bus Unit := ⟨fun _ data _ d => ⟨0, data, d⟩, fun _ d => d⟩

/-- A host with this bus. -/
def emptyHost : Platform Unit where
  exchange := busExchange emptyBus
  requestSense := busRequestSense emptyBus
  malloc d := (false, d)
  rand d := (0, d)
  wrapSysDevice _ d := (none, d)
  activeConfig _ d := (none, d)

/-- An open device that sends nothing, and an old sector in the bounce buffer. -/
def staleWorld : World Unit :=
  { drv := { usb := { gUsbHandle := some 0, gEpIn := 0x81, gEpOut := 0x02 }, gBounceBuffer := fun _ => 0x5A }
    dev := ()
    trace := []
    requests := []
    accesses := [] }

/-- A READ(10) without data and without a status is a success, and the caller is given the old sector. -/
theorem scsiCommand_confirmed_stale :
    let P := bulkOnly emptyBus emptyHost
    let c : Cmd := ⟨cdb10 0x28 0 1, 0x80, 512⟩
    ¬ReturnsConfirmed emptyBus emptyHost (fun _ _ _ _ => 0) staleWorld c zeros ∧
      ∃ b t, scsiIoInternal P 2 zeros 512 0 false staleWorld = (some (512, b), t) ∧
        ∀ i < 512, b i = 0x5A := by
  intro P c
  constructor
  · rw [returnsConfirmed_iff]
    intro h
    refine h (by decide) ⟨by decide +kernel, fun hc => ?_⟩
    exact absurd hc.wholeBlock (by decide)
  · obtain ⟨r, hr⟩ : ∃ r, r = scsiIoInternal P 2 zeros 512 0 false staleWorld := ⟨_, rfl⟩
    have hret : r.1.map Prod.fst = some 512 := by
      rw [hr]
      decide +kernel
    have hbytes : ∀ i < 512, (r.1.getD (0, zeros)).2 i = 0x5A := by
      rw [hr]
      decide +kernel
    obtain ⟨⟨n, b⟩, hb, rfl⟩ := Option.map_eq_some_iff.mp hret
    rw [hb] at hbytes
    exact ⟨b, r.2, hr.symm.trans (Prod.ext hb rfl), hbytes⟩

end FormatStick
