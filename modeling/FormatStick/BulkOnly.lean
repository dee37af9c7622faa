import FormatStick.Driver
import FormatStick.Fields

/-!
# Bulk-only transport

The exchange of one command, transfer by transfer. `Bus` is what libusb does;
`bulkOnly` is the platform the driver makes of it. `Bot` is a device that queues
one status wrapper for every command block it takes, whatever becomes of the
data phase, and keeps it until the host reads it.
-/
namespace FormatStick
open Splice Fields

variable {δ : Type}

def libusbErrorNoDevice : ℤ := -4

def libusbErrorTimeout : ℤ := -7

def libusbErrorPipe : ℤ := -9

/-- What a bulk transfer gives back: its result code and the host's buffer. -/
structure Transfer (δ : Type) where
  res : ℤ
  data : Buf
  dev : δ

/-- `libusb_bulk_transfer` and `libusb_clear_halt`. -/
structure Bus (δ : Type) where
  bulkTransfer : UInt8 → Buf → ℕ → δ → Transfer δ
  clearHalt : UInt8 → δ → δ

/-- `usb_transfer`. -/
def usbTransfer (B : Bus δ) (usb : Usb) (ep : UInt8) (data : Buf) (len : ℕ) (d : δ) : Transfer δ :=
  match usb.gUsbHandle with
  | none => ⟨libusbErrorNoDevice, data, d⟩
  | some _ =>
    let r := B.bulkTransfer ep data len d
    if r.res = libusbErrorPipe then { r with dev := B.clearHalt ep r.dev } else r

/-- `struct cbw` as `scsi_command` fills it in. -/
def cbw (tag dataLen : ℕ) (flags : UInt8) (cdb : List UInt8) : Buf :=
  let b := put zeros 0 (leBytes 4 0x43425355)
  let b := put b 4 (leBytes 4 tag)
  let b := put b 8 (leBytes 4 dataLen)
  let b := put b 12 [flags, 0, u8 cdb.length]
  put b 15 cdb

/-- The device's reading of a command block's tag and data length. -/
def cbwTag (block : Buf) : ℕ := leNat block 4 4

def cbwDataLen (block : Buf) : ℕ := leNat block 8 4

/-- `struct csw` laid over a buffer. -/
def Csw.ofBytes (b : Buf) : Csw := ⟨leNat b 0 4, leNat b 4 4, leNat b 8 4, b 12⟩

def Csw.toBytes (c : Csw) : Buf :=
  let b := put zeros 0 (leBytes 4 c.signature)
  let b := put b 4 (leBytes 4 c.tag)
  let b := put b 8 (leBytes 4 c.dataResidue)
  put b 12 [c.status]

theorem cbwTag_cbw {tag : ℕ} (h : tag < 4294967296) (dataLen : ℕ) (flags : UInt8) (cdb : List UInt8) :
    cbwTag (cbw tag dataLen flags cdb) = tag := by
  rw [cbwTag, cbw, leNat_put_of_disjoint _ (by simp), leNat_put_of_disjoint _ (by simp),
    leNat_put_of_disjoint _ (by simp), leNat_put]
  exact Nat.mod_eq_of_lt h

theorem cbwDataLen_cbw {dataLen : ℕ} (h : dataLen < 4294967296) (tag : ℕ) (flags : UInt8)
    (cdb : List UInt8) : cbwDataLen (cbw tag dataLen flags cdb) = dataLen := by
  rw [cbwDataLen, cbw, leNat_put_of_disjoint _ (by simp), leNat_put_of_disjoint _ (by simp), leNat_put]
  exact Nat.mod_eq_of_lt h

/-- A status wrapper survives the wire with its tag and status, the rest of the
host's buffer being cleared before. -/
theorem ofBytes_toBytes (c : Csw) (h : c.tag < 4294967296) :
    (Csw.ofBytes (splice zeros 0 c.toBytes 13)).tag = c.tag ∧
      (Csw.ofBytes (splice zeros 0 c.toBytes 13)).status = c.status := by
  refine ⟨?_, ?_⟩
  · have hwire : leNat (splice zeros 0 c.toBytes 13) 4 4 = leNat c.toBytes 4 4 := by
      apply leNat_congr
      intro i hi
      rw [splice_of_mem (by omega) (by omega), Nat.sub_zero]
    rw [Csw.ofBytes, hwire, Csw.toBytes, leNat_put_of_disjoint _ (by simp),
      leNat_put_of_disjoint _ (by simp), leNat_put]
    exact Nat.mod_eq_of_lt h
  · rfl

/-- The transfers of `scsi_command`: command block, data phase, status. Every caller
that asks for data passes a buffer. -/
def busExchange (B : Bus δ) (usb : Usb) (c : Cmd) (data : Buf) (d : δ) : Reply δ :=
  let usb' := { usb with gTag := u32 (usb.gTag + 1) }
  let r := usbTransfer B usb usb.gEpOut (cbw usb.gTag c.dataLen c.direction c.cdb) 31 d
  if r.res ≠ 0 then ⟨none, data, usb', r.dev⟩
  else
    let ep := if c.direction = 0x80 then usb.gEpIn else usb.gEpOut
    let r := if 0 < c.dataLen then usbTransfer B usb ep data c.dataLen r.dev else ⟨0, data, r.dev⟩
    -- a failed data phase returns without the status phase
    if r.res ≠ 0 then ⟨none, r.data, usb', r.dev⟩
    else
      let s := usbTransfer B usb usb.gEpIn zeros 13 r.dev
      if s.res ≠ 0 then ⟨none, r.data, usb', s.dev⟩
      else ⟨some (.ofBytes s.data), r.data, usb', s.dev⟩

/-- The REQUEST SENSE exchange of `scsi_command`; the results of its data and status
transfers are not looked at. -/
def busRequestSense (B : Bus δ) (usb : Usb) (d : δ) : Usb × δ :=
  let usb' := { usb with gTag := u32 (usb.gTag + 1) }
  let r := usbTransfer B usb usb.gEpOut (cbw usb.gTag 18 0x80 [0x03, 0, 0, 0, 18, 0]) 31 d
  if r.res = 0 then
    let r := usbTransfer B usb usb.gEpIn zeros 18 r.dev
    let r := usbTransfer B usb usb.gEpIn zeros 13 r.dev
    (usb', r.dev)
  else (usb', r.dev)

/-- The platform over a bus; what has nothing to do with USB is taken from `host`. -/
def bulkOnly (B : Bus δ) (host : Platform δ) : Platform δ :=
  { host with exchange := busExchange B, requestSense := busRequestSense B }

/-- What becomes of one transfer: its result code, and whether a command block whose
transfer failed was taken by the device all the same. -/
structure Outcome where
  res : ℤ
  taken : Bool := false

/-- What the bulk-in pipe carries. -/
structure Packet where
  bytes : Buf
  len : ℕ

/-- A bulk-only device: its fixed answers, and the state of its pipe. -/
structure Bot where
  outcome : ℕ → Outcome
  /-- residue and status byte of each command -/
  answer : ℕ → ℕ × UInt8
  payload : ℕ → Packet
  transfers : ℕ := 0
  commands : ℕ := 0
  owed : Option Csw := none
  pipe : List Packet := []

namespace Bot

/-- A status wrapper joins the pipe. -/
def queue (d : Bot) (c : Csw) : Bot := { d with owed := none, pipe := d.pipe ++ [⟨c.toBytes, 13⟩] }

/-- The host reads the first packet of the pipe. -/
def deliver (d : Bot) (data : Buf) (len : ℕ) : Transfer Bot :=
  match d.pipe with
  | [] => ⟨libusbErrorTimeout, data, d⟩
  | p :: ps => ⟨0, splice data 0 p.bytes (min p.len len), { d with pipe := ps }⟩

/-- The device takes a command block. Its status waits for the data phase, unless
there is none to come. -/
def take (d : Bot) (block : Buf) (completed : Bool) : Bot :=
  let c : Csw := ⟨0x53425355, cbwTag block, (d.answer d.commands).1, (d.answer d.commands).2⟩
  let d := { d with commands := d.commands + 1 }
  if completed ∧ 0 < cbwDataLen block then { d with owed := some c } else d.queue c

def bulkTransfer (ep : UInt8) (data : Buf) (len : ℕ) (d : Bot) : Transfer Bot :=
  let o := d.outcome d.transfers
  let d := { d with transfers := d.transfers + 1 }
  match d.owed with
  | some c =>
    if o.res ≠ 0 ∨ ep < 0x80 then ⟨o.res, data, d.queue c⟩
    else
      -- whatever is still in the pipe comes before the data of this command
      let r := deliver { d with pipe := d.pipe ++ [d.payload d.commands] } data len
      { r with dev := r.dev.queue c }
  | none =>
    if 0x80 ≤ ep then if o.res = 0 then d.deliver data len else ⟨o.res, data, d⟩
    else if o.res = 0 then ⟨0, data, d.take data true⟩
    else ⟨o.res, data, if o.taken then d.take data false else d⟩

end Bot

/-- The bus of one bulk-only device; clearing a halt keeps what is queued. -/
def botBus : Bus Bot := ⟨Bot.bulkTransfer, fun _ d => d⟩

/-- Nothing is in the pipe and nothing is still to come. -/
def Bot.Drained (d : Bot) : Prop := d.owed = none ∧ d.pipe = []

/-- What `usb_scsi_init` leaves: an open handle and one endpoint for each direction. -/
structure Connected (usb : Usb) : Prop where
  handle : usb.gUsbHandle.isSome
  epIn : 0x80 ≤ usb.gEpIn
  epOut : usb.gEpOut < 0x80
  tag : usb.gTag < 4294967296

theorem usbTransfer_botBus {usb : Usb} (h : usb.gUsbHandle.isSome) (ep : UInt8) (data : Buf)
    (len : ℕ) (d : Bot) : usbTransfer botBus usb ep data len d = d.bulkTransfer ep data len := by
  obtain ⟨x, hx⟩ := Option.isSome_iff_exists.mp h
  rw [usbTransfer, hx]
  exact ite_self _

namespace Bot

variable {d : Bot} {ep : UInt8}

/-- The status wrapper with which the device will answer the next command block. -/
def nextCsw (d : Bot) (tag : ℕ) : Csw :=
  ⟨0x53425355, tag, (d.answer d.commands).1, (d.answer d.commands).2⟩

/-- The device after it took a command block with `dataLen` bytes of data to come. -/
def awaiting (d : Bot) (tag dataLen : ℕ) : Bot :=
  { d with
    transfers := d.transfers + 1
    commands := d.commands + 1
    owed := if 0 < dataLen then some (d.nextCsw tag) else none
    pipe := if 0 < dataLen then [] else [⟨(d.nextCsw tag).toBytes, 13⟩] }

/-- The device after `n` transfers and one command, its status unread. -/
def holding (d : Bot) (tag n : ℕ) : Bot :=
  { d with
    transfers := d.transfers + n
    commands := d.commands + 1
    owed := none
    pipe := [⟨(d.nextCsw tag).toBytes, 13⟩] }

theorem block_taken (hd : d.Drained) (hep : ep < 0x80) (block : Buf) (len : ℕ)
    (h : (d.outcome d.transfers).res = 0) :
    d.bulkTransfer ep block len = ⟨0, block, d.awaiting (cbwTag block) (cbwDataLen block)⟩ := by
  obtain ⟨hnone, hnil⟩ := hd
  have hin : ¬0x80 ≤ ep := UInt8.not_le.mpr hep
  by_cases hlen : 0 < cbwDataLen block
  · simp [bulkTransfer, hnone, hin, h, take, hlen, awaiting, nextCsw, hnil]
  · simp [bulkTransfer, hnone, hin, h, take, hlen, awaiting, nextCsw, queue, hnil]

theorem block_failed (hd : d.Drained) (hep : ep < 0x80) (block : Buf) (len : ℕ)
    (h : (d.outcome d.transfers).res ≠ 0) :
    (d.bulkTransfer ep block len).res ≠ 0 ∧
      ((d.bulkTransfer ep block len).dev.Drained ↔ (d.outcome d.transfers).taken = false) := by
  obtain ⟨hnone, hnil⟩ := hd
  have hin : ¬0x80 ≤ ep := UInt8.not_le.mpr hep
  cases ht : (d.outcome d.transfers).taken
  · simp [bulkTransfer, hnone, hin, h, ht, Drained, hnil]
  · simp [bulkTransfer, hnone, hin, h, ht, take, queue, Drained]

/-- Whatever becomes of the data phase, the status is in the pipe after it. -/
theorem data_phase (ep : UInt8) (tag : ℕ) {dataLen : ℕ} (hlen : 0 < dataLen) (data : Buf) (len : ℕ) :
    ((d.awaiting tag dataLen).bulkTransfer ep data len).res = (d.outcome (d.transfers + 1)).res ∧
      ((d.awaiting tag dataLen).bulkTransfer ep data len).dev = d.holding tag 2 := by
  by_cases h : (d.outcome (d.transfers + 1)).res ≠ 0 ∨ ep < 0x80
  · simp [bulkTransfer, awaiting, hlen, h, queue, holding]
  · obtain ⟨hres, hout⟩ := not_or.mp h
    rw [not_not] at hres
    simp [bulkTransfer, awaiting, hlen, hout, deliver, queue, holding, hres]

theorem status_read (hep : 0x80 ≤ ep) {tag n : ℕ} (h : (d.outcome (d.transfers + n)).res = 0) :
    ((d.holding tag n).bulkTransfer ep zeros 13).res = 0 ∧
      ((d.holding tag n).bulkTransfer ep zeros 13).data = splice zeros 0 (d.nextCsw tag).toBytes 13 ∧
      ((d.holding tag n).bulkTransfer ep zeros 13).dev =
        { d with
          transfers := d.transfers + n + 1, commands := d.commands + 1, owed := none, pipe := [] } := by
  simp [bulkTransfer, holding, hep, h, deliver]

theorem status_failed (hep : 0x80 ≤ ep) {tag n : ℕ} (h : (d.outcome (d.transfers + n)).res ≠ 0) :
    ((d.holding tag n).bulkTransfer ep zeros 13).res ≠ 0 ∧
      ¬((d.holding tag n).bulkTransfer ep zeros 13).dev.Drained := by
  simp [bulkTransfer, holding, hep, h, Drained]

/-- The device does not take the command block of transfer `k`. -/
def Refuses (d : Bot) (k : ℕ) : Prop := (d.outcome k).res ≠ 0 ∧ (d.outcome k).taken = false

/-- Transfer `k` goes through. -/
def Completes (d : Bot) (k : ℕ) : Prop := (d.outcome k).res = 0

instance (d : Bot) (k : ℕ) : Decidable (d.Refuses k) := inferInstanceAs (Decidable (_ ∧ _))

instance (d : Bot) (k : ℕ) : Decidable (d.Completes k) := inferInstanceAs (Decidable (_ = _))

/-- The transfers of a command before its status: the block, and the data if there is any. -/
def statusAt (dataLen : ℕ) : ℕ := if 0 < dataLen then 2 else 1

/-- The device refuses the command, or its block, its data and its status go through. -/
def CleanExchange (d : Bot) (dataLen : ℕ) : Prop :=
  d.Refuses d.transfers ∨
    d.Completes d.transfers ∧ (0 < dataLen → d.Completes (d.transfers + 1)) ∧
      d.Completes (d.transfers + statusAt dataLen)

/-- The REQUEST SENSE that starts with transfer `k` is refused, or its block and its
status go through; its data phase may fail. -/
def CleanSense (d : Bot) (k : ℕ) : Prop := d.Refuses k ∨ d.Completes k ∧ d.Completes (k + 2)

instance (d : Bot) (n : ℕ) : Decidable (d.CleanExchange n) := inferInstanceAs (Decidable (_ ∨ _))

instance (d : Bot) (k : ℕ) : Decidable (d.CleanSense k) := inferInstanceAs (Decidable (_ ∨ _))

end Bot

/-- The device once the status of its command was read. -/
def Bot.finished (d : Bot) (n : ℕ) : Bot :=
  { d with transfers := d.transfers + n, commands := d.commands + 1, owed := none, pipe := [] }

/-- What the exchange of one command does to a drained device. -/
structure Exchanged (usb : Usb) (c : Cmd) (d : Bot) (r : Reply Bot) : Prop where
  counter : r.usb = { usb with gTag := u32 (usb.gTag + 1) }
  outcome : match r.csw with
    | none => (r.dev.Drained ↔ d.CleanExchange c.dataLen) ∧
        (d.CleanExchange c.dataLen → ¬d.Completes d.transfers)
    | some s => d.CleanExchange c.dataLen ∧ d.Completes d.transfers ∧ s.tag = usb.gTag ∧
        s.status = (d.answer d.commands).2 ∧ r.dev = d.finished (Bot.statusAt c.dataLen + 1)

/-- The exchange from its status phase on, with the status of this command in the pipe. -/
theorem statusPhase_bot {usb : Usb} (hu : Connected usb) {c : Cmd} {d : Bot}
    (hblock : d.Completes d.transfers) (hdata : 0 < c.dataLen → d.Completes (d.transfers + 1))
    (data : Buf) :
    let s := (d.holding usb.gTag (Bot.statusAt c.dataLen)).bulkTransfer usb.gEpIn zeros 13
    let usb' := { usb with gTag := u32 (usb.gTag + 1) }
    Exchanged usb c d (if s.res ≠ 0 then ⟨none, data, usb', s.dev⟩
      else ⟨some (.ofBytes s.data), data, usb', s.dev⟩) := by
  intro s usb'
  by_cases h : (d.outcome (d.transfers + Bot.statusAt c.dataLen)).res = 0
  · obtain ⟨hres, hread, hdev⟩ := d.status_read hu.epIn h
    obtain ⟨htag, hstatus⟩ := ofBytes_toBytes (d.nextCsw usb.gTag) hu.tag
    rw [if_neg (not_not_intro hres)]
    refine ⟨rfl, .inr ⟨hblock, hdata, h⟩, hblock, ?_, ?_, hdev⟩
    · rw [hread, htag]
      rfl
    · rw [hread, hstatus]
      rfl
  · obtain ⟨hres, hdr⟩ := d.status_failed hu.epIn h
    have hunclean : ¬d.CleanExchange c.dataLen := by
      rintro (hr | ⟨-, -, hs⟩)
      · exact hr.1 hblock
      · exact h hs
    rw [if_pos hres]
    exact ⟨rfl, iff_of_false hdr hunclean, fun hc => absurd hc hunclean⟩

theorem busExchange_bot {usb : Usb} (hu : Connected usb) {c : Cmd} (hc : c.dataLen < 4294967296)
    (data : Buf) {d : Bot} (hd : d.Drained) :
    Exchanged usb c d (busExchange botBus usb c data d) := by
  have htag := cbwTag_cbw hu.tag c.dataLen c.direction c.cdb
  have hlen := cbwDataLen_cbw hc usb.gTag c.direction c.cdb
  simp only [busExchange, usbTransfer_botBus hu.handle]
  by_cases hblock : (d.outcome d.transfers).res = 0
  · have htake := d.block_taken hd hu.epOut (cbw usb.gTag c.dataLen c.direction c.cdb) 31 hblock
    rw [htag, hlen] at htake
    rw [htake, if_neg (not_not_intro rfl)]
    by_cases hdata : 0 < c.dataLen
    · obtain ⟨hres, hdev⟩ := d.data_phase (if c.direction = 0x80 then usb.gEpIn else usb.gEpOut)
        usb.gTag hdata data c.dataLen
      have hat : Bot.statusAt c.dataLen = 2 := if_pos hdata
      rw [if_pos hdata, hres]
      by_cases hok : (d.outcome (d.transfers + 1)).res = 0
      · rw [if_neg (not_not_intro hok), hdev, ← hat]
        exact statusPhase_bot hu hblock (fun _ => hok) _
      · -- the early return: the status of this command stays in the pipe
        have hunclean : ¬d.CleanExchange c.dataLen := by
          rintro (hr | ⟨-, hd', -⟩)
          · exact hr.1 hblock
          · exact hok (hd' hdata)
        rw [if_pos hok, hdev]
        exact ⟨rfl, iff_of_false (fun h => absurd h.2 (List.cons_ne_nil _ _)) hunclean,
          fun hc => absurd hc hunclean⟩
    · have hat : Bot.statusAt c.dataLen = 1 := if_neg hdata
      have hdev : d.awaiting usb.gTag c.dataLen = d.holding usb.gTag 1 := by
        simp [Bot.awaiting, Bot.holding, hdata]
      rw [if_neg hdata, if_neg (not_not_intro rfl), hdev, ← hat]
      exact statusPhase_bot hu hblock (fun h => absurd h hdata) _
  · obtain ⟨hres, hdr⟩ := d.block_failed hd hu.epOut (cbw usb.gTag c.dataLen c.direction c.cdb) 31 hblock
    rw [if_pos hres]
    refine ⟨rfl, ?_, fun _ => hblock⟩
    rw [hdr]
    exact ⟨fun h => .inl ⟨hblock, h⟩, fun h => h.elim And.right fun h => absurd h.1 hblock⟩

theorem busRequestSense_bot {usb : Usb} (hu : Connected usb) {d : Bot} (hd : d.Drained) :
    (busRequestSense botBus usb d).1 = { usb with gTag := u32 (usb.gTag + 1) } ∧
      ((busRequestSense botBus usb d).2.Drained ↔ d.CleanSense d.transfers) := by
  have htag := cbwTag_cbw hu.tag 18 0x80 [0x03, 0, 0, 0, 18, 0]
  have hlen := cbwDataLen_cbw (show 18 < 4294967296 by decide) usb.gTag 0x80 [0x03, 0, 0, 0, 18, 0]
  simp only [busRequestSense, usbTransfer_botBus hu.handle]
  by_cases hblock : (d.outcome d.transfers).res = 0
  · have htake := d.block_taken hd hu.epOut (cbw usb.gTag 18 0x80 [0x03, 0, 0, 0, 18, 0]) 31 hblock
    rw [htag, hlen] at htake
    obtain ⟨-, hdev⟩ := d.data_phase usb.gEpIn usb.gTag (show 0 < 18 by decide) zeros 18
    have hnot : ¬d.Refuses d.transfers := fun h => h.1 hblock
    rw [htake, if_pos rfl, hdev]
    refine ⟨rfl, ?_⟩
    by_cases hs : (d.outcome (d.transfers + 2)).res = 0
    · obtain ⟨-, -, hdone⟩ := d.status_read hu.epIn hs
      rw [hdone]
      exact iff_of_true ⟨rfl, rfl⟩ (.inr ⟨hblock, hs⟩)
    · obtain ⟨-, hdr⟩ := d.status_failed hu.epIn hs
      exact iff_of_false hdr fun h => h.elim hnot fun h => hs h.2
  · obtain ⟨hres, hdr⟩ := d.block_failed hd hu.epOut (cbw usb.gTag 18 0x80 [0x03, 0, 0, 0, 18, 0]) 31
      hblock
    rw [if_neg hres]
    refine ⟨rfl, ?_⟩
    rw [hdr]
    exact ⟨fun h => .inl ⟨hblock, h⟩, fun h => h.elim And.right fun h => absurd h.1 hblock⟩

theorem Connected.next {usb : Usb} (h : Connected usb) :
    Connected { usb with gTag := u32 (usb.gTag + 1) } :=
  ⟨h.handle, h.epIn, h.epOut, u32_lt (usb.gTag + 1)⟩

/-- The fault patterns under which one `scsi_command` leaves nothing in the pipe: it sends
nothing, or its exchange is clean and so is the REQUEST SENSE a bad status brings. -/
def CleanCommand (w : World Bot) (c : Cmd) : Prop :=
  c.opcode = 0x35 ∧ w.drv.gSyncCacheSupported = false ∨
    w.dev.CleanExchange c.dataLen ∧
      (w.dev.Completes w.dev.transfers → (w.dev.answer w.dev.commands).2 ≠ 0 → c.opcode ≠ 0x35 →
        w.dev.CleanSense (w.dev.transfers + Bot.statusAt c.dataLen + 1))

instance (w : World Bot) (c : Cmd) : Decidable (CleanCommand w c) :=
  inferInstanceAs (Decidable (_ ∨ _))

/-- Every status wrapper that was read as a command's status is the command's own. -/
def OwnStatus (tr : List Sent) : Prop := ∀ e ∈ tr, ∀ s ∈ e.csw, s.tag = e.tag

instance (tr : List Sent) : Decidable (OwnStatus tr) :=
  inferInstanceAs (Decidable (∀ e ∈ tr, ∀ s ∈ e.csw, s.tag = e.tag))

theorem ownStatus_append {tr : List Sent} {e : Sent} (h : OwnStatus tr)
    (he : ∀ s ∈ e.csw, s.tag = e.tag) : OwnStatus (tr ++ [e]) := by
  intro x hx
  rcases List.mem_append.mp hx with hx | hx
  · exact h x hx
  · rw [List.mem_singleton.mp hx]
    exact he

/-- One `scsi_command` on a drained device. -/
structure CommandDone (w : World Bot) (c : Cmd) (t : World Bot) : Prop where
  connected : Connected t.drv.usb
  drained : t.dev.Drained ↔ CleanCommand w c
  own : OwnStatus w.trace → OwnStatus t.trace

theorem wp_scsiCommand_bot (host : Platform Bot) {w : World Bot} (hu : Connected w.drv.usb)
    (hd : w.dev.Drained) {c : Cmd} (hc : c.dataLen < 4294967296) (data : Buf) :
    Prog.wp (scsiCommand (bulkOnly botBus host) c data) (fun _ t => CommandDone w c t)
      (fun _ => False) w := by
  rw [scsiCommand, Prog.wp_bind, wp_globals]
  refine Prog.wp_ite ?_ ?_
  · intro hskip
    exact ⟨hu, iff_of_true hd (.inl hskip), id⟩
  · intro hsend
    have hex := busExchange_bot hu hc data hd
    rw [Prog.wp_bind, wp_transact]
    simp only [bulkOnly]
    generalize busExchange botBus w.drv.usb c data w.dev = r at hex
    obtain ⟨hcount, hout⟩ := hex
    rw [hcount]
    cases hcsw : r.csw with
    | none =>
      rw [hcsw] at hout
      obtain ⟨hdr, hrefused⟩ := hout
      refine ⟨hu.next, ?_, fun h => ownStatus_append h fun s hs => absurd hs (by simp)⟩
      rw [hdr]
      exact ⟨fun h => .inr ⟨h, fun hb => absurd hb (hrefused h)⟩, fun h => h.elim
        (fun h => absurd h hsend) And.left⟩
    | some s =>
      rw [hcsw] at hout
      obtain ⟨hclean, hblock, htag, hstatus, hdev⟩ := hout
      have hown : OwnStatus w.trace → OwnStatus (w.trace ++
          [⟨c, data, w.drv.usb.gTag, w.drv.gWriteCache, w.drv.gCacheLba, w.drv.gCacheSectors, some s⟩]) :=
            fun h =>
        ownStatus_append h fun s' hs => by rw [← Option.some.inj hs, htag]
      have hdone : Bot.Drained r.dev := by
        rw [hdev]
        exact ⟨rfl, rfl⟩
      refine Prog.wp_ite ?_ fun hbad => Prog.wp_ite ?_ ?_
      · intro hok
        refine ⟨hu.next, iff_of_true hdone (.inr ⟨hclean, fun _ hne => ?_⟩), hown⟩
        exact absurd (hstatus ▸ hok) hne
      · intro hop
        exact ⟨hu.next, iff_of_true hdone (.inr ⟨hclean, fun _ _ hne => absurd hop hne⟩), hown⟩
      · intro hop
        obtain ⟨hu', hs⟩ := busRequestSense_bot hu.next hdone
        rw [Prog.wp_bind, wp_sense]
        refine ⟨?_, ?_, hown⟩
        · change Connected (busRequestSense botBus _ r.dev).1
          rw [hu']
          exact hu.next.next
        · refine hs.trans ?_
          rw [hdev]
          refine ⟨fun h => .inr ⟨hclean, fun _ _ _ => h⟩, fun h => h.elim (fun h => absurd h hsend)
            fun h => h.2 hblock (hstatus ▸ hbad) hop⟩

/-- The states at the entries of a run of `scsi_command` calls, and at its end. -/
def entries (P : Platform δ) : List (Cmd × Buf) → World δ → List (World δ)
  | [], w => [w]
  | (c, data) :: cs, w => w :: entries P cs (scsiCommand P c data w).2

/-- Every call of a run meets a fault pattern that leaves nothing in the pipe. -/
def CleanRun (P : Platform Bot) : List (Cmd × Buf) → World Bot → Prop
  | [], _ => True
  | (c, data) :: cs, w => CleanCommand w c ∧ CleanRun P cs (scsiCommand P c data w).2

instance CleanRun.decidable (P : Platform Bot) :
    (cs : List (Cmd × Buf)) → (w : World Bot) → Decidable (CleanRun P cs w)
  | [], _ => isTrue trivial
  | (_, _) :: cs, _ =>
    have := CleanRun.decidable P cs
    inferInstanceAs (Decidable (_ ∧ _))

theorem mem_entries (P : Platform δ) (cs : List (Cmd × Buf)) (w : World δ) : w ∈ entries P cs w := by
  cases cs with
  | nil => exact List.mem_singleton_self w
  | cons c cs => exact List.mem_cons_self

/-- Command and status stay in step exactly in the runs whose every call is clean: then,
and only then, the pipe is drained at every entry, and every status read is the own one
of its command. -/
theorem entries_drained_iff (host : Platform Bot) (cs : List (Cmd × Buf)) {w : World Bot}
    (hu : Connected w.drv.usb) (hd : w.dev.Drained) (hown : OwnStatus w.trace)
    (hcs : ∀ c ∈ cs, c.1.dataLen < 2 ^ 32) :
    ((∀ t ∈ entries (bulkOnly botBus host) cs w, t.dev.Drained) ↔
        CleanRun (bulkOnly botBus host) cs w) ∧
      (CleanRun (bulkOnly botBus host) cs w →
        ∀ t ∈ entries (bulkOnly botBus host) cs w, OwnStatus t.trace) := by
  induction cs generalizing w with
  | nil => simp [entries, CleanRun, hd, hown]
  | cons c cs ih =>
    obtain ⟨cmd, data⟩ := c
    obtain ⟨r, t, hrun, hdone⟩ := Prog.wp_returns
      (wp_scsiCommand_bot host hu hd (hcs _ List.mem_cons_self) data)
    simp only [entries, CleanRun, hrun, List.forall_mem_cons]
    by_cases hclean : CleanCommand w cmd
    · obtain ⟨hiff, hall⟩ := ih hdone.connected (hdone.drained.mpr hclean) (hdone.own hown)
        fun c hc => hcs c (List.mem_cons_of_mem _ hc)
      exact ⟨and_congr (iff_of_true hd hclean) hiff, fun h => ⟨hown, hall h.2⟩⟩
    · have hleft := mt hdone.drained.mp hclean
      exact ⟨iff_of_false (fun h => hleft (h.2 t (mem_entries _ _ _))) fun h => hclean h.1,
        fun h => absurd h.1 hclean⟩

/-- A connected device on which transfer `k` stalls and nothing else fails. -/
def stallingBot (k : ℕ) : World Bot :=
  { drv := { usb := { gUsbHandle := some 0, gEpIn := 0x81, gEpOut := 0x02 } }
    dev := { outcome := fun i => if i = k then ⟨libusbErrorPipe, false⟩ else ⟨0, false⟩
             answer := fun _ => (0, 0)
             payload := fun _ => ⟨zeros, 0⟩ }
    trace := []
    requests := []
    accesses := [] }

/-- A host that offers nothing but its bus. -/
def busHost : Platform Bot where
  exchange := busExchange botBus
  requestSense := busRequestSense botBus
  malloc d := (false, d)
  rand d := (0, d)
  wrapSysDevice _ d := (none, d)
  activeConfig _ d := (none, d)

/-- READ(10) of the first sector, and TEST UNIT READY. -/
def readThenTest : List (Cmd × Buf) :=
  [(⟨cdb10 0x28 0 1, 0x80, 512⟩, zeros), (⟨[0, 0, 0, 0, 0, 0], 0x00, 0⟩, zeros)]

/-- A refused command block leaves the pipe as it was, and the next command gets its status. -/
theorem entries_drained_refused :
    CleanRun (bulkOnly botBus busHost) readThenTest (stallingBot 0) ∧
      ∀ t ∈ entries (bulkOnly botBus busHost) readThenTest (stallingBot 0),
        t.dev.Drained ∧ OwnStatus t.trace := by
  have hclean : CleanRun (bulkOnly botBus busHost) readThenTest (stallingBot 0) := by
    decide +kernel
  obtain ⟨hiff, hown⟩ := entries_drained_iff busHost readThenTest (w := stallingBot 0)
    ⟨rfl, by decide, by decide, by decide⟩ ⟨rfl, rfl⟩ (by decide) (by decide)
  exact ⟨hclean, fun t ht => ⟨hiff.mpr hclean t ht, hown hclean t ht⟩⟩

/-- After a data phase that stalls, TEST UNIT READY reads the status of the READ(10). -/
theorem entries_not_drained_stalled :
    let P := bulkOnly botBus busHost
    Connected (stallingBot 1).drv.usb ∧ (stallingBot 1).dev.Drained ∧
      ¬(∀ t ∈ entries P readThenTest (stallingBot 1), t.dev.Drained) ∧
      ¬∀ t ∈ entries P readThenTest (stallingBot 1), OwnStatus t.trace := by
  intro P
  refine ⟨⟨rfl, by decide, by decide, by decide⟩, ⟨rfl, rfl⟩, fun h => ?_, fun h => ?_⟩
  · exact absurd (h _ (List.mem_cons_of_mem _ List.mem_cons_self)).2 (List.cons_ne_nil _ _)
  · exact absurd (h _ (List.mem_cons_of_mem _ (List.mem_cons_of_mem _ List.mem_cons_self)))
      (by decide +kernel)

end FormatStick
