import FormatStick.Driver
import FormatStick.WriteBack

/-!
# A stick that executes or fails commands

A platform on which the driver can be followed byte by byte: a medium behind a
device that carries out each command exactly, rejects it, or loses it in a
transfer, as a fixed list of fates says. The medium is a flat byte memory without
an end, so a command that addresses blocks past the reported capacity is not cut
off here.
-/
namespace FormatStick
open Splice WriteBack

/-- What becomes of one command. -/
inductive Fate
  | done
  | rejected
  | broken
  deriving DecidableEq

/-- The unchanging part of a stick and its host: the fate of every command, the
answers to READ CAPACITY, and what the allocator, `rand` and libusb return. -/
structure StickSpec where
  fate : ℕ → Fate
  lastLba : ℕ
  blockSize : ℕ := 512
  heap : ℕ → Bool := fun _ => true
  dice : ℕ → ℕ := fun _ => 0
  handle : Option ℕ := some 0
  config : Option (List Interface)

structure Stick where
  spec : StickSpec
  medium : Buf
  served : ℕ := 0
  mallocs : ℕ := 0
  rolls : ℕ := 0

/-- The block address of a ten-byte CDB. -/
def Cmd.lba (c : Cmd) : ℕ :=
  (c.cdb.getD 2 0).toNat * 2 ^ 24 + (c.cdb.getD 3 0).toNat * 2 ^ 16 +
    (c.cdb.getD 4 0).toNat * 2 ^ 8 + (c.cdb.getD 5 0).toNat

/-- The block count of a ten-byte CDB. -/
def Cmd.blocks (c : Cmd) : ℕ := (c.cdb.getD 7 0).toNat * 2 ^ 8 + (c.cdb.getD 8 0).toNat

theorem lba_cdb10 (op : UInt8) {lba : ℕ} (blocks : ℕ) (dir : UInt8) (len : ℕ) (h : lba < 4294967296) :
    (Cmd.mk (cdb10 op lba blocks) dir len).lba = lba := by
  simp only [Cmd.lba, cdb10, u8, List.getD_cons_succ, List.getD_cons_zero, UInt8.toNat_ofNat',
    Nat.shiftRight_eq_div_pow]
  omega

theorem blocks_cdb10 (op : UInt8) (lba : ℕ) {blocks : ℕ} (dir : UInt8) (len : ℕ)
    (h : blocks < 2 ^ 16) : (Cmd.mk (cdb10 op lba blocks) dir len).blocks = blocks := by
  simp only [Cmd.blocks, cdb10, u8, List.getD_cons_succ, List.getD_cons_zero, UInt8.toNat_ofNat',
    Nat.shiftRight_eq_div_pow]
  omega

/-- The big-endian bytes of READ CAPACITY(10). -/
def capacityData (lastLba blockSize : ℕ) : Buf := fun i =>
  ([u8 (lastLba >>> 24), u8 (lastLba >>> 16), u8 (lastLba >>> 8), u8 lastLba,
    u8 (blockSize >>> 24), u8 (blockSize >>> 16), u8 (blockSize >>> 8), u8 blockSize] : List UInt8).getD i 0

/-- The data phase agrees with the block count. -/
def Cmd.Fits (c : Cmd) (blockSize : ℕ) : Prop :=
  c.opcode = 0x28 ∨ c.opcode = 0x2a → c.dataLen = c.blocks * blockSize

instance (c : Cmd) (blockSize : ℕ) : Decidable (c.Fits blockSize) :=
  inferInstanceAs (Decidable (_ → _))

/-- The host's buffer after a command is carried out. -/
def Stick.dataAfter (d : Stick) (c : Cmd) (data : Buf) : Buf :=
  if c.opcode = 0x28 then splice data 0 (window d.medium (c.lba * d.spec.blockSize)) c.dataLen
  else if c.opcode = 0x25 then splice data 0 (capacityData d.spec.lastLba d.spec.blockSize) 8
  else data

/-- The medium after a command is carried out. -/
def Stick.mediumAfter (d : Stick) (c : Cmd) (data : Buf) : Buf :=
  if c.opcode = 0x2a then splice d.medium (c.lba * d.spec.blockSize) data c.dataLen else d.medium

/-- The stick carries out the next command if it is `c`. -/
def Stick.Executes (d : Stick) (c : Cmd) : Prop :=
  d.spec.fate d.served = .done ∧ c.Fits d.spec.blockSize

instance (d : Stick) (c : Cmd) : Decidable (d.Executes c) := inferInstanceAs (Decidable (_ ∧ _))

/-- One command exchange. A command whose data phase does not fit its block count
ends in a phase error. -/
def Stick.exchange (usb : Usb) (c : Cmd) (data : Buf) (d : Stick) : Reply Stick :=
  let usb' := { usb with gTag := u32 (usb.gTag + 1) }
  if d.Executes c then
    ⟨some ⟨0x53425355, usb.gTag, 0, 0⟩, d.dataAfter c data, usb',
      { d with served := d.served + 1, medium := d.mediumAfter c data }⟩
  else if d.spec.fate d.served = .broken then
    ⟨none, data, usb', { d with served := d.served + 1 }⟩
  else
    ⟨some ⟨0x53425355, usb.gTag, c.dataLen, if d.spec.fate d.served = .done then 2 else 1⟩, data, usb',
      { d with served := d.served + 1 }⟩

/-- The platform made of one stick. -/
def stick : Platform Stick where
  exchange := Stick.exchange
  requestSense usb d := ({ usb with gTag := u32 (usb.gTag + 1) }, d)
  malloc d := (d.spec.heap d.mallocs, { d with mallocs := d.mallocs + 1 })
  rand d := (d.spec.dice d.rolls, { d with rolls := d.rolls + 1 })
  wrapSysDevice _ d := (d.spec.handle, d)
  activeConfig _ d := (d.spec.config, d)

/-- The status wrapper of a command that the device confirmed. -/
def Sent.Ok (e : Sent) : Prop := ∃ c, e.csw = some c ∧ c.status = 0

instance (e : Sent) : Decidable e.Ok :=
  decidable_of_iff (e.csw.any fun c => c.status = 0) (by simp [Sent.Ok, Option.any_eq_true])

/-- A WRITE(10) that carried the write cache. -/
def Sent.IsFlush (e : Sent) : Prop := e.cmd.opcode = 0x2a ∧ 0 < e.cacheSectors

instance (e : Sent) : Decidable e.IsFlush := inferInstanceAs (Decidable (_ ∧ _))

/-- Every command on the way from `w` to `t` satisfies `p`. -/
def Since (p : Sent → Prop) (w t : World Stick) : Prop := ∀ e ∈ t.trace.drop w.trace.length, p e

/-- No flush of the write cache failed on the way from `w` to `t`. -/
def Lossless (w t : World Stick) : Prop := Since (fun e => e.IsFlush → e.Ok) w t

instance (w t : World Stick) : Decidable (Lossless w t) :=
  inferInstanceAs (Decidable (∀ e ∈ _, _ → _))

/-- Every WRITE(10) on the way from `w` to `t` was confirmed. -/
def Confirmed (w t : World Stick) : Prop := Since (fun e => e.cmd.opcode = 0x2a → e.Ok) w t

/-- Every command is carried out and every allocation succeeds. -/
structure Faultless (s : StickSpec) : Prop where
  fate : ∀ k, s.fate k = .done
  heap : ∀ k, s.heap k = true

section Since

variable {p : Sent → Prop} {w t u : World Stick}

theorem since_of_append {es : List Sent} (h : t.trace = w.trace ++ es) (hes : ∀ e ∈ es, p e) :
    Since p w t := by
  rw [Since, h, List.drop_left]
  exact hes

theorem since_of_trace_eq (h : t.trace = w.trace) : Since p w t :=
  since_of_append (h.trans (List.append_nil _).symm) fun _ he => absurd he List.not_mem_nil

theorem Since.left (h : Since p w u) (hwt : w.trace <+: t.trace) (htu : t.trace <+: u.trace) :
    Since p w t := by
  obtain ⟨es, hes⟩ := hwt
  obtain ⟨fs, hfs⟩ := htu
  rw [Since, ← hfs, ← hes, List.append_assoc, List.drop_left] at h
  exact since_of_append hes.symm fun e he => h e (List.mem_append_left _ he)

theorem Since.right (h : Since p w u) (hwt : w.trace <+: t.trace) : Since p t u := by
  obtain ⟨es, hes⟩ := hwt
  intro e he
  refine h e ?_
  rw [← hes, List.length_append, ← List.drop_drop] at he
  exact List.mem_of_mem_drop he

theorem Since.trans (h : Since p w t) (h' : Since p t u) (hwt : w.trace <+: t.trace)
    (htu : t.trace <+: u.trace) : Since p w u := by
  obtain ⟨es, hes⟩ := hwt
  obtain ⟨fs, hfs⟩ := htu
  rw [Since, ← hes, List.drop_left] at h
  rw [Since, ← hfs, List.drop_left] at h'
  refine since_of_append (by rw [← hfs, ← hes, List.append_assoc]) fun e he => ?_
  rcases List.mem_append.mp he with he | he
  · exact h e he
  · exact h' e he

theorem Since.mono {q : Sent → Prop} (h : Since p w t) (hpq : ∀ e, p e → q e) : Since q w t :=
  fun e he => hpq e (h e he)

theorem Confirmed.lossless (h : Confirmed w t) : Lossless w t := Since.mono h fun _ he hi => he hi.1

theorem Lossless.left (h : Lossless w u) (hwt : w.trace <+: t.trace) (htu : t.trace <+: u.trace) :
    Lossless w t := Since.left h hwt htu

theorem Lossless.right (h : Lossless w u) (hwt : w.trace <+: t.trace) : Lossless t u :=
  Since.right h hwt

end Since

/-- The outcome of one command other than SYNCHRONIZE CACHE: it is carried out and
returns 0, or it returns -1 and leaves data and medium as they were. -/
structure Served (w : World Stick) (c : Cmd) (data : Buf) (r : ℤ × Buf) (t : World Stick) : Prop where
  drv : ∃ u, t.drv = { w.drv with usb := u }
  spec : t.dev.spec = w.dev.spec
  rolls : t.dev.rolls = w.dev.rolls
  requests : t.requests = w.requests
  trace : ∃ e : Sent, t.trace = w.trace ++ [e] ∧ e.cmd = c ∧ e.data = data ∧
    e.cacheSectors = w.drv.gCacheSectors ∧ (e.Ok ↔ r.1 = 0)
  outcome : r.1 = 0 ∧ r.2 = w.dev.dataAfter c data ∧ t.dev.medium = w.dev.mediumAfter c data ∨
    r.1 = -1 ∧ r.2 = data ∧ t.dev.medium = w.dev.medium
  executes : c.Fits w.dev.spec.blockSize → Faultless w.dev.spec → r.1 = 0

theorem wp_scsiCommand {w : World Stick} {c : Cmd} (hc : c.opcode ≠ 0x35) (data : Buf) :
    Prog.wp (scsiCommand stick c data) (Served w c data) (fun _ => False) w := by
  simp only [scsiCommand, Prog.wp_bind, wp_globals, hc, false_and, if_false, wp_transact]
  by_cases hx : w.dev.Executes c
  · simp only [stick, Stick.exchange, hx, if_true, Prog.wp_pure]
    exact ⟨⟨_, rfl⟩, rfl, rfl, rfl, ⟨_, rfl, rfl, rfl, rfl, by simp [Sent.Ok]⟩, .inl ⟨rfl, rfl, rfl⟩,
      fun _ _ => rfl⟩
  have hfate : c.Fits w.dev.spec.blockSize → Faultless w.dev.spec → (-1 : ℤ) = 0 :=
    fun hf hs => absurd ⟨hs.fate _, hf⟩ hx
  by_cases hb : w.dev.spec.fate w.dev.served = .broken
  · simp only [stick, Stick.exchange, hx, hb, if_true, if_false, Prog.wp_pure]
    exact ⟨⟨_, rfl⟩, rfl, rfl, rfl, ⟨_, rfl, rfl, rfl, rfl, by simp [Sent.Ok]⟩, .inr ⟨rfl, rfl, rfl⟩, hfate⟩
  · have hst : (if w.dev.spec.fate w.dev.served = .done then (2 : UInt8) else 1) ≠ 0 := by
      split_ifs <;> decide
    simp only [stick, Stick.exchange, hx, hb, hst, if_false, Prog.wp_bind, wp_sense, Prog.wp_pure]
    refine ⟨⟨_, rfl⟩, rfl, rfl, rfl, ⟨_, rfl, rfl, rfl, rfl, ?_⟩, .inr ⟨rfl, rfl, rfl⟩, hfate⟩
    simpa [Sent.Ok] using hst

end FormatStick
