import FormatStick.TableWriters
import FormatStick.Operations

/-!
# The GPT is valid

A reader's view of a GPT: the fields of a header, the checksums computed bit by bit,
and what they must satisfy. `usb_scsi_write_gpt` meets it on every stick on which its
commands succeed.
-/
namespace FormatStick
open Splice Fields

/-- The polynomial of CRC-32. -/
def crcPoly : BitVec 32 := 0xedb88320

/-- CRC-32 of the first `len` bytes of a buffer, one bit at a time. -/
def crc32Bits (buf : Buf) (len : ℕ) : BitVec 32 := ~~~(Crc.run crcPoly (~~~0) (bytes buf len))

theorem crc32TableStep_eq : crc32TableStep = Crc.shiftBit crcPoly := by
  funext c
  have hbit : c &&& 1 ≠ 0 ↔ c.getLsbD 0 = true := by
    rw [show (1 : BitVec 32) = 1#32 from rfl, BitVec.and_one_eq_setWidth_ofBool_getLsbD]
    cases c.getLsbD 0 <;> decide
  rw [crc32TableStep, Crc.shiftBit]
  by_cases h : c.getLsbD 0
  · rw [if_pos (hbit.mpr h), if_pos h]
    rfl
  · rw [if_neg (mt hbit.mp h), if_neg h]
    exact BitVec.zero_xor.symm

/-- The table-driven checksum is the one computed bit by bit. -/
theorem crc32_eq_run (crc : BitVec 32) (buf : Buf) (len : ℕ) :
    crc32 crc buf len = ~~~(Crc.run crcPoly (~~~crc) (bytes buf len)) := by
  have hstep : ∀ (c : BitVec 32) (b : UInt8),
      crc32Table ((c ^^^ b.toBitVec.setWidth 32) &&& 0xff).toNat ^^^ (c >>> 8) = Crc.feed crcPoly c b := by
    intro c b
    rw [Crc.feed_eq_table, crc32Table, crc32TableStep_eq, BitVec.ofNat_toNat, BitVec.setWidth_eq]
    rfl
  rw [crc32, Crc.run, bytes, List.foldl_map]
  simp only [hstep]

theorem crc32_eq_bits (buf : Buf) (len : ℕ) : crc32 0 buf len = crc32Bits buf len := crc32_eq_run 0 buf len

theorem foldl_update_range (f table : ℕ → BitVec 32) (n i : ℕ) :
    (List.range n).foldl (fun table i => Function.update table i (f i)) table i =
      if i < n then f i else table i := by
  induction n with
  | zero => simp
  | succ n ih =>
    rw [List.range_succ, List.foldl_append]
    simp only [List.foldl_cons, List.foldl_nil, Function.update_apply, ih]
    by_cases h : i = n
    · simp [h]
    · have hlt : i < n + 1 ↔ i < n := by omega
      simp [h, hlt]

/-- `init_crc32_table` leaves none of the entries that a byte can look up as it was. -/
theorem initCrc32Table_eq (table : ℕ → BitVec 32) {i : ℕ} (h : i < 256) :
    initCrc32Table table i = crc32Table i := by
  rw [initCrc32Table, foldl_update_range (fun i => crc32TableStep^[8] (BitVec.ofNat 32 i)), if_pos h]
  rfl

theorem crc32With_init (table : ℕ → BitVec 32) : crc32With (initCrc32Table table) = crc32 := by
  have hindex : ∀ x : BitVec 32, (x &&& 0xff).toNat < 256 := by
    intro x
    have hmask : (x &&& 0xff).toNat ≤ 255 := by
      rw [BitVec.toNat_and]
      exact Nat.and_le_right
    omega
  funext crc buf len
  rw [crc32With, crc32]
  simp only [initCrc32Table_eq table (hindex _)]

/-- The checksum of a string goes on from that of its first part. -/
theorem crc32_append (a b c : Buf) (m n : ℕ) (h : bytes c (m + n) = bytes a m ++ bytes b n) :
    crc32 (crc32 0 a m) b n = crc32 0 c (m + n) := by
  rw [crc32_eq_run, crc32_eq_run, crc32_eq_run, BitVec.not_not, h, Crc.run_append]

/-- Whatever the table held before `init_crc32_table`, `crc32` is the checksum taken one bit at a
time, and may be taken of a string in two parts. -/
theorem crc32With_bitwise (table : ℕ → BitVec 32) :
    (∀ buf len, crc32With (initCrc32Table table) 0 buf len = crc32Bits buf len) ∧
      ∀ a b c m n, bytes c (m + n) = bytes a m ++ bytes b n →
        crc32With (initCrc32Table table) (crc32With (initCrc32Table table) 0 a m) b n =
          crc32With (initCrc32Table table) 0 c (m + n) := by
  rw [crc32With_init]
  exact ⟨crc32_eq_bits, crc32_append⟩

/-- "1234" and "56789". -/
theorem crc32With_bitwise_digits :
    crc32With (initCrc32Table fun _ => 0)
        (crc32With (initCrc32Table fun _ => 0) 0 (put zeros 0 [0x31, 0x32, 0x33, 0x34]) 4)
        (put zeros 0 [0x35, 0x36, 0x37, 0x38, 0x39]) 5 =
      crc32With (initCrc32Table fun _ => 0) 0
        (put zeros 0 [0x31, 0x32, 0x33, 0x34, 0x35, 0x36, 0x37, 0x38, 0x39]) (4 + 5) :=
  (crc32With_bitwise fun _ => 0).2 _ _ _ 4 5 (by decide)

/-- The check value of CRC-32. -/
example : crc32 0 (put zeros 0 [0x31, 0x32, 0x33, 0x34, 0x35, 0x36, 0x37, 0x38, 0x39]) 9 = 0xCBF43926 := by
  decide +kernel

/-- The checksum looks at the bytes below its length only. -/
theorem crc32Bits_congr {b c : Buf} {len : ℕ} (h : ∀ i < len, b i = c i) :
    crc32Bits b len = crc32Bits c len := by
  have hbytes : bytes b len = bytes c len :=
    List.map_congr_left fun i hi => h i (List.mem_range.mp hi)
  rw [crc32Bits, crc32Bits, hbytes]

/-- A GPT header as a reader decodes its sector. -/
structure GptHeader where
  signature : ℕ
  revision : ℕ
  headerSize : ℕ
  headerCrc : ℕ
  myLba : ℕ
  alternateLba : ℕ
  firstUsable : ℕ
  lastUsable : ℕ
  entryLba : ℕ
  numEntries : ℕ
  entrySize : ℕ
  entriesCrc : ℕ
  deriving DecidableEq

/-- The decoding of a header sector. -/
def GptHeader.read (b : Buf) : GptHeader where
  signature := leNat b 0 8
  revision := leNat b 8 4
  headerSize := leNat b 12 4
  headerCrc := leNat b 16 4
  myLba := leNat b 24 8
  alternateLba := leNat b 32 8
  firstUsable := leNat b 40 8
  lastUsable := leNat b 48 8
  entryLba := leNat b 72 8
  numEntries := leNat b 80 4
  entrySize := leNat b 84 4
  entriesCrc := leNat b 88 4

/-- Sector `lba` of a medium. -/
def sector (m : Buf) (lba : ℕ) : Buf := window m (lba * 512)

/-- The header at `lba` says where it is, and both its checksums are right. -/
structure HeaderOk (m : Buf) (lba : ℕ) (h : GptHeader) : Prop where
  signature : h.signature = 0x5452415020494645
  revision : h.revision = 0x00010000
  headerSize : h.headerSize = 92
  myLba : h.myLba = lba
  numEntries : h.numEntries = 128
  entrySize : h.entrySize = 128
  headerCrc : h.headerCrc = (crc32Bits (put (sector m lba) 16 [0, 0, 0, 0]) h.headerSize).toNat
  entriesCrc : h.entriesCrc = (crc32Bits (sector m h.entryLba) (h.numEntries * h.entrySize)).toNat

/-- A medium of `n` sectors carries a valid GPT: `p` and `b` are its headers, primary
and backup. -/
structure ValidGpt (m : Buf) (n : ℕ) (p b : GptHeader) : Prop where
  /-- the protective MBR covers all but its own sector -/
  protective : m 450 = 0xEE ∧ leNat m 454 4 = 1 ∧ leNat m 458 4 = n - 1 ∧
    (∀ i, 462 ≤ i → i < 510 → m i = 0) ∧ m 510 = 0x55 ∧ m 511 = 0xAA
  primary : HeaderOk m 1 p
  backup : HeaderOk m (n - 1) b
  alternate : p.alternateLba = b.myLba ∧ b.alternateLba = p.myLba
  usable : p.firstUsable = 34 ∧ b.firstUsable = p.firstUsable ∧ b.lastUsable = p.lastUsable
  arrays : p.entryLba = 2 ∧ b.entryLba = n - 33 ∧
    ∀ i < 32 * 512, sector m p.entryLba i = sector m b.entryLba i
  /-- the first entry lies in the usable range -/
  entry : p.firstUsable ≤ leNat (sector m p.entryLba) 32 8 ∧
    leNat (sector m p.entryLba) 32 8 ≤ leNat (sector m p.entryLba) 40 8 ∧
    leNat (sector m p.entryLba) 40 8 ≤ p.lastUsable
  /-- headers, arrays and usable range follow each other without meeting -/
  disjoint : p.myLba < p.entryLba ∧ p.entryLba + 32 ≤ p.firstUsable ∧ p.firstUsable ≤ p.lastUsable ∧
    p.lastUsable < b.entryLba ∧ b.entryLba + 32 ≤ b.myLba ∧ b.myLba < n

section Encoded

variable {n partitionSectors : ℕ} {fsType : ℤ} {diskSig guid diskGuid : List UInt8}

theorem gptPartitionEnd_eq (h₁ : 1 ≤ partitionSectors) (h₂ : partitionSectors ≤ n - 4130)
    (hn : 4131 ≤ n) (hn' : n ≤ 4294967296) :
      gptPartitionEnd n partitionSectors = 4095 + partitionSectors := by
  have hend : u64 ((u64 (4096 + (partitionSectors : ℤ)) : ℕ) - 1) = 4095 + partitionSectors := by
    unfold u64
    omega
  have hlast : u64 ((n : ℤ) - 34) = n - 34 := by
    unfold u64
    omega
  rw [gptPartitionEnd, hend, hlast, if_neg (by omega)]

/-- Sealing a header fills in its checksum field and nothing else. -/
theorem read_sealHeader (header : Buf) :
    GptHeader.read (sealHeader header) =
      { GptHeader.read header with headerCrc := (crc32Bits header 92).toNat } := by
  have hcrc : (crc32Bits header 92).toNat < 256 ^ 4 := (crc32Bits header 92).isLt
  simp (disch := simp) only [GptHeader.read, sealHeader, leNat_put_of_disjoint, leNat_put, crc32_eq_bits,
    Nat.mod_eq_of_lt hcrc]

theorem leNat_efiPart (f : Buf) :
    leNat (put f 0 [0x45, 0x46, 0x49, 0x20, 0x50, 0x41, 0x52, 0x54]) 0 8 = 0x5452415020494645 :=
  leNat_put_bytes f 0 [0x45, 0x46, 0x49, 0x20, 0x50, 0x41, 0x52, 0x54]

/-- The fields of a header at `my` that points at the other one and at its array. -/
def headerFields (n my alternate array : ℕ) (headerCrc entriesCrc : BitVec 32) : GptHeader where
  signature := 0x5452415020494645
  revision := 0x00010000
  headerSize := 92
  headerCrc := headerCrc.toNat
  myLba := my
  alternateLba := alternate
  firstUsable := 34
  lastUsable := n - 34
  entryLba := array
  numEntries := 128
  entrySize := 128
  entriesCrc := entriesCrc.toNat

theorem read_gptHeader (hguid : diskGuid.length = 16) (hn : 67 ≤ n) (hn' : n ≤ 4294967296)
    (crc : BitVec 32) :
    GptHeader.read (gptHeader n diskGuid crc) = headerFields n 1 (n - 1) 2 0 crc := by
  have hcrc : crc.toNat % 4294967296 = crc.toNat := Nat.mod_eq_of_lt crc.isLt
  have h₁ : u64 ((n : ℤ) - 1) = n - 1 := by unfold u64; omega
  have h₃₄ : u64 ((n : ℤ) - 34) = n - 34 := by unfold u64; omega
  have hlast : (n - 1) % 18446744073709551616 = n - 1 := Nat.mod_eq_of_lt (by omega)
  have husable : (n - 34) % 18446744073709551616 = n - 34 := Nat.mod_eq_of_lt (by omega)
  have hzero : leNat zeros 16 4 = 0 := rfl
  have hclear : (0 : BitVec 32).toNat = 0 := rfl
  simp (disch := simp [hguid])
    only [GptHeader.read, headerFields, gptHeader, leNat_put_of_disjoint, leNat_put,
    h₁, h₃₄, hcrc, hlast, husable, leNat_efiPart, hzero, hclear, Nat.reducePow, Nat.reduceMod]

/-- The backup header differs from the primary in four fields. -/
theorem read_backupHeader (hn : 67 ≤ n) (hn' : n ≤ 4294967296) {header : Buf} {c crc : BitVec 32}
    (h : GptHeader.read header = headerFields n 1 (n - 1) 2 c crc) :
    GptHeader.read (backupHeader n header) = headerFields n (n - 1) 1 (n - 33) 0 crc := by
  have h₁ : u64 ((n : ℤ) - 1) = n - 1 := by unfold u64; omega
  have h₃₃ : u64 ((n : ℤ) - 33) = n - 33 := by unfold u64; omega
  have hlast : (n - 1) % 18446744073709551616 = n - 1 := Nat.mod_eq_of_lt (by omega)
  have harray : (n - 33) % 18446744073709551616 = n - 33 := Nat.mod_eq_of_lt (by omega)
  have hclear : ∀ f, leNat (put f 16 [0, 0, 0, 0]) 16 4 = 0 := fun f => leNat_put_bytes f 16 [0, 0, 0, 0]
  have hzero : (0 : BitVec 32).toNat = 0 := rfl
  simp only [GptHeader.read, headerFields, GptHeader.mk.injEq] at h
  simp (disch := simp) only [GptHeader.read, headerFields, backupHeader, leNat_put_of_disjoint, leNat_put,
    h₁, h₃₃, hlast, harray, hclear, hzero, h, Nat.reducePow, Nat.reduceMod]

theorem GptHeader.read_congr {b c : Buf} (h : ∀ i < 92, b i = c i) : read b = read c := by
  have hfield : ∀ a k, a + k ≤ 92 → leNat b a k = leNat c a k := fun a k hk =>
    leNat_congr fun i hi => h (a + i) (by omega)
  simp (disch := simp) only [read, hfield]

theorem getD_clear : ∀ k < 4, ([0, 0, 0, 0] : List UInt8).getD k 0 = 0 := by decide

/-- A sealed header verifies: clearing the checksum field gives back the bytes that were summed. -/
theorem crc32Bits_sealHeader {header s : Buf} (hs : ∀ i < 512, s i = sealHeader header i)
    (hclear : ∀ i, 16 ≤ i → i < 20 → header i = 0) :
    crc32Bits (put s 16 [0, 0, 0, 0]) 92 = crc32Bits header 92 := by
  apply crc32Bits_congr
  intro i hi
  by_cases hlt : i < 16
  · rw [put_of_lt hlt, hs i (by omega), sealHeader, put_of_lt hlt]
  by_cases hge : 20 ≤ i
  · rw [put_of_ge hge, hs i (by omega), sealHeader, put_of_ge (by rw [leBytes_length]; exact hge)]
  · rw [hclear i (by omega) (by omega)]
    obtain ⟨k, rfl⟩ := Nat.exists_eq_add_of_le (Nat.le_of_not_lt hlt)
    rw [put_at (show k < 4 by omega)]
    exact getD_clear k (by omega)

theorem gptHeader_clear (crc : BitVec 32) (i : ℕ) (h₁ : 16 ≤ i)
    (h₂ : i < 20) : gptHeader n diskGuid crc i = 0 := by
  have hfar : ∀ (f : Buf) (a : ℕ) (bs : List UInt8), 20 ≤ a → put f a bs i = f i := fun f a bs ha =>
    put_of_lt (by omega)
  have hnear : ∀ (f : Buf) (a : ℕ) (bs : List UInt8), a + bs.length ≤ 16 → put f a bs i = f i :=
    fun f a bs ha => put_of_ge (by omega)
  simp (disch := simp) only [gptHeader, hfar, hnear, zeros]

theorem backupHeader_clear (header : Buf) (i : ℕ) (h₁ : 16 ≤ i) (h₂ : i < 20) :
    backupHeader n header i = 0 := by
  have hfar : ∀ (f : Buf) (a : ℕ) (bs : List UInt8), 20 ≤ a → put f a bs i = f i := fun f a bs ha =>
    put_of_lt (by omega)
  obtain ⟨k, rfl⟩ := Nat.exists_eq_add_of_le h₁
  simp (disch := simp) only [backupHeader, hfar]
  rw [put_at (show k < 4 by omega)]
  exact getD_clear k (by omega)

theorem HoldsSector.at {m : Buf} {lba : ℕ} {b : Buf} (h : HoldsSector m (lba, b)) :
    ∀ i < 512, sector m lba i = b i := h

/-- An entry array that is on the medium, seen as one run of bytes. -/
theorem sector_entrySectors {m : Buf} {lba : ℕ} {entries : Buf} (hl : lba + 32 < 2 ^ 64)
    (h : ∀ x ∈ entrySectors lba entries, HoldsSector m x) (i : ℕ) (hi : i < 32 * 512) :
    sector m lba i = entries i := by
  have hmem := (mem_entrySectors hl entries (lba + i / 512, window entries (i / 512 * 512))).mpr
    ⟨i / 512, by omega, rfl⟩
  have hbyte := h _ hmem (i % 512) (by omega)
  simp only [window_apply] at hbyte
  rw [sector, window_apply, ← Nat.div_add_mod' i 512, ← Nat.add_assoc, ← Nat.add_mul, hbyte,
    Nat.div_add_mod' i 512]

/-- A sealed header on the medium, together with the entry array it points at, checks out. -/
theorem headerOk_of_holds {m : Buf} {my alternate array : ℕ} {header entries : Buf} {c crc : BitVec 32}
    (hread : GptHeader.read header = headerFields n my alternate array c crc)
    (hheader : HoldsSector m (my, sealHeader header)) (hclear : ∀ i, 16 ≤ i → i < 20 → header i = 0)
    (hentries : ∀ i < 32 * 512, sector m array i = entries i) (hcrc : crc = crc32 0 entries (512 * 32)) :
    GptHeader.read (sector m my) = headerFields n my alternate array (crc32Bits header 92) crc ∧
      HeaderOk m my (headerFields n my alternate array (crc32Bits header 92) crc) := by
  constructor
  · rw [GptHeader.read_congr fun i hi => hheader.at i (by omega), read_sealHeader, hread]
    rfl
  · have hsum : crc32Bits (put (sector m my) 16 [0, 0, 0, 0]) 92 = crc32Bits header 92 :=
      crc32Bits_sealHeader hheader.at hclear
    have harray : crc32Bits (sector m array) (128 * 128) = crc := by
      rw [hcrc, crc32_eq_bits, crc32Bits_congr hentries]
    exact ⟨rfl, rfl, rfl, rfl, rfl, rfl, congrArg BitVec.toNat hsum.symm, congrArg BitVec.toNat harray.symm⟩

/-- The range of entry 0. -/
theorem leNat_gptEntries {pEnd : ℕ} (hend : pEnd < 256 ^ 8) :
    leNat (gptEntries fsType guid pEnd) 32 8 = 4096 ∧ leNat (gptEntries fsType guid pEnd) 40 8 = pEnd := by
  constructor
  · simp (disch := simp) only [gptEntries, leNat_put_of_disjoint, leNat_put, Nat.reducePow, Nat.reduceMod]
  · simp (disch := simp) only [gptEntries, leNat_put_of_disjoint, leNat_put, Nat.mod_eq_of_lt hend]

theorem protectiveMbr_covers (hsig : diskSig.length = 4) (hn : 67 ≤ n) (hn' : n ≤ 4294967296) :
    protectiveMbr diskSig n 450 = 0xEE ∧ leNat (protectiveMbr diskSig n) 454 4 = 1 ∧
      leNat (protectiveMbr diskSig n) 458 4 = n - 1 ∧
      (∀ i, 462 ≤ i → i < 510 → protectiveMbr diskSig n i = 0) ∧
      protectiveMbr diskSig n 510 = 0x55 ∧ protectiveMbr diskSig n 511 = 0xAA := by
  have hsize : (if n > 0xFFFFFFFF then 0xFFFFFFFF else u32 ((u32 n : ℤ) - 1)) % 256 ^ 4 = n - 1 := by
    unfold u32
    split_ifs <;> omega
  refine ⟨?_, ?_, ?_, ?_, ?_, ?_⟩
  · simp (disch := simp) only [protectiveMbr, put_of_lt]
    exact put_at (i := 4) (show 4 < 8 by decide)
  · simp (disch := simp) only [protectiveMbr, leNat_put_of_disjoint, leNat_put, Nat.reducePow, Nat.reduceMod]
  · simp (disch := simp) only [protectiveMbr, leNat_put_of_disjoint, leNat_put, hsize]
  · intro i h₁ h₂
    have hlow : ∀ (f : Buf) (a : ℕ) (bs : List UInt8), a + bs.length ≤ 462 → put f a bs i = f i :=
      fun f a bs ha => put_of_ge (by omega)
    rw [protectiveMbr, put_of_lt h₂]
    simp (disch := simp [hsig]) only [hlow, zeros]
  · exact put_at (i := 0) (show 0 < 2 by decide)
  · exact put_at (i := 1) (show 1 < 2 by decide)

/-- The sectors of a table, on the medium. -/
structure GptTable.Held (T : GptTable) (n : ℕ) (m : Buf) : Prop where
  mbr : HoldsSector m (0, T.mbr)
  header : HoldsSector m (1, T.header)
  backup : HoldsSector m (n - 1, T.backup)
  primary : ∀ i < 32 * 512, sector m 2 i = T.entries i
  secondary : ∀ i < 32 * 512, sector m (n - 33) i = T.entries i

theorem GptTable.held {T : GptTable} {m : Buf} (hn : 67 ≤ n) (hn' : n ≤ 4294967296)
    (h : ∀ x ∈ T.primary ++ T.secondary n, HoldsSector m x) : T.Held n m := by
  have h₃₃ : u64 ((n : ℤ) - 33) = n - 33 := by unfold u64; omega
  have h₁ : u64 ((n : ℤ) - 1) = n - 1 := by unfold u64; omega
  rw [GptTable.primary, GptTable.secondary, h₃₃, h₁] at h
  have hsecond : ∀ x ∈ entrySectors (n - 33) T.entries, HoldsSector m x := fun x hx =>
    h x (List.mem_append_right _ (List.mem_append_left _ hx))
  refine ⟨h _ List.mem_cons_self, h _ (List.mem_cons_of_mem _ List.mem_cons_self), ?_, ?_, ?_⟩
  · exact h _ (List.mem_append_right _ (List.mem_append_right _ (List.mem_singleton_self _)))
  · apply sector_entrySectors (by decide)
    intro x hx
    exact h x (List.mem_append_left _ (List.mem_cons_of_mem _ (List.mem_cons_of_mem _ hx)))
  · exact sector_entrySectors (by omega) hsecond

/-- Both headers of a held table check out, whatever the bytes that were rolled. -/
theorem headers_ok {m entries : Buf} (hdisk : diskGuid.length = 16) (hn : 67 ≤ n)
    (hn' : n ≤ 4294967296) {mbr : Buf} {crc : BitVec 32} (hcrc : crc = crc32 0 entries (512 * 32))
    (h : GptTable.Held ⟨mbr, sealHeader (gptHeader n diskGuid crc), entries,
      sealHeader (backupHeader n (sealHeader (gptHeader n diskGuid crc)))⟩ n m) :
    ∃ c c' : BitVec 32,
      (GptHeader.read (sector m 1) = headerFields n 1 (n - 1) 2 c crc ∧
        HeaderOk m 1 (headerFields n 1 (n - 1) 2 c crc)) ∧
      GptHeader.read (sector m (n - 1)) = headerFields n (n - 1) 1 (n - 33) c' crc ∧
        HeaderOk m (n - 1) (headerFields n (n - 1) 1 (n - 33) c' crc) := by
  have hread : GptHeader.read (gptHeader n diskGuid crc) = headerFields n 1 (n - 1) 2 0 crc :=
    read_gptHeader hdisk hn hn' crc
  have hsealed : GptHeader.read (sealHeader (gptHeader n diskGuid crc)) =
      headerFields n 1 (n - 1) 2 (crc32Bits (gptHeader n diskGuid crc) 92) crc := by
    rw [read_sealHeader, hread]
    rfl
  refine ⟨_, _, headerOk_of_holds hread h.header (gptHeader_clear crc) h.primary hcrc,
    headerOk_of_holds (read_backupHeader hn hn' hsealed) h.backup (backupHeader_clear _) h.secondary hcrc⟩

/-- A medium that holds the table of a partition inside the usable range carries a valid GPT. -/
theorem validGpt_of_held {m : Buf} (hsig : diskSig.length = 4) (hdisk : diskGuid.length = 16)
    (hn : 4131 ≤ n) (hn' : n ≤ 4294967296) (h₁ : 1 ≤ partitionSectors)
    (h₂ : partitionSectors ≤ n - 4130)
    (h : (gptTable n partitionSectors fsType diskSig guid diskGuid).Held n m) :
    ValidGpt m n (GptHeader.read (sector m 1)) (GptHeader.read (sector m (n - 1))) := by
  have hpEnd := gptPartitionEnd_eq h₁ h₂ hn hn'
  obtain ⟨c, c', ⟨hp, hpok⟩, hb, hbok⟩ := headers_ok hdisk (show 67 ≤ n by omega) hn' rfl h
  have hfield : ∀ a k, a + k ≤ 512 → leNat (sector m 2) a k =
      leNat (gptEntries fsType guid (gptPartitionEnd n partitionSectors)) a k := fun a k hk =>
    leNat_congr fun i hi => h.primary _ (by omega)
  obtain ⟨hstart, hend⟩ : leNat (gptEntries fsType guid (gptPartitionEnd n partitionSectors)) 32 8 = 4096 ∧
      leNat (gptEntries fsType guid (gptPartitionEnd n partitionSectors)) 40 8 =
        gptPartitionEnd n partitionSectors :=
    leNat_gptEntries (by rw [hpEnd]; omega)
  have hbyte : ∀ i < 512, m i = protectiveMbr diskSig n i := fun i hi => by
    have hi' := h.mbr i hi
    rwa [Nat.zero_mul, Nat.zero_add] at hi'
  have hmbr : ∀ a k, a + k ≤ 512 → leNat m a k = leNat (protectiveMbr diskSig n) a k := fun a k hk =>
    leNat_congr fun i hi => hbyte _ (by omega)
  obtain ⟨ht, hs, hl, hz, h₅, h₆⟩ := protectiveMbr_covers hsig (show 67 ≤ n by omega) hn'
  rw [hp, hb]
  exact {
    protective := by
      rw [hbyte 450 (by decide), hmbr 454 4 (by decide), hmbr 458 4 (by decide), hbyte 510 (by decide),
        hbyte 511 (by decide)]
      exact ⟨ht, hs, hl, fun i hi hi' => (hbyte i (by omega)).trans (hz i hi hi'), h₅, h₆⟩
    primary := hpok
    backup := hbok
    alternate := ⟨rfl, rfl⟩
    usable := ⟨rfl, rfl, rfl⟩
    arrays := ⟨rfl, rfl, fun i hi => (h.primary i hi).trans (h.secondary i hi).symm⟩
    entry := by
      have hrange : 34 ≤ 4096 ∧ 4096 ≤ 4095 + partitionSectors ∧ 4095 + partitionSectors ≤ n - 34 := by omega
      rw [← hpEnd, ← hend, ← hstart, ← hfield 32 8 (by decide), ← hfield 40 8 (by decide)] at hrange
      exact hrange
    disjoint := by
      simp only [headerFields]
      omega }

end Encoded

/-- `usb_scsi_write_gpt` leaves a valid GPT when its commands succeed. -/
theorem usbScsiWriteGpt_valid {w : World Stick} (hw : Idle w) (hf : Faultless w.dev.spec)
    (hn : 4131 ≤ w.drv.gSectorCount) (hn' : w.drv.gSectorCount ≤ 4294967296) {partitionSectors : ℕ}
    (h₁ : 1 ≤ partitionSectors) (h₂ : partitionSectors ≤ w.drv.gSectorCount - 4130) (fsType : ℤ) :
    ∃ t, usbScsiWriteGpt stick partitionSectors fsType w = (some 0, t) ∧
      ValidGpt t.dev.medium w.drv.gSectorCount (GptHeader.read (sector t.dev.medium 1))
        (GptHeader.read (sector t.dev.medium (w.drv.gSectorCount - 1))) := by
  obtain ⟨r, t, hrun, hdone⟩ :=
    Prog.wp_returns (wp_usbScsiWriteGpt hw.ready (by omega) hn' partitionSectors fsType)
  obtain ⟨hr, hholds⟩ := hdone.full hw.empty (hdone.stage.frame.confirmed hf)
  exact ⟨t, by rw [hrun, hr], validGpt_of_held (rolled_length _ _ _) (rolled_length _ _ _) hn hn' h₁ h₂
    (GptTable.held (by omega) hn' hholds)⟩

/-- A stick of ones with 512 MB, its capacity read. -/
def readStick : World Stick := { onesStick with drv := { gSectorCount := 1048576 } }

theorem usbScsiWriteGpt_valid_full :
    ∃ t, usbScsiWriteGpt stick 1044446 1 readStick = (some 0, t) ∧
      ValidGpt t.dev.medium 1048576 (GptHeader.read (sector t.dev.medium 1))
        (GptHeader.read (sector t.dev.medium 1048575)) :=
  usbScsiWriteGpt_valid (w := readStick) ⟨rfl, rfl, rfl⟩ ⟨fun _ => rfl, fun _ => rfl⟩ (by decide) (by decide)
    (by decide) (by decide) 1

end FormatStick
