import FormatStick.FatContainment
import Mathlib.Data.List.GetD

/-!
# The tables on the stick

What a volume holds once the FAT formatter has returned and the cache is flushed: its writes
overlap where the tables are short, and the later one of two is the one that counts.
-/
namespace FormatStick
open Splice WriteBack Fields

/-- The entries that a FAT begins with: the media descriptor, the end-of-chain mark and, in a FAT32,
the chain of the root directory. -/
def fatReservedEntries (fatType : ℤ) : List UInt8 :=
  if fatType = 1 then [0xF8, 0xFF, 0xFF, 0x0F, 0xFF, 0xFF, 0xFF, 0x0F, 0xFF, 0xFF, 0xFF, 0x0F]
  else if fatType = 2 then [0xF8, 0xFF, 0xFF, 0xFF]
  else [0xF8, 0xFF, 0xFF]

/-- A partition with the bytes `m` has two fresh FATs, an empty root directory or a copy of its boot
sector. -/
structure FatInitialised (fatType : ℤ) (fatSize : ℕ) (m : Buf) : Prop where
  table : ∀ f ≤ 1, ∀ i < fatSize * 512,
    m ((fatReservedSectors fatType + f * fatSize) * 512 + i) = (fatReservedEntries fatType).getD i 0
  identical : ∀ i < fatSize * 512, m (fatReservedSectors fatType * 512 + i) =
    m ((fatReservedSectors fatType + fatSize) * 512 + i)
  root : fatType ≠ 1 → ∀ i < fatRootDirSectors fatType * 512,
    m ((fatReservedSectors fatType + 2 * fatSize) * 512 + i) = 0
  backup : fatType = 1 → ∀ i < 512, m (6 * 512 + i) = m i

theorem fatFirstChunk_eq (fatType : ℤ) (i : ℕ) :
    fatFirstChunk fatType i = (fatReservedEntries fatType).getD i 0 := by
  have hput : ∀ bs : List UInt8, put zeros 0 bs i = bs.getD i 0 := fun bs => by
    by_cases h : i < bs.length
    · have hat := put_at (f := zeros) (a := 0) h
      rwa [Nat.zero_add] at hat
    · rw [put_of_ge (by omega), List.getD_eq_default _ _ (by omega)]
      rfl
  unfold fatFirstChunk fatReservedEntries
  rw [hput]
  split_ifs <;> rfl

theorem fatFirstChunk_of_ge (fatType : ℤ) {i : ℕ} (h : 12 ≤ i) : fatFirstChunk fatType i = 0 := by
  have hlen : (fatReservedEntries fatType).length ≤ 12 := by
    unfold fatReservedEntries
    split_ifs <;> decide
  rw [fatFirstChunk_eq, List.getD_eq_default _ _ (by omega)]

section Writes

variable {d : ℕ} {m : Buf}

theorem write_writeAt (buf : Buf) (count sector d : ℕ) :
    (writeAt 512 buf count sector).write d = ⟨(d + sector) * 512, buf, count⟩ := by
  have haddr : sector * 512 + d * 512 = (d + sector) * 512 := by ring
  rw [← haddr]
  rfl

/-- The chunks of a region are one write of zeros. -/
theorem writeAll_zeroWrites (m : Buf) (d start size i : ℕ) :
    writeAll m ((zeroWrites 512 start size i).map (Request.write d)) =
      splice m ((d + start + i) * 512) zeros ((size - i) * 512) := by
  obtain ⟨k, hk⟩ : ∃ k, k = size - i := ⟨_, rfl⟩
  induction k using Nat.strong_induction_on generalizing i m with
  | _ k ih =>
    by_cases h : i < size
    · have hrest := ih (size - (i + 64)) (by omega)
        (splice m ((d + start + i) * 512) zeros (min 64 (size - i) * 512)) (i + 64) rfl
      rw [zeroWrites_of_lt h, List.map_cons, writeAll_cons, write_writeAt, ← Nat.add_assoc,
        Nat.mul_comm 512, hrest]
      by_cases hlast : size - i ≤ 64
      · have hnone : size - (i + 64) = 0 := by omega
        rw [hnone, Nat.zero_mul, splice_zero, Nat.min_eq_right hlast]
      · have hnext : (d + start + (i + 64)) * 512 = (d + start + i) * 512 + 64 * 512 := by ring
        have hall : 64 * 512 + (size - (i + 64)) * 512 = (size - i) * 512 := by omega
        rw [Nat.min_eq_left (by omega), hnext, ← hall]
        exact splice_chunk m zeros _ _ _
    · have hnone : size - i = 0 := by omega
      rw [zeroWrites_of_le (by omega), hnone, Nat.zero_mul, splice_zero]
      rfl

/-- A table is one write of its first chunk, with zeros as far as it goes. -/
theorem writeAll_fatTableWrites (m : Buf) (d : ℕ) (fatType : ℤ) (fatSize f : ℕ) :
    writeAll m ((fatTableWrites 512 fatType fatSize f).map (Request.write d)) =
      splice m ((d + fatReservedSectors fatType + f * fatSize) * 512) (fatFirstChunk fatType)
        (max 64 fatSize * 512) := by
  have hstart : (d + (fatReservedSectors fatType + f * fatSize) + 64) * 512 =
      (d + fatReservedSectors fatType + f * fatSize) * 512 + 32768 := by ring
  have hall : 32768 + (fatSize - 64) * 512 = max 64 fatSize * 512 := by omega
  have hrest : ∀ i < (fatSize - 64) * 512, zeros i = window (fatFirstChunk fatType) 32768 i := fun i _ => by
    rw [window_apply, fatFirstChunk_of_ge _ (by omega)]
    rfl
  rw [fatTableWrites, List.map_append, writeAll_append, List.map_singleton, writeAll_cons, writeAll_nil,
    write_writeAt,
    writeAll_zeroWrites, hstart, ← Nat.add_assoc, splice_congr hrest, splice_chunk, hall]

/-- The two tables, whatever was written before them. -/
theorem writeAll_tables (m : Buf) (d : ℕ) (fatType : ℤ) (fatSize : ℕ) {f : ℕ} (hf : f ≤ 1) {i : ℕ}
    (hi : i < fatSize * 512) :
    writeAll m ((fatTableWrites 512 fatType fatSize 0 ++ fatTableWrites 512 fatType fatSize 1).map
      (Request.write d))
      (d * 512 + ((fatReservedSectors fatType + f * fatSize) * 512 + i)) =
        (fatReservedEntries fatType).getD i 0 := by
  rw [List.map_append, writeAll_append, writeAll_fatTableWrites, writeAll_fatTableWrites, ← fatFirstChunk_eq]
  rcases Nat.le_one_iff_eq_zero_or_eq_one.mp hf with rfl | rfl
  · rw [splice_of_lt (by omega), splice_of_mem (by omega) (by omega)]
    congr 1
    omega
  · rw [splice_of_mem (by omega) (by omega)]
    congr 1
    omega

/-- They leave what is in front of them as it was. -/
theorem writeAll_tables_of_lt (m : Buf) (d : ℕ) (fatType : ℤ) (fatSize : ℕ) {a : ℕ}
    (ha : a < (d + fatReservedSectors fatType) * 512) :
    writeAll m ((fatTableWrites 512 fatType fatSize 0 ++ fatTableWrites 512 fatType fatSize 1).map
      (Request.write d)) a =
      m a := by
  have hbefore : ∀ f, a < (d + fatReservedSectors fatType + f * fatSize) * 512 := fun f =>
    Nat.lt_of_lt_of_le ha (Nat.mul_le_mul_right _ (Nat.le_add_right _ _))
  rw [List.map_append, writeAll_append, writeAll_fatTableWrites, writeAll_fatTableWrites,
    splice_of_lt (hbefore 1),
    splice_of_lt (hbefore 0)]

/-- A partition is initialised by the writes of a FAT layout, whatever was there before. -/
theorem fatInitialised_writeAll (m : Buf) (d : ℕ) (fatType : ℤ) (fatSize : ℕ) (bs : Buf) :
    FatInitialised fatType fatSize
      (window (writeAll m ((fatWrites 512 fatType fatSize bs).map (Request.write d))) (d * 512)) := by
  have htable : ∀ f ≤ 1, ∀ i < fatSize * 512,
      window (writeAll m ((fatWrites 512 fatType fatSize bs).map (Request.write d))) (d * 512)
        ((fatReservedSectors fatType + f * fatSize) * 512 + i) = (fatReservedEntries fatType).getD i 0 := by
    intro f hf i hi
    have hle : f * fatSize ≤ fatSize :=
      Nat.le_trans (Nat.mul_le_mul_right _ hf) (Nat.le_of_eq (Nat.one_mul _))
    rw [window_apply, fatWrites]
    by_cases hfat : fatType = 1
    · rw [if_pos hfat, List.map_append, List.map_append, List.map_append, writeAll_append, writeAll_append,
        writeAll_append]
      exact writeAll_tables _ d fatType fatSize hf hi
    · rw [if_neg hfat, ← List.append_assoc (fatTableWrites 512 fatType fatSize 0), List.map_append,
        List.map_append,
        writeAll_append, writeAll_append, writeAll_zeroWrites, splice_of_lt (by omega)]
      exact writeAll_tables _ d fatType fatSize hf hi
  refine ⟨htable, fun i hi => ?_, fun hne i hi => ?_, fun hfat i hi => ?_⟩
  · have hfirst := htable 0 (Nat.zero_le 1) i hi
    have hsecond := htable 1 (Nat.le_refl 1) i hi
    rw [Nat.zero_mul, Nat.add_zero] at hfirst
    rw [Nat.one_mul] at hsecond
    rw [hfirst, hsecond]
  · rw [window_apply, fatWrites, if_neg hne, ← List.append_assoc (fatTableWrites 512 fatType fatSize 0),
      List.map_append,
      List.map_append, writeAll_append, writeAll_append, writeAll_zeroWrites,
      splice_of_mem (by omega) (by omega)]
    rfl
  · have hres : fatReservedSectors fatType = 32 := if_pos hfat
    rw [window_apply, window_apply, fatWrites, if_pos hfat, List.map_append, List.map_append, List.map_append,
      writeAll_append, writeAll_append, writeAll_append, writeAll_tables_of_lt _ _ _ _ (by omega),
      writeAll_tables_of_lt _ _ _ _ (by omega)]
    simp only [List.map_singleton, writeAll_cons, writeAll_nil, write_writeAt]
    rw [splice_of_ge (by omega), splice_of_mem (by omega) (by omega), splice_of_lt (by omega),
      splice_of_lt (by omega),
      splice_of_mem (by omega) (by omega)]
    congr 1
    omega

end Writes

/-- On a stick without failures the formatter, followed by a sync, initialises its partition, whatever
was on the stick and in the write cache. -/
theorem usbScsiFormatFat_initialises {w : World Stick} (hw : Ready w) (hf : Faultless w.dev.spec)
    (hoffset : w.drv.gDriveOffsetSectors ≤ 4096) {fuel : ℕ} (hfuel : 4294967296 ≤ fuel) {fatType : ℤ}
    {clusterSize : ℕ}
    (label : List UInt8) (husable : fatUsable w ≠ 0)
    (haddress : FatAddressable fatType (fatSizeIn fatType clusterSize w)) :
    ∃ t s u, usbScsiFormatFat stick fuel fatType clusterSize label w = (some 0, t) ∧
      usbScsiSync stick t = (some s, u) ∧
      FatInitialised fatType (fatSizeIn fatType clusterSize w)
        (window u.dev.medium (w.drv.gDriveOffsetSectors * 512)) := by
  obtain ⟨r, t, hrun, hdone⟩ :=
    Prog.wp_returns_of (wp_usbScsiFormatFat hw hoffset fuel fatType clusterSize label husable)
    fun u hu => by
      have := hu.2 haddress.loopsEnd
      omega
  obtain rfl : r = 0 := hdone.full hf
  obtain hbad | ⟨-, v, rs, hstage, hland, -⟩ := hdone.result
  · cases hbad
  obtain ⟨s, u, hsync, hsynced⟩ := Prog.wp_returns (wp_usbScsiSync hdone.soFar.wrote.ready)
  refine ⟨t, s, u, hrun, hsync, ?_⟩
  -- the accepted requests are those of the layout
  obtain ⟨bs, hrequests⟩ := usbScsiFormatFat_requests haddress hrun
  have hlayout : writeRequest (fatBootIn fatType clusterSize label w) 512 0 :: rs =
      fatWrites 512 fatType (fatSizeIn fatType clusterSize w) bs := by
    rw [hland.asked.frame.requests, hstage.frame.requests, List.append_nil] at hrequests
    exact List.append_cancel_left hrequests
  have hspec : Faultless v.dev.spec := hstage.frame.spec.symm ▸ hf
  have hview := hland.view (hland.asked.frame.lossless hspec)
  rw [hlayout, hstage.frame.driveOffset] at hview
  have hmedium : u.dev.medium = (store t).view :=
    hsynced.settled.medium_eq (not_not.mpr (hsynced.frame.lossless (hland.asked.frame.spec.symm ▸ hspec)))
  rw [hmedium, hview]
  exact fatInitialised_writeAll _ _ _ _ _

/-- Two FATs of 96 sectors on a stick of 100 MB, with 4 KB clusters. -/
theorem usbScsiFormatFat_initialises_small :
    ∃ t s u, usbScsiFormatFat stick 4294967296 2 4096 usbDisk (formatterStick 200000 4096 1 2) = (some 0, t) ∧
      usbScsiSync stick t = (some s, u) ∧ FatInitialised 2 96 (window u.dev.medium (4096 * 512)) :=
  usbScsiFormatFat_initialises (Idle.ready ⟨rfl, rfl, rfl⟩) ⟨fun _ => rfl, fun _ => rfl⟩
    (Nat.le_refl _) (Nat.le_refl _)
    usbDisk (by decide) (fatAddressable_of_mem (by decide) 2 (by decide))

end FormatStick
