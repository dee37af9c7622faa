import Mathlib.Logic.Function.Iterate
import Mathlib.Tactic.Common

/-!
# Reflected cyclic redundancy checks

The remainder of a bit string modulo a polynomial, one bit at a time, the lowest
bit first. One step is linear, so eight of them may be taken at once with the low
byte looked up in a table.
-/
namespace FormatStick.Crc

variable {w : ℕ}

/-- One division step: the lowest bit is shifted out, and subtracts the polynomial. -/
def shiftBit (poly c : BitVec w) : BitVec w := (if c.getLsbD 0 then poly else 0#w) ^^^ (c >>> 1)

/-- One message bit. -/
def feedBit (poly c : BitVec w) (b : Bool) : BitVec w :=
  shiftBit poly (c ^^^ if b then 1#w else 0#w)

/-- The `n` low bits of `x`, the lowest first. -/
def feedBits (poly : BitVec w) : ℕ → BitVec w → BitVec w → BitVec w
  | 0, c, _ => c
  | n + 1, c, x => feedBits poly n (feedBit poly c (x.getLsbD 0)) (x >>> 1)

/-- One message byte. -/
def feed (poly c : BitVec w) (b : UInt8) : BitVec w := feedBits poly 8 c (b.toBitVec.setWidth w)

/-- The checksum register after a message. -/
def run (poly c : BitVec w) (bs : List UInt8) : BitVec w := bs.foldl (feed poly) c

theorem run_append (poly c : BitVec w) (bs cs : List UInt8) :
    run poly c (bs ++ cs) = run poly (run poly c bs) cs := List.foldl_append

theorem shiftBit_xor (poly c d : BitVec w) :
    shiftBit poly (c ^^^ d) = shiftBit poly c ^^^ shiftBit poly d := by
  have hbit : (c ^^^ d).getLsbD 0 = (c.getLsbD 0 ^^ d.getLsbD 0) := BitVec.getLsbD_xor
  have hcancel : poly ^^^ (c >>> 1) ^^^ (poly ^^^ (d >>> 1)) = (c >>> 1) ^^^ (d >>> 1) := by
    rw [BitVec.xor_comm poly (c >>> 1), BitVec.xor_assoc, ← BitVec.xor_assoc poly, BitVec.xor_self,
      BitVec.zero_xor]
  rw [shiftBit, shiftBit, shiftBit, hbit, BitVec.ushiftRight_xor_distrib]
  cases c.getLsbD 0 <;> cases d.getLsbD 0
  · simp
  · simp only [Bool.false_xor, if_true, Bool.false_eq_true, if_false, BitVec.zero_xor]
    rw [← BitVec.xor_assoc, BitVec.xor_comm poly, BitVec.xor_assoc]
  · simp [BitVec.xor_assoc]
  · simpa using hcancel.symm

/-- A bit string whose lowest bit is clear is just shifted. -/
theorem shiftBit_of_even {poly c : BitVec w} (h : c.getLsbD 0 = false) :
    shiftBit poly c = c >>> 1 := by
  rw [shiftBit, h]
  exact BitVec.zero_xor

/-- Feeding the lowest bit of `x` and keeping the others aside. -/
theorem shiftBit_xor_feedBit (poly c x : BitVec w) :
    shiftBit poly (c ^^^ x) = feedBit poly c (x.getLsbD 0) ^^^ (x >>> 1) := by
  have hrest : (x ^^^ if x.getLsbD 0 then 1#w else 0#w) >>> 1 = x >>> 1 := by
    apply BitVec.eq_of_getLsbD_eq
    intro i hi
    cases x.getLsbD 0 <;> simp [BitVec.getLsbD_ushiftRight]
  have heven : (x ^^^ if x.getLsbD 0 then 1#w else 0#w).getLsbD 0 = false := by
    cases hx : x.getLsbD 0
    · simpa using hx
    · have hw : 0 < w := BitVec.lt_of_getLsbD hx
      simp [hx, hw]
  have hsplit : c ^^^ x = (c ^^^ if x.getLsbD 0 then 1#w else 0#w) ^^^
      (x ^^^ if x.getLsbD 0 then 1#w else 0#w) := by
    rw [BitVec.xor_comm x, BitVec.xor_assoc, ← BitVec.xor_assoc _ _ x, BitVec.xor_self, BitVec.zero_xor]
  rw [hsplit, shiftBit_xor, shiftBit_of_even heven, hrest]
  rfl

/-- `n` division steps on the sum of register and message. -/
theorem iterate_shiftBit_xor (poly : BitVec w) (n : ℕ) (c x : BitVec w) :
    (shiftBit poly)^[n] (c ^^^ x) = feedBits poly n c x ^^^ (x >>> n) := by
  induction n generalizing c x with
  | zero => simp [feedBits]
  | succ n ih =>
    rw [Function.iterate_succ_apply, shiftBit_xor_feedBit, ih, feedBits, ← BitVec.shiftRight_add,
      Nat.add_comm 1 n]

theorem feedBits_congr {poly : BitVec w} {n : ℕ} {c x y : BitVec w}
    (h : ∀ i < n, x.getLsbD i = y.getLsbD i) : feedBits poly n c x = feedBits poly n c y := by
  induction n generalizing c x y with
  | zero => rfl
  | succ n ih =>
    rw [feedBits, feedBits, h 0 (Nat.succ_pos n)]
    apply ih
    intro i hi
    rw [BitVec.getLsbD_ushiftRight, BitVec.getLsbD_ushiftRight, Nat.add_comm 1 i]
    exact h (i + 1) (Nat.succ_lt_succ hi)

theorem byte_shift (b : UInt8) : (b.toBitVec.setWidth w) >>> 8 = 0#w := by
  apply BitVec.eq_of_getLsbD_eq
  intro i _
  simp [BitVec.getLsbD_ushiftRight]

theorem testBit_255 (i : ℕ) : Nat.testBit 255 i = decide (i < 8) := Nat.testBit_two_pow_sub_one 8 i

/-- One message byte by the table of the 256 registers that fit in a byte. -/
theorem feed_eq_table (poly c : BitVec w) (b : UInt8) :
    feed poly c b =
      (shiftBit poly)^[8] ((c ^^^ b.toBitVec.setWidth w) &&& 255#w) ^^^ (c >>> 8) := by
  have hfeed : feed poly c b = (shiftBit poly)^[8] (c ^^^ b.toBitVec.setWidth w) := by
    rw [iterate_shiftBit_xor, byte_shift, BitVec.xor_zero]
    rfl
  generalize hx : c ^^^ b.toBitVec.setWidth w = x at hfeed ⊢
  have hhigh : x >>> 8 = c >>> 8 := by
    rw [← hx, BitVec.ushiftRight_xor_distrib, byte_shift, BitVec.xor_zero]
  have hmask : (x &&& 255#w) >>> 8 = 0#w := by
    apply BitVec.eq_of_getLsbD_eq
    intro i _
    simp [BitVec.getLsbD_ushiftRight, BitVec.getLsbD_ofNat, testBit_255]
  have hlow : feedBits poly 8 0#w x = feedBits poly 8 0#w (x &&& 255#w) := by
    apply feedBits_congr
    intro i hi
    by_cases hw : i < w
    · simp [BitVec.getLsbD_ofNat, testBit_255, hi, hw]
    · rw [BitVec.getLsbD_of_ge _ _ (by omega), BitVec.getLsbD_of_ge _ _ (by omega)]
  have hwhole := iterate_shiftBit_xor poly 8 0#w x
  have hmasked := iterate_shiftBit_xor poly 8 0#w (x &&& 255#w)
  rw [BitVec.zero_xor] at hwhole hmasked
  rw [hfeed, hwhole, hmasked, hmask, BitVec.xor_zero, hlow, hhigh]

end FormatStick.Crc
