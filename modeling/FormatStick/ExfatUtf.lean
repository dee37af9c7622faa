import FormatStick.Driver
import Mathlib.Data.Nat.Bitwise
import Mathlib.Tactic.Ring

/-!
# The character conversions of exFAT

`utf.c` takes labels and names from UTF-8 to UTF-16 and back, one character at a time. A
`wchar_t` holds 31 bits, the output is limited, and a NUL ends the text.
-/
namespace FormatStick.Exfat

/-- `EILSEQ`. -/
def eilseq : ℤ := 84

/-- `ENAMETOOLONG`. -/
def enametoolong : ℤ := 36

section Characters

/-- The loop of `utf8_to_wchar` over the bytes behind the first. -/
def utf8Tail : ℕ → ℕ → List UInt8 → Option (ℕ × List UInt8)
  | 0, wc, input => some (wc, input)
  | _ + 1, _, [] => none
  | n + 1, wc, c :: input =>
    if c &&& 0xc0 ≠ 0x80 then none else utf8Tail n (wc ||| (c &&& 0x3f).toNat <<< (n * 6)) input

/-- `utf8_to_wchar`: the character and the rest of the input. -/
def utf8ToWchar : List UInt8 → Option (ℕ × List UInt8)
  | [] => none
  | c :: input =>
    if c &&& 0x80 = 0 then some (c.toNat, input)
    else if c &&& 0xe0 = 0xc0 then utf8Tail 1 ((c &&& 0x1f).toNat <<< 6) input
    else if c &&& 0xf0 = 0xe0 then utf8Tail 2 ((c &&& 0x0f).toNat <<< 12) input
    else if c &&& 0xf8 = 0xf0 then utf8Tail 3 ((c &&& 0x07).toNat <<< 18) input
    else if c &&& 0xfc = 0xf8 then utf8Tail 4 ((c &&& 0x03).toNat <<< 24) input
    else if c &&& 0xfe = 0xfc then utf8Tail 5 ((c &&& 0x01).toNat <<< 30) input
    else none

/-- `wchar_to_utf8`, if there is room for what it writes. -/
def wcharToUtf8 (wc outsize : ℕ) : Option (List UInt8) :=
  let room (output : List UInt8) := if outsize < output.length then none else some output
  if wc ≤ 0x7f then room [u8 wc]
  else if wc ≤ 0x7ff then room [u8 (0xc0 ||| wc >>> 6), u8 (0x80 ||| wc &&& 0x3f)]
  else if wc ≤ 0xffff then
    room [u8 (0xe0 ||| wc >>> 12), u8 (0x80 ||| wc >>> 6 &&& 0x3f), u8 (0x80 ||| wc &&& 0x3f)]
  else if wc ≤ 0x1fffff then
    room [u8 (0xf0 ||| wc >>> 18), u8 (0x80 ||| wc >>> 12 &&& 0x3f), u8 (0x80 ||| wc >>> 6 &&& 0x3f),
      u8 (0x80 ||| wc &&& 0x3f)]
  else if wc ≤ 0x3ffffff then
    room [u8 (0xf8 ||| wc >>> 24), u8 (0x80 ||| wc >>> 18 &&& 0x3f), u8 (0x80 ||| wc >>> 12 &&& 0x3f),
      u8 (0x80 ||| wc >>> 6 &&& 0x3f), u8 (0x80 ||| wc &&& 0x3f)]
  else if wc ≤ 0x7fffffff then
    room [u8 (0xfc ||| wc >>> 30), u8 (0x80 ||| wc >>> 24 &&& 0x3f), u8 (0x80 ||| wc >>> 18 &&& 0x3f),
      u8 (0x80 ||| wc >>> 12 &&& 0x3f), u8 (0x80 ||| wc >>> 6 &&& 0x3f), u8 (0x80 ||| wc &&& 0x3f)]
  else none

/-- The second half of a surrogate pair in `utf16_to_wchar`. -/
def surrogatePair (u : ℕ) : List ℕ → Option (ℕ × List ℕ)
  | [] => none
  | v :: input =>
    if v &&& 0xfc00 ≠ 0xdc00 then none else some (((u &&& 0x3ff) <<< 10 ||| v &&& 0x3ff) + 0x10000, input)

/-- `utf16_to_wchar`. A low surrogate alone is a character. -/
def utf16ToWchar : List ℕ → Option (ℕ × List ℕ)
  | [] => none
  | u :: input => if u &&& 0xfc00 = 0xd800 then surrogatePair u input else some (u, input)

/-- `wchar_to_utf16`, if there is room for what it writes. -/
def wcharToUtf16 (wc outsize : ℕ) : Option (List ℕ) :=
  if wc ≤ 0xffff then (if outsize = 0 then none else some [wc])
  else if outsize < 2 then none
  else some [0xd800 ||| (wc - 0x10000) >>> 10 &&& 0x3ff, 0xdc00 ||| (wc - 0x10000) &&& 0x3ff]

end Characters

section Progress

theorem utf8Tail_lt {n wc wc' : ℕ} {input rest : List UInt8} (h : utf8Tail n wc input = some (wc', rest)) :
    rest.length ≤ input.length := by
  induction n generalizing wc input with
  | zero =>
    rw [utf8Tail, Option.some.injEq, Prod.mk.injEq] at h
    rw [h.2]
  | succ n ih =>
    cases input with
    | nil => cases h
    | cons c input =>
      rw [utf8Tail] at h
      split_ifs at h
      have hle := ih h
      rw [List.length_cons]
      omega

/-- A character takes at least one byte. -/
theorem utf8ToWchar_lt {wc : ℕ} {input rest : List UInt8} (h : utf8ToWchar input = some (wc, rest)) :
    rest.length < input.length := by
  cases input with
  | nil => cases h
  | cons c input =>
    rw [utf8ToWchar] at h
    rw [List.length_cons, Nat.lt_succ_iff]
    split_ifs at h
    · rw [Option.some.injEq, Prod.mk.injEq] at h
      rw [h.2]
    all_goals exact utf8Tail_lt h

theorem utf16ToWchar_lt {wc : ℕ} {input rest : List ℕ} (h : utf16ToWchar input = some (wc, rest)) :
    rest.length < input.length := by
  cases input with
  | nil => cases h
  | cons u input =>
    rw [utf16ToWchar] at h
    split_ifs at h
    · cases input with
      | nil => cases h
      | cons v input =>
        rw [surrogatePair] at h
        split_ifs at h
        rw [Option.some.injEq, Prod.mk.injEq] at h
        rw [← h.2, List.length_cons, List.length_cons]
        omega
    · rw [Option.some.injEq, Prod.mk.injEq] at h
      rw [← h.2, List.length_cons]
      exact Nat.lt_succ_self _

end Progress

/-- `exfat_utf8_to_utf16`: what it returns and the units it writes. -/
def utf8ToUtf16 (input : List UInt8) (outsize : ℕ) : ℤ × List ℕ :=
  if input = [] then (if outsize = 0 then (-enametoolong, []) else (0, [0]))
  else
    match _h : utf8ToWchar input with
    | none => (-eilseq, [])
    | some (wc, rest) =>
      match wcharToUtf16 wc outsize with
      | none => (-enametoolong, [])
      | some units =>
        if wc = 0 then (if outsize = units.length then (-enametoolong, units) else (0, units ++ [0]))
        else
          let r := utf8ToUtf16 rest (outsize - units.length)
          (r.1, units ++ r.2)
termination_by input.length
decreasing_by exact utf8ToWchar_lt _h

/-- `exfat_utf16_to_utf8`. A NUL in the input ends it. -/
def utf16ToUtf8 (input : List ℕ) (outsize : ℕ) : ℤ × List UInt8 :=
  if input = [] then (if outsize = 0 then (-enametoolong, []) else (0, [0]))
  else
    match _h : utf16ToWchar input with
    | none => (-eilseq, [])
    | some (wc, rest) =>
      match wcharToUtf8 wc outsize with
      | none => (-enametoolong, [])
      | some bs =>
        if wc = 0 then (0, bs)
        else
          let r := utf16ToUtf8 rest (outsize - bs.length)
          (r.1, bs ++ r.2)
termination_by input.length
decreasing_by exact utf16ToWchar_lt _h

section Digits

/-- The last `n` digits of a number to the base 64, as continuation bytes. -/
def digits64 : ℕ → ℕ → List UInt8
  | 0, _ => []
  | n + 1, wc => u8 (0x80 ||| wc / 64 ^ n % 64) :: digits64 n wc

/-- A continuation byte carries six bits. -/
theorem continuation_bits (x : ℕ) (hx : x < 64) :
    u8 (0x80 ||| x) &&& 0xc0 = 0x80 ∧ (u8 (0x80 ||| x) &&& 0x3f).toNat = x := by
  have hall : ∀ x : Fin 64, u8 (0x80 ||| x) &&& 0xc0 = 0x80 ∧
    (u8 (0x80 ||| x) &&& 0x3f).toNat = x := by decide
  exact hall ⟨x, hx⟩

theorem mul_pow_or_shift (hi x n : ℕ) (hx : x < 64) :
    hi * 64 ^ (n + 1) ||| x <<< (n * 6) = (hi * 64 + x) * 64 ^ n := by
  have hbase : ∀ k, 64 ^ k = 2 ^ (k * 6) := fun k => by rw [Nat.mul_comm, Nat.pow_mul]
  have hlt : x * 64 ^ n < 2 ^ ((n + 1) * 6) := by
    rw [← hbase, Nat.pow_succ, Nat.mul_comm]
    exact Nat.mul_lt_mul_of_pos_left hx (Nat.pow_pos (by decide))
  rw [Nat.shiftLeft_eq, ← hbase, Nat.mul_comm hi, hbase (n + 1), ← Nat.two_pow_add_eq_or_of_lt hlt, ← hbase,
    Nat.pow_succ]
  ring

/-- The continuation bytes give the digits back. -/
theorem utf8Tail_digits64 (n hi wc : ℕ) (rest : List UInt8) :
    utf8Tail n (hi * 64 ^ n) (digits64 n wc ++ rest) = some (hi * 64 ^ n + wc % 64 ^ n, rest) := by
  induction n generalizing hi with
  | zero => simp [utf8Tail, digits64, Nat.mod_one]
  | succ n ih =>
    have hx : wc / 64 ^ n % 64 < 64 := Nat.mod_lt _ (by decide)
    obtain ⟨hmark, hbits⟩ := continuation_bits _ hx
    rw [digits64, List.cons_append, utf8Tail, if_neg (not_not_intro hmark), hbits,
      mul_pow_or_shift _ _ _ hx, ih,
      Nat.pow_succ, Nat.mod_mul]
    congr 2
    ring

end Digits

section Bytes

/-- What `wchar_to_utf8` writes where there is room. -/
def utf8Bytes (wc : ℕ) : List UInt8 := (wcharToUtf8 wc 6).getD []

theorem shift_and_digit (wc k : ℕ) : wc >>> (6 * k) &&& 0x3f = wc / 64 ^ k % 64 := by
  have hmod := Nat.and_two_pow_sub_one_eq_mod (wc >>> (6 * k)) 6
  rw [Nat.shiftRight_eq_div_pow, Nat.pow_mul] at hmod ⊢
  exact hmod

/-- The bytes of a character: its first one and the continuations. -/
theorem utf8Bytes_eq {wc : ℕ} (h : wc < 2147483648) :
    utf8Bytes wc =
      if wc < 128 then [u8 wc]
      else if wc < 2048 then u8 (0xc0 ||| wc / 64 ^ 1) :: digits64 1 wc
      else if wc < 65536 then u8 (0xe0 ||| wc / 64 ^ 2) :: digits64 2 wc
      else if wc < 2097152 then u8 (0xf0 ||| wc / 64 ^ 3) :: digits64 3 wc
      else if wc < 67108864 then u8 (0xf8 ||| wc / 64 ^ 4) :: digits64 4 wc
      else u8 (0xfc ||| wc / 64 ^ 5) :: digits64 5 wc := by
  have hlead : ∀ k, wc >>> (6 * k) = wc / 64 ^ k := fun k => by rw [Nat.shiftRight_eq_div_pow, Nat.pow_mul]
  have hzero : wc &&& 0x3f = wc / 64 ^ 0 % 64 := shift_and_digit wc 0
  have hone : wc >>> 6 &&& 0x3f = wc / 64 ^ 1 % 64 := shift_and_digit wc 1
  have htwo : wc >>> 12 &&& 0x3f = wc / 64 ^ 2 % 64 := shift_and_digit wc 2
  have hthree : wc >>> 18 &&& 0x3f = wc / 64 ^ 3 % 64 := shift_and_digit wc 3
  have hfour : wc >>> 24 &&& 0x3f = wc / 64 ^ 4 % 64 := shift_and_digit wc 4
  rw [utf8Bytes, wcharToUtf8, hzero, hone, htwo, hthree, hfour]
  simp only [hlead 1, hlead 2, hlead 3, hlead 4, hlead 5, digits64, List.length_cons, List.length_nil]
  split_ifs <;> first | rfl | omega

/-- `wchar_to_utf8` writes them or fails. -/
theorem wcharToUtf8_eq {wc : ℕ} (h : wc < 2147483648) (outsize : ℕ) :
    wcharToUtf8 wc outsize = if outsize < (utf8Bytes wc).length then none else some (utf8Bytes wc) := by
  simp only [utf8Bytes, wcharToUtf8, List.length_cons, List.length_nil]
  split_ifs <;> simp_all <;> omega

theorem lead_bits2 (x : ℕ) (h : x < 32) : u8 (0xc0 ||| x) &&& 0x80 ≠ 0 ∧ u8 (0xc0 ||| x) &&& 0xe0 = 0xc0 ∧
    (u8 (0xc0 ||| x) &&& 0x1f).toNat = x := by
  have hall : ∀ x : Fin 32, u8 (0xc0 ||| x) &&& 0x80 ≠ 0 ∧ u8 (0xc0 ||| x) &&& 0xe0 = 0xc0 ∧
    (u8 (0xc0 ||| x) &&& 0x1f).toNat = x := by decide
  exact hall ⟨x, h⟩

theorem lead_bits3 (x : ℕ) (h : x < 16) : u8 (0xe0 ||| x) &&& 0x80 ≠ 0 ∧ u8 (0xe0 ||| x) &&& 0xe0 ≠ 0xc0 ∧
    u8 (0xe0 ||| x) &&& 0xf0 = 0xe0 ∧ (u8 (0xe0 ||| x) &&& 0x0f).toNat = x := by
  have hall : ∀ x : Fin 16, u8 (0xe0 ||| x) &&& 0x80 ≠ 0 ∧ u8 (0xe0 ||| x) &&& 0xe0 ≠ 0xc0 ∧
    u8 (0xe0 ||| x) &&& 0xf0 = 0xe0 ∧ (u8 (0xe0 ||| x) &&& 0x0f).toNat = x := by decide
  exact hall ⟨x, h⟩

theorem lead_bits4 (x : ℕ) (h : x < 8) : u8 (0xf0 ||| x) &&& 0x80 ≠ 0 ∧ u8 (0xf0 ||| x) &&& 0xe0 ≠ 0xc0 ∧
    u8 (0xf0 ||| x) &&& 0xf0 ≠ 0xe0 ∧ u8 (0xf0 ||| x) &&& 0xf8 = 0xf0 ∧
      (u8 (0xf0 ||| x) &&& 0x07).toNat = x := by
  have hall : ∀ x : Fin 8, u8 (0xf0 ||| x) &&& 0x80 ≠ 0 ∧ u8 (0xf0 ||| x) &&& 0xe0 ≠ 0xc0 ∧
    u8 (0xf0 ||| x) &&& 0xf0 ≠ 0xe0 ∧ u8 (0xf0 ||| x) &&& 0xf8 = 0xf0 ∧
      (u8 (0xf0 ||| x) &&& 0x07).toNat = x := by decide
  exact hall ⟨x, h⟩

theorem lead_bits5 (x : ℕ) (h : x < 4) : u8 (0xf8 ||| x) &&& 0x80 ≠ 0 ∧ u8 (0xf8 ||| x) &&& 0xe0 ≠ 0xc0 ∧
    u8 (0xf8 ||| x) &&& 0xf0 ≠ 0xe0 ∧ u8 (0xf8 ||| x) &&& 0xf8 ≠ 0xf0 ∧ u8 (0xf8 ||| x) &&& 0xfc = 0xf8 ∧
    (u8 (0xf8 ||| x) &&& 0x03).toNat = x := by
  have hall : ∀ x : Fin 4, u8 (0xf8 ||| x) &&& 0x80 ≠ 0 ∧ u8 (0xf8 ||| x) &&& 0xe0 ≠ 0xc0 ∧
    u8 (0xf8 ||| x) &&& 0xf0 ≠ 0xe0 ∧ u8 (0xf8 ||| x) &&& 0xf8 ≠ 0xf0 ∧ u8 (0xf8 ||| x) &&& 0xfc = 0xf8 ∧
    (u8 (0xf8 ||| x) &&& 0x03).toNat = x := by decide
  exact hall ⟨x, h⟩

theorem lead_bits6 (x : ℕ) (h : x < 2) : u8 (0xfc ||| x) &&& 0x80 ≠ 0 ∧ u8 (0xfc ||| x) &&& 0xe0 ≠ 0xc0 ∧
    u8 (0xfc ||| x) &&& 0xf0 ≠ 0xe0 ∧ u8 (0xfc ||| x) &&& 0xf8 ≠ 0xf0 ∧ u8 (0xfc ||| x) &&& 0xfc ≠ 0xf8 ∧
    u8 (0xfc ||| x) &&& 0xfe = 0xfc ∧ (u8 (0xfc ||| x) &&& 0x01).toNat = x := by
  have hall : ∀ x : Fin 2, u8 (0xfc ||| x) &&& 0x80 ≠ 0 ∧ u8 (0xfc ||| x) &&& 0xe0 ≠ 0xc0 ∧
    u8 (0xfc ||| x) &&& 0xf0 ≠ 0xe0 ∧ u8 (0xfc ||| x) &&& 0xf8 ≠ 0xf0 ∧ u8 (0xfc ||| x) &&& 0xfc ≠ 0xf8 ∧
    u8 (0xfc ||| x) &&& 0xfe = 0xfc ∧ (u8 (0xfc ||| x) &&& 0x01).toNat = x := by decide
  exact hall ⟨x, h⟩

/-- The bits of the first byte and the continuations make up the character. -/
theorem utf8Tail_lead (n wc : ℕ) (rest : List UInt8) :
    utf8Tail n ((wc / 64 ^ n) <<< (6 * n)) (digits64 n wc ++ rest) = some (wc, rest) := by
  have hsum := Nat.div_add_mod' wc (64 ^ n)
  rw [Nat.shiftLeft_eq, Nat.pow_mul, utf8Tail_digits64, hsum]

/-- `utf8_to_wchar` reads what `wchar_to_utf8` writes. -/
theorem utf8ToWchar_utf8Bytes {wc : ℕ} (h : wc < 2147483648) (rest : List UInt8) :
    utf8ToWchar (utf8Bytes wc ++ rest) = some (wc, rest) := by
  rw [utf8Bytes_eq h]
  split_ifs with h₁ h₂ h₃ h₄ h₅
  · have hbyte : ∀ x : Fin 128, u8 x &&& 0x80 = 0 ∧ (u8 x).toNat = x := by decide
    obtain ⟨hascii, hwc⟩ := hbyte ⟨wc, h₁⟩
    rw [List.singleton_append, utf8ToWchar, if_pos hascii, hwc]
  · obtain ⟨hmulti, hlead, hbits⟩ := lead_bits2 (wc / 64 ^ 1) (by omega)
    rw [List.cons_append, utf8ToWchar, if_neg hmulti, if_pos hlead, hbits]
    exact utf8Tail_lead 1 wc rest
  · obtain ⟨hmulti, hn2, hlead, hbits⟩ := lead_bits3 (wc / 64 ^ 2) (by omega)
    rw [List.cons_append, utf8ToWchar, if_neg hmulti, if_neg hn2, if_pos hlead, hbits]
    exact utf8Tail_lead 2 wc rest
  · obtain ⟨hmulti, hn2, hn3, hlead, hbits⟩ := lead_bits4 (wc / 64 ^ 3) (by omega)
    rw [List.cons_append, utf8ToWchar, if_neg hmulti, if_neg hn2, if_neg hn3, if_pos hlead, hbits]
    exact utf8Tail_lead 3 wc rest
  · obtain ⟨hmulti, hn2, hn3, hn4, hlead, hbits⟩ := lead_bits5 (wc / 64 ^ 4) (by omega)
    rw [List.cons_append, utf8ToWchar, if_neg hmulti, if_neg hn2, if_neg hn3, if_neg hn4, if_pos hlead, hbits]
    exact utf8Tail_lead 4 wc rest
  · obtain ⟨hmulti, hn2, hn3, hn4, hn5, hlead, hbits⟩ := lead_bits6 (wc / 64 ^ 5) (by omega)
    rw [List.cons_append, utf8ToWchar, if_neg hmulti, if_neg hn2, if_neg hn3, if_neg hn4, if_neg hn5,
      if_pos hlead, hbits]
    exact utf8Tail_lead 5 wc rest

end Bytes

section Units

/-- What `wchar_to_utf16` writes where there is room. -/
def utf16Units (wc : ℕ) : List ℕ := (wcharToUtf16 wc 2).getD []

/-- The six bits above the low ten. -/
theorem and_fc00 {q r : ℕ} (hr : r < 1024) : (q * 1024 + r) &&& 0xfc00 = (q &&& 63) * 1024 := by
  have hor : q * 1024 + r = q <<< 10 ||| r := by
    have hadd := Nat.two_pow_add_eq_or_of_lt (i := 10) hr q
    rw [Nat.shiftLeft_eq, Nat.mul_comm q (2 ^ 10), ← hadd]
    omega
  have hlow : r &&& 63 <<< 10 = 0 := by
    apply Nat.eq_of_testBit_eq
    intro i
    by_cases hi : i < 10
    · have hge : decide (i ≥ 10) = false := decide_eq_false (Nat.not_le.mpr hi)
      rw [Nat.testBit_and, Nat.testBit_shiftLeft, hge, Bool.false_and, Bool.and_false, Nat.zero_testBit]
    · have hpow : r < 2 ^ i := Nat.lt_of_lt_of_le hr (Nat.pow_le_pow_right Nat.two_pos (Nat.not_lt.mp hi))
      simp [Nat.testBit_lt_two_pow hpow]
  have hmask : 0xfc00 = 63 <<< 10 := by decide
  rw [hor, hmask, Nat.and_or_distrib_right, ← Nat.shiftLeft_and_distrib, hlow, Nat.or_zero, Nat.shiftLeft_eq]

theorem and_3ff (x : ℕ) : x &&& 0x3ff = x % 1024 := Nat.and_two_pow_sub_one_eq_mod x 10

/-- A unit is a high surrogate exactly from 0xd800 to 0xdbff. -/
theorem high_surrogate_iff {u : ℕ} (h : u < 65536) : u &&& 0xfc00 = 0xd800 ↔ 0xd800 ≤ u ∧ u < 0xdc00 := by
  have hand := and_fc00 (q := u / 1024) (r := u % 1024) (Nat.mod_lt _ (by decide))
  have hsix : u / 1024 &&& 63 = u / 1024 % 64 := Nat.and_two_pow_sub_one_eq_mod _ 6
  rw [Nat.div_add_mod', hsix] at hand
  rw [hand]
  omega

/-- The halves of a surrogate pair. -/
theorem surrogate_bits {x : ℕ} (h : x < 1024) :
    (0xd800 ||| x) = 0xd800 + x ∧ (0xdc00 ||| x) = 0xdc00 + x ∧ 0xd800 + x &&& 0xfc00 = 0xd800 ∧
      0xdc00 + x &&& 0xfc00 = 0xdc00 := by
  have hhigh := Nat.two_pow_add_eq_or_of_lt (i := 10) h 54
  have hlow := Nat.two_pow_add_eq_or_of_lt (i := 10) h 55
  have hand54 := and_fc00 (q := 54) h
  have hand55 := and_fc00 (q := 55) h
  exact ⟨hhigh.symm, hlow.symm, hand54, hand55⟩

theorem utf16Units_eq {wc : ℕ} (h : wc < 0x110000) :
    utf16Units wc = if wc < 65536 then [wc] else [0xd800 + (wc - 0x10000) / 1024, 0xdc00 + wc % 1024] := by
  have hquot : (wc - 0x10000) >>> 10 &&& 0x3ff = (wc - 0x10000) / 1024 % 1024 := by
    rw [and_3ff, Nat.shiftRight_eq_div_pow]
  have hrem : (wc - 0x10000) &&& 0x3ff = (wc - 0x10000) % 1024 := and_3ff _
  rw [utf16Units, wcharToUtf16, hquot, hrem]
  by_cases hbmp : wc < 65536
  · rw [if_pos (Nat.le_of_lt_succ hbmp), if_neg (by decide), if_pos hbmp, Option.getD_some]
  · have hhigh := (surrogate_bits (x := (wc - 0x10000) / 1024 % 1024) (Nat.mod_lt _ (by decide))).1
    have hlow := (surrogate_bits (x := (wc - 0x10000) % 1024) (Nat.mod_lt _ (by decide))).2.1
    have hquot : (wc - 0x10000) / 1024 % 1024 = (wc - 0x10000) / 1024 := by omega
    have hrem : (wc - 0x10000) % 1024 = wc % 1024 := by omega
    rw [if_neg (by omega), if_neg (by decide), if_neg hbmp, hhigh, hlow, hquot, hrem, Option.getD_some]

theorem wcharToUtf16_eq (wc outsize : ℕ) :
    wcharToUtf16 wc outsize = if outsize < (utf16Units wc).length then none else some (utf16Units wc) := by
  simp only [utf16Units, wcharToUtf16]
  split_ifs
  all_goals simp_all
  omega

/-- `utf16_to_wchar` reads what `wchar_to_utf16` writes of a character that is not a high surrogate. -/
theorem utf16ToWchar_utf16Units {wc : ℕ} (h : wc < 0x110000) (hhigh : ¬(0xd800 ≤ wc ∧ wc < 0xdc00))
    (rest : List ℕ) :
    utf16ToWchar (utf16Units wc ++ rest) = some (wc, rest) := by
  rw [utf16Units_eq h]
  split_ifs with hbmp
  · rw [List.singleton_append, utf16ToWchar, if_neg (mt (high_surrogate_iff hbmp).mp hhigh)]
  · have hfirst := surrogate_bits (x := (wc - 0x10000) / 1024) (by omega)
    have hsecond := surrogate_bits (x := wc % 1024) (by omega)
    have hbits : (0xd800 + (wc - 0x10000) / 1024 &&& 0x3ff) <<< 10 ||| (0xdc00 + wc % 1024 &&& 0x3ff) =
        wc - 0x10000 := by
      have hlow : wc % 1024 < 2 ^ 10 := Nat.mod_lt _ (by decide)
      have hadd := Nat.two_pow_add_eq_or_of_lt hlow ((wc - 0x10000) / 1024)
      have hq : (0xd800 + (wc - 0x10000) / 1024) % 1024 = (wc - 0x10000) / 1024 := by omega
      have hr : (0xdc00 + wc % 1024) % 1024 = wc % 1024 := by omega
      rw [and_3ff, and_3ff, hq, hr, Nat.shiftLeft_eq, Nat.mul_comm _ (2 ^ 10), ← hadd]
      omega
    rw [List.cons_append, List.cons_append, List.nil_append, utf16ToWchar, if_pos hfirst.2.2.1, surrogatePair,
      if_neg (not_not_intro hsecond.2.2.2), hbits, Nat.sub_add_cancel (by omega)]

end Units

section Text

/-- The UTF-16 of a character. -/
def utf16Encode (c : Char) : List ℕ :=
  if c.toNat < 65536 then [c.toNat] else [0xd800 + (c.toNat - 0x10000) / 1024, 0xdc00 + c.toNat % 1024]

theorem toNat_bounds (c : Char) : c.toNat < 0x110000 ∧ ¬(0xd800 ≤ c.toNat ∧ c.toNat < 0xdc00) := by
  have hvalid := c.valid
  simp only [UInt32.isValidChar, Nat.isValidChar] at hvalid
  have hval : c.toNat = c.val.toNat := rfl
  omega

theorem utf16Units_toNat (c : Char) : utf16Units c.toNat = utf16Encode c := utf16Units_eq (toNat_bounds c).1

/-- The mark of a byte lies above its bits. -/
theorem mark_or (x : ℕ) : (x < 64 → 0x80 ||| x = x + 0x80) ∧ (x < 32 → 0xc0 ||| x = x + 0xc0) ∧
    (x < 16 → 0xe0 ||| x = x + 0xe0) ∧ (x < 8 → 0xf0 ||| x = x + 0xf0) := by
  have h₁ : ∀ x : Fin 64, 0x80 ||| (x : ℕ) = x + 0x80 := by decide
  have h₂ : ∀ x : Fin 32, 0xc0 ||| (x : ℕ) = x + 0xc0 := by decide
  have h₃ : ∀ x : Fin 16, 0xe0 ||| (x : ℕ) = x + 0xe0 := by decide
  have h₄ : ∀ x : Fin 8, 0xf0 ||| (x : ℕ) = x + 0xf0 := by decide
  exact ⟨fun h => h₁ ⟨x, h⟩, fun h => h₂ ⟨x, h⟩, fun h => h₃ ⟨x, h⟩, fun h => h₄ ⟨x, h⟩⟩

/-- `wchar_to_utf8` writes UTF-8. -/
theorem utf8Bytes_toNat (c : Char) : utf8Bytes c.toNat = String.utf8EncodeChar c := by
  have hlt := (toNat_bounds c).1
  have hval : c.val.toNat = c.toNat := rfl
  have hmark : ∀ x, 0x80 ||| x % 64 = x % 64 + 0x80 := fun x => (mark_or _).1 (Nat.mod_lt _ (by decide))
  rw [utf8Bytes_eq (by omega), String.utf8EncodeChar, hval]
  simp only [digits64, hmark, Nat.reducePow, Nat.div_one]
  split_ifs with h₁ h₂ h₃ h₄ h₅ h₆ h₇
  all_goals first | omega | rfl | skip
  · have hlead : c.toNat / 64 % 32 = c.toNat / 64 := by omega
    rw [(mark_or _).2.1 (by omega), hlead]
    rfl
  · have hlead : c.toNat / 4096 % 16 = c.toNat / 4096 := by omega
    rw [(mark_or _).2.2.1 (by omega), hlead]
    rfl
  · have hlead : c.toNat / 262144 % 8 = c.toNat / 262144 := by omega
    rw [(mark_or _).2.2.2 (by omega), hlead]
    rfl

/-- A pair of surrogates takes fewer bytes than two characters could. -/
theorem utf8EncodeChar_length_le (c : Char) :
    (String.utf8EncodeChar c).length ≤ 3 * (utf16Encode c).length := by
  have hval : c.val.toNat = c.toNat := rfl
  simp only [utf16Encode, String.utf8EncodeChar, hval]
  split_ifs
  all_goals simp
  all_goals omega

/-- A step of `exfat_utf8_to_utf16`. -/
theorem utf8ToUtf16_cons {c : Char} (hc : c ≠ '\x00') (rest : List UInt8) (outsize : ℕ) :
    utf8ToUtf16 (String.utf8EncodeChar c ++ rest) outsize =
      if outsize < (utf16Encode c).length then (-enametoolong, [])
      else ((utf8ToUtf16 rest (outsize - (utf16Encode c).length)).1,
        utf16Encode c ++ (utf8ToUtf16 rest (outsize - (utf16Encode c).length)).2) := by
  have hwc : c.toNat ≠ 0 := fun h => hc (Char.toNat_inj.mp h)
  have hlt := (toNat_bounds c).1
  have hread := utf8ToWchar_utf8Bytes (show c.toNat < 2147483648 by omega) rest
  rw [utf8Bytes_toNat] at hread
  have hne : String.utf8EncodeChar c ++ rest ≠ [] := by
    intro h
    rw [h] at hread
    cases hread
  rw [utf8ToUtf16, if_neg hne]
  split
  · next h =>
    rw [hread] at h
    cases h
  · next wc rest' h =>
    rw [hread, Option.some.injEq, Prod.mk.injEq] at h
    obtain ⟨rfl, rfl⟩ := h
    rw [wcharToUtf16_eq, utf16Units_toNat]
    by_cases hroom : outsize < (utf16Encode c).length
    · rw [if_pos hroom, if_pos hroom]
    · rw [if_neg hroom, if_neg hroom]
      dsimp only
      rw [if_neg hwc]

/-- The units have 16 bits. -/
theorem utf16Encode_lt {c : Char} {u : ℕ} (hu : u ∈ utf16Encode c) : u < 65536 := by
  have hlt := (toNat_bounds c).1
  rw [utf16Encode] at hu
  split_ifs at hu with hone
  · rw [List.mem_singleton] at hu
    omega
  · simp only [List.mem_cons, List.not_mem_nil, or_false] at hu
    omega

theorem utf16Encode_ne_zero {c : Char} (hc : c ≠ '\x00') {u : ℕ} (hu : u ∈ utf16Encode c) : u ≠ 0 := by
  have hwc : c.toNat ≠ 0 := fun h => hc (Char.toNat_inj.mp h)
  rw [utf16Encode] at hu
  split_ifs at hu
  · rw [List.mem_singleton] at hu
    omega
  · simp only [List.mem_cons, List.not_mem_nil, or_false] at hu
    omega

theorem utf16Encode_ne_nil (c : Char) : utf16Encode c ≠ [] := by
  rw [utf16Encode]
  split_ifs <;> simp

/-- A step of `exfat_utf16_to_utf8`. -/
theorem utf16ToUtf8_cons {c : Char} (hc : c ≠ '\x00') (rest : List ℕ) (outsize : ℕ) :
    utf16ToUtf8 (utf16Encode c ++ rest) outsize =
      if outsize < (String.utf8EncodeChar c).length then (-enametoolong, [])
      else ((utf16ToUtf8 rest (outsize - (String.utf8EncodeChar c).length)).1,
        String.utf8EncodeChar c ++ (utf16ToUtf8 rest (outsize - (String.utf8EncodeChar c).length)).2) := by
  have hwc : c.toNat ≠ 0 := fun h => hc (Char.toNat_inj.mp h)
  obtain ⟨hlt, hhigh⟩ := toNat_bounds c
  have hread := utf16ToWchar_utf16Units hlt hhigh rest
  rw [utf16Units_toNat] at hread
  have hne : utf16Encode c ++ rest ≠ [] := by
    intro h
    rw [h] at hread
    cases hread
  rw [utf16ToUtf8, if_neg hne]
  split
  · next h =>
    rw [hread] at h
    cases h
  · next wc rest' h =>
    rw [hread, Option.some.injEq, Prod.mk.injEq] at h
    obtain ⟨rfl, rfl⟩ := h
    rw [wcharToUtf8_eq (by omega), utf8Bytes_toNat]
    by_cases hroom : outsize < (String.utf8EncodeChar c).length
    · rw [if_pos hroom, if_pos hroom]
    · rw [if_neg hroom, if_neg hroom]
      dsimp only
      rw [if_neg hwc]

variable {cs : List Char}

theorem utf8ToUtf16_nil (outsize : ℕ) : utf8ToUtf16 [] outsize =
      if outsize = 0 then (-enametoolong, []) else (0, [0]) := by
  rw [utf8ToUtf16, if_pos rfl]

theorem utf16ToUtf8_nil (outsize : ℕ) : utf16ToUtf8 [] outsize =
      if outsize = 0 then (-enametoolong, []) else (0, [0]) := by
  rw [utf16ToUtf8, if_pos rfl]

/-- A NUL and whatever follows it end the text as its end does. -/
theorem utf16ToUtf8_zero (rest : List ℕ) (outsize : ℕ) :
    utf16ToUtf8 (0 :: rest) outsize = if outsize = 0 then (-enametoolong, []) else (0, [0]) := by
  have hread : utf16ToWchar (0 :: rest) = some (0, rest) := rfl
  rw [utf16ToUtf8, if_neg (List.cons_ne_nil 0 rest)]
  split
  · next h =>
    rw [hread] at h
    cases h
  · next wc rest' h =>
    rw [hread, Option.some.injEq, Prod.mk.injEq] at h
    obtain ⟨rfl, rfl⟩ := h
    have hbytes : utf8Bytes 0 = [0] := rfl
    rw [wcharToUtf8_eq (by decide), hbytes, List.length_singleton]
    by_cases hroom : outsize = 0
    · rw [if_pos (by omega), if_pos hroom]
    · rw [if_neg (by omega), if_neg hroom]
      rfl

/-- A text that fits is converted whole, with a NUL behind it. -/
theorem utf8ToUtf16_of_fits (hcs : '\x00' ∉ cs) {outsize : ℕ}
    (hfits : (cs.flatMap utf16Encode).length < outsize) :
    utf8ToUtf16 (cs.flatMap String.utf8EncodeChar) outsize = (0, cs.flatMap utf16Encode ++ [0]) := by
  induction cs generalizing outsize with
  | nil =>
    rw [List.flatMap_nil, utf8ToUtf16_nil, if_neg (Nat.ne_of_gt (Nat.zero_lt_of_lt hfits))]
    rfl
  | cons c cs ih =>
    rw [List.mem_cons, not_or] at hcs
    rw [List.flatMap_cons, List.length_append] at hfits
    rw [List.flatMap_cons, utf8ToUtf16_cons (Ne.symm hcs.1), if_neg (by omega), ih hcs.2 (by omega),
      List.flatMap_cons,
      List.append_assoc]

/-- Of a text that does not, the characters at the front are. -/
theorem utf8ToUtf16_of_not_fits (hcs : '\x00' ∉ cs) {outsize : ℕ}
    (hfits : ¬(cs.flatMap utf16Encode).length < outsize) :
    ∃ ds, ds <+: cs ∧ utf8ToUtf16 (cs.flatMap String.utf8EncodeChar) outsize =
      (-enametoolong, ds.flatMap utf16Encode) := by
  induction cs generalizing outsize with
  | nil =>
    refine ⟨[], List.prefix_rfl, ?_⟩
    rw [List.flatMap_nil, utf8ToUtf16_nil, if_pos (by simpa using hfits)]
    rfl
  | cons c cs ih =>
    rw [List.mem_cons, not_or] at hcs
    rw [List.flatMap_cons, List.length_append] at hfits
    rw [List.flatMap_cons, utf8ToUtf16_cons (Ne.symm hcs.1)]
    by_cases hroom : outsize < (utf16Encode c).length
    · exact ⟨[], List.nil_prefix, if_pos hroom⟩
    · obtain ⟨ds, hprefix, heq⟩ :=
        ih hcs.2 (show ¬(cs.flatMap utf16Encode).length < outsize - (utf16Encode c).length by omega)
      refine ⟨c :: ds, List.cons_prefix_cons.mpr ⟨rfl, hprefix⟩, ?_⟩
      rw [if_neg hroom, heq, List.flatMap_cons]

/-- The text is read back up to its NUL, or to the end of the units. -/
theorem utf16ToUtf8_of_fits (hcs : '\x00' ∉ cs) {outsize : ℕ}
    (hfits : (cs.flatMap String.utf8EncodeChar).length < outsize)
    {rest : List ℕ} (hrest : rest = [] ∨ ∃ us, rest = 0 :: us) :
    utf16ToUtf8 (cs.flatMap utf16Encode ++ rest) outsize = (0, cs.flatMap String.utf8EncodeChar ++ [0]) := by
  induction cs generalizing outsize with
  | nil =>
    rcases hrest with rfl | ⟨us, rfl⟩
    · rw [List.flatMap_nil, List.nil_append, utf16ToUtf8_nil, if_neg (Nat.ne_of_gt (Nat.zero_lt_of_lt hfits))]
      rfl
    · rw [List.flatMap_nil, List.nil_append, utf16ToUtf8_zero,
        if_neg (Nat.ne_of_gt (Nat.zero_lt_of_lt hfits))]
      rfl
  | cons c cs ih =>
    rw [List.mem_cons, not_or] at hcs
    rw [List.flatMap_cons, List.length_append] at hfits
    rw [List.flatMap_cons, List.append_assoc, utf16ToUtf8_cons (Ne.symm hcs.1), if_neg (by omega),
      ih hcs.2 (by omega),
      List.flatMap_cons, List.append_assoc]

theorem utf8_length_le (cs : List Char) :
    (cs.flatMap String.utf8EncodeChar).length ≤ 3 * (cs.flatMap utf16Encode).length := by
  induction cs with
  | nil => exact Nat.le_refl 0
  | cons c cs ih =>
    have hhead := utf8EncodeChar_length_le c
    rw [List.flatMap_cons, List.flatMap_cons, List.length_append, List.length_append]
    omega

/-- A text goes to UTF-16 and back through buffers of the sizes in `exfat.h`, for names of up to `n` units. -/
theorem utf8_utf16_roundTrip (n : ℕ) (hcs : '\x00' ∉ cs) :
    if (cs.flatMap utf16Encode).length ≤ n then
      utf8ToUtf16 (cs.flatMap String.utf8EncodeChar) (n + 1) = (0, cs.flatMap utf16Encode ++ [0]) ∧
        utf16ToUtf8 (cs.flatMap utf16Encode ++ [0]) (3 * n + 1) = (0, cs.flatMap String.utf8EncodeChar ++ [0])
    else ∃ ds, ds <+: cs ∧ utf8ToUtf16 (cs.flatMap String.utf8EncodeChar) (n + 1) =
      (-enametoolong, ds.flatMap utf16Encode) := by
  split_ifs with hfits
  · have hlen := utf8_length_le cs
    exact ⟨utf8ToUtf16_of_fits hcs (Nat.lt_succ_of_le hfits),
      utf16ToUtf8_of_fits hcs (by omega) (.inr ⟨[], rfl⟩)⟩
  · exact utf8ToUtf16_of_not_fits hcs (by omega)

/-- A label with a character of each length. -/
theorem utf8_utf16_roundTrip_label :
    utf8ToUtf16 (['a', 'ș', '€', '😀'].flatMap String.utf8EncodeChar) 16 =
      (0, [0x61, 0x219, 0x20ac, 0xd83d, 0xde00, 0]) ∧
      utf16ToUtf8 [0x61, 0x219, 0x20ac, 0xd83d, 0xde00, 0] 46 =
        (0, [0x61, 0xc8, 0x99, 0xe2, 0x82, 0xac, 0xf0, 0x9f, 0x98, 0x80, 0]) := by
  have hfits : (['a', 'ș', '€', '😀'].flatMap utf16Encode).length ≤ 15 := by decide
  have htrip := utf8_utf16_roundTrip 15 (show '\x00' ∉ ['a', 'ș', '€', '😀'] by decide)
  rw [if_pos hfits] at htrip
  exact htrip

end Text

end FormatStick.Exfat
