import FormatStick.Splice
import Mathlib.Algebra.Group.Nat.Defs

/-!
# Little-endian fields of a byte memory

Storing a number of fixed width at an address, reading it back, and the frame of
both. Packed C structures and on-disk records are made of such fields.
-/
namespace FormatStick.Fields
open Splice

/-- The `n` low bytes of a number, the lowest first. -/
def leBytes : ℕ → ℕ → List UInt8
  | 0, _ => []
  | n + 1, x => UInt8.ofNat x :: leBytes n (x / 256)

/-- The number in the `n` bytes from address `a` on. -/
def leNat (f : ℕ → UInt8) (a : ℕ) : ℕ → ℕ
  | 0 => 0
  | n + 1 => (f a).toNat + 256 * leNat f (a + 1) n

/-- `f` with the bytes `bs` stored from address `a` on. -/
def put (f : ℕ → UInt8) (a : ℕ) (bs : List UInt8) : ℕ → UInt8 :=
  splice f a (fun i => bs.getD i 0) bs.length

/-- The bytes `bs` stored from address `a` on, as a write. -/
def stored (a : ℕ) (bs : List UInt8) : Write UInt8 := ⟨a, fun i => bs.getD i 0, bs.length⟩

@[simp] theorem leBytes_length (n x : ℕ) : (leBytes n x).length = n := by
  induction n generalizing x with
  | zero => rfl
  | succ n ih => simp [leBytes, ih]

theorem put_of_lt {f : ℕ → UInt8} {a i : ℕ} {bs : List UInt8} (h : i < a) : put f a bs i = f i :=
  splice_of_lt h

theorem put_of_ge {f : ℕ → UInt8} {a i : ℕ} {bs : List UInt8} (h : a + bs.length ≤ i) :
    put f a bs i = f i := splice_of_ge h

theorem put_at {f : ℕ → UInt8} {a i : ℕ} {bs : List UInt8} (h : i < bs.length) :
    put f a bs (a + i) = bs.getD i 0 := splice_at h

/-- Bytes stored one after the other. -/
theorem put_put_append (f : ℕ → UInt8) (a : ℕ) (bs cs : List UInt8) :
    put (put f a bs) (a + bs.length) cs = put f a (bs ++ cs) := by
  rw [put, put, splice_append, put, List.length_append]
  apply splice_congr
  intro i hi
  by_cases h : i < bs.length
  · simp [splice_of_lt, h, List.getElem?_append_left]
  · rw [splice_of_mem (Nat.not_lt.mp h) hi]
    simp [List.getElem?_append_right, Nat.not_lt.mp h]

/-- A byte of equally long pieces, one after the other. -/
theorem getD_flatMap {β : Type} {f : β → List UInt8} {n : ℕ} (hf : ∀ x, (f x).length = n) {xs : List β}
    {x : β} {k i : ℕ}
    (hk : xs[k]? = some x) (hi : i < n) : (xs.flatMap f).getD (k * n + i) 0 = (f x).getD i 0 := by
  induction xs generalizing k with
  | nil => simp at hk
  | cons y ys ih =>
    rw [List.flatMap_cons, List.getD_eq_getElem?_getD, List.getD_eq_getElem?_getD]
    cases k with
    | zero =>
      rw [List.getElem?_cons_zero, Option.some.injEq] at hk
      subst hk
      rw [Nat.zero_mul, Nat.zero_add, List.getElem?_append_left (by rw [hf]; exact hi)]
    | succ k =>
      rw [List.getElem?_cons_succ] at hk
      have hbehind : (k + 1) * n + i - (f y).length = k * n + i := by
        rw [hf, Nat.succ_mul]
        omega
      have hge : (f y).length ≤ (k + 1) * n + i := by
        rw [hf, Nat.succ_mul]
        omega
      rw [List.getElem?_append_right hge, hbehind, ← List.getD_eq_getElem?_getD, ih hk,
        List.getD_eq_getElem?_getD]

theorem leNat_congr {f g : ℕ → UInt8} {a b n : ℕ} (h : ∀ i < n, f (a + i) = g (b + i)) :
    leNat f a n = leNat g b n := by
  induction n generalizing a b with
  | zero => rfl
  | succ n ih =>
    have hhead := h 0 (Nat.succ_pos n)
    have htail : leNat f (a + 1) n = leNat g (b + 1) n := by
      apply ih
      intro i hi
      rw [Nat.add_assoc, Nat.add_assoc, Nat.add_comm 1 i]
      exact h (i + 1) (Nat.succ_lt_succ hi)
    simp only [Nat.add_zero] at hhead
    rw [leNat, leNat, hhead, htail]

theorem leNat_leBytes (n x : ℕ) : leNat (fun i => (leBytes n x).getD i 0) 0 n = x % 256 ^ n := by
  induction n generalizing x with
  | zero => simp [leNat, Nat.mod_one]
  | succ n ih =>
    have htail : leNat (fun i => (leBytes (n + 1) x).getD i 0) 1 n = x / 256 % 256 ^ n := by
      rw [← ih (x / 256)]
      apply leNat_congr
      intro i _
      rw [Nat.add_comm 1 i, leBytes, List.getD_cons_succ, Nat.zero_add]
    rw [leNat, htail, leBytes, List.getD_cons_zero, UInt8.toNat_ofNat', Nat.pow_succ 256 n,
      Nat.mul_comm (256 ^ n) 256, Nat.mod_mul]

theorem leNat_put (f : ℕ → UInt8) (a n x : ℕ) :
    leNat (put f a (leBytes n x)) a n = x % 256 ^ n := by
  rw [← leNat_leBytes n x]
  apply leNat_congr
  intro i hi
  rw [put_at (by rw [leBytes_length]; exact hi), Nat.zero_add]

/-- A field stored as a byte list. -/
theorem leNat_put_bytes (f : ℕ → UInt8) (a : ℕ) (bs : List UInt8) :
    leNat (put f a bs) a bs.length = leNat (fun i => bs.getD i 0) 0 bs.length := by
  apply leNat_congr
  intro i hi
  rw [put_at hi, Nat.zero_add]

/-- Storing elsewhere leaves a field as it was. -/
theorem leNat_put_of_disjoint (f : ℕ → UInt8) {a b n : ℕ} {bs : List UInt8}
    (h : a + n ≤ b ∨ b + bs.length ≤ a) : leNat (put f b bs) a n = leNat f a n := by
  apply leNat_congr
  intro i hi
  obtain h | h := h
  · exact put_of_lt (by omega)
  · exact put_of_ge (by omega)

/-- A bit of a number stands in one of its bytes. -/
theorem testBit_leNat (f : ℕ → UInt8) (a : ℕ) {n i : ℕ} (hi : i < 8 * n) :
    (leNat f a n).testBit i = (f (a + i / 8)).toNat.testBit (i % 8) := by
  induction n generalizing a i with
  | zero => omega
  | succ n ih =>
    have hbyte : (f a).toNat < 2 ^ 8 := (f a).toNat_lt
    have hsplit : leNat f a (n + 1) = 2 ^ 8 * leNat f (a + 1) n + (f a).toNat := by
      rw [leNat]
      omega
    rw [hsplit, Nat.testBit_two_pow_mul_add _ hbyte]
    split_ifs with hlow
    · rw [Nat.div_eq_of_lt hlow, Nat.mod_eq_of_lt hlow, Nat.add_zero]
    · have hdiv : (i - 8) / 8 + 1 = i / 8 := by omega
      have hmod : (i - 8) % 8 = i % 8 := by omega
      rw [ih (a + 1) (by omega), Nat.add_assoc, Nat.add_comm 1, hdiv, hmod]

end FormatStick.Fields
