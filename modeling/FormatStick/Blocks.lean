import FormatStick.Splice
import Mathlib.Algebra.Order.Group.Nat

/-!
# Writes as lists of block images

A block device takes whole blocks. A write of any extent becomes a list of block
images in ascending order, where a block that is written in part carries the
merged content. The images say what a prefix of a write is: some of its blocks,
each of them entirely.
-/
namespace FormatStick.Splice

variable {α : Type*} [Inhabited α]

/-- Block `i` of `f`, to be written `i` blocks behind block `a`. Cells of `f` past the
block do not count. -/
def block (b : ℕ) (f : ℕ → α) (a i : ℕ) : Write α :=
  ⟨(a + i) * b, splice default 0 (window f (i * b)) b, b⟩

/-- The first `n` blocks of `f`, to be written from block `a` on. -/
def blocks (b : ℕ) (f : ℕ → α) (a n : ℕ) : List (Write α) := (List.range n).map (block b f a)

@[simp] theorem blocks_zero (b : ℕ) (f : ℕ → α) (a : ℕ) : blocks b f a 0 = [] := rfl

@[simp] theorem blocks_length (b : ℕ) (f : ℕ → α) (a n : ℕ) : (blocks b f a n).length = n := by
  simp [blocks]

theorem block_congr {b : ℕ} {f g : ℕ → α} {a c i k : ℕ} (ha : a + i = c + k)
    (h : ∀ j < b, f (i * b + j) = g (k * b + j)) : block b f a i = block b g c k := by
  have hdata : splice default 0 (window f (i * b)) b = splice default 0 (window g (k * b)) b :=
    splice_congr h
  rw [block, block, ha, hdata]

theorem blocks_congr {b : ℕ} {f g : ℕ → α} {a n : ℕ} (h : ∀ i < n * b, f i = g i) :
    blocks b f a n = blocks b g a n := by
  refine List.map_congr_left fun i hi => block_congr rfl fun j hj => h _ ?_
  have hle : (i + 1) * b ≤ n * b := Nat.mul_le_mul_right b (List.mem_range.mp hi)
  rw [Nat.succ_mul] at hle
  omega

theorem blocks_append (b : ℕ) (f : ℕ → α) (a n m : ℕ) :
    blocks b f a (n + m) = blocks b f a n ++ blocks b (window f (n * b)) (a + n) m := by
  rw [blocks, List.range_add, List.map_append, List.map_map]
  congr 1
  refine List.map_congr_left fun i _ => block_congr (Nat.add_assoc a n i).symm fun j _ => ?_
  rw [window_apply, Nat.add_mul, Nat.add_assoc]

theorem blocks_one (b : ℕ) (f : ℕ → α) (a : ℕ) : blocks b f a 1 = [block b f a 0] := rfl

/-- Block by block, a range is written whole. -/
theorem writeAll_blocks (m : ℕ → α) (b : ℕ) (f : ℕ → α) (a n : ℕ) :
    writeAll m (blocks b f a n) = splice m (a * b) f (n * b) := by
  induction n with
  | zero => rw [Nat.zero_mul, splice_zero, blocks_zero, writeAll_nil]
  | succ n ih =>
    have hlast : splice (splice m (a * b) f (n * b)) ((a + n) * b)
        (splice default 0 (window (window f (n * b)) (0 * b)) b) b =
          splice (splice m (a * b) f (n * b)) (a * b + n * b) (window f (n * b)) b := by
      rw [← Nat.add_mul]
      refine splice_congr fun i hi => ?_
      rw [splice_of_mem (Nat.zero_le i) (by omega), Nat.sub_zero, Nat.zero_mul, window_zero]
    rw [blocks_append, writeAll_append, ih, blocks_one, writeAll_cons, writeAll_nil]
    change splice _ ((a + n) * b) (splice default 0 (window (window f (n * b)) (0 * b)) b) b = _
    rw [hlast, splice_chunk, Nat.succ_mul]

/-- The number of blocks that `k` cells from address `p` on reach into. -/
def touched (b p k : ℕ) : ℕ := if k = 0 then 0 else (p + k + b - 1) / b - p / b

/-- The images of the blocks that a write of the first `k` cells of `g` to address `p`
of the memory `v` reaches into, with their merged content. -/
def images (b : ℕ) (v : ℕ → α) (p : ℕ) (g : ℕ → α) (k : ℕ) : List (Write α) :=
  blocks b (window (splice v p g k) (p / b * b)) (p / b) (touched b p k)

@[simp] theorem images_zero (b : ℕ) (v : ℕ → α) (p : ℕ) (g : ℕ → α) : images b v p g 0 = [] := by
  rw [images, touched, if_pos rfl, blocks_zero]

section Positive

variable {b : ℕ} (hb : 0 < b)
include hb

/-- The blocks reached into cover the write. -/
theorem touched_covers {p k : ℕ} (hk : 0 < k) : p + k ≤ (p / b + touched b p k) * b := by
  have hle : p / b ≤ (p + k + b - 1) / b := Nat.div_le_div_right (by omega)
  have hlt : p + k + b - 1 < ((p + k + b - 1) / b + 1) * b := by
    rw [Nat.mul_comm]
    exact Nat.lt_mul_div_succ _ hb
  rw [touched, if_neg (by omega), Nat.add_sub_cancel' hle]
  rw [Nat.succ_mul] at hlt
  omega

/-- Up to a block boundary at block `q`. -/
theorem touched_of_boundary {p k q : ℕ} (hk : 0 < k) (hq : p + k = q * b) : touched b p k = q - p / b := by
  have hdiv : (p + k + b - 1) / b = q := by
    rw [hq, Nat.div_eq_iff hb]
    omega
  rw [touched, if_neg (by omega), hdiv]

/-- Behind a boundary at block `q` the count starts anew. -/
theorem touched_add {p k q : ℕ} (hk : 0 < k) (hq : p + k = q * b) (j : ℕ) :
    touched b p (k + j) = (q - p / b) + touched b (p + k) j := by
  rcases Nat.eq_zero_or_pos j with rfl | hj
  · rw [Nat.add_zero, touched_of_boundary hb hk hq, touched, if_pos rfl, Nat.add_zero]
  have hqp : p / b ≤ q := by
    have := Nat.div_le_div_right (c := b) (show p ≤ q * b by omega)
    rwa [Nat.mul_div_cancel q hb] at this
  have hqj : q ≤ (p + (k + j) + b - 1) / b := by
    rw [Nat.le_div_iff_mul_le hb]
    omega
  rw [touched, if_neg (by omega), touched, if_neg (by omega), ← Nat.add_assoc p k j, hq,
    Nat.mul_div_cancel q hb]
  rw [← Nat.add_assoc p k j, hq] at hqj
  omega

/-- Written image by image, the write is whole. -/
theorem writeAll_images (v : ℕ → α) (p : ℕ) (g : ℕ → α) (k : ℕ) :
    writeAll v (images b v p g k) = splice v p g k := by
  rcases Nat.eq_zero_or_pos k with rfl | hk
  · rw [images_zero, writeAll_nil, splice_zero]
  have hcover := touched_covers hb (p := p) hk
  have hp : p / b * b ≤ p := Nat.div_mul_le_self p b
  rw [images, writeAll_blocks]
  funext i
  by_cases hi : p / b * b ≤ i ∧ i < p / b * b + touched b p k * b
  · rw [splice_of_mem hi.1 hi.2, window_apply, Nat.add_sub_cancel' hi.1]
  · rw [splice, if_neg hi]
    rw [Nat.add_mul] at hcover
    by_cases hlt : i < p
    · rw [splice_of_lt hlt]
    · rw [splice_of_ge (by omega)]

/-- A write cut at a block boundary: the images of the second piece follow those of the first. -/
theorem images_append (v : ℕ → α) {p k : ℕ} (g : ℕ → α) (h : k = 0 ∨ b ∣ p + k) (j : ℕ) :
    images b v p g (k + j) = images b v p g k ++ images b (splice v p g k) (p + k) (window g k) j := by
  rcases Nat.eq_zero_or_pos k with rfl | hk
  · simp
  obtain ⟨q, hq⟩ := h.resolve_left (by omega)
  rw [Nat.mul_comm] at hq
  have hqp : p / b * b ≤ p := Nat.div_mul_le_self p b
  have hpq : p / b ≤ q := by
    have := Nat.div_le_div_right (c := b) (show p ≤ q * b by omega)
    rwa [Nat.mul_div_cancel q hb] at this
  have hback : p / b * b + (q - p / b) * b = p + k := by
    rw [← Nat.add_mul, Nat.add_sub_cancel' hpq, hq]
  rw [images, images, images, touched_add hb hk hq, blocks_append, touched_of_boundary hb hk hq]
  congr 1
  · -- before the boundary the second piece does not reach
    refine blocks_congr fun i hi => ?_
    rw [window_apply, window_apply, ← splice_chunk, splice_of_lt (by omega)]
  · rw [window_window, hback, splice_chunk, hq, Nat.mul_div_cancel q hb, Nat.add_sub_cancel' hpq]

/-- Whole blocks are their own images. -/
theorem images_whole (v : ℕ → α) (a : ℕ) (g : ℕ → α) (n : ℕ) :
    images b v (a * b) g (n * b) = blocks b g a n := by
  rcases Nat.eq_zero_or_pos n with rfl | hn
  · simp
  have htouched : touched b (a * b) (n * b) = n := by
    rw [touched_of_boundary hb (Nat.mul_pos hn hb) (Nat.add_mul a n b).symm, Nat.mul_div_cancel a hb,
      Nat.add_sub_cancel_left]
  rw [images, htouched, Nat.mul_div_cancel a hb]
  refine blocks_congr fun i hi => ?_
  rw [window_apply, splice_at hi]

/-- A write inside one block has one image. -/
theorem images_within (v : ℕ → α) {p : ℕ} (g : ℕ → α) {k : ℕ} (hk : 0 < k) (h : p % b + k ≤ b) :
    images b v p g k = blocks b (window (splice v p g k) (p / b * b)) (p / b) 1 := by
  have hp : p / b * b + p % b = p := Nat.div_add_mod' p b
  have htouched : touched b p k = 1 := by
    have hdiv : (p + k + b - 1) / b = p / b + 1 := by
      rw [Nat.div_eq_iff hb, Nat.succ_mul]
      omega
    rw [touched, if_neg (by omega), hdiv, Nat.add_sub_cancel_left]
  rw [images, htouched]

end Positive

end FormatStick.Splice
