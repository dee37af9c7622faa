import Mathlib.Tactic.Common
import Mathlib.Order.Basic

/-!
# Overwriting ranges of an addressed memory

A memory is a total function from addresses to cells. Overwriting a range is
the only operation; a write-back store is a memory together with one pending
range. Nothing here depends on what a cell is.
-/
namespace FormatStick.Splice

variable {α : Type*}

/-- The memory `f` after the first `n` cells of `g` are written from address `a` on. -/
def splice (f : ℕ → α) (a : ℕ) (g : ℕ → α) (n : ℕ) : ℕ → α :=
  fun i => if a ≤ i ∧ i < a + n then g (i - a) else f i

/-- The cells of `f` seen from address `a`. -/
def window (f : ℕ → α) (a : ℕ) : ℕ → α := fun i => f (a + i)

@[simp] theorem window_apply (f : ℕ → α) (a i : ℕ) : window f a i = f (a + i) := rfl

@[simp] theorem window_zero (f : ℕ → α) : window f 0 = f := by
  funext i
  simp

theorem window_window (f : ℕ → α) (a b : ℕ) : window (window f a) b = window f (a + b) := by
  funext i
  simp [Nat.add_assoc]

theorem splice_of_mem {f g : ℕ → α} {a n i : ℕ} (h₁ : a ≤ i) (h₂ : i < a + n) :
    splice f a g n i = g (i - a) := by simp [splice, h₁, h₂]

theorem splice_of_lt {f g : ℕ → α} {a n i : ℕ} (h : i < a) : splice f a g n i = f i := by
  simp [splice, Nat.not_le.mpr h]

theorem splice_of_ge {f g : ℕ → α} {a n i : ℕ} (h : a + n ≤ i) : splice f a g n i = f i := by
  simp [splice, Nat.not_lt.mpr h]

theorem splice_at {f g : ℕ → α} {a n i : ℕ} (h : i < n) : splice f a g n (a + i) = g i := by
  rw [splice_of_mem (by omega) (by omega), Nat.add_sub_cancel_left]

@[simp] theorem splice_zero (f g : ℕ → α) (a : ℕ) : splice f a g 0 = f := by
  funext i
  simp only [splice, Nat.add_zero, ite_eq_right_iff, and_imp]
  omega

theorem splice_congr {f g h : ℕ → α} {a n : ℕ} (hgh : ∀ i < n, g i = h i) :
    splice f a g n = splice f a h n := by
  funext i
  simp only [splice]
  split_ifs with hi
  · exact hgh _ (by omega)
  · rfl

/-- Two writes one right after the other are one write of both payloads. -/
theorem splice_append (f g h : ℕ → α) (a n m : ℕ) :
    splice (splice f a g n) (a + n) h m = splice f a (splice g n h m) (n + m) := by
  funext i
  simp only [splice]
  split_ifs <;> first | rfl | omega | (congr 1; omega)

/-- A payload written in two pieces. -/
theorem splice_chunk (f g : ℕ → α) (a n m : ℕ) :
    splice (splice f a g n) (a + n) (window g n) m = splice f a g (n + m) := by
  rw [splice_append]
  apply splice_congr
  intro i _
  simp only [splice, window_apply]
  split_ifs with hi
  · congr 1; omega
  · rfl

/-- Reading `m` cells, changing `n` of them and writing all of them back changes
just the `n` cells. -/
theorem splice_readModifyWrite (f g : ℕ → α) (b o n m : ℕ) (h : o + n ≤ m) :
    splice f b (splice (window f b) o g n) m = splice f (b + o) g n := by
  funext i
  simp only [splice, window_apply]
  split_ifs <;> first | rfl | omega | (congr 1; omega)

/-- One write of a flat memory: `len` cells of `data` from address `addr` on. -/
structure Write (α : Type*) where
  addr : ℕ
  data : ℕ → α
  len : ℕ

/-- The memory after a list of writes, the first one first. -/
def writeAll (f : ℕ → α) (ws : List (Write α)) : ℕ → α :=
  ws.foldl (fun f w => splice f w.addr w.data w.len) f

@[simp] theorem writeAll_nil (f : ℕ → α) : writeAll f [] = f := rfl

@[simp] theorem writeAll_cons (f : ℕ → α) (w : Write α) (ws : List (Write α)) :
    writeAll f (w :: ws) = writeAll (splice f w.addr w.data w.len) ws := rfl

theorem writeAll_append (f : ℕ → α) (ws vs : List (Write α)) :
    writeAll f (ws ++ vs) = writeAll (writeAll f ws) vs := by
  simp [writeAll, List.foldl_append]

/-- A cell that no write of the list reaches keeps its content. -/
theorem writeAll_of_forall_not_mem (f : ℕ → α) (ws : List (Write α)) (i : ℕ)
    (h : ∀ w ∈ ws, i < w.addr ∨ w.addr + w.len ≤ i) : writeAll f ws i = f i := by
  induction ws generalizing f with
  | nil => rfl
  | cons w ws ih =>
    rw [writeAll_cons, ih _ (fun v hv => h v (List.mem_cons_of_mem _ hv))]
    obtain hlt | hge := h w List.mem_cons_self
    · exact splice_of_lt hlt
    · exact splice_of_ge hge

/-- A write that no later one of the list meets is there at the end. -/
theorem writeAll_of_mem (f : ℕ → α) {ws : List (Write α)}
    (hd : ws.Pairwise fun v w => v.addr + v.len ≤ w.addr ∨ w.addr + w.len ≤ v.addr) {v : Write α}
    (hv : v ∈ ws) {i : ℕ} (hi : i < v.len) : writeAll f ws (v.addr + i) = v.data i := by
  induction ws generalizing f with
  | nil => exact absurd hv List.not_mem_nil
  | cons w ws ih =>
    obtain ⟨hw, hd⟩ := List.pairwise_cons.mp hd
    rw [writeAll_cons]
    rcases List.mem_cons.mp hv with rfl | hv
    · rw [writeAll_of_forall_not_mem _ ws, splice_at hi]
      intro u hu
      have := hw u hu
      omega
    · exact ih _ hd hv

/-- What the writes of a list put at a cell is there at the end, if they put anything. -/
theorem writeAll_of_forall {p : α → Prop} {i : ℕ} (f : ℕ → α) {ws : List (Write α)}
    (hws : ∀ w ∈ ws, w.addr ≤ i → i < w.addr + w.len → p (w.data (i - w.addr)))
    (h : p (f i) ∨ ∃ w ∈ ws, w.addr ≤ i ∧ i < w.addr + w.len) : p (writeAll f ws i) := by
  induction ws generalizing f with
  | nil =>
    rcases h with h | ⟨w, hw, -⟩
    · exact h
    · exact absurd hw List.not_mem_nil
  | cons v ws ih =>
    rw [writeAll_cons]
    apply ih _ fun w hw => hws w (List.mem_cons_of_mem _ hw)
    by_cases hv : v.addr ≤ i ∧ i < v.addr + v.len
    · left
      rw [splice_of_mem hv.1 hv.2]
      exact hws v List.mem_cons_self hv.1 hv.2
    · rcases h with h | ⟨w, hw, hi⟩
      · left
        rwa [splice, if_neg hv]
      · rcases List.mem_cons.mp hw with rfl | hw
        · exact absurd hi hv
        · exact .inr ⟨w, hw, hi⟩

/-- After a list of writes a cell holds the last of them that reached it, whatever it held before. -/
theorem writeAll_congr {f g : ℕ → α} {i : ℕ} {ws : List (Write α)}
    (h : f i = g i ∨ ∃ w ∈ ws, w.addr ≤ i ∧ i < w.addr + w.len) : writeAll f ws i = writeAll g ws i := by
  induction ws generalizing f g with
  | nil =>
    rcases h with h | ⟨w, hw, -⟩
    · exact h
    · exact absurd hw List.not_mem_nil
  | cons v ws ih =>
    rw [writeAll_cons, writeAll_cons]
    apply ih
    by_cases hv : v.addr ≤ i ∧ i < v.addr + v.len
    · left
      rw [splice_of_mem hv.1 hv.2, splice_of_mem hv.1 hv.2]
    · rcases h with h | ⟨w, hw, hi⟩
      · left
        rw [splice, splice, if_neg hv, if_neg hv, h]
      · rcases List.mem_cons.mp hw with rfl | hw
        · exact absurd hi hv
        · exact .inr ⟨w, hw, hi⟩

end FormatStick.Splice
