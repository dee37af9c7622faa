import FormatStick.Splice

/-!
# A store with a write-back range

The store is a medium and one contiguous range that is accepted but not yet
written. Its view is the medium with that range laid over it: what a reader
that flushes first would see. A flush moves the range to the medium, a failed
flush loses it. Two kinds of fact are kept: how each operation changes the view
when nothing is lost, and which pointwise properties of cells no operation, lost
ranges included, can break.
-/
namespace FormatStick.WriteBack
open Splice

variable {α : Type*}

/-- A medium and the range `[base, base + size)` still to be written to it. -/
structure Store (α : Type*) where
  medium : ℕ → α
  base : ℕ
  size : ℕ
  pending : ℕ → α

namespace Store

/-- The content a reader sees once the pending range is written. -/
def view (s : Store α) : ℕ → α := splice s.medium s.base s.pending s.size

/-- The pending range reaches the medium. -/
def flush (s : Store α) : Store α := { s with medium := s.view, size := 0 }

/-- The pending range is forgotten, as by a flush that fails. -/
def drop (s : Store α) : Store α := { s with size := 0 }

/-- `n` more cells are accepted right behind the pending range. -/
def extend (s : Store α) (g : ℕ → α) (n : ℕ) : Store α :=
  { s with pending := splice s.pending s.size g n, size := s.size + n }

/-- A new pending range takes the place of an empty one. -/
def stage (s : Store α) (a : ℕ) (g : ℕ → α) (n : ℕ) : Store α :=
  { s with base := a, pending := splice s.pending 0 g n, size := n }

/-- `n` cells go to the medium at once. -/
def through (s : Store α) (a : ℕ) (g : ℕ → α) (n : ℕ) : Store α :=
  { s with medium := splice s.medium a g n }

theorem view_of_empty {s : Store α} (h : s.size = 0) : s.view = s.medium := by simp [view, h]

@[simp] theorem view_flush (s : Store α) : s.flush.view = s.view := by simp [flush, view]

@[simp] theorem medium_flush (s : Store α) : s.flush.medium = s.view := rfl

@[simp] theorem size_flush (s : Store α) : s.flush.size = 0 := rfl

@[simp] theorem size_drop (s : Store α) : s.drop.size = 0 := rfl

theorem flush_of_empty {s : Store α} (h : s.size = 0) : s.flush = s := by
  rw [flush, view_of_empty h, ← h]

theorem view_extend (s : Store α) (g : ℕ → α) (n : ℕ) :
    (s.extend g n).view = splice s.view (s.base + s.size) g n :=
  (splice_append s.medium s.pending g s.base s.size n).symm

theorem view_stage {s : Store α} (h : s.size = 0) (a : ℕ) (g : ℕ → α) (n : ℕ) :
    (s.stage a g n).view = splice s.view a g n := by
  rw [view_of_empty h]
  change splice s.medium a (splice s.pending 0 g n) n = splice s.medium a g n
  refine splice_congr fun i hi => ?_
  rw [splice_of_mem (by omega) (by omega), Nat.sub_zero]

theorem view_through {s : Store α} (h : s.size = 0) (a : ℕ) (g : ℕ → α) (n : ℕ) :
    (s.through a g n).view = splice s.view a g n := by simp [view, through, h]

/-- Every cell the store holds, on the medium or pending, satisfies `φ` at its address. -/
structure Sat (φ : ℕ → α → Prop) (s : Store α) : Prop where
  medium : ∀ a, φ a (s.medium a)
  pending : ∀ i < s.size, φ (s.base + i) (s.pending i)

variable {φ : ℕ → α → Prop} {s : Store α}

theorem Sat.view (h : s.Sat φ) (a : ℕ) : φ a (s.view a) := by
  by_cases hp : s.base ≤ a ∧ a < s.base + s.size
  · obtain ⟨h₁, h₂⟩ := hp
    have ha := h.pending (a - s.base) (by omega)
    rw [Store.view, splice_of_mem h₁ h₂]
    rwa [Nat.add_sub_cancel' h₁] at ha
  · rw [Store.view, splice, if_neg hp]
    exact h.medium a

theorem Sat.flush (h : s.Sat φ) : s.flush.Sat φ :=
  ⟨h.view, fun i hi => absurd hi (Nat.not_lt_zero i)⟩

theorem Sat.drop (h : s.Sat φ) : s.drop.Sat φ :=
  ⟨h.medium, fun i hi => absurd hi (Nat.not_lt_zero i)⟩

theorem Sat.extend (h : s.Sat φ) {g : ℕ → α} {n : ℕ}
    (hg : ∀ i < n, φ (s.base + s.size + i) (g i)) : (s.extend g n).Sat φ := by
  refine ⟨h.medium, fun i hi => ?_⟩
  change φ (s.base + i) (splice s.pending s.size g n i)
  change i < s.size + n at hi
  by_cases hlt : i < s.size
  · rw [splice_of_lt hlt]
    exact h.pending i hlt
  · have hi' := hg (i - s.size) (by omega)
    rw [splice_of_mem (by omega) hi]
    rwa [Nat.add_assoc, Nat.add_sub_cancel' (by omega)] at hi'

theorem Sat.stage (h : s.Sat φ) {a : ℕ} {g : ℕ → α} {n : ℕ}
    (hg : ∀ i < n, φ (a + i) (g i)) : (s.stage a g n).Sat φ := by
  refine ⟨h.medium, fun i hi => ?_⟩
  change φ (a + i) (splice s.pending 0 g n i)
  change i < n at hi
  rw [splice_of_mem (by omega) (by omega), Nat.sub_zero]
  exact hg i hi

theorem Sat.through (h : s.Sat φ) {a : ℕ} {g : ℕ → α} {n : ℕ}
    (hg : ∀ i < n, φ (a + i) (g i)) : (s.through a g n).Sat φ := by
  refine ⟨fun b => ?_, h.pending⟩
  change φ b (splice s.medium a g n b)
  by_cases hp : a ≤ b ∧ b < a + n
  · have hb := hg (b - a) (by omega)
    rw [splice_of_mem hp.1 hp.2]
    rwa [Nat.add_sub_cancel' hp.1] at hb
  · rw [splice, if_neg hp]
    exact h.medium b

end Store

variable {φ : ℕ → α → Prop} {s : Store α}

/-- The store after an attempt to write the pending range out; `lost` records that
the attempt failed. -/
inductive Settled (s : Store α) (lost : Prop) : Store α → Prop
  | flushed {t : Store α} : t = s.flush → Settled s lost t
  | dropped {t : Store α} : lost → t = s.drop → Settled s lost t

/-- The ways `n` cells of `g` can be accepted for address `a`: behind the pending
range, as a new pending range, or at once. -/
inductive Accepted (s : Store α) (lost : Prop) (a : ℕ) (g : ℕ → α) (n : ℕ) : Store α → Prop
  | extend {u : Store α} : a = s.base + s.size → u = s.extend g n → Accepted s lost a g n u
  | stage {t u : Store α} : Settled s lost t → u = t.stage a g n → Accepted s lost a g n u
  | through {t u : Store α} : Settled s lost t → u = t.through a g n → Accepted s lost a g n u

namespace Settled

variable {t : Store α} {lost lost' : Prop}

theorem size_eq (h : Settled s lost t) : t.size = 0 := by
  cases h with
  | flushed ht => rw [ht, Store.size_flush]
  | dropped _ ht => rw [ht, Store.size_drop]

theorem mono (h : Settled s lost t) (hl : lost → lost') : Settled s lost' t := by
  cases h with
  | flushed ht => exact flushed ht
  | dropped l ht => exact dropped (hl l) ht

theorem view_eq (h : Settled s lost t) (hl : ¬lost) : t.view = s.view := by
  cases h with
  | flushed ht => rw [ht, Store.view_flush]
  | dropped l _ => exact absurd l hl

theorem medium_eq (h : Settled s lost t) (hl : ¬lost) : t.medium = s.view := by
  rw [← h.view_eq hl, Store.view_of_empty h.size_eq]

theorem sat (h : Settled s lost t) (hs : s.Sat φ) : t.Sat φ := by
  cases h with
  | flushed ht => exact ht ▸ hs.flush
  | dropped _ ht => exact ht ▸ hs.drop

end Settled

namespace Accepted

variable {t : Store α} {lost lost' : Prop} {a n : ℕ} {g : ℕ → α}

/-- Nothing lost, an accepted write is a write of the view. -/
theorem view_eq (h : Accepted s lost a g n t) (hl : ¬lost) : t.view = splice s.view a g n := by
  cases h with
  | extend ha ht => rw [ht, Store.view_extend, ha]
  | stage hs ht => rw [ht, Store.view_stage hs.size_eq, hs.view_eq hl]
  | through hs ht => rw [ht, Store.view_through hs.size_eq, hs.view_eq hl]

theorem sat (h : Accepted s lost a g n t) (hs : s.Sat φ) (hg : ∀ i < n, φ (a + i) (g i)) :
    t.Sat φ := by
  cases h with
  | extend ha ht => exact ht ▸ hs.extend fun i hi => ha ▸ hg i hi
  | stage hf ht => exact ht ▸ (hf.sat hs).stage hg
  | through hf ht => exact ht ▸ (hf.sat hs).through hg

end Accepted

end FormatStick.WriteBack
