import Mathlib.Data.List.Basic

/-!
# Strings in memory

A memory is a list of bytes, an address an index into it. The string at an address ends before
the first zero byte. Overwriting one of its characters with zero makes two strings of it.
-/
namespace FormatStick.CStrings

/-- The string that begins at `p`. -/
def stringAt (mem : List UInt8) (p : ℕ) : List UInt8 := (mem.drop p).takeWhile (· ≠ 0)

/-- `strchr`: where `c` first stands in the string at `p`. -/
def strchr (mem : List UInt8) (p : ℕ) (c : UInt8) : Option ℕ := ((stringAt mem p).idxOf? c).map (p + ·)

/-- The memory has the string `s` at `p`, with its end. -/
structure Holds (mem : List UInt8) (p : ℕ) (s : List UInt8) : Prop where
  nonzero : 0 ∉ s
  drop : ∃ rest, mem.drop p = s ++ 0 :: rest

variable {mem : List UInt8} {p : ℕ} {s e r : List UInt8} {c : UInt8}

theorem Holds.stringAt (h : Holds mem p s) : stringAt mem p = s := by
  obtain ⟨rest, hdrop⟩ := h.drop
  have hall : ∀ x ∈ s, decide (x ≠ 0) = true := by
    intro x hx
    rw [decide_eq_true_eq]
    rintro rfl
    exact h.nonzero hx
  rw [CStrings.stringAt, hdrop, List.takeWhile_append_of_pos hall]
  simp

/-- The first byte is zero for the empty string only. -/
theorem Holds.getD (h : Holds mem p s) : mem.getD p 0 = 0 ↔ s = [] := by
  obtain ⟨rest, hdrop⟩ := h.drop
  have hget : mem.getD p 0 = (mem.drop p).getD 0 0 := by
    simp [List.getD_eq_getElem?_getD]
  rw [hget, hdrop]
  cases s with
  | nil => simp
  | cons x s =>
    have hx : x ≠ 0 := by
      rintro rfl
      exact h.nonzero List.mem_cons_self
    simp [hx]

theorem Holds.strchr_of_not_mem (h : Holds mem p s) (hc : c ∉ s) : strchr mem p c = none := by
  rw [strchr, h.stringAt, List.idxOf?_eq_none_iff.mpr hc]
  rfl

theorem idxOf?_append_cons (hc : c ∉ e) : (e ++ c :: r).idxOf? c = some e.length := by
  induction e with
  | nil => simp [List.idxOf?_cons]
  | cons x e ih =>
    have hne : x ≠ c := by
      rintro rfl
      exact hc List.mem_cons_self
    rw [List.cons_append, List.idxOf?_cons, ih (fun h => hc (List.mem_cons_of_mem x h))]
    simp [hne]

theorem Holds.strchr_of_first (h : Holds mem p (e ++ c :: r)) (hc : c ∉ e) :
    strchr mem p c = some (p + e.length) := by
  rw [strchr, h.stringAt, idxOf?_append_cons hc]
  rfl

/-- A byte before the string is none of it. -/
theorem Holds.set_of_lt (h : Holds mem p s) {q : ℕ} (hq : q < p) (b : UInt8) : Holds (mem.set q b) p s := by
  refine ⟨h.nonzero, ?_⟩
  rw [List.drop_set_of_lt hq]
  exact h.drop

/-- What is left of a string that is cut. -/
theorem Holds.cut (h : Holds mem p (e ++ c :: r)) : Holds (mem.set (p + e.length) 0) p e := by
  obtain ⟨rest, hdrop⟩ := h.drop
  refine ⟨fun he => h.nonzero (List.mem_append_left _ he), r ++ 0 :: rest, ?_⟩
  rw [List.drop_set, if_neg (by omega), hdrop]
  simp

/-- The string behind the cut. -/
theorem Holds.behind (h : Holds mem p (e ++ c :: r)) : Holds mem (p + e.length + 1) r := by
  obtain ⟨rest, hdrop⟩ := h.drop
  refine ⟨fun hr => h.nonzero (List.mem_append_right _ (List.mem_cons_of_mem c hr)), rest, ?_⟩
  rw [Nat.add_assoc, ← List.drop_drop, hdrop]
  simp

/-- A string between zero bytes. -/
theorem holds_append (before after : List UInt8) (hs : 0 ∉ s) :
    Holds (before ++ s ++ 0 :: after) before.length s :=
  ⟨hs, after, by simp⟩

end FormatStick.CStrings
