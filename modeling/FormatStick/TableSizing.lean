import Mathlib.Tactic.Common
import Mathlib.Tactic.Ring

/-!
# Allocation tables over their own area

An area of `size` sectors holds two copies of a table and, behind them, the clusters that
the table describes: `perSector` entries to a sector of the table, `spc` sectors to a
cluster. A table that is the rounded-up share of its area has an entry for every cluster,
and two entries more except for sizes in a fixed range of residues.
-/
namespace FormatStick.TableSizing

variable {size perSector spc : ℕ}

/-- The sectors that one sector of each table and its clusters take. -/
def share (perSector spc : ℕ) : ℕ := perSector * spc + 2

/-- The sectors of one table. -/
def tableSize (size perSector spc : ℕ) : ℕ := (size + share perSector spc - 1) / share perSector spc

/-- The whole clusters behind two tables. -/
def clusters (size perSector spc : ℕ) : ℕ := (size - 2 * tableSize size perSector spc) / spc

theorem share_pos (perSector spc : ℕ) : 0 < share perSector spc := by simp [share]

/-- The area in whole shares and a rest. -/
theorem size_eq (size perSector spc : ℕ) :
    size = size / share perSector spc * (perSector * spc) + 2 * (size / share perSector spc) +
      size % share perSector spc := by
  have h := Nat.div_add_mod size (share perSector spc)
  have hmul : share perSector spc * (size / share perSector spc) =
      size / share perSector spc * (perSector * spc) + 2 * (size / share perSector spc) := by
    rw [share]
    ring
  omega

theorem tableSize_of_mod_eq_zero (h : size % share perSector spc = 0) :
    tableSize size perSector spc = size / share perSector spc := by
  have hpos := share_pos perSector spc
  have hsize := Nat.div_add_mod size (share perSector spc)
  rw [h, Nat.add_zero] at hsize
  have hlast : (share perSector spc - 1) / share perSector spc = 0 := Nat.div_eq_of_lt (by omega)
  rw [tableSize]
  nth_rewrite 1 [← hsize]
  rw [Nat.add_sub_assoc hpos, Nat.mul_add_div hpos, hlast, Nat.add_zero]

theorem tableSize_of_mod_pos (h : 0 < size % share perSector spc) :
    tableSize size perSector spc = size / share perSector spc + 1 := by
  have hpos := share_pos perSector spc
  have hlt := Nat.mod_lt size hpos
  have hsize := Nat.div_add_mod size (share perSector spc)
  have hsum : size + share perSector spc - 1 =
      share perSector spc * (size / share perSector spc + 1) + (size % share perSector spc - 1) := by
    rw [Nat.mul_add]
    omega
  have hrest : (size % share perSector spc - 1) / share perSector spc = 0 := Nat.div_eq_of_lt (by omega)
  rw [tableSize, hsum, Nat.mul_add_div hpos, hrest, Nat.add_zero]

theorem tableSize_le_iff {k : ℕ} : tableSize size perSector spc ≤ k ↔ size ≤ k * share perSector spc := by
  have hpos := share_pos perSector spc
  rw [tableSize, Nat.div_le_iff_le_mul_add_pred hpos, Nat.mul_comm]
  omega

/-- A table has an entry for every cluster behind it. -/
theorem clusters_le : clusters size perSector spc ≤ perSector * tableSize size perSector spc := by
  have hle : size ≤ tableSize size perSector spc * share perSector spc := tableSize_le_iff.mp (Nat.le_refl _)
  have hmul : tableSize size perSector spc * share perSector spc =
      perSector * tableSize size perSector spc * spc + 2 * tableSize size perSector spc := by
    rw [share]
    ring
  rw [clusters]
  exact Nat.div_le_of_le_mul (by rw [Nat.mul_comm spc]; omega)

/-- It has two entries more exactly outside a range of residues of the area. -/
theorem clusters_add_two_le_iff (hspc : 0 < spc) (hper : 2 ≤ perSector) :
    clusters size perSector spc + 2 ≤ perSector * tableSize size perSector spc ↔
      0 < size % share perSector spc ∧ size % share perSector spc + spc < share perSector spc := by
  have hsize := size_eq size perSector spc
  have hlt := Nat.mod_lt size (share_pos perSector spc)
  have hshare : share perSector spc = perSector * spc + 2 := rfl
  rw [clusters]
  rcases Nat.eq_zero_or_pos (size % share perSector spc) with hmod | hmod
  · rw [tableSize_of_mod_eq_zero hmod]
    generalize size / share perSector spc = q at hsize ⊢
    have hclusters : (size - 2 * q) / spc = q * perSector := by
      have harea : size - 2 * q = q * perSector * spc := by
        rw [Nat.mul_assoc]
        omega
      rw [harea, Nat.mul_div_cancel _ hspc]
    rw [hclusters, Nat.mul_comm perSector]
    omega
  · rw [tableSize_of_mod_pos hmod]
    generalize size / share perSector spc = q at hsize ⊢
    generalize size % share perSector spc = r at hsize hlt hmod ⊢
    have htotal : perSector * (q + 1) = q * perSector + perSector := by ring
    -- the clusters stay below all but one of the entries
    have hbound : (size - 2 * (q + 1)) / spc < q * perSector + (perSector - 1) ↔
        size - 2 * (q + 1) < (q * perSector + (perSector - 1)) * spc := Nat.div_lt_iff_lt_mul hspc
    have hmul : (q * perSector + (perSector - 1)) * spc + spc = q * (perSector * spc) + perSector * spc := by
      have hlast : perSector - 1 + 1 = perSector := by omega
      rw [← Nat.succ_mul, Nat.succ_eq_add_one, Nat.add_assoc, hlast, Nat.add_mul, Nat.mul_assoc]
    have hle : spc ≤ (q * perSector + (perSector - 1)) * spc := Nat.le_mul_of_pos_left spc (by omega)
    omega

/-- From which size on there are `c` clusters. -/
theorem le_clusters_iff (hspc : 0 < spc) (hper : 0 < perSector) {c : ℕ} (hc : c % perSector ≠ 0) :
    c ≤ clusters size perSector spc ↔ c * spc + 2 * (c / perSector + 1) ≤ size := by
  have hsize := size_eq size perSector spc
  have hlt := Nat.mod_lt size (share_pos perSector spc)
  have hshare : share perSector spc = perSector * spc + 2 := rfl
  have hparts := Nat.div_add_mod c perSector
  have hcmul : c * spc = c / perSector * (perSector * spc) + c % perSector * spc := by
    nth_rewrite 1 [← hparts]
    ring
  rw [clusters, Nat.le_div_iff_mul_le hspc]
  have hrest : c % perSector * spc + spc ≤ perSector * spc := by
    rw [← Nat.succ_mul]
    exact Nat.mul_le_mul_right spc (Nat.mod_lt c hper)
  have hrest' : spc ≤ c % perSector * spc := Nat.le_mul_of_pos_left spc (Nat.pos_of_ne_zero hc)
  rw [hcmul]
  generalize c % perSector * spc = e at hrest hrest' ⊢
  generalize hq : size / share perSector spc = q at hsize
  have hrow : ∀ {i k : ℕ}, i < k → i * (perSector * spc) + perSector * spc ≤ k * (perSector * spc) :=
      fun h => by
    rw [← Nat.succ_mul]
    exact Nat.mul_le_mul_right _ h
  have htable : tableSize size perSector spc = q ∧ size % share perSector spc = 0 ∨
      tableSize size perSector spc = q + 1 ∧ 0 < size % share perSector spc := by
    rcases Nat.eq_zero_or_pos (size % share perSector spc) with hmod | hmod
    · exact .inl ⟨hq ▸ tableSize_of_mod_eq_zero hmod, hmod⟩
    · exact .inr ⟨hq ▸ tableSize_of_mod_pos hmod, hmod⟩
  -- the row that the last of `c` clusters is in, against the last whole share
  rcases Nat.lt_trichotomy (c / perSector) q with hj | hj | hj
  · have := hrow hj
    omega
  · rw [hj]
    omega
  · have := hrow hj
    omega

end FormatStick.TableSizing
