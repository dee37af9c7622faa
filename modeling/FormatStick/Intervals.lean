import Mathlib.Data.List.Pairwise
import Mathlib.Data.List.TakeWhile
import Mathlib.Data.Set.Lattice
import Mathlib.Order.Interval.Set.Basic

/-!
# Lists of intervals

A list of intervals of naturals in ascending order, with a gap between any two, describes a set in
the shortest way. An interval can be taken out, put in, or changed in place. Nothing here depends on
what is numbered.
-/
namespace FormatStick.Intervals

structure Interval where
  start : ℕ
  len : ℕ
  deriving DecidableEq

namespace Interval

variable (r : Interval)

/-- The first number behind the interval. -/
def stop : ℕ := r.start + r.len

/-- The numbers of the interval. -/
def range : Set ℕ := Set.Ico r.start r.stop

@[simp] theorem mem_range {c : ℕ} : c ∈ r.range ↔ r.start ≤ c ∧ c < r.stop := Iff.rfl

instance (c : ℕ) : Decidable (c ∈ r.range) := inferInstanceAs (Decidable (_ ∧ _))

theorem start_le_stop : r.start ≤ r.stop := Nat.le_add_right _ _

end Interval

/-- The numbers of a list of intervals. -/
def covered (rs : List Interval) : Set ℕ := {c | ∃ r ∈ rs, c ∈ r.range}

section Covered

variable {rs ss : List Interval} {r : Interval}

@[simp] theorem covered_nil : covered [] = ∅ := by
  ext c
  simp [covered]

@[simp] theorem covered_cons : covered (r :: rs) = r.range ∪ covered rs := by
  ext c
  simp [covered]

@[simp] theorem covered_append : covered (rs ++ ss) = covered rs ∪ covered ss := by
  induction rs with
  | nil => simp
  | cons r rs ih => simp [ih, Set.union_assoc]

end Covered

/-- Ascending intervals that are not empty, with a gap between any two. -/
structure Apart (rs : List Interval) : Prop where
  pos : ∀ r ∈ rs, 0 < r.len
  order : rs.Pairwise fun r s => r.stop < s.start

namespace Apart

variable {rs before after : List Interval} {r s : Interval}

theorem nil : Apart [] := ⟨fun _ h => absurd h List.not_mem_nil, List.Pairwise.nil⟩

theorem sublist (h : Apart rs) (hsub : before.Sublist rs) : Apart before :=
  ⟨fun r hr => h.pos r (hsub.subset hr), h.order.sublist hsub⟩

/-- The two parts of a list. -/
theorem append_iff : Apart (before ++ after) ↔
    Apart before ∧ Apart after ∧ ∀ r ∈ before, ∀ s ∈ after, r.stop < s.start := by
  constructor
  · rintro ⟨hpos, horder⟩
    obtain ⟨hbefore, hafter, hcross⟩ := List.pairwise_append.mp horder
    exact ⟨⟨fun r hr => hpos r (List.mem_append_left _ hr), hbefore⟩,
      ⟨fun r hr => hpos r (List.mem_append_right _ hr), hafter⟩, hcross⟩
  · rintro ⟨hbefore, hafter, hcross⟩
    refine ⟨fun r hr => ?_, List.pairwise_append.mpr ⟨hbefore.order, hafter.order, hcross⟩⟩
    rcases List.mem_append.mp hr with hr | hr
    · exact hbefore.pos r hr
    · exact hafter.pos r hr

theorem cons_iff : Apart (r :: after) ↔ 0 < r.len ∧ (∀ s ∈ after, r.stop < s.start) ∧ Apart after := by
  constructor
  · rintro ⟨hpos, horder⟩
    obtain ⟨hcross, hafter⟩ := List.pairwise_cons.mp horder
    exact ⟨hpos r List.mem_cons_self, hcross, fun s hs => hpos s (List.mem_cons_of_mem _ hs), hafter⟩
  · rintro ⟨hr, hcross, hafter⟩
    refine ⟨fun s hs => ?_, List.pairwise_cons.mpr ⟨hcross, hafter.order⟩⟩
    rcases List.mem_cons.mp hs with rfl | hs
    · exact hr
    · exact hafter.pos s hs

/-- A new interval between two parts of a list. -/
theorem insert (h : Apart (before ++ after)) (hr : 0 < r.len) (hbefore : ∀ s ∈ before, s.stop < r.start)
    (hafter : ∀ s ∈ after, r.stop < s.start) : Apart (before ++ r :: after) := by
  obtain ⟨hleft, hright, hcross⟩ := append_iff.mp h
  refine append_iff.mpr ⟨hleft, cons_iff.mpr ⟨hr, hafter, hright⟩, fun s hs t ht => ?_⟩
  rcases List.mem_cons.mp ht with rfl | ht
  · exact hbefore s hs
  · exact hcross s hs t ht

theorem trichotomy (h : Apart rs) (hr : r ∈ rs) (hs : s ∈ rs) :
    r = s ∨ r.stop < s.start ∨ s.stop < r.start := by
  by_cases heq : r = s
  · exact .inl heq
  · have horder : rs.Pairwise fun r s => r.stop < s.start ∨ s.stop < r.start := h.order.imp .inl
    have : Std.Symm fun r s : Interval => r.stop < s.start ∨ s.stop < r.start := ⟨fun _ _ h => h.symm⟩
    exact .inr (horder.forall hr hs heq)

theorem nodup (h : Apart rs) : rs.Nodup := by
  refine h.order.imp fun {r s} hrs heq => ?_
  subst heq
  exact Nat.not_lt.mpr r.start_le_stop hrs

/-- A number lies in one interval at most. -/
theorem eq_of_mem (h : Apart rs) (hr : r ∈ rs) (hs : s ∈ rs) {c : ℕ} (hcr : c ∈ r.range) (hcs : c ∈ s.range) :
    r = s := by
  obtain ⟨hrlow, hrhigh⟩ := hcr
  obtain ⟨hslow, hshigh⟩ := hcs
  rcases h.trichotomy hr hs with heq | hlt | hlt
  · exact heq
  · omega
  · omega

/-- Intervals that become shorter where they are. -/
theorem map (h : Apart rs) {f : Interval → Interval} (hpos : ∀ r ∈ rs, 0 < (f r).len)
    (hstart : ∀ r ∈ rs, r.start ≤ (f r).start) (hstop : ∀ r ∈ rs, (f r).stop ≤ r.stop) :
      Apart (rs.map f) := by
  refine ⟨List.forall_mem_map.mpr hpos, List.pairwise_map.mpr ?_⟩
  refine h.order.imp_of_mem fun {r s} hr hs hrs => ?_
  have := hstop r hr
  have := hstart s hs
  omega

theorem mem_covered_erase (h : Apart rs) (hr : r ∈ rs) {c : ℕ} :
    c ∈ covered (rs.erase r) ↔ c ∈ covered rs ∧ c ∉ r.range := by
  constructor
  · rintro ⟨s, hs, hcs⟩
    rw [h.nodup.mem_erase_iff] at hs
    exact ⟨⟨s, hs.2, hcs⟩, fun hcr => hs.1 (h.eq_of_mem hs.2 hr hcs hcr)⟩
  · rintro ⟨⟨s, hs, hcs⟩, hcr⟩
    exact ⟨s, h.nodup.mem_erase_iff.mpr ⟨fun heq => hcr (heq ▸ hcs), hs⟩, hcs⟩

end Apart

section Locate

variable {rs before after : List Interval} {r : Interval} {x : ℕ}

/-- The intervals up to `x` and those that start behind it. -/
def upTo (rs : List Interval) (x : ℕ) : List Interval := rs.takeWhile fun r => decide (r.start ≤ x)

def behind (rs : List Interval) (x : ℕ) : List Interval := rs.dropWhile fun r => decide (r.start ≤ x)

@[simp] theorem upTo_append_behind : upTo rs x ++ behind rs x = rs := List.takeWhile_append_dropWhile

theorem start_le_of_mem_upTo (h : r ∈ upTo rs x) : r.start ≤ x := by
  simpa using List.mem_takeWhile_imp h

/-- In an ascending list everything behind the first interval that starts behind `x` does so too. -/
theorem Apart.lt_of_mem_behind (h : Apart rs) (hr : r ∈ behind rs x) : x < r.start := by
  induction rs with
  | nil => exact absurd hr List.not_mem_nil
  | cons s rs ih =>
    obtain ⟨-, hcross, hrs⟩ := Apart.cons_iff.mp h
    by_cases hs : s.start ≤ x
    · rw [behind, List.dropWhile_cons_of_pos (by simpa using hs)] at hr
      exact ih hrs hr
    · rw [behind, List.dropWhile_cons_of_neg (by simpa using hs)] at hr
      rcases List.mem_cons.mp hr with rfl | hr
      · omega
      · have := hcross r hr
        have := s.start_le_stop
        omega

theorem behind_append_cons (hbefore : ∀ s ∈ before, s.start ≤ x) (hr : r.start ≤ x)
    (hafter : ∀ s ∈ after, x < s.start) : behind (before ++ r :: after) x = after := by
  rw [behind, List.dropWhile_append_of_pos (by simpa using hbefore),
    List.dropWhile_cons_of_pos (by simpa using hr)]
  cases after with
  | nil => rfl
  | cons s after => exact List.dropWhile_cons_of_neg (by simpa using hafter s List.mem_cons_self)

/-- The first interval behind `x` has none between `x` and it. -/
theorem Apart.head_behind (h : Apart rs) (hr : (behind rs x).head? = some r) :
    r ∈ rs ∧ ∀ s ∈ rs, s.start ≤ x ∨ r.start ≤ s.start := by
  obtain ⟨rest, hbehind⟩ := List.head?_eq_some_iff.mp hr
  have hsub : (r :: rest).Sublist rs := hbehind ▸ List.dropWhile_sublist _
  obtain ⟨-, hcross, -⟩ := Apart.cons_iff.mp (h.sublist hsub)
  have hsplit : upTo rs x ++ behind rs x = rs := upTo_append_behind
  refine ⟨hsub.subset List.mem_cons_self, fun s hs => ?_⟩
  rw [← hsplit, hbehind] at hs
  rcases List.mem_append.mp hs with hs | hs
  · exact .inl (start_le_of_mem_upTo hs)
  · rcases List.mem_cons.mp hs with rfl | hs
    · exact .inr (Nat.le_refl _)
    · exact .inr (Nat.le_trans r.start_le_stop (Nat.le_of_lt (hcross s hs)))

end Locate

end FormatStick.Intervals
