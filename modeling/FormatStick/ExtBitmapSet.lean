import FormatStick.ExtBitmap
import Mathlib.Order.Lattice.Nat

/-!
# A bitmap is a set

For whoever marks, unmarks and tests bits, the tree of extents with its cursors is a set of
naturals. The extents lie apart, a cursor never points to an extent that was freed, and no extent
lies between the two cursors of the tests: this is what the shortcuts rely on, and every operation
keeps it.
-/
namespace FormatStick.Ext
open Intervals

/-- The cursors point into the tree. -/
structure RbPrivate.Pointers (bp : RbPrivate) : Prop where
  wcursor : ∀ e ∈ bp.wcursor, e ∈ bp.root
  rcursor : ∀ e ∈ bp.rcursor, e ∈ bp.root
  rcursorNext : ∀ e ∈ bp.rcursorNext, e ∈ bp.root

/-- Besides, the extents are apart, and none lies between the two cursors of the tests. -/
structure RbPrivate.Sound (bp : RbPrivate) : Prop extends bp.Pointers where
  apart : Apart bp.root
  next : ∀ e ∈ bp.rcursor, ∀ f ∈ bp.rcursorNext, ∀ g ∈ bp.root, g.start ≤ e.start ∨ f.start ≤ g.start

theorem forall_mem_none {α : Type} {p : α → Prop} : ∀ a ∈ (none : Option α), p a :=
  fun a h => absurd h (Option.not_mem_none a)

/-- Without the second cursor of the tests there is nothing between the two. -/
theorem RbPrivate.Pointers.sound {bp : RbPrivate} (h : bp.Pointers) (hapart : Apart bp.root)
    (hnext : bp.rcursorNext = none) :
    bp.Sound :=
  ⟨h, hapart, fun _ _ => hnext ▸ forall_mem_none⟩

/-- The bits that are set. -/
def RbPrivate.bits (bp : RbPrivate) : Set ℕ := covered bp.root

open Classical in
/-- 1 if `p` holds, and 0 if not. -/
noncomputable def flag (p : Prop) : ℤ := if p then 1 else 0

theorem flag_of {p : Prop} (h : p) : flag p = 1 := if_pos h

theorem flag_of_not {p : Prop} (h : ¬p) : flag p = 0 := if_neg h

theorem flag_congr {p q : Prop} (h : p ↔ q) : flag p = flag q := by rw [h]

open Classical in
/-- A search for the first number of `s`. -/
noncomputable def firstOf (s : Set ℕ) : ℤ × Option ℕ :=
  if s.Nonempty then (0, some (sInf s)) else (enoent, none)

namespace BitmapOp

/-- The bits after an operation. -/
def effect (s : Set ℕ) : BitmapOp → Set ℕ
  | .markBmap arg => s ∪ Set.Ico arg (arg + 1)
  | .unmarkBmap arg => s \ Set.Ico arg (arg + 1)
  | .markBmapExtent arg num => s ∪ Set.Ico arg (arg + num)
  | .unmarkBmapExtent arg num => s \ Set.Ico arg (arg + num)
  | .clearBmap => ∅
  | _ => s

open Classical in
/-- What an operation returns. Unmarking a bit also reports the one behind it, and an empty bitmap
has no first zero. -/
noncomputable def result (s : Set ℕ) : BitmapOp → ℤ × Option ℕ
  | .markBmap arg => (flag (arg ∈ s), none)
  | .unmarkBmap arg => (flag (∃ c ∈ s, arg ≤ c ∧ c ≤ arg + 1), none)
  | .testBmap arg => (flag (arg ∈ s), none)
  | .testClearBmapExtent start len => (flag (∀ c ∈ s, ¬(start ≤ c ∧ c < start + len)), none)
  | .findFirstZero start last =>
    if last < start then (einval, none) else
      if s = ∅ then (enoent, none) else firstOf (Set.Icc start last \ s)
  | .findFirstSet start last => if last < start then (einval, none) else firstOf (s ∩ Set.Icc start last)
  | _ => (0, none)

noncomputable def results : Set ℕ → List BitmapOp → List (ℤ × Option ℕ)
  | _, [] => []
  | s, op :: ops => op.result s :: results (op.effect s) ops

end BitmapOp

theorem rbNewBmap_sound : rbNewBmap.Sound :=
  RbPrivate.Pointers.sound ⟨forall_mem_none, forall_mem_none, forall_mem_none⟩ Apart.nil rfl

theorem rbNewBmap_bits : rbNewBmap.bits = ∅ := covered_nil

variable {bp : RbPrivate} {ext node : Interval} {start count : ℕ}

section Steps

theorem RbPrivate.Pointers.free (h : bp.Pointers) (ext : Interval) : (rbFreeExtent ext bp).Pointers := by
  have hkeep : ∀ p : Option Interval, (∀ e ∈ p, e ∈ bp.root) →
      ∀ e ∈ p.filter (· ≠ ext), e ∈ bp.root.erase ext := by
    intro p hp e he
    obtain ⟨hep, hne⟩ := Option.mem_filter_iff.mp he
    exact (List.mem_erase_of_ne (by simpa using hne)).mpr (hp e hep)
  exact ⟨hkeep _ h.wcursor, hkeep _ h.rcursor, hkeep _ h.rcursorNext⟩

theorem RbPrivate.Pointers.assign (h : bp.Pointers) (ext new : Interval) :
    (rbAssign ext new bp).Pointers := by
  have hkeep : ∀ (f : Interval → Interval) (p : Option Interval), (∀ e ∈ p, e ∈ bp.root) →
      ∀ e ∈ p.map f, e ∈ bp.root.map f := by
    intro f p hp e he
    obtain ⟨e, hep, rfl⟩ := Option.mem_map.mp he
    exact List.mem_map_of_mem (hp e hep)
  exact ⟨hkeep _ _ h.wcursor, hkeep _ _ h.rcursor, hkeep _ _ h.rcursorNext⟩

theorem RbPrivate.Sound.free (h : bp.Sound) (ext : Interval) : (rbFreeExtent ext bp).Sound := by
  refine ⟨h.toPointers.free ext, h.apart.sublist List.erase_sublist, fun e he f hf g hg => ?_⟩
  obtain ⟨he, -⟩ := Option.mem_filter_iff.mp he
  obtain ⟨hf, -⟩ := Option.mem_filter_iff.mp hf
  exact h.next e he f hf g (List.mem_of_mem_erase hg)

/-- An extent that becomes shorter where it is. -/
theorem RbPrivate.Sound.shorten (h : bp.Sound) {new : Interval} (hpos : 0 < new.len)
    (hstart : ext.start ≤ new.start)
    (hstop : new.stop ≤ ext.stop) : (rbAssign ext new bp).Sound := by
  have hbounds : ∀ e : Interval, e.start ≤ (if e = ext then new else e).start ∧
      (if e = ext then new else e).stop ≤ e.stop := by
    intro e
    split_ifs with heq
    · exact heq ▸ ⟨hstart, hstop⟩
    · exact ⟨Nat.le_refl _, Nat.le_refl _⟩
  have hapart : Apart (rbAssign ext new bp).root := by
    refine h.apart.map (fun e he => ?_) (fun e _ => (hbounds e).1) fun e _ => (hbounds e).2
    split_ifs
    · exact hpos
    · exact h.apart.pos e he
  refine ⟨h.toPointers.assign ext new, hapart, fun e' he' f' hf' => ?_⟩
  obtain ⟨e, he, rfl⟩ := Option.mem_map.mp he'
  obtain ⟨f, hf, rfl⟩ := Option.mem_map.mp hf'
  refine List.forall_mem_map.mpr fun g hg => ?_
  have hboundsE := hbounds e
  have hboundsF := hbounds f
  have hboundsG := hbounds g
  have hlenF := (if f = ext then new else f).start_le_stop
  have hlenG := g.start_le_stop
  rcases h.next e he f hf g hg with hle | hle
  · rcases h.apart.trichotomy hg (h.rcursor e he) with rfl | hlt | hlt
    · exact .inl (Nat.le_refl _)
    · left
      have := (if g = ext then new else g).start_le_stop
      omega
    · have := e.start_le_stop
      omega
  · rcases h.apart.trichotomy hg (h.rcursorNext f hf) with rfl | hlt | hlt
    · exact .inr (Nat.le_refl _)
    · omega
    · right
      omega

theorem bits_free (h : bp.Sound) (hext : ext ∈ bp.root) {c : ℕ} :
    c ∈ (rbFreeExtent ext bp).bits ↔ c ∈ bp.bits ∧ c ∉ ext.range :=
  h.apart.mem_covered_erase hext

theorem bits_shorten (h : bp.Sound) (hext : ext ∈ bp.root) {new : Interval} (hstart : ext.start ≤ new.start)
    (hstop : new.stop ≤ ext.stop) {c : ℕ} :
    c ∈ (rbAssign ext new bp).bits ↔ c ∈ bp.bits ∧ (c ∈ ext.range → c ∈ new.range) := by
  constructor
  · rintro ⟨e', he', hc⟩
    obtain ⟨e, he, rfl⟩ := List.mem_map.mp he'
    split_ifs at hc with heq
    · subst heq
      obtain ⟨hlow, hhigh⟩ := hc
      exact ⟨⟨e, he, by omega, by omega⟩, fun _ => ⟨hlow, hhigh⟩⟩
    · exact ⟨⟨e, he, hc⟩, fun hcext => absurd (h.apart.eq_of_mem he hext hc hcext) heq⟩
  · rintro ⟨⟨e, he, hc⟩, hnew⟩
    refine ⟨_, List.mem_map_of_mem he, ?_⟩
    split_ifs with heq
    · exact hnew (heq ▸ hc)
    · exact hc

end Steps

section Test

theorem rbWalk_some (h : rbWalk bp start = some ext) : ext ∈ bp.root ∧ start ∈ ext.range :=
  ⟨List.mem_of_find?_eq_some h, by simpa using List.find?_some h⟩

theorem rbWalk_none (h : rbWalk bp start = none) : start ∉ bp.bits := by
  rintro ⟨e, he, hc⟩
  exact absurd hc (by simpa using List.find?_eq_none.mp h e he)

/-- What a test keeps and returns. -/
structure Tested (bp : RbPrivate) (bit : ℕ) (r : ℤ × RbPrivate) : Prop where
  sound : r.2.Sound
  root : r.2.root = bp.root
  ret : r.1 = flag (bit ∈ bp.bits)

theorem searchTree_tested (h : bp.Sound) (bit : ℕ) : Tested bp bit (searchTree bp bit) := by
  unfold searchTree
  cases hwalk : rbWalk bp bit with
  | none => exact ⟨h, rfl, (flag_of_not (rbWalk_none hwalk)).symm⟩
  | some ext =>
    obtain ⟨hmem, hbit⟩ := rbWalk_some hwalk
    have hpointers : RbPrivate.Pointers { bp with rcursor := some ext, rcursorNext := none } :=
      ⟨h.wcursor, fun e he => Option.some.inj he ▸ hmem, forall_mem_none⟩
    exact ⟨hpointers.sound h.apart rfl, rfl, (flag_of ⟨ext, hmem, hbit⟩).symm⟩

theorem rbTestBit_tested (h : bp.Sound) (bit : ℕ) : Tested bp bit (rbTestBit bp bit) := by
  unfold rbTestBit
  cases hcursor : bp.rcursor with
  | none => exact searchTree_tested h bit
  | some rcursor =>
    have hmem : rcursor ∈ bp.root := h.rcursor rcursor hcursor
    have hnext : ∀ f ∈ bp.rcursorNext.or (behind bp.root rcursor.start).head?,
        f ∈ bp.root ∧ ∀ g ∈ bp.root, g.start ≤ rcursor.start ∨ f.start ≤ g.start := by
      intro f hf
      rcases Option.or_eq_some_iff.mp hf with hf | ⟨-, hf⟩
      · exact ⟨h.rcursorNext f hf, h.next rcursor hcursor f hf⟩
      · exact h.apart.head_behind hf
    have hdropped : RbPrivate.Sound { bp with rcursor := none, rcursorNext := none } :=
      RbPrivate.Pointers.sound ⟨h.wcursor, forall_mem_none, forall_mem_none⟩ h.apart rfl
    dsimp only
    split_ifs with hbit hgap hwrite
    · exact ⟨h, rfl, (flag_of ⟨rcursor, hmem, hbit⟩).symm⟩
    · -- no extent starts between the two cursors
      refine ⟨⟨⟨h.wcursor, fun e he => Option.some.inj he ▸ hmem, fun f hf => (hnext f hf).1⟩, h.apart,
        fun e he f hf => Option.some.inj he ▸ (hnext f hf).2⟩, rfl, (flag_of_not ?_).symm⟩
      rintro ⟨g, hg, hlow, hhigh⟩
      obtain ⟨f, hf, hbetween⟩ := (Option.any_eq_true _ _).mp hgap
      rw [decide_eq_true_iff] at hbetween
      have := rcursor.start_le_stop
      rcases (hnext f hf).2 g hg with hle | hle
      · rcases h.apart.trichotomy hg hmem with rfl | hlt | hlt <;> omega
      · omega
    · obtain ⟨w, hw, hbit⟩ := (Option.any_eq_true _ _).mp hwrite
      exact ⟨hdropped, rfl, (flag_of ⟨w, h.wcursor w hw, of_decide_eq_true hbit⟩).symm⟩
    · have hsearch := searchTree_tested hdropped bit
      exact ⟨hsearch.sound, hsearch.root, hsearch.ret⟩

end Test

section Insert

theorem gotExtent_some (h : bp.Pointers) (hgot : gotExtent bp start = some ext) :
    ext ∈ bp.root ∧ ext.start ≤ start ∧ start ≤ ext.stop := by
  rcases Option.or_eq_some_iff.mp hgot with hcursor | ⟨-, hwalk⟩
  · obtain ⟨hmem, htouch⟩ := Option.mem_filter_iff.mp hcursor
    exact ⟨h.wcursor ext hmem, of_decide_eq_true htouch⟩
  · exact ⟨List.mem_of_find?_eq_some hwalk, by simpa using List.find?_some hwalk⟩

theorem gotExtent_none (hgot : gotExtent bp start = none) :
    ∀ e ∈ bp.root, ¬(e.start ≤ start ∧ start ≤ e.stop) := by
  intro e he
  have hwalk := (Option.or_eq_none_iff.mp hgot).2
  simpa using List.find?_eq_none.mp hwalk e he

/-- What the merge loop leaves: `kept` behind `node`, out of reach of what it has put together. -/
structure Merged (before : List Interval) (node : Interval) (start count : ℕ) (rest kept : List Interval)
    (r : ℕ × RbPrivate) : Prop where
  pointers : r.2.Pointers
  next : r.2.rcursorNext = none
  root : r.2.root = before ++ node :: kept
  sublist : kept.Sublist rest
  longer : count ≤ r.1
  beyond : ∀ e ∈ kept, start + r.1 < e.start
  bits : Set.Ico start (start + r.1) ∪ covered kept = Set.Ico start (start + count) ∪ covered rest

theorem rbFreeExtent_root {before rest : List Interval} (hroot : bp.root = before ++ node :: ext :: rest)
    (hbefore : ∀ e ∈ before, e.start < node.start) (hext : node.start < ext.start) :
    (rbFreeExtent ext bp).root = before ++ node :: rest := by
  have hnot : ext ∉ before := fun h => Nat.lt_asymm hext (hbefore ext h)
  have hne : node ≠ ext := fun h => Nat.lt_irrefl _ (h ▸ hext)
  rw [rbFreeExtent, hroot, List.erase_append_right _ hnot, List.erase_cons_tail (by simpa using hne),
    List.erase_cons_head]

theorem mergeRight_merged {before rest : List Interval} (count : ℕ) (hroot : bp.root = before ++ node :: rest)
    (hbefore : ∀ e ∈ before, e.start < node.start) (hrest : Apart rest)
    (hbehind : ∀ e ∈ rest, node.start < e.start)
    (hstart : start ≤ node.start) (h : bp.Pointers) (hnext : bp.rcursorNext = none) :
    ∃ kept, Merged before node start count rest kept (mergeRight start rest count bp) := by
  induction rest generalizing count bp with
  | nil =>
    exact ⟨[], h, hnext, hroot, List.Sublist.refl _, Nat.le_refl _,
      fun _ he => absurd he List.not_mem_nil, rfl⟩
  | cons ext rest ih =>
    obtain ⟨hpos, hcross, happart⟩ := Apart.cons_iff.mp hrest
    have hext := hbehind ext List.mem_cons_self
    have hstop := ext.start_le_stop
    have hfreed := rbFreeExtent_root hroot hbefore hext
    have hnone : (rbFreeExtent ext bp).rcursorNext = none := by simp [rbFreeExtent, hnext]
    rw [mergeRight, if_neg (by omega)]
    split_ifs with hbreak hinside
    · refine ⟨ext :: rest, h, hnext, hroot, List.Sublist.refl _, Nat.le_refl _, fun e he => ?_, rfl⟩
      rcases List.mem_cons.mp he with rfl | he
      · exact hbreak
      · have := hcross e he
        dsimp only
        omega
    · -- swallowed whole
      obtain ⟨kept, hkept⟩ := ih count hfreed happart (fun e he => hbehind e (List.mem_cons_of_mem _ he))
        (h.free ext) hnone
      refine ⟨kept, hkept.pointers, hkept.next, hkept.root, hkept.sublist.cons _, hkept.longer,
        hkept.beyond, ?_⟩
      have hrange : ext.range ⊆ Set.Ico start (start + count) := Set.Ico_subset_Ico (by omega) hinside
      rw [hkept.bits, covered_cons, ← Set.union_assoc, Set.union_eq_self_of_subset_right hrange]
    · refine ⟨rest, h.free ext, hnone, hfreed, List.sublist_cons_self _ _, Nat.le_add_right _ _,
        fun e he => ?_, ?_⟩
      · have := hcross e he
        dsimp only
        omega
      · have hjoin : Set.Ico start (start + count) ∪ ext.range =
            Set.Ico start (start + (count + (ext.stop - (start + count)))) := by
          ext c
          simp only [Set.mem_union, Set.mem_Ico, Interval.mem_range]
          omega
        rw [covered_cons, ← Set.union_assoc, hjoin]

theorem skipInsert_sound {before after : List Interval} (count : ℕ)
    (hroot : bp.root = before ++ node :: after)
    (hbefore : Apart before) (hleft : ∀ e ∈ before, e.stop < start) (hafter : Apart after)
    (hright : ∀ e ∈ after, node.start < e.start) (hstart : start ≤ node.start) (hcount : 0 < count)
    (h : bp.Pointers) (hnext : bp.rcursorNext = none) :
    (skipInsert node start count bp).Sound ∧
      (skipInsert node start count bp).bits = Set.Ico start (start + count) ∪ covered (before ++ after) := by
  have hbelow : ∀ e ∈ before, e.start < node.start := fun e he =>
    Nat.lt_of_le_of_lt e.start_le_stop (Nat.lt_of_lt_of_le (hleft e he) hstart)
  have hbehind : behind bp.root node.start = after :=
    hroot ▸ behind_append_cons (fun e he => Nat.le_of_lt (hbelow e he)) (Nat.le_refl _) hright
  obtain ⟨kept, hmerged⟩ := mergeRight_merged count hroot hbelow hafter hright hstart h hnext
  rw [skipInsert, hbehind]
  generalize mergeRight start after count bp = r at hmerged
  have hkept := hafter.sublist hmerged.sublist
  have hlonger := hmerged.longer
  have hnodeBefore : node ∉ before := fun he => Nat.lt_irrefl _ (hbelow node he)
  have hnodeKept : node ∉ kept := fun he => Nat.lt_irrefl _ (hright node (hmerged.sublist.subset he))
  have hassign : (rbAssign node ⟨start, r.1⟩ r.2).root = before ++ ⟨start, r.1⟩ :: kept := by
    have hsame : ∀ es : List Interval, node ∉ es →
        es.map (fun e => if e = node then ⟨start, r.1⟩ else e) = es := by
      intro es hes
      refine (List.map_congr_left fun e he => if_neg ?_).trans (List.map_id' es)
      rintro rfl
      exact hes he
    rw [rbAssign]
    dsimp only
    rw [hmerged.root, List.map_append, List.map_cons, if_pos rfl, hsame before hnodeBefore,
      hsame kept hnodeKept]
  have hparts : Apart (before ++ kept) := Apart.append_iff.mpr ⟨hbefore, hkept, fun e he f hf => by
    have := hleft e he
    have := hright f (hmerged.sublist.subset hf)
    omega⟩
  refine ⟨(hmerged.pointers.assign _ _).sound ?_ ?_, ?_⟩
  · rw [hassign]
    exact hparts.insert (Nat.lt_of_lt_of_le hcount hlonger) hleft hmerged.beyond
  · rw [rbAssign, hmerged.next, Option.map_none]
  · rw [RbPrivate.bits, hassign, covered_append, covered_cons, covered_append,
      Set.union_left_comm (Set.Ico _ _), ← hmerged.bits]
    rfl

/-- The extent that was found grows. -/
theorem skipInsert_grown (h : bp.Sound) (hnext : bp.rcursorNext = none) (hext : ext ∈ bp.root)
    (hlow : ext.start ≤ start)
    (hhigh : start ≤ ext.stop) (hreach : ext.stop < start + count) :
    (skipInsert ext ext.start (count + (start - ext.start)) bp).Sound ∧
      (skipInsert ext ext.start (count + (start - ext.start)) bp).bits =
        bp.bits ∪ Set.Ico start (start + count) := by
  obtain ⟨before, after, hroot⟩ := List.append_of_mem hext
  obtain ⟨hbefore, hrest, hcross⟩ := Apart.append_iff.mp (hroot ▸ h.apart)
  obtain ⟨-, hright, hafter⟩ := Apart.cons_iff.mp hrest
  have hend : ext.start + (count + (start - ext.start)) = start + count := by omega
  have hbehind : ∀ e ∈ after, ext.start < e.start :=
    fun e he => Nat.lt_of_le_of_lt ext.start_le_stop (hright e he)
  obtain ⟨hsound, hbits⟩ := skipInsert_sound (count + (start - ext.start)) hroot hbefore
    (fun e he => hcross e he ext List.mem_cons_self) hafter hbehind (Nat.le_refl _) (by omega)
      h.toPointers hnext
  have hjoin : Set.Ico ext.start (start + count) = ext.range ∪ Set.Ico start (start + count) := by
    ext c
    simp only [Set.mem_union, Set.mem_Ico, Interval.mem_range]
    omega
  refine ⟨hsound, ?_⟩
  rw [hbits, hend, hjoin, RbPrivate.bits, hroot, covered_append, covered_append, covered_cons,
    Set.union_right_comm,
    Set.union_left_comm]

/-- A new extent is linked where no extent is in touch with its start. -/
theorem skipInsert_linked (h : bp.Sound) (hcount : 0 < count)
    (hnone : ∀ e ∈ bp.root, ¬(e.start ≤ start ∧ start ≤ e.stop)) :
    let linked : RbPrivate :=
      ⟨upTo bp.root start ++ ⟨start, count⟩ :: behind bp.root start, some ⟨start, count⟩, bp.rcursor, none⟩
    (skipInsert ⟨start, count⟩ start count linked).Sound ∧
      (skipInsert ⟨start, count⟩ start count linked).bits = bp.bits ∪ Set.Ico start (start + count) := by
  intro linked
  have hsplit : upTo bp.root start ++ behind bp.root start = bp.root := upTo_append_behind
  obtain ⟨hbefore, hafter, -⟩ := Apart.append_iff.mp (hsplit.symm ▸ h.apart)
  have hleft : ∀ e ∈ upTo bp.root start, e.stop < start := by
    intro e he
    have hlow := start_le_of_mem_upTo he
    have := hnone e (hsplit ▸ List.mem_append_left _ he)
    omega
  have hgrow : ∀ e ∈ bp.root, e ∈ linked.root := by
    intro e he
    rw [← hsplit] at he
    exact List.mem_append.mpr ((List.mem_append.mp he).imp id (List.mem_cons_of_mem _))
  have hpointers : linked.Pointers :=
    ⟨fun e he => Option.some.inj he ▸ List.mem_append_right _ List.mem_cons_self,
      fun e he => hgrow e (h.rcursor e he),
      forall_mem_none⟩
  have hroot : linked.root = upTo bp.root start ++ ⟨start, count⟩ :: behind bp.root start := rfl
  obtain ⟨hsound, hbits⟩ := skipInsert_sound count hroot hbefore hleft hafter
    (fun e he => h.apart.lt_of_mem_behind he) (Nat.le_refl _) hcount hpointers rfl
  exact ⟨hsound, by rw [hbits, hsplit, Set.union_comm]; rfl⟩

/-- What an insertion does and returns. -/
structure Inserted (bp : RbPrivate) (start count : ℕ) (r : ℤ × RbPrivate) : Prop where
  sound : r.2.Sound
  bits : r.2.bits = bp.bits ∪ Set.Ico start (start + count)
  ret : r.1 = flag (0 < count ∧ start ∈ bp.bits)

theorem rbInsertExtent_inserted (h : bp.Sound) (start count : ℕ) :
    Inserted bp start count (rbInsertExtent start count bp) := by
  unfold rbInsertExtent
  split_ifs with hzero
  · subst hzero
    exact ⟨h, by simp, (flag_of_not (by simp)).symm⟩
  have hcount := Nat.pos_of_ne_zero hzero
  have hclear : RbPrivate.Sound { bp with rcursorNext := none } :=
    RbPrivate.Pointers.sound ⟨h.wcursor, h.rcursor, forall_mem_none⟩ h.apart rfl
  dsimp only
  cases hgot : gotExtent { bp with rcursorNext := none } start with
  | some ext =>
    obtain ⟨hmem, hlow, hhigh⟩ := gotExtent_some hclear.toPointers hgot
    dsimp only at hmem ⊢
    by_cases hinside : start + count ≤ ext.stop
    · rw [if_pos hinside]
      refine ⟨hclear, (Set.union_eq_self_of_subset_right fun c hc => ?_).symm,
        (flag_of ⟨hcount, ext, hmem, hlow, by omega⟩).symm⟩
      obtain ⟨hcstart, hcstop⟩ := hc
      exact ⟨ext, hmem, by omega, by omega⟩
    · obtain ⟨hsound, hbits⟩ := skipInsert_grown hclear rfl hmem hlow hhigh (Nat.lt_of_not_le hinside)
      rw [if_neg hinside]
      refine ⟨hsound, hbits, ?_⟩
      dsimp only
      split_ifs with hend
      · -- `start` is the first bit behind the extent, and so in the gap
        refine (flag_of_not ?_).symm
        rintro ⟨-, e, he, helow, hehigh⟩
        have := ext.start_le_stop
        rcases h.apart.trichotomy he hmem with rfl | hlt | hlt <;> omega
      · exact (flag_of ⟨hcount, ext, hmem, hlow, by omega⟩).symm
  | none =>
    have hnone := gotExtent_none hgot
    have hlinked : Inserted bp start count (0, skipInsert ⟨start, count⟩ start count
        ⟨upTo bp.root start ++ ⟨start, count⟩ :: behind bp.root start, some ⟨start, count⟩,
          bp.rcursor, none⟩) := by
      obtain ⟨hsound, hbits⟩ := skipInsert_linked h hcount hnone
      refine ⟨hsound, hbits, (flag_of_not ?_).symm⟩
      rintro ⟨-, e, he, hlow, hhigh⟩
      exact hnone e he ⟨hlow, Nat.le_of_lt hhigh⟩
    dsimp only
    cases hlast : (upTo bp.root start).getLast? with
    | none => exact hlinked
    | some ext =>
      -- the walk would have found an extent that ends at `start`
      have hmem := List.mem_of_getLast? hlast
      have hlow := start_le_of_mem_upTo hmem
      have htouch := hnone ext (List.takeWhile_sublist _ |>.subset hmem)
      dsimp only
      rw [if_neg (by omega)]
      exact hlinked

end Insert

section Remove

/-- What the loop of a removal does if no extent goes over `start`. It looks at the bit behind the
last one too. -/
structure RemovedRight (bp : RbPrivate) (start count : ℕ) (rest : List Interval) (retval : ℤ)
    (r : ℤ × RbPrivate) : Prop where
  sound : r.2.Sound
  bits : ∀ c, c ∈ r.2.bits ↔ c ∈ bp.bits ∧ ¬(start ≤ c ∧ c < start + count)
  ret : (r.1 = 1 ∧ ∃ e ∈ rest, start < e.stop ∧ e.start ≤ start + count) ∨
    (r.1 = retval ∧ ∀ e ∈ rest, ¬(start < e.stop ∧ e.start ≤ start + count))

/-- The front of an extent goes. -/
theorem front_sound {new : Interval} (h : bp.Sound) (hext : ext ∈ bp.root) (hpos : 0 < new.len)
    (hstart : ext.start ≤ new.start)
    (hstop : new.stop = ext.stop) :
    (rbAssign ext new bp).Sound ∧ ∀ c, c ∈ (rbAssign ext new bp).bits ↔
      c ∈ bp.bits ∧ ¬(c ∈ ext.range ∧ c < new.start) := by
  refine ⟨h.shorten hpos hstart (Nat.le_of_eq hstop), fun c => ?_⟩
  rw [bits_shorten h hext hstart (Nat.le_of_eq hstop), Interval.mem_range, Interval.mem_range, hstop]
  exact and_congr_right fun _ => by omega

theorem removeRight_removed {rest : List Interval} (count : ℕ) (h : bp.Sound) (hrest : Apart rest)
    (hsub : ∀ e ∈ rest, e ∈ bp.root) (hpast : ∀ e ∈ bp.root, e ∈ rest ∨ e.stop ≤ start)
    (hclear : ∀ e ∈ rest, e.stop ≤ start ∨ start ≤ e.start) (retval : ℤ) :
    RemovedRight bp start count rest retval (removeRight start count rest retval bp) := by
  induction rest generalizing bp retval with
  | nil =>
    refine ⟨h, fun c => ⟨fun hc => ⟨hc, ?_⟩, And.left⟩, .inr ⟨rfl, fun _ he => absurd he List.not_mem_nil⟩⟩
    obtain ⟨e, he, hlow, hhigh⟩ := hc
    have := (hpast e he).resolve_left List.not_mem_nil
    omega
  | cons ext rest ih =>
    obtain ⟨hpos, hcross, happart⟩ := Apart.cons_iff.mp hrest
    have hext := hsub ext List.mem_cons_self
    have hpastExt : ∀ e ∈ bp.root, e = ext ∨ e ∈ rest ∨ e.stop ≤ start := fun e he =>
      (hpast e he).elim (fun hmem => (List.mem_cons.mp hmem).imp id .inl) fun hle => .inr (.inr hle)
    have hclearExt := hclear ext List.mem_cons_self
    have hclearRest := fun e he => hclear e (List.mem_cons_of_mem _ he)
    have hsubRest := fun e he => hsub e (List.mem_cons_of_mem _ he)
    rw [removeRight]
    split_ifs with hbefore hbreak hinside
    · have hright := ih h happart hsubRest
        (fun e he => (hpastExt e he).elim (fun heq => .inr (heq ▸ hbefore)) id) hclearRest retval
      refine ⟨hright.sound, hright.bits, ?_⟩
      rcases hright.ret with ⟨hret, e, he, hreach⟩ | ⟨hret, hnone⟩
      · exact .inl ⟨hret, e, List.mem_cons_of_mem _ he, hreach⟩
      · exact .inr ⟨hret, List.forall_mem_cons.mpr ⟨fun hreach => by omega, hnone⟩⟩
    · have hbeyond : ∀ e ∈ ext :: rest, start + count < e.start := by
        refine List.forall_mem_cons.mpr ⟨hbreak, fun e he => ?_⟩
        have := hcross e he
        have := ext.start_le_stop
        omega
      refine ⟨h, fun c => ⟨fun hc => ⟨hc, ?_⟩, And.left⟩, .inr ⟨rfl, fun e he hreach => ?_⟩⟩
      · obtain ⟨e, he, hlow, hhigh⟩ := hc
        rcases hpast e he with hmem | hle
        · have := hbeyond e hmem
          omega
        · omega
      · have := hbeyond e he
        omega
    · -- the whole extent goes
      have hne : ∀ e ∈ rest, e ≠ ext := by
        rintro e he rfl
        exact Nat.not_lt.mpr e.start_le_stop (hcross e he)
      have hpastRest : ∀ e ∈ (rbFreeExtent ext bp).root, e ∈ rest ∨ e.stop ≤ start := by
        intro e he
        obtain ⟨hneext, hmem⟩ := h.apart.nodup.mem_erase_iff.mp he
        exact (hpastExt e hmem).resolve_left hneext
      have hright := ih (h.free ext) happart
        (fun e he => (List.mem_erase_of_ne (hne e he)).mpr (hsubRest e he)) hpastRest
        hclearRest 1
      refine ⟨hright.sound, fun c => ?_,
        .inl ⟨hright.ret.elim And.left And.left, ext, List.mem_cons_self, by omega, by omega⟩⟩
      rw [hright.bits, bits_free h hext, Interval.mem_range]
      constructor
      · rintro ⟨⟨hc, -⟩, hout⟩
        exact ⟨hc, hout⟩
      · rintro ⟨hc, hout⟩
        exact ⟨⟨hc, by omega⟩, hout⟩
    · -- the front of the last extent goes
      have hlen : ext.start + ext.len = ext.stop := rfl
      have hnew : (Interval.mk (start + count) (ext.len - (start + count - ext.start))).stop = ext.stop := by
        unfold Interval.stop
        dsimp only
        omega
      obtain ⟨hsound, hbits⟩ := front_sound h hext (by dsimp only; omega) (Nat.not_lt.mp hbreak) hnew
      refine ⟨hsound, fun c => ?_, .inl ⟨rfl, ext, List.mem_cons_self, by omega, by omega⟩⟩
      rw [hbits, Interval.mem_range]
      dsimp only
      refine and_congr_right fun hc => ?_
      obtain ⟨e, he, hlow, hhigh⟩ := hc
      rcases hpastExt e he with rfl | hmem | hle
      · omega
      · have := hcross e hmem
        omega
      · omega

/-- The extent that holds `start` ends there, or is gone. -/
theorem cut_sound (h : bp.Sound) (hext : ext ∈ bp.root) (hlow : ext.start ≤ start)
    (hhigh : start < ext.stop) :
    let cut := if start - ext.start = 0 then rbFreeExtent ext bp
      else rbAssign ext ⟨ext.start, start - ext.start⟩ bp
    cut.Sound ∧ ∀ c, c ∈ cut.bits ↔ c ∈ bp.bits ∧ ¬(c ∈ ext.range ∧ start ≤ c) := by
  intro cut
  by_cases hempty : start - ext.start = 0
  · have hcut : cut = rbFreeExtent ext bp := if_pos hempty
    rw [hcut]
    refine ⟨h.free ext, fun c => ?_⟩
    rw [bits_free h hext, Interval.mem_range]
    exact and_congr_right fun _ => by omega
  · have hcut : cut = rbAssign ext ⟨ext.start, start - ext.start⟩ bp := if_neg hempty
    have hnew : (Interval.mk ext.start (start - ext.start)).stop = start := Nat.add_sub_of_le hlow
    have hstart : ext.start ≤ (Interval.mk ext.start (start - ext.start)).start := Nat.le_refl _
    have hstop : (Interval.mk ext.start (start - ext.start)).stop ≤ ext.stop :=
      hnew.trans_le (Nat.le_of_lt hhigh)
    rw [hcut]
    refine ⟨h.shorten (Nat.pos_of_ne_zero hempty) hstart hstop, fun c => ?_⟩
    rw [bits_shorten h hext hstart hstop, Interval.mem_range, Interval.mem_range, hnew]
    exact and_congr_right fun _ => by dsimp only; omega

/-- What a removal does and returns. -/
structure Removed (bp : RbPrivate) (start count : ℕ) (r : ℤ × RbPrivate) : Prop where
  sound : r.2.Sound
  bits : r.2.bits = bp.bits \ Set.Ico start (start + count)
  ret : r.1 = flag (∃ c ∈ bp.bits, start ≤ c ∧ c ≤ start + count)

theorem removed_ret (hext : ext ∈ bp.root) (hlow : ext.start ≤ start) (hhigh : start < ext.stop) :
    (1 : ℤ) = flag (∃ c ∈ bp.bits, start ≤ c ∧ c ≤ start + count) :=
  (flag_of ⟨start, ⟨ext, hext, hlow, hhigh⟩, Nat.le_refl _, Nat.le_add_right _ _⟩).symm

/-- No extent holds `start`. -/
theorem removed_none (h : bp.Sound) (count : ℕ) (hnone : start ∉ bp.bits) :
    Removed bp start count (removeRight start count bp.root 0 bp) := by
  have hclear : ∀ e ∈ bp.root, e.stop ≤ start ∨ start ≤ e.start := by
    intro e he
    by_contra hover
    exact hnone ⟨e, he, by omega, by omega⟩
  have hright := removeRight_removed count h h.apart (fun _ he => he) (fun e he => .inl he) hclear 0
  refine ⟨hright.sound, Set.ext hright.bits, ?_⟩
  rcases hright.ret with ⟨hret, e, he, hreach⟩ | ⟨hret, hmissed⟩
  · have hpos := h.apart.pos e he
    have hstop : e.stop = e.start + e.len := rfl
    have := hclear e he
    exact hret.trans (flag_of ⟨e.start, ⟨e, he, Nat.le_refl _, by omega⟩, by omega, by omega⟩).symm
  · refine hret.trans (flag_of_not ?_).symm
    rintro ⟨c, ⟨e, he, hlow, hhigh⟩, hstart, hend⟩
    exact hmissed e he ⟨by omega, by omega⟩

/-- The bits are in the middle of an extent: those behind them are put in again. -/
theorem removed_middle (h : bp.Sound) (hext : ext ∈ bp.root) (hlow : ext.start < start)
    (hhigh : start + count < ext.stop) :
    Removed bp start count (1, (rbInsertExtent (start + count) (ext.stop - (start + count))
      (rbAssign ext ⟨ext.start, start - ext.start⟩ bp)).2) := by
  obtain ⟨hcut, hcutBits⟩ := cut_sound h hext (Nat.le_of_lt hlow) (show start < ext.stop by omega)
  rw [if_neg (by omega)] at hcut hcutBits
  have hinserted := rbInsertExtent_inserted hcut (start + count) (ext.stop - (start + count))
  refine ⟨hinserted.sound, ?_, removed_ret hext (Nat.le_of_lt hlow) (by omega)⟩
  rw [hinserted.bits]
  ext c
  rw [Set.mem_union, hcutBits, Set.mem_sdiff, Set.mem_Ico, Set.mem_Ico, Interval.mem_range]
  constructor
  · rintro (⟨hc, hout⟩ | hc)
    · exact ⟨hc, by omega⟩
    · exact ⟨⟨ext, hext, by omega, by omega⟩, by omega⟩
  · rintro ⟨hc, hout⟩
    by_cases hrange : c ∈ ext.range ∧ start ≤ c
    · rw [Interval.mem_range] at hrange
      exact .inr (by omega)
    · exact .inl ⟨hc, hrange⟩

/-- The bits go up to the end of the extent that holds `start`, or beyond. -/
theorem removed_back {cut : RbPrivate} (hext : ext ∈ bp.root) (hlow : ext.start ≤ start)
    (hhigh : start < ext.stop)
    (hback : ext.stop ≤ start + count) (hcut : cut.Sound)
    (hcutBits : ∀ c, c ∈ cut.bits ↔ c ∈ bp.bits ∧ ¬(c ∈ ext.range ∧ start ≤ c)) :
    Removed bp start count (removeRight start count cut.root 1 cut) := by
  have hclear : ∀ e ∈ cut.root, e.stop ≤ start ∨ start ≤ e.start := by
    intro e he
    by_contra hover
    exact ((hcutBits start).mp ⟨e, he, by omega, by omega⟩).2 ⟨⟨hlow, hhigh⟩, Nat.le_refl _⟩
  have hright := removeRight_removed count hcut hcut.apart (fun _ he => he) (fun e he => .inl he) hclear 1
  refine ⟨hright.sound, ?_, (hright.ret.elim And.left And.left).trans (removed_ret hext hlow hhigh)⟩
  ext c
  rw [hright.bits, hcutBits, Set.mem_sdiff, Set.mem_Ico, Interval.mem_range]
  constructor
  · rintro ⟨⟨hc, -⟩, hout⟩
    exact ⟨hc, hout⟩
  · rintro ⟨hc, hout⟩
    exact ⟨⟨hc, by omega⟩, hout⟩

/-- The extent starts with the bits and goes on behind them. -/
theorem removed_front (h : bp.Sound) (hext : ext ∈ bp.root) (hstart : ext.start = start)
    (hhigh : start + count < ext.stop) :
    Removed bp start count (1, rbAssign ext ⟨ext.start + count, ext.len - count⟩ bp) := by
  have hlen : ext.start + ext.len = ext.stop := rfl
  have hnew : (Interval.mk (ext.start + count) (ext.len - count)).stop = ext.stop := by
    unfold Interval.stop
    dsimp only
    omega
  obtain ⟨hsound, hbits⟩ := front_sound h hext (by dsimp only; omega) (Nat.le_add_right _ _) hnew
  refine ⟨hsound, ?_, removed_ret hext (Nat.le_of_eq hstart) (by omega)⟩
  ext c
  rw [hbits, Set.mem_sdiff, Set.mem_Ico, Interval.mem_range]
  refine and_congr_right fun _ => ?_
  dsimp only
  omega

theorem rbRemoveExtent_removed (h : bp.Sound) (start count : ℕ) :
    Removed bp start count (rbRemoveExtent start count bp) := by
  unfold rbRemoveExtent
  cases hwalk : rbWalk bp start with
  | none => exact removed_none h count (rbWalk_none hwalk)
  | some ext =>
    obtain ⟨hext, hlow, hhigh⟩ := rbWalk_some hwalk
    dsimp only
    by_cases hmiddle : ext.start < start ∧ start + count < ext.stop
    · rw [if_pos hmiddle]
      exact removed_middle h hext hmiddle.1 hmiddle.2
    rw [if_neg hmiddle]
    by_cases hback : ext.stop ≤ start + count
    · rw [if_pos hback]
      obtain ⟨hcut, hcutBits⟩ := cut_sound h hext hlow hhigh
      exact removed_back hext hlow hhigh hback hcut hcutBits
    · rw [if_neg hback]
      exact removed_front h hext (by omega) (by omega)

end Remove

section Look

theorem clearRight_eq {rest : List Interval} {len : ℕ} (hrest : Apart rest)
    (hclear : ∀ e ∈ rest, e.stop ≤ start ∨ start ≤ e.start) :
    clearRight start len rest = flag (∀ c ∈ covered rest, ¬(start ≤ c ∧ c < start + len)) := by
  induction rest with
  | nil => exact (flag_of (by simp)).symm
  | cons ext rest ih =>
    obtain ⟨hpos, hcross, happart⟩ := Apart.cons_iff.mp hrest
    have hstop : ext.stop = ext.start + ext.len := rfl
    have hclearExt := hclear ext List.mem_cons_self
    rw [clearRight]
    split_ifs with hbefore hbreak
    · rw [ih happart fun e he => hclear e (List.mem_cons_of_mem _ he), covered_cons]
      refine flag_congr ⟨fun h c hc => hc.elim (fun hc => ?_) (h c), fun h c hc => h c (.inr hc)⟩
      rw [Interval.mem_range] at hc
      omega
    · refine (flag_of ?_).symm
      rintro c ⟨e, he, hlow, hhigh⟩ hc
      rcases List.mem_cons.mp he with rfl | he
      · omega
      · have := hcross e he
        omega
    · refine (flag_of_not fun h => ?_).symm
      exact h ext.start ⟨ext, List.mem_cons_self, Nat.le_refl _, by omega⟩ (by omega)

theorem rbTestClearBmapExtent_eq (h : bp.Sound) (start len : ℕ) :
    rbTestClearBmapExtent start len bp = flag (∀ c ∈ bp.bits, ¬(start ≤ c ∧ c < start + len)) := by
  unfold rbTestClearBmapExtent
  split_ifs with htrivial hwalk
  · refine (flag_of ?_).symm
    rintro c ⟨e, he, hlow, hhigh⟩
    rcases htrivial with hlen | hroot
    · omega
    · exact absurd (hroot ▸ he) List.not_mem_nil
  · obtain ⟨ext, hext⟩ := Option.isSome_iff_exists.mp hwalk
    obtain ⟨hmem, hbit⟩ := rbWalk_some hext
    refine (flag_of_not fun hall => ?_).symm
    exact hall start ⟨ext, hmem, hbit⟩ (by omega)
  · have hnone := rbWalk_none (Option.not_isSome_iff_eq_none.mp hwalk)
    refine clearRight_eq h.apart fun e he => ?_
    by_contra hover
    exact hnone ⟨e, he, by omega, by omega⟩

theorem bits_nonempty (h : bp.Sound) (hroot : bp.root ≠ []) : bp.bits ≠ ∅ := by
  obtain ⟨ext, rest, hcons⟩ := List.exists_cons_of_ne_nil hroot
  have hmem : ext ∈ bp.root := hcons ▸ List.mem_cons_self
  have hpos := h.apart.pos ext hmem
  exact Set.nonempty_iff_ne_empty.mp ⟨ext.start, ext, hmem, Nat.le_refl _, Nat.lt_add_of_pos_right hpos⟩

theorem firstOf_eq {s : Set ℕ} {b : ℕ} (hb : b ∈ s) (hleast : ∀ c ∈ s, b ≤ c) : firstOf s = (0, some b) := by
  have hs : s.Nonempty := ⟨b, hb⟩
  rw [firstOf, if_pos hs, Nat.le_antisymm (Nat.sInf_le hb) (hleast _ (Nat.sInf_mem hs))]

theorem firstOf_none {s : Set ℕ} (h : ∀ c, c ∉ s) : firstOf s = (enoent, none) :=
  if_neg (not_exists.mpr h)

theorem rbFindFirstZero_eq (h : bp.Sound) (start last : ℕ) :
    rbFindFirstZero start last bp = (BitmapOp.findFirstZero start last).result bp.bits := by
  rw [rbFindFirstZero, BitmapOp.result]
  refine ite_congr rfl (fun _ => rfl) fun hlast => ?_
  by_cases hroot : bp.root = []
  · rw [if_pos hroot, if_pos (by rw [RbPrivate.bits, hroot, covered_nil])]
  rw [if_neg hroot, if_neg (bits_nonempty h hroot)]
  cases hwalk : rbWalk bp start with
  | none =>
    exact Eq.symm (firstOf_eq ⟨⟨Nat.le_refl _, Nat.not_lt.mp hlast⟩, rbWalk_none hwalk⟩ fun c hc => hc.1.1)
  | some ext =>
    obtain ⟨hext, hlow, hhigh⟩ := rbWalk_some hwalk
    dsimp only
    split_ifs with hend
    · refine Eq.symm (firstOf_eq ⟨⟨Nat.le_of_lt hhigh, hend⟩, ?_⟩ ?_)
      · -- the bit behind an extent is in a gap
        rintro ⟨e, he, helow, hehigh⟩
        have := ext.start_le_stop
        rcases h.apart.trichotomy he hext with rfl | hlt | hlt <;> omega
      · rintro c ⟨⟨hstart, -⟩, hclear⟩
        by_contra hlt
        exact hclear ⟨ext, hext, by omega, by omega⟩
    · refine (firstOf_none ?_).symm
      rintro c ⟨⟨hstart, hclast⟩, hclear⟩
      exact hclear ⟨ext, hext, by omega, by omega⟩

theorem rbFindFirstSet_eq (h : bp.Sound) (start last : ℕ) :
    rbFindFirstSet start last bp = (BitmapOp.findFirstSet start last).result bp.bits := by
  rw [rbFindFirstSet, BitmapOp.result]
  refine ite_congr rfl (fun _ => rfl) fun hlast => ?_
  by_cases hroot : bp.root = []
  · rw [if_pos hroot, RbPrivate.bits, hroot, covered_nil, Set.empty_inter]
    exact (firstOf_none fun _ => id).symm
  rw [if_neg hroot]
  cases hwalk : rbWalk bp start with
  | some ext =>
    obtain ⟨hext, hbit⟩ := rbWalk_some hwalk
    exact Eq.symm (firstOf_eq ⟨⟨ext, hext, hbit⟩, Nat.le_refl _, Nat.not_lt.mp hlast⟩ fun c hc => hc.2.1)
  | none =>
    have hnone := rbWalk_none hwalk
    have hpast : ∀ e ∈ bp.root, e.start ≤ start → e.stop ≤ start := by
      intro e he hlow
      by_contra hover
      exact hnone ⟨e, he, hlow, by omega⟩
    dsimp only
    cases hbehind : (behind bp.root start).head? with
    | none =>
      have hall : ∀ e ∈ bp.root, e.start ≤ start := by
        intro e he
        have hsplit : upTo bp.root start ++ behind bp.root start = bp.root := upTo_append_behind
        rw [← hsplit, List.head?_eq_none_iff.mp hbehind, List.append_nil] at he
        exact start_le_of_mem_upTo he
      refine (firstOf_none ?_).symm
      rintro c ⟨⟨e, he, hlow, hhigh⟩, hstart, -⟩
      have := hpast e he (hall e he)
      omega
    | some ext =>
      obtain ⟨hext, hfirst⟩ := h.apart.head_behind hbehind
      have hleast : ∀ c ∈ bp.bits, start ≤ c → ext.start ≤ c := by
        rintro c ⟨e, he, hlow, hhigh⟩ hstart
        rcases hfirst e he with hle | hle
        · have := hpast e he hle
          omega
        · omega
      have hpos := h.apart.pos ext hext
      have hstop : ext.stop = ext.start + ext.len := rfl
      have hbeyond := Nat.le_of_lt (h.apart.lt_of_mem_behind (List.mem_of_head? hbehind))
      dsimp only
      split_ifs with hend
      · exact Eq.symm (firstOf_eq ⟨⟨ext, hext, Nat.le_refl _, by omega⟩, hbeyond, hend⟩
          fun c hc => hleast c hc.1 hc.2.1)
      · refine (firstOf_none ?_).symm
        rintro c ⟨hc, hstart, hclast⟩
        have := hleast c hc hstart
        omega

end Look

section Runs

/-- The bitmap stays sound, the bits change as the set does, and what is returned is what the set says. -/
theorem BitmapOp.run_follows (h : bp.Sound) (op : BitmapOp) :
    (op.run bp).2.Sound ∧ (op.run bp).2.bits = op.effect bp.bits ∧ (op.run bp).1 = op.result bp.bits := by
  cases op with
  | markBmap arg =>
    have hdone := rbInsertExtent_inserted h arg 1
    refine ⟨hdone.sound, ?_, congrArg (·, none) (hdone.ret.trans (flag_congr (and_iff_right Nat.one_pos)))⟩
    exact hdone.bits
  | unmarkBmap arg =>
    have hdone := rbRemoveExtent_removed h arg 1
    exact ⟨hdone.sound, hdone.bits, congrArg (·, none) hdone.ret⟩
  | testBmap arg =>
    have hdone := rbTestBit_tested h arg
    exact ⟨hdone.sound, congrArg covered hdone.root, congrArg (·, none) hdone.ret⟩
  | markBmapExtent arg num =>
    have hdone := rbInsertExtent_inserted h arg num
    exact ⟨hdone.sound, hdone.bits, rfl⟩
  | unmarkBmapExtent arg num =>
    have hdone := rbRemoveExtent_removed h arg num
    exact ⟨hdone.sound, hdone.bits, rfl⟩
  | testClearBmapExtent start len => exact ⟨h, rfl, congrArg (·, none) (rbTestClearBmapExtent_eq h start len)⟩
  | clearBmap => exact ⟨rbNewBmap_sound, rbNewBmap_bits, rfl⟩
  | findFirstZero start last => exact ⟨h, rfl, rbFindFirstZero_eq h start last⟩
  | findFirstSet start last => exact ⟨h, rfl, rbFindFirstSet_eq h start last⟩

theorem runBitmapOps_sound (h : bp.Sound) (ops : List BitmapOp) :
    (runBitmapOps ops bp).2.Sound ∧ (runBitmapOps ops bp).2.bits = ops.foldl BitmapOp.effect bp.bits ∧
      (runBitmapOps ops bp).1 = BitmapOp.results bp.bits ops := by
  induction ops generalizing bp with
  | nil => exact ⟨h, rfl, rfl⟩
  | cons op ops ih =>
    obtain ⟨hsound, hbits, hret⟩ := op.run_follows h
    obtain ⟨hsounds, hbitss, hrets⟩ := ih hsound
    rw [hbits] at hbitss hrets
    exact ⟨hsounds, hbitss, by rw [runBitmapOps, hret, hrets, BitmapOp.results]⟩

end Runs

/-- Whatever is done to a new bitmap, it returns what a set of naturals returns, it holds that set,
and its cursors point into the tree. -/
theorem runBitmapOps_follows (ops : List BitmapOp) :
    (runBitmapOps ops rbNewBmap).1 = BitmapOp.results ∅ ops ∧
      (runBitmapOps ops rbNewBmap).2.bits = ops.foldl BitmapOp.effect ∅ ∧
        (runBitmapOps ops rbNewBmap).2.Sound := by
  obtain ⟨hsound, hbits, hret⟩ := runBitmapOps_sound rbNewBmap_sound ops
  rw [rbNewBmap_bits] at hbits hret
  exact ⟨hret, hbits, hsound⟩

-- the bit that is unmarked was not set, the one behind it was
example : (runBitmapOps [.markBmapExtent 5 3, .unmarkBmap 4, .testBmap 4, .unmarkBmapExtent 6 1,
    .findFirstZero 5 9] rbNewBmap).1 =
    [(0, none), (1, none), (0, none), (0, none), (0, some 6)] := by decide

end FormatStick.Ext
