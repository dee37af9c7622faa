import FormatStick.ExtBitmapSet
import FormatStick.Driver

/-!
# The bitmaps on the medium

libext2fs writes a bitmap as bytes, a group at a time, and reads it back from bytes. Whole bytes are
stored and passed over at once, and single bits only where an extent begins or ends. Both loops keep
numbers of bits and bytes in an `int`; where one of them does not hold its value, the result is `none`.
-/
namespace FormatStick.Ext
open Intervals Splice

section Bytes

/-- `ext2fs_test_bit`. -/
def ext2fsTestBit (nr : ℕ) (addr : Buf) : Bool := (addr (nr / 8)).toNat.testBit (nr % 8)

/-- `ext2fs_fast_set_bit64`. -/
def ext2fsFastSetBit64 (nr : ℕ) (addr : Buf) : Buf :=
  fun i => if i = nr / 8 then addr i ||| UInt8.ofNat (2 ^ (nr % 8)) else addr i

/-- A number that is stored in an `int`. -/
def toInt (n : ℕ) : Option ℕ := if n < 2147483648 then some n else none

theorem toInt_of_lt {n : ℕ} (h : n < 2147483648) : toInt n = some n := if_pos h

/-- The inner loop of `rb_get_bmap_range`, with `pos` counted from the start of the range. -/
def setOnes (pos count : ℕ) (out : Buf) : Option Buf :=
  if count = 0 then some out
  else if 8 ≤ count ∧ pos % 8 = 0 then
    -- `nbytes << 3` is an `int` as `offset` is
    match toInt (count / 8 * 8), toInt (pos / 8) with
    | some bits, some offset =>
      setOnes (pos + count / 8 * 8) (count - count / 8 * 8) (splice out offset (fun _ => 0xFF) (bits / 8))
    | _, _ => none
  else setOnes (pos + 1) (count - 1) (ext2fsFastSetBit64 pos out)
termination_by count
decreasing_by all_goals omega

/-- The loop of `rb_get_bmap_range`. The walk ends next to `start`; what lies before it is passed over. -/
def getExtents (start num : ℕ) : List Interval → Buf → Option Buf
  | [], out => some out
  | ext :: rest, out =>
    if start + num ≤ ext.start then some out
    else if ext.start < start ∧ ext.stop < start then getExtents start num rest out
    else
      let pos := if ext.start < start then start else ext.start
      let count := if ext.start < start then ext.len - (start - ext.start) else ext.len
      let count := if start + num < pos + count then start + num - pos else count
      (setOnes (pos - start) count out).bind (getExtents start num rest)

/-- `rb_get_bmap_range`: the bytes of `out` after it. -/
def rbGetBmapRange (start num : ℕ) (bp : RbPrivate) (out : Buf) : Option Buf :=
  if bp.root = [] then some out
  else getExtents start num bp.root (splice out 0 zeros ((num + 7) / 8))

/-- `first_set` at a bit that is set. -/
def beginRun (firstSet : Option ℕ) (i : ℕ) : Option ℕ := firstSet.or (toInt i)

/-- The loop of `rb_set_bmap_range` from bit `i` on: `first_set` after it, and the bitmap. -/
def setExtents (start num : ℕ) (cp : Buf) (i : ℕ) (firstSet : Option ℕ) (bp : RbPrivate) :
    Option (Option ℕ × RbPrivate) :=
  if num ≤ i then some (firstSet, bp)
  else if i % 8 = 0 ∧ cp (i / 8) = 0xFF then
    match beginRun firstSet i with
    | none => none
    | some f => setExtents start num cp (i + 8) (some f) bp
  else if i % 8 = 0 ∧ cp (i / 8) = 0 ∧ firstSet = none then setExtents start num cp (i + 8) none bp
  else if ext2fsTestBit i cp then
    match beginRun firstSet i with
    | none => none
    | some f => setExtents start num cp (i + 1) (some f) bp
  else
    match firstSet with
    | none => setExtents start num cp (i + 1) none bp
    | some f => setExtents start num cp (i + 1) none (rbInsertExtent (start + f) (i - f) bp).2
termination_by num - i
decreasing_by all_goals omega

/-- `rb_set_bmap_range`. -/
def rbSetBmapRange (start num : ℕ) (cp : Buf) (bp : RbPrivate) : Option RbPrivate :=
  (setExtents start num cp 0 none bp).map fun r =>
    match r.1 with
    | none => r.2
    | some f => (rbInsertExtent (start + f) (num - f) r.2).2

end Bytes

section Get

variable {start num : ℕ} {out : Buf}

theorem testBit_fastSetBit64 (nr i : ℕ) :
    ext2fsTestBit i (ext2fsFastSetBit64 nr out) ↔ ext2fsTestBit i out ∨ i = nr := by
  have hbyte : (UInt8.ofNat (2 ^ (nr % 8))).toNat = 2 ^ (nr % 8) := by
    rw [UInt8.toNat_ofNat']
    exact Nat.mod_eq_of_lt (Nat.pow_lt_pow_right (by decide) (Nat.mod_lt _ (by decide)))
  unfold ext2fsTestBit ext2fsFastSetBit64
  split_ifs with hi
  · rw [UInt8.toNat_or, hbyte, Nat.testBit_or, Nat.testBit_two_pow, Bool.or_eq_true, decide_eq_true_iff]
    exact or_congr_right (by omega)
  · exact (or_iff_left fun h => hi (by rw [h])).symm

theorem testBit_whole (i : ℕ) : (0xFF : UInt8).toNat.testBit (i % 8) = true := by
  have hall : ∀ j < 8, (0xFF : UInt8).toNat.testBit j = true := by decide
  exact hall _ (Nat.mod_lt _ (by decide))

theorem testBit_ones (pos n i : ℕ) :
    ext2fsTestBit i (splice out pos (fun _ => 0xFF) n) ↔
      ext2fsTestBit i out ∨ (pos ≤ i / 8 ∧ i / 8 < pos + n) := by
  unfold ext2fsTestBit splice
  split_ifs with hi
  · exact ⟨fun _ => .inr hi, fun _ => testBit_whole i⟩
  · exact (or_iff_left hi).symm

/-- Up to bit 2^31 the ints hold what they are given. -/
theorem setOnes_spec (pos count : ℕ) (out : Buf) (h : pos + count < 2147483648) :
    ∃ b, setOnes pos count out = some b ∧
      ∀ i, ext2fsTestBit i b ↔ ext2fsTestBit i out ∨ (pos ≤ i ∧ i < pos + count) := by
  fun_induction setOnes pos count out with
  | case1 pos out => exact ⟨out, rfl, fun i => (or_iff_left (by omega)).symm⟩
  | case2 pos count out hcount hwhole bits offset hoffset hbits ih =>
    obtain rfl : count / 8 * 8 = bits := Option.some.inj ((toInt_of_lt (by omega)).symm.trans hbits)
    obtain rfl : pos / 8 = offset := Option.some.inj ((toInt_of_lt (by omega)).symm.trans hoffset)
    obtain ⟨b, hb, hspec⟩ := ih (by omega)
    refine ⟨b, hb, fun i => ?_⟩
    rw [hspec, testBit_ones, or_assoc]
    exact or_congr_right (by omega)
  | case3 pos count out hcount hwhole hover =>
    exact (hover _ _ (toInt_of_lt (by omega)) (toInt_of_lt (by omega))).elim
  | case4 pos count out hcount hsingle ih =>
    obtain ⟨b, hb, hspec⟩ := ih (by omega)
    refine ⟨b, hb, fun i => ?_⟩
    rw [hspec, testBit_fastSetBit64, or_assoc]
    exact or_congr_right (by omega)

theorem getExtents_spec (start : ℕ) {rest : List Interval} (out : Buf) (hrest : Apart rest)
    (hnum : num < 2147483648) :
    ∃ b, getExtents start num rest out = some b ∧
      ∀ i, ext2fsTestBit i b ↔ ext2fsTestBit i out ∨ (i < num ∧ start + i ∈ covered rest) := by
  induction rest generalizing out with
  | nil => exact ⟨out, rfl, by simp⟩
  | cons ext rest ih =>
    obtain ⟨hpos, hcross, happart⟩ := Apart.cons_iff.mp hrest
    have hstop : ext.stop = ext.start + ext.len := rfl
    simp only [getExtents, covered_cons, Set.mem_union, Interval.mem_range]
    by_cases hbreak : start + num ≤ ext.start
    · rw [if_pos hbreak]
      refine ⟨out, rfl, fun i => (or_iff_left ?_).symm⟩
      rintro ⟨hi, hc | ⟨e, he, hlow, hhigh⟩⟩
      · omega
      · have := hcross e he
        omega
    rw [if_neg hbreak]
    by_cases hbefore : ext.start < start ∧ ext.stop < start
    · rw [if_pos hbefore]
      obtain ⟨b, hb, hspec⟩ := ih out happart
      refine ⟨b, hb, fun i => (hspec i).trans ?_⟩
      exact or_congr_right (and_congr_right fun _ => (or_iff_right (by omega)).symm)
    · rw [if_neg hbefore]
      generalize hpos' : (if ext.start < start then start else ext.start) = pos
      generalize hlen : (if ext.start < start then ext.len - (start - ext.start) else ext.len) = len
      generalize hcount : (if start + num < pos + len then start + num - pos else len) = count
      obtain ⟨ones, hones, hset⟩ :=
        setOnes_spec (pos - start) count out (by split_ifs at hpos' hlen hcount <;> omega)
      obtain ⟨b, hb, hspec⟩ := ih ones happart
      refine ⟨b, by rw [hones, Option.bind_some, hb], fun i => ?_⟩
      rw [hspec, hset, or_assoc, and_or_left]
      refine or_congr_right (or_congr_left ?_)
      split_ifs at hpos' hlen hcount <;> omega

/-- In a bitmap that is not empty, the bits of the range are stored, and zeros up to the end of the
last byte. -/
theorem rbGetBmapRange_spec {bp : RbPrivate} (h : bp.Sound) (hbits : bp.bits ≠ ∅) (start : ℕ) {num : ℕ}
    (hnum : num < 2147483648) (out : Buf) :
    ∃ b, rbGetBmapRange start num bp out = some b ∧ ∀ i, ext2fsTestBit i b ↔
      if i / 8 < (num + 7) / 8 then i < num ∧ start + i ∈ bp.bits else ext2fsTestBit i out := by
  have hroot : bp.root ≠ [] := fun hroot => hbits (by rw [RbPrivate.bits, hroot, covered_nil])
  obtain ⟨b, hb, hspec⟩ := getExtents_spec start (splice out 0 zeros ((num + 7) / 8)) h.apart hnum
  refine ⟨b, by rw [rbGetBmapRange, if_neg hroot, hb], fun i => (hspec i).trans ?_⟩
  split_ifs with hi
  · refine or_iff_right ?_
    rw [ext2fsTestBit, splice_of_mem (Nat.zero_le _) (by rw [Nat.zero_add]; exact hi), zeros,
      UInt8.toNat_zero, Nat.zero_testBit]
    exact Bool.false_ne_true
  · rw [ext2fsTestBit, splice_of_ge (by omega)]
    exact or_iff_left fun hin => by omega

end Get

section Set

variable {start num i : ℕ} {cp : Buf} {firstSet : Option ℕ} {bp : RbPrivate}

/-- Bit `c` is in the run that is still to be inserted. -/
def Pending (start : ℕ) (firstSet : Option ℕ) (i c : ℕ) : Prop :=
  ∃ f ∈ firstSet, start + f ≤ c ∧ c < start + i

@[simp] theorem not_pending_none {c : ℕ} : ¬Pending start none i c := by
  rintro ⟨f, hf, -⟩
  exact Option.not_mem_none f hf

@[simp] theorem pending_some {f c : ℕ} : Pending start (some f) i c ↔ start + f ≤ c ∧ c < start + i := by
  simp [Pending]

/-- Bit `c` is set in the bytes from bit `i` on. -/
def Remaining (start num : ℕ) (cp : Buf) (i c : ℕ) : Prop :=
  start + i ≤ c ∧ c < start + num ∧ ext2fsTestBit (c - start) cp

/-- What the loop makes of the bytes from bit `i` on. -/
structure SetFrom (start num : ℕ) (cp : Buf) (i : ℕ) (firstSet : Option ℕ) (bp : RbPrivate)
    (r : Option ℕ × RbPrivate) :
    Prop where
  sound : r.2.Sound
  first : ∀ f ∈ r.1, f < num
  bits : ∀ c, c ∈ r.2.bits ∨ Pending start r.1 num c ↔
    c ∈ bp.bits ∨ Pending start firstSet (min i num) c ∨ Remaining start num cp i c

/-- A run begins with bits that are set, or goes on. -/
theorem pending_ones {n : ℕ} (hfirst : ∀ f ∈ firstSet, f < i ∧ f < num) (hi : i < num)
    (hones : ∀ j, i ≤ j → j < i + n → ext2fsTestBit j cp) (c : ℕ) :
    Pending start (some (firstSet.getD i)) (min (i + n) num) c ∨ Remaining start num cp (i + n) c ↔
      Pending start firstSet (min i num) c ∨ Remaining start num cp i c := by
  have hset : start + i ≤ c → c < start + (i + n) → ext2fsTestBit (c - start) cp := fun hlow hhigh =>
    hones (c - start) (by omega) (by omega)
  cases firstSet with
  | none =>
    rw [Option.getD_none, pending_some, or_iff_right not_pending_none]
    constructor
    · rintro (⟨hlow, hhigh⟩ | ⟨hlow, hhigh, hbit⟩)
      · exact ⟨hlow, by omega, hset hlow (by omega)⟩
      · exact ⟨by omega, hhigh, hbit⟩
    · rintro ⟨hlow, hhigh, hbit⟩
      by_cases hrun : c < start + (i + n)
      · exact .inl ⟨hlow, by omega⟩
      · exact .inr ⟨by omega, hhigh, hbit⟩
  | some f =>
    obtain ⟨hfi, hfnum⟩ := hfirst f rfl
    rw [Option.getD_some, pending_some, pending_some]
    constructor
    · rintro (⟨hlow, hhigh⟩ | ⟨hlow, hhigh, hbit⟩)
      · by_cases hrun : c < start + i
        · exact .inl ⟨hlow, by omega⟩
        · exact .inr ⟨by omega, by omega, hset (by omega) (by omega)⟩
      · exact .inr ⟨by omega, hhigh, hbit⟩
    · rintro (⟨hlow, hhigh⟩ | ⟨hlow, hhigh, hbit⟩)
      · exact .inl ⟨hlow, by omega⟩
      · by_cases hrun : c < start + (i + n)
        · exact .inl ⟨by omega, by omega⟩
        · exact .inr ⟨by omega, hhigh, hbit⟩

theorem remaining_zeros {n : ℕ} (hzeros : ∀ j, i ≤ j → j < i + n → ¬ext2fsTestBit j cp) (c : ℕ) :
    Remaining start num cp (i + n) c ↔ Remaining start num cp i c := by
  constructor
  · rintro ⟨hlow, hhigh, hbit⟩
    exact ⟨by omega, hhigh, hbit⟩
  · rintro ⟨hlow, hhigh, hbit⟩
    refine ⟨?_, hhigh, hbit⟩
    by_contra hrun
    exact hzeros (c - start) (by omega) (by omega) hbit

theorem remaining_zero (hzero : ¬ext2fsTestBit i cp) (c : ℕ) :
    Remaining start num cp (i + 1) c ↔ Remaining start num cp i c := by
  refine remaining_zeros (fun j hlow hhigh => ?_) c
  obtain rfl : j = i := by omega
  exact hzero

theorem testBit_byte (hi : i % 8 = 0) {j : ℕ} (hlow : i ≤ j) (hhigh : j < i + 8) :
    ext2fsTestBit j cp = (cp (i / 8)).toNat.testBit (j % 8) := by
  have hbyte : j / 8 = i / 8 := by omega
  rw [ext2fsTestBit, hbyte]

/-- A run that begins or goes on is inside the range. -/
theorem first_getD {n : ℕ} (hfirst : ∀ f ∈ firstSet, f < i ∧ f < num) (hi : i < num) (hn : 0 < n) :
    ∀ f ∈ some (firstSet.getD i), f < i + n ∧ f < num := by
  intro f hf
  obtain rfl := Option.some.inj hf
  cases firstSet with
  | none =>
    rw [Option.getD_none]
    omega
  | some f =>
    obtain ⟨hfi, hfnum⟩ := hfirst f rfl
    rw [Option.getD_some]
    omega

theorem beginRun_eq (hi : i < 2147483648) : beginRun firstSet i = some (firstSet.getD i) := by
  cases firstSet with
  | none => exact toInt_of_lt hi
  | some f => rfl

theorem setExtents_from (start : ℕ) (cp : Buf) (h : bp.Sound) (hfirst : ∀ f ∈ firstSet, f < i ∧ f < num)
    (hnum : num < 2147483648) :
    ∃ r, setExtents start num cp i firstSet bp = some r ∧ SetFrom start num cp i firstSet bp r := by
  fun_induction setExtents start num cp i firstSet bp with
  | case1 i firstSet bp hend =>
    refine ⟨_, rfl, h, fun f hf => (hfirst f hf).2, fun c => or_congr_right ?_⟩
    rw [Nat.min_eq_right hend]
    refine (or_iff_left ?_).symm
    rintro ⟨hlow, hhigh, -⟩
    omega
  | case2 i firstSet bp hend hbyte hrun =>
    rw [beginRun_eq (by omega)] at hrun
    cases hrun
  | case3 i firstSet bp hend hbyte f hrun ih =>
    rw [beginRun_eq (by omega)] at hrun
    obtain rfl := Option.some.inj hrun
    have hones : ∀ j, i ≤ j → j < i + 8 → ext2fsTestBit j cp := by
      intro j hlow hhigh
      rw [testBit_byte hbyte.1 hlow hhigh, hbyte.2]
      exact testBit_whole j
    have hi := Nat.lt_of_not_le hend
    obtain ⟨r, hr, hrest⟩ := ih h (first_getD hfirst hi (by decide))
    exact ⟨r, hr, hrest.sound, hrest.first, fun c =>
      (hrest.bits c).trans (or_congr_right (pending_ones hfirst hi hones c))⟩
  | case4 i firstSet bp hend hbyte hzero ih =>
    obtain ⟨hi, hbyte, rfl⟩ := hzero
    have hzeros : ∀ j, i ≤ j → j < i + 8 → ¬ext2fsTestBit j cp := by
      intro j hlow hhigh
      rw [testBit_byte hi hlow hhigh, hbyte, UInt8.toNat_zero, Nat.zero_testBit]
      exact Bool.false_ne_true
    obtain ⟨r, hr, hrest⟩ := ih h forall_mem_none
    refine ⟨r, hr, hrest.sound, hrest.first, fun c => (hrest.bits c).trans (or_congr_right ?_)⟩
    rw [or_iff_right not_pending_none, or_iff_right not_pending_none, remaining_zeros hzeros]
  | case5 i firstSet bp hend hbyte hzero hbit hrun =>
    rw [beginRun_eq (by omega)] at hrun
    cases hrun
  | case6 i firstSet bp hend hbyte hzero hbit f hrun ih =>
    rw [beginRun_eq (by omega)] at hrun
    obtain rfl := Option.some.inj hrun
    have hi := Nat.lt_of_not_le hend
    obtain ⟨r, hr, hrest⟩ := ih h (first_getD hfirst hi Nat.one_pos)
    refine ⟨r, hr, hrest.sound, hrest.first, fun c =>
      (hrest.bits c).trans (or_congr_right (pending_ones hfirst hi ?_ c))⟩
    intro j hlow hhigh
    obtain rfl : j = i := by omega
    exact hbit
  | case7 i bp hend hbyte hbit hzero ih =>
    obtain ⟨r, hr, hrest⟩ := ih h forall_mem_none
    refine ⟨r, hr, hrest.sound, hrest.first, fun c => (hrest.bits c).trans (or_congr_right ?_)⟩
    rw [or_iff_right not_pending_none, or_iff_right not_pending_none, remaining_zero hbit]
  | case8 i bp hend hbyte hbit f hzero ih =>
    obtain ⟨hfi, hfnum⟩ := hfirst f rfl
    have hinserted := rbInsertExtent_inserted h (start + f) (i - f)
    obtain ⟨r, hr, hrest⟩ := ih hinserted.sound forall_mem_none
    refine ⟨r, hr, hrest.sound, hrest.first, fun c => (hrest.bits c).trans ?_⟩
    rw [or_iff_right not_pending_none, remaining_zero hbit, hinserted.bits, Set.mem_union, Set.mem_Ico,
      or_assoc, pending_some]
    exact or_congr_right (or_congr_left (by omega))

/-- The bits that are set in the bytes are set in the bitmap. -/
theorem rbSetBmapRange_sets (h : bp.Sound) (start : ℕ) {num : ℕ} (hnum : num < 2147483648) (cp : Buf) :
    ∃ bp', rbSetBmapRange start num cp bp = some bp' ∧ bp'.Sound ∧ ∀ c, c ∈ bp'.bits ↔
      c ∈ bp.bits ∨ (start ≤ c ∧ c < start + num ∧ ext2fsTestBit (c - start) cp) := by
  obtain ⟨r, hr, hall⟩ := setExtents_from start cp h (i := 0) forall_mem_none hnum
  rw [rbSetBmapRange, hr]
  obtain ⟨firstSet, bp'⟩ := r
  have hbits := hall.bits
  cases firstSet with
  | none =>
    refine ⟨bp', rfl, hall.sound, fun c => ?_⟩
    simpa [Remaining] using hbits c
  | some f =>
    have hinserted := rbInsertExtent_inserted hall.sound (start + f) (num - f)
    refine ⟨_, rfl, hinserted.sound, fun c => ?_⟩
    have hf := hall.first f rfl
    have hend : start + f + (num - f) = start + num := by omega
    have hc := hbits c
    rw [pending_some, or_iff_right not_pending_none] at hc
    rw [hinserted.bits, Set.mem_union, Set.mem_Ico, hend]
    exact hc

end Set

/-- A range of less than 2^31 bits of a bitmap that is not empty is stored bit for bit, and a new
bitmap that is read from the bytes holds the same bits. -/
theorem bitmapBytes_roundTrip {ops : List BitmapOp} (hbits : ops.foldl BitmapOp.effect ∅ ≠ ∅)
    (start : ℕ) {num : ℕ}
    (hnum : num < 2147483648) (out : Buf) :
    ∃ bytes bp, rbGetBmapRange start num (runBitmapOps ops rbNewBmap).2 out = some bytes ∧
      (∀ i, ext2fsTestBit i bytes ↔
        if i / 8 < (num + 7) / 8 then i < num ∧
          start + i ∈ ops.foldl BitmapOp.effect ∅ else ext2fsTestBit i out) ∧
      rbSetBmapRange start num bytes rbNewBmap = some bp ∧
      bp.bits = ops.foldl BitmapOp.effect ∅ ∩ Set.Ico start (start + num) := by
  obtain ⟨hsound, hrun, -⟩ := runBitmapOps_sound rbNewBmap_sound ops
  rw [rbNewBmap_bits] at hrun
  obtain ⟨bytes, hget, hstored⟩ := rbGetBmapRange_spec hsound (hrun ▸ hbits) start hnum out
  obtain ⟨bp, hset, -, hread⟩ := rbSetBmapRange_sets rbNewBmap_sound start hnum bytes
  rw [hrun] at hstored
  refine ⟨bytes, bp, hget, hstored, hset, ?_⟩
  ext c
  rw [hread, rbNewBmap_bits, Set.mem_inter_iff, Set.mem_Ico, hstored]
  constructor
  · rintro (hc | ⟨hlow, hhigh, hc⟩)
    · exact absurd hc (Set.notMem_empty c)
    · rw [if_pos (by omega), Nat.add_sub_of_le hlow] at hc
      exact ⟨hc.2, hlow, hhigh⟩
  · rintro ⟨hc, hlow, hhigh⟩
    refine .inr ⟨hlow, hhigh, ?_⟩
    rw [if_pos (by omega), Nat.add_sub_of_le hlow]
    exact ⟨by omega, hc⟩

/-- A gap across a byte, and a range that begins and ends within one. -/
theorem bitmapBytes_roundTrip_gap :
    let ops : List BitmapOp := [.markBmapExtent 5 20, .unmarkBmap 12]
    ∃ bytes bp, rbGetBmapRange 3 14 (runBitmapOps ops rbNewBmap).2 zeros = some bytes ∧
      (∀ i, ext2fsTestBit i bytes ↔
        if i / 8 < 2 then i < 14 ∧ 3 + i ∈ ops.foldl BitmapOp.effect ∅ else ext2fsTestBit i zeros) ∧
      rbSetBmapRange 3 14 bytes rbNewBmap = some bp ∧
        bp.bits = ops.foldl BitmapOp.effect ∅ ∩ Set.Ico 3 17 := by
  intro ops
  have hmem : 5 ∈ ops.foldl BitmapOp.effect ∅ :=
    ⟨.inr ⟨by decide, by decide⟩, fun h => absurd h.1 (by decide)⟩
  exact bitmapBytes_roundTrip (Set.nonempty_iff_ne_empty.mp ⟨5, hmem⟩) 3 (by decide) zeros

end FormatStick.Ext
