import FormatStick.Intervals
import Mathlib.Data.Int.Notation

/-!
# The bitmaps of the ext engine

libext2fs keeps the blocks and inodes in use in bitmaps that are red-black trees of extents. Three
cursors into the tree save walks: the extent that was put in last, the one in which the last test
found its bit, and the one behind that. An insertion swallows the extents it reaches, a removal
cuts, splits and frees extents.
-/
namespace FormatStick.Ext
open Intervals

/-- `ext2fs_rb_private`. The tree is its extents from left to right. A pointer to an extent is that
extent: no two are equal, and what changes an extent in place changes the pointers to it. Bits are
numbered from the start of the bitmap, and no sum of theirs reaches `2 ^ 64`. -/
structure RbPrivate where
  root : List Interval
  wcursor : Option Interval
  rcursor : Option Interval
  rcursorNext : Option Interval

section Tree

/-- `rb_new_bmap`. -/
def rbNewBmap : RbPrivate := ⟨[], none, none, none⟩

/-- `ext2fs_rb_erase` and `rb_free_extent`. -/
def rbFreeExtent (ext : Interval) (bp : RbPrivate) : RbPrivate where
  root := bp.root.erase ext
  wcursor := bp.wcursor.filter (· ≠ ext)
  rcursor := bp.rcursor.filter (· ≠ ext)
  rcursorNext := bp.rcursorNext.filter (· ≠ ext)

/-- `ext->start` and `ext->count` get the values of `new`. -/
def rbAssign (ext new : Interval) (bp : RbPrivate) : RbPrivate :=
  let change := fun e => if e = ext then new else e
  ⟨bp.root.map change, bp.wcursor.map change, bp.rcursor.map change, bp.rcursorNext.map change⟩

/-- The walk down the tree to the extent that holds a bit. -/
def rbWalk (bp : RbPrivate) (bit : ℕ) : Option Interval := bp.root.find? fun ext => bit ∈ ext.range

/-- `search_tree` of `rb_test_bit`. -/
def searchTree (bp : RbPrivate) (bit : ℕ) : ℤ × RbPrivate :=
  match rbWalk bp bit with
  | some ext => (1, { bp with rcursor := some ext, rcursorNext := none })
  | none => (0, bp)

/-- `rb_test_bit`. -/
def rbTestBit (bp : RbPrivate) (bit : ℕ) : ℤ × RbPrivate :=
  match bp.rcursor with
  | none => searchTree bp bit
  | some rcursor =>
    if bit ∈ rcursor.range then (1, bp)
    else
      -- `rcursor_next` is looked up when it is asked for
      let nextExt := bp.rcursorNext.or (behind bp.root rcursor.start).head?
      if nextExt.any fun next => rcursor.stop ≤ bit ∧ bit < next.start then
        (0, { bp with rcursorNext := nextExt })
      else
        let bp := { bp with rcursor := none, rcursorNext := none }
        if bp.wcursor.any fun ext => bit ∈ ext.range then (1, bp) else searchTree bp bit

end Tree

section Insert

/-- The merge loop of `rb_insert_extent` over the extents behind the new one. -/
def mergeRight (start : ℕ) : List Interval → ℕ → RbPrivate → ℕ × RbPrivate
  | [], count, bp => (count, bp)
  | ext :: rest, count, bp =>
    if ext.stop ≤ start then mergeRight start rest count bp
    else if start + count < ext.start then (count, bp)
    else if ext.stop ≤ start + count then mergeRight start rest count (rbFreeExtent ext bp)
    else (count + (ext.stop - (start + count)), rbFreeExtent ext bp)

/-- `skip_insert`: `node` gets the bits from `start` on and what it then reaches. -/
def skipInsert (node : Interval) (start count : ℕ) (bp : RbPrivate) : RbPrivate :=
  let merged := mergeRight start (behind bp.root node.start) count bp
  rbAssign node ⟨start, merged.1⟩ merged.2

/-- The extent that holds `start` or ends there, at the cursor or by the walk. -/
def gotExtent (bp : RbPrivate) (start : ℕ) : Option Interval :=
  let touches := fun ext : Interval => decide (ext.start ≤ start ∧ start ≤ ext.stop)
  (bp.wcursor.filter touches).or (bp.root.find? touches)

/-- `rb_insert_extent`. -/
def rbInsertExtent (start count : ℕ) (bp : RbPrivate) : ℤ × RbPrivate :=
  if count = 0 then (0, bp)
  else
    let bp := { bp with rcursorNext := none }
    match gotExtent bp start with
    | some ext =>
      if start + count ≤ ext.stop then (1, bp)
      else (if ext.stop = start then 0 else 1, skipInsert ext ext.start (count + (start - ext.start)) bp)
    | none =>
      let node : Interval := ⟨start, count⟩
      let linked :=
        { bp with root := upTo bp.root start ++ node :: behind bp.root start, wcursor := some node }
      match (upTo bp.root start).getLast? with
      | some ext =>
        if ext.stop = start then (0, skipInsert node ext.start (count + ext.len) (rbFreeExtent ext linked))
        else (0, skipInsert node start count linked)
      | none => (0, skipInsert node start count linked)

end Insert

section Remove

/-- The last loop of `rb_remove_extent`. The walk ends next to `start`; what lies before it is passed over. -/
def removeRight (start count : ℕ) : List Interval → ℤ → RbPrivate → ℤ × RbPrivate
  | [], retval, bp => (retval, bp)
  | ext :: rest, retval, bp =>
    if ext.stop ≤ start then removeRight start count rest retval bp
    else if start + count < ext.start then (retval, bp)
    else if ext.stop ≤ start + count then removeRight start count rest 1 (rbFreeExtent ext bp)
    else (1, rbAssign ext ⟨start + count, ext.len - (start + count - ext.start)⟩ bp)

/-- `rb_remove_extent`. -/
def rbRemoveExtent (start count : ℕ) (bp : RbPrivate) : ℤ × RbPrivate :=
  match rbWalk bp start with
  | none => removeRight start count bp.root 0 bp
  | some ext =>
    if ext.start < start ∧ start + count < ext.stop then
      let cut := rbAssign ext ⟨ext.start, start - ext.start⟩ bp
      (1, (rbInsertExtent (start + count) (ext.stop - (start + count)) cut).2)
    else if ext.stop ≤ start + count then
      -- an extent of which nothing is left is freed
      let cut := if start - ext.start = 0 then rbFreeExtent ext bp
        else rbAssign ext ⟨ext.start, start - ext.start⟩ bp
      removeRight start count cut.root 1 cut
    else (1, rbAssign ext ⟨ext.start + count, ext.len - count⟩ bp)

end Remove

section Extents

/-- The loop of `rb_test_clear_bmap_extent`. -/
def clearRight (start len : ℕ) : List Interval → ℤ
  | [] => 1
  | ext :: rest =>
    if ext.stop ≤ start then clearRight start len rest
    else if start + len ≤ ext.start then 1
    else 0

/-- `rb_test_clear_bmap_extent`. -/
def rbTestClearBmapExtent (start len : ℕ) (bp : RbPrivate) : ℤ :=
  if len = 0 ∨ bp.root = [] then 1
  else if (rbWalk bp start).isSome then 0
  else clearRight start len bp.root

end Extents

section Search

/-- `ENOENT`. -/
def enoent : ℤ := 2

/-- `EINVAL`. -/
def einval : ℤ := 22

/-- `rb_find_first_zero`, with `*out` if it is set. -/
def rbFindFirstZero (start last : ℕ) (bp : RbPrivate) : ℤ × Option ℕ :=
  if last < start then (einval, none)
  else if bp.root = [] then (enoent, none)
  else match rbWalk bp start with
    | some ext => if ext.stop ≤ last then (0, some ext.stop) else (enoent, none)
    | none => (0, some start)

/-- `rb_find_first_set`. A walk that ends before `start` goes on to the extent behind it. -/
def rbFindFirstSet (start last : ℕ) (bp : RbPrivate) : ℤ × Option ℕ :=
  if last < start then (einval, none)
  else if bp.root = [] then (enoent, none)
  else match rbWalk bp start with
    | some _ => (0, some start)
    | none =>
      match (behind bp.root start).head? with
      | none => (enoent, none)
      | some ext => if ext.start ≤ last then (0, some ext.start) else (enoent, none)

end Search

/-- The operations of `ext2fs_blkmap64_rbtree` by which bits are changed and looked at. -/
inductive BitmapOp
  | markBmap (arg : ℕ)
  | unmarkBmap (arg : ℕ)
  | testBmap (arg : ℕ)
  | markBmapExtent (arg num : ℕ)
  | unmarkBmapExtent (arg num : ℕ)
  | testClearBmapExtent (start len : ℕ)
  | clearBmap
  | findFirstZero (start last : ℕ)
  | findFirstSet (start last : ℕ)

/-- An operation: what it returns, 0 for `void`, what it stores, and the bitmap after it. -/
def BitmapOp.run (bp : RbPrivate) : BitmapOp → (ℤ × Option ℕ) × RbPrivate
  | .markBmap arg => let r := rbInsertExtent arg 1 bp; ((r.1, none), r.2)
  | .unmarkBmap arg => let r := rbRemoveExtent arg 1 bp; ((r.1, none), r.2)
  | .testBmap arg => let r := rbTestBit bp arg; ((r.1, none), r.2)
  | .markBmapExtent arg num => ((0, none), (rbInsertExtent arg num bp).2)
  | .unmarkBmapExtent arg num => ((0, none), (rbRemoveExtent arg num bp).2)
  | .testClearBmapExtent start len => ((rbTestClearBmapExtent start len bp, none), bp)
  | .clearBmap => ((0, none), rbNewBmap)
  | .findFirstZero start last => (rbFindFirstZero start last bp, bp)
  | .findFirstSet start last => (rbFindFirstSet start last bp, bp)

/-- The returns of a run, and the bitmap after it. -/
def runBitmapOps : List BitmapOp → RbPrivate → List (ℤ × Option ℕ) × RbPrivate
  | [], bp => ([], bp)
  | op :: ops, bp =>
    let r := op.run bp
    let rest := runBitmapOps ops r.2
    (r.1 :: rest.1, rest.2)

end FormatStick.Ext
