import FormatStick.Splice
import Mathlib.Data.Int.Notation

/-!
# Flat files with a cursor

A file is a memory of a given size with a position. A transfer at the cursor
moves it by what went through, a positional one leaves it alone, and both stop
at the end of the file. A call on a list of segments is one transfer of their
concatenation. Nothing here depends on what a cell is.
-/
namespace FormatStick.FlatFile
open Splice

/-- A piece of the caller's memory. -/
structure Segment (α : Type*) where
  base : ℕ → α
  len : ℕ

variable {α : Type*}

/-- The concatenation of a list of segments. -/
def gather [Inhabited α] : List (Segment α) → Segment α
  | [] => ⟨fun _ => default, 0⟩
  | v :: vs => ⟨splice v.base v.len (gather vs).base (gather vs).len, v.len + (gather vs).len⟩

/-- What the caller of a file asks for. -/
inductive Call (α : Type*)
  | seekSet (offset : ℤ)
  | seekCur (offset : ℤ)
  | read (v : Segment α)
  | write (v : Segment α)
  | pread (v : Segment α) (offset : ℕ)
  | pwrite (v : Segment α) (offset : ℕ)
  | writev (vs : List (Segment α))
  | pwritev (vs : List (Segment α)) (offset : ℕ)
  | preadv (vs : List (Segment α)) (offset : ℕ)
  | sync

structure File (α : Type*) where
  data : ℕ → α
  size : ℕ
  cursor : ℕ

/-- `n` cells of a memory from `o` on. -/
def cells (data : ℕ → α) (o n : ℕ) : List α := (List.range n).map (window data o)

theorem cells_add (data : ℕ → α) (o n m : ℕ) :
    cells data o (n + m) = cells data o n ++ cells data (o + n) m := by
  simp only [cells, List.range_add, List.map_append, List.map_map]
  congr 1
  apply List.map_congr_left
  intro i _
  simp [Nat.add_assoc]

namespace File

section

variable (f : File α)

/-- How much of a transfer of `n` cells at `o` lies in the file. -/
def amount (o n : ℕ) : ℕ := min n (f.size - o)

def readAt (o n : ℕ) : ℤ × List α := (f.amount o n, cells f.data o (f.amount o n))

def writeAt (o : ℕ) (v : Segment α) : File α := { f with data := splice f.data o v.base (f.amount o v.len) }

def moveTo (o : ℤ) : File α := { f with cursor := o.toNat }

end

variable [Inhabited α] (f : File α)

/-- The return value of a call and the cells it delivers. -/
def result : Call α → ℤ × List α
  | .seekSet o => (o, [])
  | .seekCur o => (f.cursor + o, [])
  | .read v => f.readAt f.cursor v.len
  | .write v => (f.amount f.cursor v.len, [])
  | .pread v o => f.readAt o v.len
  | .pwrite v o => (f.amount o v.len, [])
  | .writev vs => (f.amount f.cursor (gather vs).len, [])
  | .pwritev vs o => (f.amount o (gather vs).len, [])
  | .preadv vs o => f.readAt o (gather vs).len
  | .sync => (0, [])

/-- The file after a call. -/
def step : Call α → File α
  | .seekSet o => f.moveTo o
  | .seekCur o => f.moveTo (f.cursor + o)
  | .read v => f.moveTo (f.cursor + f.amount f.cursor v.len)
  | .write v => (f.writeAt f.cursor v).moveTo (f.cursor + f.amount f.cursor v.len)
  | .pread _ _ => f
  | .pwrite v o => f.writeAt o v
  | .writev vs => (f.writeAt f.cursor (gather vs)).moveTo (f.cursor + f.amount f.cursor (gather vs).len)
  | .pwritev vs o => f.writeAt o (gather vs)
  | .preadv _ _ => f
  | .sync => f

/-- What a list of calls returns, each with the cursor after it. -/
def results (f : File α) : List (Call α) → List ((ℤ × List α) × ℕ)
  | [] => []
  | c :: cs => (f.result c, (f.step c).cursor) :: results (f.step c) cs

/-- The file after a list of calls. -/
def after (cs : List (Call α)) : File α := cs.foldl step f

end File

/-- One transfer of a call. -/
structure Transfer where
  isWrite : Bool
  offset : ℕ
  count : ℕ
  deriving DecidableEq

/-- The cells of the transfer, if it has any, lie in a file of this size. -/
def Transfer.Inside (size : ℕ) (x : Transfer) : Prop := 0 < x.count → x.offset + x.count ≤ size

/-- The segments of a list, transferred one after the other from `o` on. -/
def transfersFrom (isWrite : Bool) : ℕ → List (Segment α) → List Transfer
  | _, [] => []
  | o, v :: vs => ⟨isWrite, o, v.len⟩ :: transfersFrom isWrite (o + v.len) vs

/-- The transfers of a call while the cursor is at `cursor`. -/
def Call.transfers (cursor : ℕ) : Call α → List Transfer
  | .seekSet _ | .seekCur _ | .sync => []
  | .read v => [⟨false, cursor, v.len⟩]
  | .write v => [⟨true, cursor, v.len⟩]
  | .pread v o => [⟨false, o, v.len⟩]
  | .pwrite v o => [⟨true, o, v.len⟩]
  | .writev vs => transfersFrom true cursor vs
  | .pwritev vs o => transfersFrom true o vs
  | .preadv vs o => transfersFrom false o vs

/-- A seek of the call, if it is one, stays in the file. -/
def Call.SeeksIn (f : File α) : Call α → Prop
  | .seekSet o => 0 ≤ o ∧ o ≤ f.size
  | .seekCur o => 0 ≤ f.cursor + o ∧ f.cursor + o ≤ f.size
  | _ => True

section Inside

variable {f : File α} {isWrite : Bool} {o n : ℕ} {v : Segment α} {vs : List (Segment α)}

theorem File.amount_of_inside (h : (Transfer.mk isWrite o n).Inside f.size) : f.amount o n = n := by
  unfold Transfer.Inside at h
  unfold File.amount
  dsimp only at h
  omega

theorem File.readAt_of_inside (h : (Transfer.mk isWrite o n).Inside f.size) :
    f.readAt o n = ((n : ℤ), cells f.data o n) := by
  rw [File.readAt, File.amount_of_inside h]

theorem File.writeAt_of_inside (h : (Transfer.mk isWrite o v.len).Inside f.size) :
    f.writeAt o v = { f with data := splice f.data o v.base v.len } := by
  rw [File.writeAt, File.amount_of_inside h]

theorem File.moveTo_add (f : File α) (o n : ℕ) : f.moveTo ((o : ℤ) + n) = { f with cursor := o + n } := rfl

variable [Inhabited α]

/-- Where every segment lies in the file, their concatenation does. -/
theorem inside_gather {size : ℕ} (h : ∀ x ∈ transfersFrom isWrite o vs, x.Inside size) :
    (Transfer.mk isWrite o (gather vs).len).Inside size := by
  induction vs generalizing o with
  | nil => exact fun h => absurd h (Nat.lt_irrefl 0)
  | cons v vs ih =>
    have hv : 0 < v.len → o + v.len ≤ size := h _ List.mem_cons_self
    have hvs : 0 < (gather vs).len → o + v.len + (gather vs).len ≤ size :=
      ih fun x hx => h x (List.mem_cons_of_mem _ hx)
    intro hpos
    simp only [gather] at hpos ⊢
    omega

/-- A list of segments written one after the other. -/
theorem splice_gather (data : ℕ → α) (o : ℕ) (v : Segment α) (vs : List (Segment α)) :
    splice (splice data o v.base v.len) (o + v.len) (gather vs).base (gather vs).len =
      splice data o (gather (v :: vs)).base (gather (v :: vs)).len :=
  splice_append data v.base (gather vs).base o v.len (gather vs).len

end Inside

end FormatStick.FlatFile
