import FormatStick.CStrings
import FormatStick.Prog
import Mathlib.Data.Int.Notation
import Mathlib.Data.List.TakeWhile

/-!
# The sub-options of `mkfs.xfs`

`parse_subopts` takes an option argument apart with `xfs_getsubopt`, which stands in for
`getsubopt` and overwrites the delimiters in place, and hands each sub-option to the parser of
the option. The argument of an option is a string in a memory, a value an address in it.
-/
namespace FormatStick.Subopts
open CStrings

def comma : UInt8 := 0x2c

def equals : UInt8 := 0x3d

/-- The memory and the two pointers that `xfs_getsubopt` works on. -/
structure Cursor where
  mem : List UInt8
  optionp : Option ℕ
  valuep : Option ℕ

/-- The index of the first token that the name equals, or -1. -/
def indexOf (tokens : List (List UInt8)) (name : List UInt8) : ℤ :=
  match tokens.idxOf? name with
  | some i => i
  | none => -1

/-- The first `c` of the string at `p` becomes its end; where what follows it begins. -/
def cutAt (mem : List UInt8) (p : ℕ) (c : UInt8) : List UInt8 × Option ℕ :=
  match strchr mem p c with
  | some i => (mem.set i 0, some (i + 1))
  | none => (mem, none)

/-- `xfs_getsubopt`. -/
def xfsGetsubopt (tokens : List (List UInt8)) (s : Cursor) : ℤ × Cursor :=
  match s.optionp with
  | none => (-1, s)
  | some p =>
    if s.mem.getD p 0 = 0 then (-1, s)
    else
      let next := cutAt s.mem p comma
      let value := cutAt next.1 p equals
      (indexOf tokens (stringAt value.1 p), ⟨value.1, next.2, value.2⟩)

section Parsing

variable {σ : Type}

/-- A parser of sub-options: of the index and of the value. -/
abbrev Parser (σ : Type) := ℤ → Option (List UInt8) → Prog σ ℤ

/-- The loop of `parse_subopts`; `unknown` does not return. -/
def suboptPass (tokens : List (List UInt8)) (parser : Parser σ) (_ : Unit) :
    Prog (σ × Cursor) (Unit ⊕ Bool) := do
  let s ← Prog.read
  match s.2.optionp with
  | none => pure (.inr true)
  | some p =>
    if s.2.mem.getD p 0 = 0 then pure (.inr true)
    else do
      let r := xfsGetsubopt tokens s.2
      Prog.update fun s => (s.1, r.2)
      let ret ← (parser r.1 (r.2.valuep.map (stringAt r.2.mem))).left
      if ret ≠ 0 then pure (.inr false) else pure (.inl ())

/-- `parse_subopts`, of the argument at `arg`; whether the parser knew all sub-options. -/
def parseSubopts (tokens : List (List UInt8)) (parser : Parser σ) (fuel : ℕ) (mem : List UInt8) (arg : ℕ) :
    Prog σ Bool :=
  (Prog.loop (suboptPass tokens parser) fuel ()).alongside ⟨mem, some arg, none⟩

/-- What the parser does with sub-options one after the other. -/
def feed (parser : Parser σ) : List (ℤ × Option (List UInt8)) → Prog σ Bool
  | [] => pure true
  | r :: rs => do
    let ret ← parser r.1 r.2
    if ret ≠ 0 then pure false else feed parser rs

end Parsing

section Proto

/-- The parameters that `proto_opts_parser` sets. -/
structure CliParams where
  protofile : Option (List UInt8)
  protoSlashesAreSpaces : ℤ
  protoAtime : ℤ

/-- `popts.subopts`. -/
def poptsSubopts : List (List UInt8) :=
  [[0x66, 0x69, 0x6c, 0x65],
    [0x61, 0x74, 0x69, 0x6d, 0x65],
    [0x73, 0x6c, 0x61, 0x73, 0x68, 0x65, 0x73, 0x5f, 0x61, 0x72, 0x65, 0x5f, 0x73, 0x70, 0x61, 0x63,
    0x65, 0x73]]

/-- `proto_opts_parser`. The process ends in `respec` and where `strdup` gets no string. -/
def protoOptsParser (getnum : Parser CliParams) : Parser CliParams := fun subopt value =>
  if subopt = 2 then do
    let n ← getnum subopt value
    Prog.update fun cli => { cli with protoSlashesAreSpaces := n }
    pure 0
  else if subopt = 1 then do
    let n ← getnum subopt value
    Prog.update fun cli => { cli with protoAtime := n }
    pure 0
  else do
    let cli ← Prog.read
    if cli.protofile.isSome then Prog.cut
    else
      match value with
      | none => Prog.cut
      | some file => do
        Prog.update fun cli => { cli with protofile := some file }
        pure 0

end Proto

section Elements

/-- The elements of an option argument. The end of the argument is the end of the last one, so
behind a comma it is none. -/
def elements (s : List UInt8) : List (List UInt8) :=
  let es := s.splitOn comma
  if es.getLast? = some [] then es.dropLast else es

/-- The text before the first equals sign. -/
def nameOf (e : List UInt8) : List UInt8 := e.takeWhile (· ≠ equals)

/-- The text after the first equals sign, if there is one. -/
def valueOf (e : List UInt8) : Option (List UInt8) :=
  if equals ∈ e then some ((e.dropWhile (· ≠ equals)).drop 1) else none

/-- What `getsubopt` is to make of an element: the token and its value, or the whole element. -/
def getsubopt (tokens : List (List UInt8)) (e : List UInt8) : ℤ × Option (List UInt8) :=
  if nameOf e ∈ tokens then (indexOf tokens (nameOf e), valueOf e) else (-1, some e)

variable {e s : List UInt8}

theorem elements_single (he : comma ∉ e) (hne : e ≠ []) : elements e = [e] := by
  simp [elements, List.splitOn_eq_singleton he, hne]

theorem elements_cons (he : comma ∉ e) : elements (e ++ comma :: s) = e :: elements s := by
  obtain ⟨x, xs, hs⟩ := List.exists_cons_of_ne_nil (List.splitOn_ne_nil comma s)
  rw [elements, elements, List.splitOn_append_cons_self_of_not_mem he, hs]
  rw [List.getLast?_cons_cons]
  split_ifs
  · rfl
  · rfl

theorem name_value_of_not_mem (he : equals ∉ e) : nameOf e = e ∧ valueOf e = none := by
  have hall : ∀ x ∈ e, decide (x ≠ equals) = true := by
    intro x hx
    rw [decide_eq_true_eq]
    rintro rfl
    exact he hx
  exact ⟨List.takeWhile_eq_self_iff.mpr hall, if_neg he⟩

theorem name_value_of_first {n v : List UInt8} (hn : equals ∉ n) :
    nameOf (n ++ equals :: v) = n ∧ valueOf (n ++ equals :: v) = some v := by
  have hall : ∀ x ∈ n, decide (x ≠ equals) = true := by
    intro x hx
    rw [decide_eq_true_eq]
    rintro rfl
    exact hn hx
  have hmem : equals ∈ n ++ equals :: v := List.mem_append_right _ List.mem_cons_self
  rw [nameOf, valueOf, if_pos hmem, List.takeWhile_append_of_pos hall, List.dropWhile_append_of_pos hall]
  simp

end Elements

section Cuts

variable {mem : List UInt8} {p : ℕ} {s e r : List UInt8} {c : UInt8}

theorem cutAt_of_not_mem (h : Holds mem p s) (hc : c ∉ s) : cutAt mem p c = (mem, none) := by
  rw [cutAt, h.strchr_of_not_mem hc]

theorem cutAt_of_first (h : Holds mem p (e ++ c :: r)) (hc : c ∉ e) :
    cutAt mem p c = (mem.set (p + e.length) 0, some (p + e.length + 1)) := by
  rw [cutAt, h.strchr_of_first hc]

/-- The name and the value of an element that has the memory to itself up to its end. -/
theorem cutAt_equals (h : Holds mem p e) :
    let value := cutAt mem p equals
    stringAt value.1 p = nameOf e ∧ value.2.map (stringAt value.1) = valueOf e ∧
      ∀ q, p + e.length < q → ∀ t, Holds mem q t → Holds value.1 q t := by
  by_cases he : equals ∈ e
  · obtain ⟨n, v, rfl, hn⟩ := List.eq_append_cons_of_mem he
    have hbehind : Holds (mem.set (p + n.length) 0) (p + n.length + 1) v :=
      h.behind.set_of_lt (Nat.lt_succ_self _) 0
    rw [cutAt_of_first h hn, (name_value_of_first hn).1, (name_value_of_first hn).2]
    refine ⟨h.cut.stringAt, congrArg some hbehind.stringAt, fun q hq t ht => ht.set_of_lt ?_ 0⟩
    rw [List.length_append, List.length_cons] at hq
    omega
  · rw [cutAt_of_not_mem h he, (name_value_of_not_mem he).1, (name_value_of_not_mem he).2]
    exact ⟨h.stringAt, rfl, fun _ _ _ ht => ht⟩

end Cuts

/-- What is left of the argument. -/
def Left (s : Cursor) (t : List UInt8) : Prop :=
  match s.optionp with
  | none => t = []
  | some p => Holds s.mem p t

section Steps

variable {tokens : List (List UInt8)}

/-- What `xfs_getsubopt` makes of an element. -/
def subopt (tokens : List (List UInt8)) (e : List UInt8) : ℤ × Option (List UInt8) :=
  (indexOf tokens (nameOf e), valueOf e)

/-- A call takes the first element off what is left. -/
theorem xfsGetsubopt_left (tokens : List (List UInt8)) {s : Cursor} {p : ℕ} {t : List UInt8}
    (hp : s.optionp = some p) (h : Holds s.mem p t)
    (hne : t ≠ []) :
    ∃ e rest, elements t = e :: elements rest ∧ Left (xfsGetsubopt tokens s).2 rest ∧
      ((xfsGetsubopt tokens s).1,
        (xfsGetsubopt tokens s).2.valuep.map (stringAt (xfsGetsubopt tokens s).2.mem)) =
        subopt tokens e := by
  rw [xfsGetsubopt, hp]
  dsimp only
  rw [if_neg (mt h.getD.mp hne)]
  by_cases hcomma : comma ∈ t
  · obtain ⟨e, rest, rfl, he⟩ := List.eq_append_cons_of_mem hcomma
    rw [cutAt_of_first h he]
    obtain ⟨hname, hvalue, hframe⟩ := cutAt_equals h.cut
    refine ⟨e, rest, elements_cons he, ?_, ?_⟩
    · exact hframe _ (Nat.lt_succ_self _) _ (h.behind.set_of_lt (Nat.lt_succ_self _) 0)
    · rw [subopt, ← hname, ← hvalue]
  · rw [cutAt_of_not_mem h hcomma]
    obtain ⟨hname, hvalue, -⟩ := cutAt_equals h
    refine ⟨t, [], elements_single hcomma hne, rfl, ?_⟩
    rw [subopt, ← hname, ← hvalue]

variable {σ : Type} {parser : Parser σ}

/-- A pass calls the parser on what `xfs_getsubopt` makes of the next element. -/
theorem suboptPass_eq (tokens : List (List UInt8)) (parser : Parser σ) {s : Cursor} {p : ℕ}
    (hp : s.optionp = some p) (hne : s.mem.getD p 0 ≠ 0) (x : σ) :
    suboptPass tokens parser () (x, s) =
      match parser (xfsGetsubopt tokens s).1
        ((xfsGetsubopt tokens s).2.valuep.map (stringAt (xfsGetsubopt tokens s).2.mem)) x with
      | (some ret, y) => (some (if ret ≠ 0 then .inr false else .inl ()), y, (xfsGetsubopt tokens s).2)
      | (none, y) => (none, y, (xfsGetsubopt tokens s).2) := by
  have hread : Prog.read (x, s) = (some (x, s), x, s) := rfl
  have hupdate : Prog.update (fun t : σ × Cursor => (t.1, (xfsGetsubopt tokens s).2)) (x, s) =
      (some (), x, (xfsGetsubopt tokens s).2) := rfl
  rw [suboptPass]
  refine (Prog.bind_of_returns hread).trans ?_
  dsimp only
  rw [hp]
  dsimp only
  rw [if_neg hne]
  refine (Prog.bind_of_returns hupdate).trans ?_
  rcases hr : parser (xfsGetsubopt tokens s).1
        ((xfsGetsubopt tokens s).2.valuep.map (stringAt (xfsGetsubopt tokens s).2.mem)) x with ⟨_ | ret, y⟩
  · refine Prog.bind_of_cut ?_
    rw [Prog.left, hr]
  · refine (Prog.bind_of_returns (b := ret) (u := (y, (xfsGetsubopt tokens s).2)) ?_).trans ?_
    · rw [Prog.left, hr]
    · dsimp only
      split_ifs <;> rfl

theorem suboptPass_end {s : Cursor} (h : Left s []) (x : σ) :
    suboptPass tokens parser () (x, s) = (some (.inr true), x, s) := by
  have hread : Prog.read (x, s) = (some (x, s), x, s) := rfl
  rw [suboptPass]
  refine (Prog.bind_of_returns hread).trans ?_
  dsimp only
  cases hp : s.optionp with
  | none => rfl
  | some p =>
    rw [Left, hp] at h
    dsimp only
    rw [if_pos (h.getD.mpr rfl)]
    rfl

/-- The loop feeds the parser with the elements that are left. -/
theorem loop_alongside {fuel : ℕ} {s : Cursor} {t : List UInt8} (h : Left s t)
    (hfuel : (elements t).length < fuel) :
    (Prog.loop (suboptPass tokens parser) fuel ()).alongside s =
      feed parser ((elements t).map (subopt tokens)) := by
  induction fuel generalizing s t with
  | zero => omega
  | succ fuel ih =>
    funext x
    rw [Prog.alongside, Prog.loop]
    by_cases hne : t = []
    · subst hne
      rw [Prog.bind_of_returns (suboptPass_end h x)]
      rfl
    · cases hp : s.optionp with
      | none =>
        rw [Left, hp] at h
        exact absurd h hne
      | some p =>
        have hheld : Holds s.mem p t := by
          rwa [Left, hp] at h
        obtain ⟨e, rest, hsplit, hleft, hcall⟩ := xfsGetsubopt_left tokens hp hheld hne
        rw [hsplit] at hfuel
        have hrest := congrFun (ih hleft (Nat.lt_of_succ_lt_succ hfuel))
        have hpass := suboptPass_eq tokens parser hp (mt hheld.getD.mp hne) x
        rw [hsplit, List.map_cons, feed, ← hcall]
        rcases hr : parser (xfsGetsubopt tokens s).1
          ((xfsGetsubopt tokens s).2.valuep.map (stringAt (xfsGetsubopt tokens s).2.mem)) x with ⟨_ | ret, y⟩
        · rw [hr] at hpass
          rw [Prog.bind_of_cut hpass, Prog.bind_of_cut hr]
        · rw [hr] at hpass
          rw [Prog.bind_of_returns hpass, Prog.bind_of_returns hr]
          split_ifs with hret
          · rfl
          · exact hrest y
/-- Iterating `xfs_getsubopt` over an argument is feeding the parser with its elements. -/
theorem parseSubopts_eq {s : List UInt8} (hs : 0 ∉ s) (before after : List UInt8) {fuel : ℕ}
    (hfuel : (elements s).length < fuel) :
    parseSubopts tokens parser fuel (before ++ s ++ 0 :: after) before.length =
      feed parser ((elements s).map (subopt tokens)) := by
  refine loop_alongside (s := ⟨_, _, _⟩) ?_ hfuel
  exact holds_append before after hs

end Steps

/-- Whatever the parser, iterating `xfs_getsubopt` ends and feeds it with what `getsubopt` is to make
of the elements. -/
def Agrees (tokens : List (List UInt8)) (s : List UInt8) : Prop :=
  ∀ before after : List UInt8, ∃ n, ∀ fuel, n < fuel → ∀ (σ : Type) (parser : Parser σ),
    parseSubopts tokens parser fuel (before ++ s ++ 0 :: after) before.length =
      feed parser ((elements s).map (getsubopt tokens))

section Agreement

variable {tokens : List (List UInt8)} {s e : List UInt8}

theorem valueOf_ne : valueOf e ≠ some e := by
  intro h
  by_cases he : equals ∈ e
  · obtain ⟨n, v, rfl, hn⟩ := List.eq_append_cons_of_mem he
    rw [(name_value_of_first hn).2, Option.some.injEq] at h
    have hlength := congrArg List.length h
    rw [List.length_append, List.length_cons] at hlength
    omega
  · rw [(name_value_of_not_mem he).2] at h
    cases h

theorem subopt_eq_iff : subopt tokens e = getsubopt tokens e ↔ nameOf e ∈ tokens := by
  rw [getsubopt]
  constructor
  · intro h
    by_contra hno
    rw [if_neg hno] at h
    exact valueOf_ne (congrArg Prod.snd h)
  · intro h
    rw [if_pos h]
    rfl

/-- A parser that knows every sub-option and writes down what it gets. -/
def recorder : Parser (List (ℤ × Option (List UInt8))) := fun index value => do
  Prog.update fun l => l ++ [(index, value)]
  pure 0

theorem feed_recorder (rs l : List (ℤ × Option (List UInt8))) :
    feed recorder rs l = (some true, l ++ rs) := by
  induction rs generalizing l with
  | nil =>
    rw [List.append_nil]
    rfl
  | cons r rs ih =>
    have hrecorded : recorder r.1 r.2 l = (some 0, l ++ [r]) := rfl
    rw [feed, Prog.bind_of_returns hrecorded, if_neg (by decide), ih, List.append_assoc]
    rfl

theorem Agrees.known (h : Agrees tokens s) (hs : 0 ∉ s) : ∀ e ∈ elements s, nameOf e ∈ tokens := by
  obtain ⟨n, hends⟩ := h [] []
  have hrun := hends (n + (elements s).length + 1) (by omega) _ recorder
  rw [parseSubopts_eq hs [] [] (by omega)] at hrun
  have hlists := congrFun hrun []
  rw [feed_recorder, feed_recorder] at hlists
  have hmap : (elements s).map (subopt tokens) = (elements s).map (getsubopt tokens) :=
    congrArg Prod.snd hlists
  intro e he
  exact subopt_eq_iff.mp (List.map_inj_left.mp hmap e he)

theorem agrees_iff (hs : 0 ∉ s) : Agrees tokens s ↔ ∀ e ∈ elements s, nameOf e ∈ tokens := by
  constructor
  · exact fun h => h.known hs
  · intro h before after
    refine ⟨(elements s).length, fun fuel hfuel σ parser => ?_⟩
    rw [parseSubopts_eq hs before after hfuel]
    exact congrArg (feed parser) (List.map_congr_left fun e he => subopt_eq_iff.mpr (h e he))

/-- `strdup` gets no string for the name of a prototype file, where `getsubopt` hands it the name. -/
def NameLost (e : List UInt8) : Prop :=
  ∀ (getnum : Parser CliParams) (cli : CliParams), cli.protofile = none →
    ∀ (before after : List UInt8) (fuel : ℕ),
    1 < fuel →
      parseSubopts poptsSubopts (protoOptsParser getnum) fuel (before ++ e ++ 0 :: after) before.length cli =
        (none, cli) ∧
      feed (protoOptsParser getnum) ((elements e).map (getsubopt poptsSubopts)) cli =
        (some true, { cli with protofile := some e })

theorem nameLost_of_unknown (hzero : 0 ∉ e) (hcomma : comma ∉ e) (hequals : equals ∉ e) (hne : e ≠ [])
    (htoken : e ∉ poptsSubopts) : NameLost e := by
  intro getnum cli hcli before after fuel hfuel
  obtain ⟨hname, hvalue⟩ := name_value_of_not_mem hequals
  have hindex : indexOf poptsSubopts e = -1 := by
    rw [indexOf, List.idxOf?_eq_none_iff.mpr htoken]
  have hsingle := elements_single hcomma hne
  have hread : Prog.read cli = (some cli, cli) := rfl
  constructor
  · have hcall : protoOptsParser getnum (-1) none cli = (none, cli) := by
      rw [protoOptsParser, if_neg (by decide), if_neg (by decide)]
      refine (Prog.bind_of_returns hread).trans ?_
      rw [hcli]
      rfl
    rw [parseSubopts_eq hzero before after (by rwa [hsingle]), hsingle, List.map_singleton, feed, subopt,
      hname, hvalue,
      hindex]
    exact Prog.bind_of_cut hcall
  · have hcall : protoOptsParser getnum (-1) (some e) cli = (some 0, { cli with protofile := some e }) := by
      rw [protoOptsParser, if_neg (by decide), if_neg (by decide)]
      refine (Prog.bind_of_returns hread).trans ?_
      rw [hcli]
      rfl
    rw [hsingle, List.map_singleton, feed, getsubopt, hname, if_neg htoken]
    refine (Prog.bind_of_returns hcall).trans ?_
    rfl

/-- The replacement agrees with `getsubopt` on the arguments whose elements are all in the table. A
prototype file named by itself is lost. -/
theorem parseSubopts_agrees_iff (tokens : List (List UInt8)) (hs : 0 ∉ s) :
    (Agrees tokens s ↔ ∀ e ∈ elements s, nameOf e ∈ tokens) ∧
      (comma ∉ s → equals ∉ s → s ≠ [] → s ∉ poptsSubopts → NameLost s) :=
  ⟨agrees_iff hs, nameLost_of_unknown hs⟩

/-- `atime=1,slashes_are_spaces` is such an argument, `proto` such a file. -/
theorem parseSubopts_agrees_known :
    Agrees poptsSubopts ([0x61, 0x74, 0x69, 0x6d, 0x65, 0x3d, 0x31, 0x2c] ++ poptsSubopts.getD 2 []) ∧
      NameLost [0x70, 0x72, 0x6f, 0x74, 0x6f] :=
  ⟨(parseSubopts_agrees_iff poptsSubopts (by decide)).1.mpr (by decide),
    (parseSubopts_agrees_iff poptsSubopts (by decide)).2 (by decide) (by decide) (by decide) (by decide)⟩

/-- The name of a prototype file, `proto`, is not. -/
theorem parseSubopts_disagrees : ¬Agrees poptsSubopts [0x70, 0x72, 0x6f, 0x74, 0x6f] := fun h =>
  absurd (h.known (by decide) [0x70, 0x72, 0x6f, 0x74, 0x6f] (by decide)) (by decide)

end Agreement

end FormatStick.Subopts
