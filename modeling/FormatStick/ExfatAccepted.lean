import FormatStick.ExfatMounted

/-!
# What a mount accepts

Whatever the device answers, also if it answers differently the second time, a volume that
`exfat_mount` accepts is well formed: no node is larger than the heap, each starts at a cluster
of it, and label, bitmap and upcase table are there. An entry set is read twice, first its
number of entries and then the entries. Where the device answers the second time as it did the
first, the sets do not overlap.
-/
namespace FormatStick.Exfat
open Prog Splice Fields

/-- A file or directory as `check_node` accepts it. -/
structure Node.WellFormed (sb : Buf) (node : Node) : Prop where
  validSize : node.validSize ≤ node.size
  size : node.size ≤ sbClusterCount sb * clusterSize sb
  empty : node.size = 0 → node.startCluster = 0 ∧ node.isContiguous = false
  start : 0 < node.size → ¬clusterInvalid sb node.startCluster
  cached : node.fptrIndex = 0 ∧ node.fptrCluster = node.startCluster
  dir : node.IsDir → node.size % clusterSize sb = 0
  continuations : 2 ≤ node.continuations
  name : ∃ n, node.name.length = 15 * n ∧ n + 1 ≤ node.continuations
  units : ∀ u ∈ node.name, u < 65536

section Parsing

variable {σ : Type} {sb entries : Buf} {n offset : ℕ}

theorem leNat_lt (f : ℕ → UInt8) (a n : ℕ) : leNat f a n < 256 ^ n := by
  induction n generalizing a with
  | zero => exact Nat.one_pos
  | succ n ih =>
    have hbyte := (f a).toNat_lt
    have hrest := ih (a + 1)
    rw [leNat, Nat.pow_succ]
    omega

/-- The set of a file has three entries at least. -/
theorem three_le_of_checkEntries (h : checkEntries entries n = true) : 3 ≤ n := by
  have hfile : ∀ {x : UInt8}, validTransition none (some x) = true → x = 0x85 :=
    fun h => Option.some.inj (of_decide_eq_true h)
  have hinfo : ∀ {x : UInt8}, validTransition (some 0x85) (some x) = true → x = 0xc0 :=
    fun h => Option.some.inj (of_decide_eq_true h)
  rw [checkEntries] at h
  rcases n with _ | _ | _ | n
  · cases h
  · obtain ⟨hfirst, hend⟩ := Bool.and_eq_true_iff.mp h
    rw [hfile hfirst] at hend
    cases hend
  · obtain ⟨hfirst, hrest⟩ := Bool.and_eq_true_iff.mp h
    rw [hfile hfirst] at hrest
    obtain ⟨hsecond, hend⟩ := Bool.and_eq_true_iff.mp hrest
    rw [hinfo hsecond] at hend
    cases hend
  · omega

theorem initNodeName_length (entries : Buf) (n : ℕ) : (initNodeName entries n).length = 15 * n := by
  simp [initNodeName, List.length_flatMap, Nat.mul_comm]

theorem initNodeName_lt {u : ℕ} (hu : u ∈ initNodeName entries n) : u < 65536 := by
  obtain ⟨i, -, hu⟩ := List.mem_flatMap.mp hu
  obtain ⟨j, -, rfl⟩ := List.mem_map.mp hu
  exact leNat_lt entries _ 2

theorem checkNode_wellFormed {node : Node} {actualChecksum checksum : ℕ}
    (h : checkNode sb node actualChecksum checksum = true)
    (hcached : node.fptrIndex = 0 ∧ node.fptrCluster = node.startCluster)
    (hcontinuations : 2 ≤ node.continuations)
    (hname : ∃ n, node.name.length = 15 * n ∧ n + 1 ≤ node.continuations)
    (hunits : ∀ u ∈ node.name, u < 65536) :
    node.WellFormed sb := by
  rw [checkNode, decide_eq_true_iff] at h
  obtain ⟨-, hvalid, hempty, hstart, hsize, hcontiguous, hdir⟩ := h
  refine ⟨Nat.not_lt.mp hvalid, Nat.not_lt.mp hsize, fun hzero => ⟨?_, ?_⟩,
    fun hpos hinvalid => hstart ⟨hpos, hinvalid⟩, hcached,
    fun h => ?_, hcontinuations, hname, hunits⟩
  · exact Decidable.not_not.mp fun hne => hempty ⟨hzero, hne⟩
  · exact Bool.eq_false_of_not_eq_true fun h => hcontiguous ⟨hzero, h⟩
  · exact Decidable.not_not.mp fun hne => hdir ⟨h, hne⟩

/-- An error is no result. -/
theorem forall_ok_of_error {α ε : Type} {R : α → Prop} {e : ε} :
    ∀ a, (.error e : Except ε α) = .ok a → R a := by
  intro a h
  cases h

theorem yields_error {I : σ → Prop} {α ε : Type} {R : α → Prop} (e : ε) :
    Yields I (fun r => ∀ a, r = .ok a → R a) (pure (.error e) : Prog σ (Except ε α)) :=
      yields_pure forall_ok_of_error

/-- What `parse_file_entries` accepts. -/
theorem yields_parseFileEntries {I : σ → Prop} :
    Yields I (fun r => ∀ node, r = .ok node → node.WellFormed sb ∧
    node.entryOffset = offset ∧ node.continuations = (entries 1).toNat ∧ 3 ≤ n)
    (parseFileEntries sb entries n offset : Prog σ (Except ℤ Node)) := by
  rw [parseFileEntries]
  split_ifs with hentries hfew hflags
  · exact yields_error _
  · exact yields_error _
  · exact yields_error _
  · dsimp only
    split_ifs with hname hcheck hconvert
    · exact yields_error _
    · refine yields_pure fun node h => ?_
      rw [Except.ok.injEq] at h
      subst h
      have hthree := three_le_of_checkEntries (Bool.eq_true_of_not_eq_false hentries)
      refine ⟨checkNode_wellFormed hcheck ⟨rfl, rfl⟩ (Nat.not_lt.mp hfew) ⟨_, initNodeName_length _ _, ?_⟩
          fun u hu =>
        initNodeName_lt hu, rfl, rfl, hthree⟩
      dsimp only [initNode]
      omega
    · exact yields_cut
    · exact yields_error _

/-- The decompressed table holds units. -/
theorem decompressUpcase_lt {source : List ℕ} (hsource : ∀ u ∈ source, u < 65536) {oi : ℕ} {output : ℕ → ℕ}
    (h : ∀ c < 65536, output c < 65536) : ∀ c < 65536, decompressUpcase source oi output c < 65536 := by
  have hupdate : ∀ {output : ℕ → ℕ} {oi ch : ℕ}, ch < 65536 → (∀ c < 65536, output c < 65536) →
      ∀ c < 65536, Function.update output oi ch c < 65536 := fun {output oi ch} hch h c hc => by
    rw [Function.update_apply]
    split_ifs
    · exact hch
    · exact h c hc
  fun_induction decompressUpcase source oi output with
  | case1 => exact h
  | case2 ch oi output hin => exact hupdate (hsource ch List.mem_cons_self) h
  | case3 => exact h
  | case4 oi output next source hin ih =>
    exact ih (fun u hu => hsource u (List.mem_cons_of_mem _ (List.mem_cons_of_mem _ hu))) h
  | case5 ch next source oi output hin hrun ih =>
    exact ih (fun u hu => hsource u (List.mem_cons_of_mem _ hu)) (hupdate (hsource ch List.mem_cons_self) h)
  | case6 => exact h

/-- `wchar_to_utf8` keeps to its buffer. -/
theorem wcharToUtf8_length {wc outsize : ℕ} {bs : List UInt8} (h : wcharToUtf8 wc outsize = some bs) :
    bs.length ≤ outsize := by
  simp only [wcharToUtf8] at h
  split_ifs at h with _ hroom _ hroom _ hroom _ hroom _ hroom _ hroom
  all_goals
    rw [← Option.some.inj h]
    exact Nat.not_lt.mp hroom

/-- A text that is converted fits, with a NUL at its end. -/
theorem utf16ToUtf8_fits {input : List ℕ} {outsize : ℕ} (h : (utf16ToUtf8 input outsize).1 = 0) :
    (utf16ToUtf8 input outsize).2.length ≤ outsize ∧ ∃ bs, (utf16ToUtf8 input outsize).2 = bs ++ [0] := by
  fun_induction utf16ToUtf8 input outsize with
  | case1 => cases h
  | case2 outsize hne => exact ⟨Nat.pos_of_ne_zero hne, [], rfl⟩
  | case3 => cases h
  | case4 => cases h
  | case5 input outsize hne rest hread bs hwrite =>
    refine ⟨wcharToUtf8_length hwrite, [], ?_⟩
    have hnul : utf8Bytes 0 = [0] := rfl
    rw [wcharToUtf8_eq (by decide), hnul] at hwrite
    split_ifs at hwrite
    exact (Option.some.inj hwrite).symm
  | case6 input outsize hne wc rest hread bs hwrite hnonzero r ih =>
    have hlen := wcharToUtf8_length hwrite
    obtain ⟨hfits, bs', hbs⟩ : r.2.length ≤ outsize - bs.length ∧ ∃ bs, r.2 = bs ++ [0] := ih h
    dsimp only
    rw [List.length_append]
    exact ⟨by omega, bs ++ bs', by rw [hbs, List.append_assoc]⟩

end Parsing

/-- The heap ends within the first `limit` bytes of the volume. -/
def HeapInside (sb : Buf) (limit : ℕ) : Prop := exfatC2o sb (2 + sbClusterCount sb) ≤ limit

instance (sb : Buf) (limit : ℕ) : Decidable (HeapInside sb limit) := inferInstanceAs (Decidable (_ ≤ _))

theorem HeapInside.cluster {sb : Buf} {limit cluster : ℕ} (h : HeapInside sb limit)
    (hvalid : ¬clusterInvalid sb cluster) :
    exfatC2o sb cluster + clusterSize sb ≤ limit := by
  rw [clusterInvalid, not_or] at hvalid
  have hlast : (cluster - 2) * 2 ^ sbSpcBits sb + 2 ^ sbSpcBits sb ≤
      sbClusterCount sb * 2 ^ sbSpcBits sb := by
    rw [← Nat.succ_mul]
    exact Nat.mul_le_mul_right _ (by omega)
  refine Nat.le_trans ?_ h
  rw [exfatC2o, exfatC2o, s2o, s2o, clusterSize, Nat.mul_comm (2 ^ sbSectorBits sb), ← Nat.add_mul,
    Nat.add_sub_cancel_left]
  exact Nat.mul_le_mul_right _ (by omega)

/-- Reads and allocations keep `I`, and a read of the first `limit` bytes of the volume that
succeeds delivers the bytes of `content`. -/
structure Answers {δ : Type} (P : Platform δ) (fuel : ℕ) (I : Device δ → Prop) (limit : ℕ)
    (content : ℕ → UInt8) : Prop where
  malloc : Yields I (fun _ => True) (malloc P).left
  pread : ∀ buf (size offset : ℕ), Yields I
    (fun r => 0 ≤ r.1 → offset + size ≤ limit → ∀ i < size, r.2 i = content (offset + i))
      (exfatPread P fuel buf size offset)

/-- This is so of every device, if nothing is said of what it delivers. -/
theorem answers_nothing {δ : Type} (P : Platform δ) (fuel : ℕ) : Answers P fuel (fun _ => True) 0 zeros where
  malloc := yields_true _
  pread _ _ _ := (yields_true _).mono fun _ _ _ _ _ hi => by omega

section Reading

variable {δ : Type} {P : Platform δ} {fuel limit : ℕ} {sb : Buf} {I : Device δ → Prop} {content : ℕ → UInt8}

/-- The same node, wherever its cached cluster is. -/
def Node.Moved (node node' : Node) : Prop :=
  ∃ index cluster, node' = { node with fptrIndex := index, fptrCluster := cluster }

theorem Node.Moved.sizes {node node' : Node} (h : node.Moved node') :
    node'.size = node.size ∧ node'.validSize = node.validSize := by
  obtain ⟨index, cluster, rfl⟩ := h
  exact ⟨rfl, rfl⟩

/-- A node that was read at its cluster number `count`. If it was there before, its cluster is the same. -/
structure Node.Reached (count : ℕ) (node node' : Node) : Prop where
  moved : node.Moved node'
  index : node'.fptrIndex = count
  same : node.fptrIndex = count → node'.fptrCluster = node.fptrCluster

/-- The second byte that a read of `total` bytes from `offset` on delivers is one that the device repeats. -/
structure Foreseen (sb : Buf) (limit offset total : ℕ) : Prop where
  heap : HeapInside sb limit
  room : offset % clusterSize sb + 2 ≤ clusterSize sb
  total : 2 ≤ total

/-- The byte behind the one at `offset`, which is in the cluster `cluster`. -/
def secondByte (content : ℕ → UInt8) (sb : Buf) (cluster offset : ℕ) : UInt8 :=
  content (exfatC2o sb cluster + offset % clusterSize sb + 1)

/-- The loop of `exfat_generic_pread` on its way from `cluster` on. -/
structure Advances (content : ℕ → UInt8) (sb : Buf) (limit cluster offset total : ℕ) (c : Cursor) : Prop where
  sum : c.done + c.remainder = total
  inside : c.loffset < clusterSize sb
  start : c.done = 0 → c.cluster = cluster ∧ c.loffset = offset % clusterSize sb
  second : 0 < c.done → Foreseen sb limit offset total →
    1 < c.done ∧ c.buf 1 = secondByte content sb cluster offset

variable (hA : Answers P fuel I limit content)
include hA

theorem yields_exfatNextCluster (isContiguous : Bool) (cluster : ℕ) :
    Yields I (fun _ => True) (exfatNextCluster P fuel sb isContiguous cluster) := by
  rw [exfatNextCluster]
  refine Yields.ite (fun _ => yields_cut) fun _ => Yields.ite (fun _ => yields_pure trivial) fun _ => ?_
  exact (hA.pread zeros 4 _).bind fun _ _ => yields_pure trivial

theorem yields_advanceClusters (isContiguous : Bool) (n cluster : ℕ) :
    Yields I (fun c => n = 0 → c = cluster) (advanceClusters P fuel sb isContiguous n cluster) := by
  induction n generalizing cluster with
  | zero => exact yields_pure fun _ => rfl
  | succ n ih =>
    rw [advanceClusters]
    refine (yields_exfatNextCluster hA _ _).bind fun next _ =>
      Yields.ite (fun _ => yields_pure fun h => ?_) fun _ => ?_
    · exact absurd h (Nat.succ_ne_zero n)
    · exact (ih next).mono fun _ _ h => absurd h (Nat.succ_ne_zero n)

theorem yields_exfatAdvanceCluster (node : Node) (count : ℕ) :
    Yields I (node.Reached count) (exfatAdvanceCluster P fuel sb node count) := by
  rw [exfatAdvanceCluster]
  split_ifs with hback
  · refine (yields_advanceClusters hA _ _ _).bind fun cluster _ =>
      yields_pure ⟨⟨count, cluster, rfl⟩, rfl, fun h => ?_⟩
    omega
  · refine (yields_advanceClusters hA _ _ _).bind fun cluster hcluster =>
      yields_pure ⟨⟨count, cluster, rfl⟩, rfl, fun h => ?_⟩
    exact hcluster (by omega)

/-- The loop reads all that was asked for or fails. -/
theorem yields_readCluster (isContiguous : Bool) {cluster offset total : ℕ} {c : Cursor}
    (hc : Advances content sb limit cluster offset total c) : Yields I (fun r => match r with
      | .inl c' => Advances content sb limit cluster offset total c'
      | .inr x => x.1 = -eio ∨ x.1 = (total : ℤ) ∧
          (Foreseen sb limit offset total → x.2 1 = secondByte content sb cluster offset))
      (readCluster P fuel sb isContiguous c) := by
  have htotal := hc.sum
  rw [readCluster]
  refine Yields.ite (fun hzero => yields_pure (.inr ⟨by omega, fun h => ?_⟩)) fun hmore => ?_
  · have hsome := h.total
    exact (hc.second (by omega) h).2
  refine Yields.ite (fun _ => yields_pure (.inl rfl)) fun hvalid => ?_
  obtain ⟨lsize, hlsize⟩ : ∃ lsize, lsize = min (clusterSize sb - c.loffset) c.remainder := ⟨_, rfl⟩
  have hinside := hc.inside
  have hpos : 0 < lsize := by omega
  dsimp only
  rw [← hlsize]
  refine (hA.pread _ _ _).bind fun r hr => Yields.ite (fun _ => yields_pure (.inl rfl)) fun hret => ?_
  refine (yields_exfatNextCluster hA _ _).bind fun next _ => yields_pure ⟨?_, ?_, fun h => ?_, fun _ h => ?_⟩
  · dsimp only
    omega
  · exact Nat.lt_of_le_of_lt (Nat.zero_le _) hinside
  · dsimp only at h
    omega
  · dsimp only
    have hsome := h.total
    have hroom := h.room
    rcases Nat.eq_zero_or_pos c.done with hdone | hdone
    · -- the first piece has the byte in it
      obtain ⟨hcluster, hloffset⟩ := hc.start hdone
      have hheap := h.heap.cluster hvalid
      have hbyte := hr (Int.not_lt.mp hret) (by omega) 1 (by omega)
      refine ⟨by omega, ?_⟩
      rw [hdone, splice_of_mem (Nat.zero_le 1) (by omega), hbyte, hcluster, hloffset]
      rfl
    · obtain ⟨hsecond, hbyte⟩ := hc.second hdone h
      exact ⟨by omega, (splice_of_lt hsecond).trans hbyte⟩

theorem yields_preadValid (hcs : 0 < clusterSize sb) (node : Node) (buf : Buf) (size offset : ℕ) :
    Yields I (fun r : ℤ × Buf × Node => node.Reached (u32 (offset / clusterSize sb : ℕ)) r.2.2 ∧
      (r.1 = -eio ∨ r.1 = (min size (node.size - offset) : ℕ) ∧
        (Foreseen sb limit offset (min size (node.size - offset)) →
        r.2.1 1 = secondByte content sb r.2.2.fptrCluster offset)))
          (preadValid P fuel sb node buf size offset) := by
  rw [preadValid]
  refine (yields_exfatAdvanceCluster hA node _).bind fun node' hnode =>
    Yields.ite (fun _ => yields_pure ⟨hnode, .inl rfl⟩) fun _ => ?_
  rw [hnode.moved.sizes.1]
  have hstart : Advances content sb limit node'.fptrCluster offset (min size (node.size - offset))
      ⟨node'.fptrCluster, offset % clusterSize sb, min size (node.size - offset), 0, buf⟩ :=
    ⟨Nat.zero_add _, Nat.mod_lt _ hcs, fun _ => ⟨rfl, rfl⟩, fun h => absurd h (Nat.lt_irrefl 0)⟩
  refine Yields.bind (Yields.loop
    (fun c hc => (yields_readCluster hA node'.isContiguous hc).mono fun r hr => ?_) fuel hstart)
    fun r hr => yields_pure ⟨hnode, hr⟩
  rcases r with c' | x
  · exact hr
  · exact hr

/-- No read returns more than there is. -/
theorem yields_exfatGenericPread (hcs : 0 < clusterSize sb) {node : Node} (hnode : node.validSize = node.size)
    (buf : Buf)
    (size offset : ℕ) :
    Yields I (fun r : ℤ × Buf × Node => r.1 ≤ (node.size - offset : ℕ) ∧ node.Moved r.2.2 ∧
      (r.1 = size → 0 < size → node.Reached (u32 (offset / clusterSize sb : ℕ)) r.2.2 ∧
        (Foreseen sb limit offset size → r.2.1 1 = secondByte content sb r.2.2.fptrCluster offset)))
      (exfatGenericPread P fuel sb node buf size offset) := by
  have hsame : node.Moved node := ⟨node.fptrIndex, node.fptrCluster, rfl⟩
  have heio : -eio ≤ 0 := by decide
  rw [exfatGenericPread]
  split_ifs with hbehind hnone hlong hin
  · exact yields_pure ⟨Int.natCast_nonneg _, hsame, fun h => by dsimp only at h; omega⟩
  · exact yields_pure ⟨Int.natCast_nonneg _, hsame, fun _ h => by omega⟩
  · refine (yields_preadValid hA hcs node buf _ offset).bind fun r hr => ?_
    obtain ⟨hreached, hcount⟩ := hr
    refine Yields.ite (fun hless => yields_pure ⟨by omega, hreached.moved, fun h => by omega⟩) fun _ =>
      yields_pure ?_
    exact ⟨by dsimp only; omega, hreached.moved, fun h => by dsimp only at h; omega⟩
  · exact yields_pure ⟨by dsimp only; omega, hsame, fun h => by dsimp only at h; omega⟩
  · refine (yields_preadValid hA hcs node buf size offset).mono fun r hr => ?_
    obtain ⟨hreached, hcount⟩ := hr
    have hwhole : min size (node.size - offset) = size := by omega
    rw [hwhole] at hcount
    refine ⟨by omega, hreached.moved, fun h hpos => ⟨hreached, ?_⟩⟩
    exact (hcount.resolve_left (by omega)).2

/-- The entries at `offset`; the byte behind the type of the first is the number of its continuations. -/
theorem yields_readEntries (hcs : 0 < clusterSize sb) (hentries : 32 ∣ clusterSize sb) {dir : Node}
    (hdir : dir.validSize = dir.size) {n : ℕ} (hn : 0 < n) {offset : ℕ} (hoffset : 32 ∣ offset) :
    Yields I (fun r => dir.Moved r.2.2 ∧ (r.1 = 0 → offset + 32 * n ≤ dir.size ∧
      dir.Reached (u32 (offset / clusterSize sb : ℕ)) r.2.2 ∧
        (HeapInside sb limit → r.2.1 1 = secondByte content sb r.2.2.fptrCluster offset)))
          (readEntries P fuel sb dir n offset) := by
  rw [readEntries]
  refine Yields.ite (fun _ => yields_cut) fun _ =>
    (yields_exfatGenericPread hA hcs hdir zeros _ offset).bind fun r hr => ?_
  obtain ⟨hcount, hmoved, hread⟩ := hr
  refine yields_pure ⟨hmoved, fun hret => ?_⟩
  dsimp only at hret
  split_ifs at hret with hall hnone
  · obtain ⟨hreached, hbyte⟩ := hread hall (by omega)
    refine ⟨by omega, hreached, fun hheap => hbyte ⟨hheap, ?_, by omega⟩⟩
    obtain ⟨k, hk⟩ := (Nat.dvd_mod_iff hentries).mpr hoffset
    obtain ⟨m, hm⟩ := hentries
    have hlt := Nat.mod_lt offset hcs
    omega
  · exact absurd hret (by decide)
  · exact absurd hret (by decide)

end Reading

/-- What the volume record holds at any time while a directory is read. -/
structure Fs.Sound (sb : Buf) (fs : Fs) : Prop where
  block : fs.sb = sb
  chunk : fs.chunk.isSome = true → fs.cmapSize = sbClusterCount sb ∧ ¬clusterInvalid sb fs.cmapStart
  upcase : ∀ table, fs.upcase = some table → ∀ c < 65536, table c < 65536
  label : fs.label.length ≤ 46 ∧ ∃ bs, fs.label = bs ++ [0]

/-- The bytes of an entry set that the mount went over: those of all its entries where the device
repeats its answers, and those of the three entries that every set has where it does not. -/
def Node.entrySet (sb : Buf) (limit : ℕ) (node : Node) : ℕ :=
  32 * if HeapInside sb limit then 1 + node.continuations else 3

/-- What the nodes found so far are: well formed, one behind the other, and in front of the offset. -/
structure Listing.Sound (sb : Buf) (limit size : ℕ) (l : Listing) : Prop where
  volume : l.fs.Sound sb
  dir : l.dir.size = size ∧ l.dir.validSize = size
  aligned : 32 ∣ l.offset
  inside : l.offset ≤ size
  children : ∀ node ∈ l.children, node.WellFormed sb ∧ node.entryOffset + node.entrySet sb limit ≤ l.offset
  apart : l.children.Pairwise fun x y => x.entryOffset + x.entrySet sb limit ≤ y.entryOffset

section Directory

variable {δ : Type} {P : Platform δ} {fuel limit size : ℕ} {sb : Buf} {I : Device δ → Prop}
    {content : ℕ → UInt8} {fs : Fs}
  {l : Listing}

theorem readLabel_sound (hfs : fs.Sound sb) {entry : Buf} {fs' : Fs} (h : readLabel fs entry = .ok fs') :
    fs'.Sound sb := by
  rw [readLabel] at h
  split_ifs at h with hlong
  dsimp only at h
  split_ifs at h with hconvert
  rw [← Except.ok.inj h]
  exact ⟨hfs.block, hfs.chunk, hfs.upcase, utf16ToUtf8_fits (Decidable.not_not.mp hconvert)⟩

/-- A file is put behind the others. -/
theorem Listing.Sound.append (hl : l.Sound sb limit size) {dir node : Node} {n : ℕ}
    (hdir : dir.size = size ∧ dir.validSize = size)
    (hnode : node.WellFormed sb) (hoffset : node.entryOffset = l.offset)
    (hn : node.entrySet sb limit ≤ 32 * n)
    (hinside : l.offset + 32 * n ≤ size) :
    { l with dir := dir, offset := l.offset + 32 * n, children := l.children ++ [node] : Listing }.Sound sb
      limit size := by
  refine ⟨hl.volume, hdir, (Nat.dvd_add_right hl.aligned).mpr (Nat.dvd_mul_right _ _), hinside,
    fun x hx => ?_, ?_⟩
  · rcases List.mem_append.mp hx with hx | hx
    · exact ⟨(hl.children x hx).1, Nat.le_trans (hl.children x hx).2 (Nat.le_add_right _ _)⟩
    · rw [List.mem_singleton.mp hx, hoffset]
      exact ⟨hnode, Nat.add_le_add_left hn _⟩
  · rw [List.pairwise_append]
    refine ⟨hl.apart, List.pairwise_singleton _ _, fun x hx y hy => ?_⟩
    rw [List.mem_singleton.mp hy, hoffset]
    exact (hl.children x hx).2

/-- An entry that is no file keeps the nodes. -/
theorem Listing.Sound.skip (hl : l.Sound sb limit size) {dir : Node} (hdir : l.dir.Moved dir)
    (hinside : l.offset + 32 ≤ size)
    {x : Except ℤ Fs} (hx : ∀ fs, x = .ok fs → fs.Sound sb) :
    match l.skip dir x with
      | .inl l' => l'.Sound sb limit size
      | .inr y => y.2.Sound sb limit size := by
  have hsize : dir.size = size ∧ dir.validSize = size :=
    ⟨hdir.sizes.1.trans hl.dir.1, hdir.sizes.2.trans hl.dir.2⟩
  cases x with
  | error e => exact hl
  | ok fs =>
    exact ⟨hx fs rfl, hsize, (Nat.dvd_add_right hl.aligned).mpr (Nat.dvd_refl 32), hinside,
      fun node h => ⟨(hl.children node h).1, Nat.le_trans (hl.children node h).2 (Nat.le_add_right _ _)⟩,
      hl.apart⟩

variable (hA : Answers P fuel I limit content)
include hA

theorem yields_readUpcase (hfs : fs.Sound sb) (entry : Buf) :
    Yields I (fun r => ∀ fs', r = .ok fs' → fs'.Sound sb) (readUpcase P fuel fs entry) := by
  rw [readUpcase]
  refine Yields.ite (fun _ => yields_pure fun fs' h => ?_) fun _ => ?_
  · rwa [← Except.ok.inj h]
  generalize leNat entry 24 8 = size
  refine Yields.ite (fun _ => yields_error _) fun _ => Yields.ite (fun _ => yields_error _) fun _ => ?_
  refine hA.malloc.bind fun allocated _ => Yields.ite (fun _ => yields_error _) fun _ => ?_
  refine (hA.pread _ _ _).bind fun r _ => Yields.ite (fun _ => yields_error _) fun _ => ?_
  refine hA.malloc.bind fun allocated _ => Yields.ite (fun _ => yields_error _) fun _ =>
    yields_pure fun fs' h => ?_
  rw [← Except.ok.inj h]
  refine ⟨hfs.block, hfs.chunk, fun table htable => ?_, hfs.label⟩
  rw [← Option.some.inj htable]
  refine decompressUpcase_lt (fun u hu => ?_) fun c hc => hc
  obtain ⟨i, -, rfl⟩ := List.mem_map.mp hu
  exact leNat_lt _ _ 2

theorem yields_readBitmap (hfs : fs.Sound sb) (entry : Buf) :
    Yields I (fun r => ∀ fs', r = .ok fs' → fs'.Sound sb) (readBitmap P fuel fs entry) := by
  rw [readBitmap]
  refine Yields.ite (fun _ => yields_error _) fun hvalid => Yields.ite (fun _ => yields_error _) fun _ => ?_
  refine hA.malloc.bind fun allocated _ => Yields.ite (fun _ => yields_error _) fun _ => ?_
  refine (hA.pread _ _ _).bind fun r _ => Yields.ite (fun _ => yields_error _) fun _ =>
    yields_pure fun fs' h => ?_
  rw [← Except.ok.inj h]
  rw [hfs.block] at hvalid ⊢
  exact ⟨rfl, fun _ => ⟨rfl, hvalid⟩, hfs.upcase, hfs.label⟩

variable (hcs : 0 < clusterSize sb) (hentries : 32 ∣ clusterSize sb)
include hcs hentries

/-- The second time that the first entry is read, the cluster it is in is the same. -/
theorem yields_parseFileEntry {dir : Node} (hdir : dir.validSize = dir.size) {n : ℕ} (hn : 0 < n) {offset : ℕ}
    (hoffset : 32 ∣ offset) (hindex : dir.fptrIndex = u32 (offset / clusterSize sb : ℕ)) :
    Yields I (fun r => dir.Moved r.2 ∧ ∀ node, r.1 = .ok node → node.WellFormed sb ∧ node.entryOffset =
      offset ∧ 3 ≤ n ∧
      offset + 32 * n ≤ dir.size ∧
        (HeapInside sb limit → node.continuations = (secondByte content sb dir.fptrCluster offset).toNat))
      (parseFileEntry P fuel sb dir offset n) := by
  rw [parseFileEntry]
  refine (yields_readEntries hA hcs hentries hdir hn hoffset).bind fun r hr => ?_
  obtain ⟨hmoved, hread⟩ := hr
  refine Yields.ite (fun _ => yields_pure ⟨hmoved, forall_ok_of_error⟩) fun hret => ?_
  obtain ⟨hinside, hreached, hbyte⟩ := hread (Decidable.not_not.mp hret)
  refine hA.malloc.bind fun allocated _ => Yields.ite (fun _ => yields_pure ⟨hmoved, forall_ok_of_error⟩)
    fun _ => ?_
  refine yields_parseFileEntries.bind fun x hx => yields_pure ⟨hmoved, fun node h => ?_⟩
  obtain ⟨hnode, hentry, hcontinuations, hthree⟩ := hx node h
  refine ⟨hnode, hentry, hthree, hinside, fun hheap => ?_⟩
  rw [hcontinuations, hbyte hheap, hreached.same hindex]

/-- A pass of `readdir`. -/
theorem yields_readdir (hl : l.Sound sb limit size) : Yields I (fun r => match r with
    | .inl l' => l'.Sound sb limit size
    | .inr y => y.2.Sound sb limit size) (readdir P fuel l) := by
  have hdir : l.dir.validSize = l.dir.size := hl.dir.2.trans hl.dir.1.symm
  rw [readdir, hl.volume.block]
  refine (yields_readEntries hA hcs hentries hdir Nat.one_pos hl.aligned).bind fun r hr => ?_
  obtain ⟨hmoved, hread⟩ := hr
  refine Yields.ite (fun _ => yields_pure hl) fun hret => ?_
  obtain ⟨hone, hreached, hbyte⟩ := hread (Decidable.not_not.mp hret)
  have hinside : l.offset + 32 ≤ size := hl.dir.1 ▸ hone
  have hskip : ∀ x, (∀ fs, x = .ok fs → fs.Sound sb) → Yields I (fun r => match r with
      | .inl l' => l'.Sound sb limit size
      | .inr y => y.2.Sound sb limit size) (pure (l.skip r.2.2 x) : Prog (Device δ) _) :=
    fun x hx => yields_pure (hl.skip hmoved hinside hx)
  dsimp only
  refine Yields.ite (fun _ => ?_) fun _ => Yields.ite (fun _ => ?_) fun _ => Yields.ite (fun _ => ?_) fun _ =>
    Yields.ite (fun _ => ?_) fun _ => Yields.ite (fun _ => ?_) fun _ => ?_
  · obtain ⟨n, hn⟩ : ∃ n, n = 1 + (r.2.1 0x01).toNat := ⟨_, rfl⟩
    rw [← hn]
    have hsizes : r.2.2.size = size ∧ r.2.2.validSize = size :=
      ⟨hmoved.sizes.1.trans hl.dir.1, hmoved.sizes.2.trans hl.dir.2⟩
    refine (yields_parseFileEntry hA hcs hentries (hsizes.2.trans hsizes.1.symm) (by omega)
      hl.aligned hreached.index).bind
      fun x hx => ?_
    obtain ⟨hmoved', hnode⟩ := hx
    rcases x with ⟨e | node, dir⟩
    · exact yields_pure hl
    · obtain ⟨hnode, hoffset, hthree, hset, hcontinuations⟩ := hnode node rfl
      have hall : node.entrySet sb limit ≤ 32 * n := by
        rw [Node.entrySet]
        split_ifs with hheap
        · rw [hcontinuations hheap, ← hbyte hheap, hn]
        · exact Nat.mul_le_mul_left 32 hthree
      have hdir' : dir.size = size ∧ dir.validSize = size :=
        ⟨hmoved'.sizes.1.trans hsizes.1, hmoved'.sizes.2.trans hsizes.2⟩
      exact yields_pure (hl.append hdir' hnode hoffset hall (hsizes.1 ▸ hset))
  · exact (yields_readUpcase hA hl.volume r.2.1).bind fun x hx => hskip x hx
  · exact (yields_readBitmap hA hl.volume r.2.1).bind fun x hx => hskip x hx
  · exact hskip _ fun fs h => readLabel_sound hl.volume h
  · exact hskip _ fun fs h => Except.ok.inj h ▸ hl.volume
  · exact yields_pure hl

theorem yields_exfatCacheDirectory (hfs : fs.Sound sb) {dir : Node} (hdir : dir.validSize = dir.size) :
    Yields I (fun r => ∀ l, r = .ok l → l.Sound sb limit dir.size) (exfatCacheDirectory P fuel fs dir) := by
  have hstart : Listing.Sound sb limit dir.size { fs := fs, dir := dir } :=
    ⟨hfs, ⟨rfl, hdir⟩, Nat.dvd_zero 32, Nat.zero_le _, List.forall_mem_nil _, List.Pairwise.nil⟩
  rw [exfatCacheDirectory]
  refine Yields.bind (S := fun r => r.2.Sound sb limit dir.size) ?_ fun r hr => yields_pure fun l h => ?_
  · refine Yields.loop (J := fun l => l.Sound sb limit dir.size) (fun l hl => ?_) fuel hstart
    refine (yields_readdir hA hcs hentries hl).mono fun r hr => ?_
    rcases r with l' | y
    · exact hr
    · exact hr
  · split_ifs at h
    rw [← Except.ok.inj h]
    exact hr

end Directory

/-- An accepted volume. -/
structure Listing.WellFormed (volumeSize : ℤ) (l : Listing) : Prop where
  clusters : 512 ≤ clusterSize l.fs.sb ∧ clusterSize l.fs.sb ≤ 33554432
  heap : (sbClusterCount l.fs.sb * clusterSize l.fs.sb : ℕ) ≤ volumeSize
  root : ∃ n, 0 < n ∧ n ≤ sbClusterCount l.fs.sb ∧ l.dir.size = n * clusterSize l.fs.sb
  label : l.fs.label.length ≤ 46 ∧ ∃ bs, l.fs.label = bs ++ [0]
  cmap : ∃ chunk, l.fs.chunk = some chunk ∧ l.fs.cmapSize = sbClusterCount l.fs.sb ∧
    ¬clusterInvalid l.fs.sb l.fs.cmapStart
  upcase : ∃ table, l.fs.upcase = some table ∧ ∀ c < 65536, table c < 65536
  children : ∀ node ∈ l.children, node.WellFormed l.fs.sb

/-- The first `length` bytes of the entry sets are inside the directory, those of one set behind
those of the other. -/
structure Listing.Separates (length : Node → ℕ) (l : Listing) : Prop where
  inside : ∀ node ∈ l.children, node.entryOffset + length node ≤ l.dir.size
  apart : l.children.Pairwise fun x y => x.entryOffset + length x ≤ y.entryOffset

theorem Listing.Separates.mono {f g : Node → ℕ} {l : Listing} (h : l.Separates f)
    (hle : ∀ node ∈ l.children, g node ≤ f node) :
    l.Separates g where
  inside node hnode := Nat.le_trans (Nat.add_le_add_left (hle node hnode) _) (h.inside node hnode)
  apart := h.apart.imp_of_mem fun hx _ hxy => Nat.le_trans (Nat.add_le_add_left (hle _ hx) _) hxy

section Mount

variable {δ : Type} {P : Platform δ} {fuel limit : ℕ} {sb : Buf} {I : Device δ → Prop} {content : ℕ → UInt8}

theorem clusterSize_of_checkSuperBlock (h : checkSuperBlock sb = true) :
    512 ≤ clusterSize sb ∧ clusterSize sb ≤ 33554432 ∧ 32 ∣ clusterSize sb := by
  rw [checkSuperBlock, decide_eq_true_iff] at h
  obtain ⟨-, hlow, hhigh⟩ := h
  have hpow : clusterSize sb = 2 ^ (sbSectorBits sb + sbSpcBits sb) := (Nat.pow_add 2 _ _).symm
  rw [hpow]
  refine ⟨Nat.pow_le_pow_right Nat.two_pos (Nat.le_trans hlow (Nat.le_add_right _ _)),
    Nat.pow_le_pow_right Nat.two_pos hhigh, ?_⟩
  exact pow_dvd_pow 2 (show 5 ≤ sbSectorBits sb + sbSpcBits sb by omega)

variable (hA : Answers P fuel I limit content)
include hA

theorem yields_rootdirClusters (n clusters cluster : ℕ) :
    Yields I (· ≤ clusters + n) (rootdirClusters P fuel sb n clusters cluster) := by
  induction n generalizing clusters cluster with
  | zero => exact yields_pure (Nat.zero_le _)
  | succ n ih =>
    rw [rootdirClusters]
    refine Yields.ite (fun _ => yields_pure (Nat.zero_le _)) fun _ =>
      (yields_exfatNextCluster hA _ _).bind fun next _ => ?_
    refine Yields.ite (fun _ => yields_pure ?_) fun _ => ?_
    · exact Nat.add_le_add_left (Nat.succ_pos n) clusters
    · refine (ih (clusters + 1) next).mono fun r hr => ?_
      omega

theorem yields_rootdirSize :
    Yields I (fun size => ∃ n, n ≤ sbClusterCount sb ∧ size = n * clusterSize sb)
      (rootdirSize P fuel sb) := by
  rw [rootdirSize]
  refine (yields_rootdirClusters hA (sbClusterCount sb) 0 _).bind fun n hn => yields_pure ⟨n, ?_, rfl⟩
  rwa [Nat.zero_add] at hn

theorem yields_addVbrSectors (sectorSize n i : ℕ) (sector : Buf) (sum : BitVec 32) :
    Yields I (fun _ => True) (addVbrSectors P fuel sectorSize n i sector sum) := by
  induction n generalizing i sector sum with
  | zero => exact yields_pure trivial
  | succ n ih =>
    rw [addVbrSectors]
    exact (hA.pread _ _ _).bind fun r _ => Yields.ite (fun _ => yields_pure trivial) fun _ => ih _ _ _

theorem yields_verifyVbrChecksum (sector : Buf) :
    Yields I (fun _ => True) (verifyVbrChecksum P fuel sb sector) := by
  rw [verifyVbrChecksum]
  refine (hA.pread _ _ 0).bind fun r _ => Yields.ite (fun _ => yields_pure trivial) fun _ => ?_
  refine (yields_addVbrSectors hA _ _ _ _ _).bind fun sum _ => ?_
  rcases sum with _ | ⟨sector, sum⟩
  · exact yields_pure trivial
  · exact (hA.pread _ _ _).bind fun r _ => Yields.ite (fun _ => yields_pure trivial) fun _ =>
      yields_pure trivial

theorem yields_exfatMount (volumeSize : ℤ) : Yields I (fun r => ∀ l, r = .ok l →
    l.WellFormed volumeSize ∧ l.Separates (Node.entrySet l.fs.sb limit)) (exfatMount P fuel volumeSize) := by
  rw [exfatMount]
  refine hA.malloc.bind fun _ _ => Yields.ite (fun _ => yields_error _) fun _ => ?_
  refine hA.malloc.bind fun _ _ => Yields.ite (fun _ => yields_error _) fun _ => ?_
  refine (hA.pread zeros 512 0).bind fun r _ => Yields.ite (fun _ => yields_error _) fun _ => ?_
  refine Yields.ite (fun _ => yields_error _) fun hblock => ?_
  refine hA.malloc.bind fun _ _ => Yields.ite (fun _ => yields_error _) fun _ => ?_
  refine (yields_verifyVbrChecksum hA zeros).bind fun _ _ => Yields.ite (fun _ => yields_error _) fun _ => ?_
  refine Yields.ite (fun _ => yields_error _) fun hvolume => ?_
  refine hA.malloc.bind fun _ _ => Yields.ite (fun _ => yields_error _) fun _ => ?_
  refine (yields_rootdirSize hA).bind fun size hsize => Yields.ite (fun _ => yields_error _) fun hpos => ?_
  obtain ⟨hlow, hhigh, hentries⟩ := clusterSize_of_checkSuperBlock (Bool.eq_true_of_not_eq_false hblock)
  have hfs : Fs.Sound r.2 { sb := r.2 } := ⟨rfl, by simp, by simp, Nat.one_le_ofNat, [], rfl⟩
  refine (yields_exfatCacheDirectory hA (by omega) hentries hfs rfl).bind fun x hx => ?_
  rcases x with e | l
  · exact yields_error _
  · refine yields_pure fun l' h => ?_
    split_ifs at h with hfound
    rw [← Except.ok.inj h]
    have hl := hx l rfl
    have hb := hl.volume.block
    have hdir : l.dir.size = size := hl.dir.1
    rw [not_or, Option.isNone_iff_eq_none, Option.isNone_iff_eq_none, ← ne_eq, ← ne_eq,
      Option.ne_none_iff_exists',
      Option.ne_none_iff_exists'] at hfound
    obtain ⟨⟨table, htable⟩, chunk, hchunk⟩ := hfound
    have hcheck := Bool.eq_true_of_not_eq_false hvolume
    rw [checkVolume, decide_eq_true_iff] at hcheck
    obtain ⟨n, hn, rfl⟩ := hsize
    have hcmap := hl.volume.chunk (by rw [hchunk]; rfl)
    rw [← hb] at hcheck hcmap hn hlow hhigh
    refine ⟨⟨⟨hlow, hhigh⟩, hcheck.2.2.2,
      ⟨n, Nat.pos_of_ne_zero fun h => hpos (by rw [h, Nat.zero_mul]), hn, by rw [hdir, hb]⟩,
      hl.volume.label, ⟨chunk, hchunk, hcmap⟩, ⟨table, htable, hl.volume.upcase table htable⟩,
      fun node hnode => ?_⟩, ?_⟩
    · rw [hb]
      exact (hl.children node hnode).1
    · rw [hb]
      exact ⟨fun node hnode => Nat.le_trans (hl.children node hnode).2 (hl.inside.trans hdir.ge), hl.apart⟩

end Mount

section Accepted

variable {δ : Type} {P : Platform δ} {fuel : ℕ}

end Accepted

section Still

variable {d : Stick}

/-- Nothing is cached, and the stick holds what it held. -/
structure Still (d : Stick) (w : World Stick) : Prop where
  idle : Idle w
  driveOffset : w.drv.gDriveOffsetSectors = 0
  spec : w.dev.spec = d.spec
  medium : w.dev.medium = d.medium

theorem still_read10 (lba blocks : ℕ) (data : Buf) (len : ℕ) :
    Keeps (Still d) (read10 stick lba blocks data len) := by
  intro w hw
  have hop : (Cmd.mk (cdb10 0x28 lba blocks) 0x80 len).opcode ≠ 0x35 := (show (0x28 : UInt8) ≠ 0x35 by decide)
  refine wp_state (wp_mono (wp_scsiCommand hop data) (fun r t ht => ?_) fun _ h => h.elim)
  obtain ⟨u, hdrv⟩ := ht.drv
  have hsame : t.dev.medium = w.dev.medium := by
    rcases ht.outcome with ⟨-, -, hmedium⟩ | ⟨-, -, hmedium⟩
    · rw [hmedium, Stick.mediumAfter, if_neg]
      exact (show (0x28 : UInt8) ≠ 0x2a by decide)
    · exact hmedium
  refine ⟨⟨?_, ?_, ?_⟩, ?_, ht.spec.trans hw.spec, hsame.trans hw.medium⟩
  · rw [hdrv]
    exact hw.idle.sectorSize
  · rw [ht.spec]
    exact hw.idle.blockSize
  · rw [hdrv]
    exact hw.idle.empty
  · rw [hdrv]
    exact hw.driveOffset

theorem still_read (fuel : ℕ) (buf : Buf) (count offset : ℤ) :
    Keeps (Still d) (scsiIoInternal stick fuel buf count offset false) := by
  have hflush : Keeps (Still d) (scsiFlushCacheInternal stick) := by
    intro w hw
    refine wp_state ?_
    rw [scsiFlushCacheInternal, wp_bind, wp_globals]
    cases w.drv.gWriteCache with
    | none => exact hw
    | some cache => exact wp_ite (fun _ => hw) fun hne => absurd hw.idle.empty hne
  refine keeps_io (fun _ _ hw => ⟨⟨hw.idle.sectorSize, hw.idle.blockSize, hw.idle.empty⟩, hw.driveOffset,
    hw.spec, hw.medium⟩) ?_
  refine keeps_transfer (keeps_ioPass (fun _ => ?_) (fun h => absurd rfl h) fun h => absurd rfl h) fuel buf
    count offset
  refine keeps_readPass (fun _ hw => hflush.wp hw) still_read10
    (fun start len f hf => keeps_update fun w hw => ?_) fun _ hw => hw
  obtain ⟨b, hb⟩ := hf w.drv
  rw [hb]
  exact ⟨⟨hw.idle.sectorSize, hw.idle.blockSize, hw.idle.empty⟩, hw.driveOffset, hw.spec, hw.medium⟩

/-- A faultless stick answers every read of a volume from what it holds. -/
theorem answers_still (hf : Faultless d.spec) {fuel limit : ℕ} (hfuel : 2 ^ 32 ≤ fuel)
    (hlimit : limit ≤ 2147483648) :
    Answers stick fuel (fun s => Still d s.1) limit d.medium where
  malloc s hs := ⟨trivial,
    ⟨⟨hs.idle.sectorSize, hs.idle.blockSize, hs.idle.empty⟩, hs.driveOffset, hs.spec, hs.medium⟩⟩
  pread buf size offset s hs := by
    rw [exfatPread, wp_left]
    have hkept := (still_read fuel buf size offset).wp hs
    by_cases hin : offset + size ≤ limit
    · have hx : Carried s.1.drv.gDriveOffsetSectors ⟨false, offset, size⟩ := by
        rw [carried_read, hs.driveOffset]
        exact ⟨fun _ => by omega, by omega⟩
      have hread := (hs.idle.tracks (hs.spec ▸ hf)).wp_read hfuel buf hx
      refine wp_mono (wp_with hread (wp_mono hkept (fun _ _ h => h) fun _ _ => trivial)) (fun r t ht => ?_)
        fun _ h => h.elim
      obtain ⟨⟨-, hbytes⟩, ht⟩ := ht
      refine ⟨fun _ _ i hi => ?_, ht⟩
      have hbyte : r.2 i = _ := List.map_inj_left.mp hbytes i (List.mem_range.mpr hi)
      rw [hbyte, hs.driveOffset, window_apply, Nat.zero_mul, window_apply, Nat.zero_add, hs.medium]
    · exact wp_mono hkept (fun r t ht => ⟨fun _ h => absurd h hin, ht⟩) fun _ _ => trivial

end Still

/-- Pieces of data at their places. -/
def placed (pieces : List (ℕ × List UInt8)) : Buf := pieces.foldl (fun b x => put b x.1 x.2) zeros

/-- A volume of four clusters of 512 bytes. Its root directory has the entries of the bitmap, of the
upcase table and of one file, whose set is of three entries. -/
def filedMedium : Buf := fun i =>
  if i < 512 then placed [(3, [0x45, 0x58, 0x46, 0x41, 0x54, 0x20, 0x20, 0x20]), (0x50, leBytes 4 12),
    (0x58, leBytes 4 13),
    (0x5c, leBytes 4 4 ++ leBytes 4 2), (0x68, [0, 1]), (0x6c, [9, 0, 1])] i
  else if i < 5632 then 0
  else if i < 6144 then (leBytes 4 0xd0d60aa4).getD (i % 4) 0
  else placed [(6152, leBytes 4 clusterEnd), (6656, [0x81]), (6676, leBytes 4 3 ++ leBytes 8 1),
    (6688, [0x82]), (6708, leBytes 4 4 ++ leBytes 8 2), (6720, [0x85, 2, 0x0e, 0x23, 0x20]),
    (6752, [0xc0, 3, 0, 1]), (6760, leBytes 8 5), (6772, leBytes 4 5 ++ leBytes 8 5), (6784, [0xc1, 0, 0x61]),
    (7168, [0x0f]), (7680, [0x41])] i

def filedStick : Stick :=
  { spec := { fate := fun _ => .done, lastLba := 16, config := none }, medium := filedMedium }

/-- Its file has its set behind the two other entries. -/
def Listing.HasFile (l : Listing) : Prop :=
  l.children.map (fun node => (node.entryOffset, node.continuations, node.name.take 1, node.size)) =
    [(64, 2, [0x61], 5)]

instance (l : Listing) : Decidable l.HasFile := inferInstanceAs (Decidable (_ = _))

end FormatStick.Exfat
