import FormatStick.ExfatImage
import FormatStick.ExfatMount

/-!
# Reading along a chain of clusters

`exfat_generic_pread` follows the links of the FAT from the cluster it was at last, reads the
clusters piece by piece and takes what is not valid as zeros. Whatever was read before, a read
delivers the bytes of one flat file: those of the clusters of the chain, one after the other.
-/
namespace FormatStick.Exfat
open Prog Splice Fields FlatFile

section Medium

variable {d o fuel : ℕ} {front b : ℕ → UInt8}

/-- A read leaves the window alone. -/
theorem attains_exfatPread (hfuel : 2 ^ 32 ≤ fuel) (buf : Buf) {n offset : ℕ}
    (hx : Carried d ⟨false, offset, n⟩) :
    Attains (At front d b o) (fun r => r.1 = (n : ℤ) ∧ ∀ i < n, r.2 i = b (offset + i))
      (exfatPread stick fuel buf n offset) := by
  intro s hs
  rw [exfatPread, wp_left]
  refine wp_mono (wp_with (hs.tracks.wp_read hfuel buf hx) (hs.tracks.wp_front hfuel buf hx))
    (fun r t ht => ?_) fun _ h => h
  obtain ⟨⟨hwent, hbytes⟩, hfront⟩ := ht
  refine ⟨⟨hwent.ret, fun i hi => ?_⟩, hwent.tracks, fun i hi => (hfront i hi).trans (hs.front i hi), hs.pos⟩
  exact List.map_inj_left.mp hbytes i (List.mem_range.mpr hi)

theorem attains_exfat_malloc : Attains (At front d b o) (· = true) (malloc stick).left :=
  fun _ hs => hs.wp_malloc

end Medium

/-- A volume whose FAT and clusters the driver can reach behind block `d`. -/
structure InReach (d : ℕ) (sb : Buf) : Prop where
  bits : 9 ≤ sbSectorBits sb ∧ sbSectorBits sb + sbSpcBits sb ≤ 25
  heap : ∀ cluster, ¬clusterInvalid sb cluster →
    d * 512 + exfatC2o sb cluster + clusterSize sb ≤ 2199023255552
  fat : ∀ cluster, ¬clusterInvalid sb cluster →
    d * 512 + s2o sb (sbFatSectorStart sb) + cluster * 4 + 4 ≤ 2199023255552

theorem InReach.clusterSize {d : ℕ} {sb : Buf} (h : InReach d sb) :
    512 ≤ clusterSize sb ∧ Exfat.clusterSize sb ≤ 33554432 := by
  have hpow : Exfat.clusterSize sb = 2 ^ (sbSectorBits sb + sbSpcBits sb) := (Nat.pow_add 2 _ _).symm
  have hlow := Nat.pow_le_pow_right Nat.two_pos (Nat.le_trans h.bits.1 (Nat.le_add_right _ (sbSpcBits sb)))
  have hhigh := Nat.pow_le_pow_right Nat.two_pos h.bits.2
  rw [hpow]
  exact ⟨hlow, hhigh⟩

/-- The cluster that the FAT, or the contiguity of the file, puts behind another. -/
def nextCluster (b : ℕ → UInt8) (sb : Buf) (isContiguous : Bool) (cluster : ℕ) : ℕ :=
  if isContiguous then u32 ((cluster : ℤ) + 1) else leNat b (s2o sb (sbFatSectorStart sb) + cluster * 4) 4

/-- A list of clusters of the volume, each linked to the next. -/
structure Chain (b : ℕ → UInt8) (sb : Buf) (isContiguous : Bool) (chain : List ℕ) : Prop where
  valid : ∀ cluster ∈ chain, ¬clusterInvalid sb cluster
  linked : ∀ k cluster next, chain[k]? = some cluster → chain[k + 1]? = some next →
    nextCluster b sb isContiguous cluster = next

/-- The byte at `i` of the clusters of a chain, one after the other. -/
def chainByte (b : ℕ → UInt8) (sb : Buf) (chain : List ℕ) (i : ℕ) : UInt8 :=
  b (exfatC2o sb (chain.getD (i / clusterSize sb) 0) + i % clusterSize sb)

/-- A node with its chain: the start, the cluster it was at last, and a size that the chain can hold. -/
structure Node.Follows (b : ℕ → UInt8) (sb : Buf) (chain : List ℕ) (node : Node) : Prop where
  chained : Chain b sb node.isContiguous chain
  start : chain[0]? = some node.startCluster
  cached : chain[node.fptrIndex]? = some node.fptrCluster
  validSize : node.validSize ≤ node.size
  size : node.size ≤ chain.length * clusterSize sb
  short : chain.length < 4294967296

/-- The byte at `i` of a file. -/
def Node.byte (b : ℕ → UInt8) (sb : Buf) (chain : List ℕ) (node : Node) (i : ℕ) : UInt8 :=
  if i < node.validSize then chainByte b sb chain i else 0

section Clusters

variable {d o fuel : ℕ} {front b : ℕ → UInt8} {sb : Buf} {chain : List ℕ}

theorem attains_exfatNextCluster (hfuel : 2 ^ 32 ≤ fuel) (hreach : InReach d sb) (isContiguous : Bool)
    {cluster : ℕ}
    (hvalid : ¬clusterInvalid sb cluster) :
    Attains (At front d b o) (· = nextCluster b sb isContiguous cluster)
      (exfatNextCluster stick fuel sb isContiguous cluster) := by
  have hfat := hreach.fat cluster hvalid
  have hlow : ¬cluster < 2 := fun h => hvalid (.inl h)
  rw [exfatNextCluster, if_neg hlow, nextCluster]
  split_ifs
  · exact attains_pure rfl
  · have hx : Carried d ⟨false, s2o sb (sbFatSectorStart sb) + cluster * 4, 4⟩ :=
      carried_read.mpr ⟨fun _ => by rwa [Nat.add_assoc (d * 512)] at hfat, by omega⟩
    refine (attains_exfatPread hfuel zeros hx).bind fun r hr => ?_
    obtain ⟨hret, hbytes⟩ := hr
    rw [if_neg (by omega)]
    refine attains_pure (leNat_congr fun i hi => ?_)
    rw [Nat.zero_add]
    exact hbytes i hi

/-- From cluster `k` of a chain to cluster `k + n`. -/
theorem attains_advanceClusters (hfuel : 2 ^ 32 ≤ fuel) (hreach : InReach d sb) {isContiguous : Bool}
    (hchain : Chain b sb isContiguous chain) {n k cluster target : ℕ} (hfrom : chain[k]? = some cluster)
    (hto : chain[k + n]? = some target) :
    Attains (At front d b o) (· = target) (advanceClusters stick fuel sb isContiguous n cluster) := by
  induction n generalizing k cluster with
  | zero =>
    rw [Nat.add_zero, hfrom] at hto
    exact attains_pure (Option.some.inj hto)
  | succ n ih =>
    have hlt : k + 1 < chain.length := by
      have hend := (List.getElem?_eq_some_iff.mp hto).1
      omega
    obtain ⟨next, hnext⟩ : ∃ next, chain[k + 1]? = some next := ⟨_, List.getElem?_eq_getElem hlt⟩
    have hlink := hchain.linked k cluster next hfrom hnext
    refine (attains_exfatNextCluster hfuel hreach isContiguous
      (hchain.valid cluster (List.mem_of_getElem? hfrom))).bind
      fun c hc => ?_
    rw [hlink] at hc
    subst hc
    rw [if_neg (hchain.valid c (List.mem_of_getElem? hnext))]
    refine ih hnext ?_
    rwa [Nat.add_assoc, Nat.add_comm 1 n]

/-- The cached position makes no difference. -/
theorem attains_exfatAdvanceCluster (hfuel : 2 ^ 32 ≤ fuel) (hreach : InReach d sb) {node : Node}
    (hnode : node.Follows b sb chain) {count cluster : ℕ} (hcluster : chain[count]? = some cluster) :
    Attains (At front d b o) (· = { node with fptrIndex := count, fptrCluster := cluster })
      (exfatAdvanceCluster stick fuel sb node count) := by
  rw [exfatAdvanceCluster]
  split_ifs with hback
  · have hto : chain[0 + (count - 0)]? = some cluster := by rwa [Nat.sub_zero, Nat.zero_add]
    refine (attains_advanceClusters hfuel hreach hnode.chained hnode.start hto).bind fun c hc => ?_
    subst hc
    exact attains_pure rfl
  · have hto : chain[node.fptrIndex + (count - node.fptrIndex)]? = some cluster := by
      rwa [Nat.add_sub_cancel' (Nat.not_lt.mp hback)]
    refine (attains_advanceClusters hfuel hreach hnode.chained hnode.cached hto).bind fun c hc => ?_
    subst hc
    exact attains_pure rfl

end Clusters

section Reading

variable {d o fuel : ℕ} {front b : ℕ → UInt8} {sb : Buf} {chain : List ℕ}

/-- Where the loop of `exfat_generic_pread` is, of `total` bytes from `offset` on. -/
structure ReadSoFar (b : ℕ → UInt8) (sb : Buf) (chain : List ℕ) (offset total : ℕ) (c : Cursor) : Prop where
  total : c.done + c.remainder = total
  bytes : ∀ i < c.done, c.buf i = chainByte b sb chain (offset + i)
  cluster : 0 < c.remainder → chain[(offset + c.done) / clusterSize sb]? = some c.cluster
  loffset : 0 < c.remainder → c.loffset = (offset + c.done) % clusterSize sb

/-- The bytes of a piece that ends in its cluster. -/
theorem chainByte_piece {size : ℕ} (pos i : ℕ) (hsize : 0 < size) (hi : pos % size + i < size) :
    (pos + i) / size = pos / size ∧ (pos + i) % size = pos % size + i := by
  have hsplit : pos + i = size * (pos / size) + (pos % size + i) := by
    have h := Nat.div_add_mod pos size
    omega
  rw [hsplit, Nat.mul_add_div hsize, Nat.mul_add_mod, Nat.div_eq_of_lt hi, Nat.mod_eq_of_lt hi]
  exact ⟨Nat.add_zero _, rfl⟩

/-- A piece that is cut off by the end of its cluster ends where the next cluster begins. -/
theorem chainByte_next {size : ℕ} (pos : ℕ) (hsize : 0 < size) :
    (pos + (size - pos % size)) / size = pos / size + 1 ∧ (pos + (size - pos % size)) % size = 0 := by
  have hlt := Nat.mod_lt pos hsize
  have hsplit : pos + (size - pos % size) = size * (pos / size + 1) := by
    have h := Nat.div_add_mod pos size
    rw [Nat.mul_succ]
    omega
  rw [hsplit, Nat.mul_div_cancel_left _ hsize, Nat.mul_mod_right]
  exact ⟨rfl, rfl⟩

/-- A pass reads one piece. -/
theorem attains_readCluster (hfuel : 2 ^ 32 ≤ fuel) (hreach : InReach d sb) {isContiguous : Bool}
    (hchain : Chain b sb isContiguous chain) {offset total : ℕ}
    (htotal : offset + total ≤ chain.length * clusterSize sb)
    {c : Cursor} (hc : ReadSoFar b sb chain offset total c) :
    Attains (At front d b o) (fun r => match r with
      | .inl c' => ReadSoFar b sb chain offset total c' ∧ c'.remainder < c.remainder
      | .inr x => x.1 = (total : ℤ) ∧ ∀ i < total, x.2 i = chainByte b sb chain (offset + i))
      (readCluster stick fuel sb isContiguous c) := by
  obtain ⟨hlow, hhigh⟩ := hreach.clusterSize
  have hsize : 0 < clusterSize sb := by omega
  have hsum := hc.total
  rw [readCluster]
  by_cases hzero : c.remainder = 0
  · rw [if_pos hzero]
    have hdone : c.done = total := by omega
    refine attains_pure ⟨congrArg Nat.cast hdone, fun i hi => hc.bytes i (by omega)⟩
  · rw [if_neg hzero]
    have hcluster := hc.cluster (by omega)
    have hloffset := hc.loffset (by omega)
    have hlt : c.loffset < clusterSize sb := by
      rw [hloffset]
      exact Nat.mod_lt _ hsize
    have hvalid := hchain.valid c.cluster (List.mem_of_getElem? hcluster)
    have hheap := hreach.heap c.cluster hvalid
    rw [if_neg hvalid]
    dsimp only
    obtain ⟨lsize, hlsize⟩ : ∃ lsize, lsize = min (clusterSize sb - c.loffset) c.remainder := ⟨_, rfl⟩
    rw [← hlsize]
    have hx : Carried d ⟨false, exfatC2o sb c.cluster + c.loffset, lsize⟩ :=
      carried_read.mpr ⟨fun _ => by omega, by omega⟩
    refine (attains_exfatPread hfuel _ hx).bind fun r hr => ?_
    obtain ⟨hret, hbytes⟩ := hr
    rw [if_neg (by omega)]
    refine (attains_exfatNextCluster hfuel hreach isContiguous hvalid).bind fun next hnext => ?_
    refine attains_pure ⟨⟨by dsimp only; omega, fun i hi => ?_, fun hmore => ?_,
      fun hmore => ?_⟩, by dsimp only; omega⟩
    · dsimp only at hi ⊢
      by_cases hold : i < c.done
      · rw [splice_of_lt hold]
        exact hc.bytes i hold
      · have hin : i - c.done < lsize := by omega
        have hpos : offset + i = offset + c.done + (i - c.done) := by omega
        obtain ⟨hdiv, hmod⟩ := chainByte_piece (offset + c.done) (i - c.done) hsize (by omega)
        rw [splice_of_mem (Nat.not_lt.mp hold) (by omega), hbytes _ hin, chainByte, hpos, hdiv, hmod,
          List.getD_eq_getElem?_getD, hcluster, Option.getD_some, hloffset, Nat.add_assoc]
    · dsimp only at hmore ⊢
      have hpiece : lsize = clusterSize sb - (offset + c.done) % clusterSize sb := by omega
      obtain ⟨hdiv, -⟩ := chainByte_next (offset + c.done) hsize
      have hlt : (offset + c.done) / clusterSize sb + 1 < chain.length := by
        rw [← hdiv]
        apply Nat.div_lt_of_lt_mul
        rw [Nat.mul_comm]
        omega
      have hlink := hchain.linked _ c.cluster _ hcluster (List.getElem?_eq_getElem hlt)
      rw [← Nat.add_assoc, hpiece, hdiv, List.getElem?_eq_getElem hlt, ← hlink, hnext]
    · dsimp only at hmore ⊢
      have hpiece : lsize = clusterSize sb - (offset + c.done) % clusterSize sb := by omega
      obtain ⟨-, hmod⟩ := chainByte_next (offset + c.done) hsize
      rw [← Nat.add_assoc, hpiece, hmod]

/-- The loop reads to the end of the request. -/
theorem attains_readLoop (hfuel : 2 ^ 32 ≤ fuel) (hreach : InReach d sb) {isContiguous : Bool}
    (hchain : Chain b sb isContiguous chain) {offset total : ℕ}
    (htotal : offset + total ≤ chain.length * clusterSize sb)
    (hshort : total < 4294967296) {c : Cursor} (hc : ReadSoFar b sb chain offset total c) :
    Attains (At front d b o)
      (fun x => x.1 = (total : ℤ) ∧ ∀ i < total, x.2 i = chainByte b sb chain (offset + i))
      (Prog.loop (readCluster stick fuel sb isContiguous) fuel c) := by
  intro s hs
  refine wp_loop_cut (fun c t => ReadSoFar b sb chain offset total c ∧ At front d b o t) Cursor.remainder ?_
    ?_ ⟨hc, hs⟩
  · rintro j t ⟨hj, -⟩ hcut
    have hsum := hc.total
    omega
  · rintro j t ⟨hj, ht⟩
    refine wp_mono (attains_readCluster hfuel hreach hchain htotal hj t ht) (fun r u hu => ?_) fun _ h => h
    rcases r with c' | x
    · exact ⟨⟨hu.1.1, hu.2⟩, hu.1.2⟩
    · exact hu

/-- What a read delivers: how much of the file there is, its bytes, and the node with a new cached cluster. -/
structure Delivers (b : ℕ → UInt8) (sb : Buf) (chain : List ℕ) (node : Node) (size offset : ℕ)
    (r : ℤ × Buf × Node) : Prop where
  count : r.1 = (min size (node.size - offset) : ℕ)
  bytes : ∀ i < min size (node.size - offset), r.2.1 i = node.byte b sb chain (offset + i)
  cached : ∃ index cluster, r.2.2 = { node with fptrIndex := index, fptrCluster := cluster } ∧
    chain[index]? = some cluster

theorem attains_preadValid (hfuel : 2 ^ 32 ≤ fuel) (hreach : InReach d sb) {node : Node}
    (hnode : node.Follows b sb chain)
    (buf : Buf) {size offset : ℕ} (hsize : size < 4294967296) (hpos : 0 < size)
    (hvalid : offset + size ≤ node.validSize) :
    Attains (At front d b o) (Delivers b sb chain node size offset)
      (preadValid stick fuel sb node buf size offset) := by
  obtain ⟨hlow, hhigh⟩ := hreach.clusterSize
  have hfile := hnode.validSize
  have hroom := hnode.size
  have hlt : offset / clusterSize sb < chain.length := by
    apply Nat.div_lt_of_lt_mul
    rw [Nat.mul_comm]
    omega
  have hcount : u32 (offset / clusterSize sb : ℕ) = offset / clusterSize sb :=
    u32_of_lt (Nat.lt_trans hlt hnode.short)
  have hall : min size (node.size - offset) = size := by omega
  rw [preadValid, hcount]
  refine (attains_exfatAdvanceCluster hfuel hreach hnode (List.getElem?_eq_getElem hlt)).bind
    fun node' hnode' => ?_
  subst hnode'
  dsimp only
  rw [if_neg (hnode.chained.valid _ (List.getElem_mem hlt)), hall]
  have hstart : ReadSoFar b sb chain offset size
      ⟨chain[offset / clusterSize sb], offset % clusterSize sb, size, 0, buf⟩ :=
    ⟨Nat.zero_add size, fun i hi => absurd hi (Nat.not_lt_zero i), fun _ => List.getElem?_eq_getElem hlt,
      fun _ => rfl⟩
  refine (attains_readLoop hfuel hreach hnode.chained (by omega) hsize hstart).bind fun r hr => ?_
  refine attains_pure ⟨by rw [hall]; exact hr.1, fun i hi => ?_, _, _, rfl, List.getElem?_eq_getElem hlt⟩
  rw [hall] at hi
  rw [Node.byte, if_pos (by omega)]
  exact hr.2 i hi

/-- A read returns the bytes of the file, whatever was read before. -/
theorem attains_exfatGenericPread (hfuel : 2 ^ 32 ≤ fuel) (hreach : InReach d sb) {node : Node}
    (hnode : node.Follows b sb chain) (buf : Buf) {size : ℕ} (hsize : size < 4294967296) (offset : ℕ) :
    Attains (At front d b o) (Delivers b sb chain node size offset)
      (exfatGenericPread stick fuel sb node buf size offset) := by
  have hfile := hnode.validSize
  have hsame : ∃ index cluster, node = { node with fptrIndex := index, fptrCluster := cluster } ∧
      chain[index]? = some cluster :=
    ⟨node.fptrIndex, node.fptrCluster, rfl, hnode.cached⟩
  rw [exfatGenericPread]
  split_ifs with hend hempty hbeyond hpart
  · have hnone : min size (node.size - offset) = 0 := by omega
    exact attains_pure ⟨by rw [hnone]; rfl,
      fun i hi => by rw [hnone] at hi; exact absurd hi (Nat.not_lt_zero i), hsame⟩
  · have hnone : min size (node.size - offset) = 0 := by omega
    exact attains_pure ⟨by rw [hnone]; rfl,
      fun i hi => by rw [hnone] at hi; exact absurd hi (Nat.not_lt_zero i), hsame⟩
  · -- a part is valid, the rest is zeros
    refine (attains_preadValid hfuel hreach hnode buf (show node.validSize - offset < 4294967296 by omega)
      (by omega) (by omega)).bind
      fun r hr => ?_
    obtain ⟨hcount, hbytes, hcached⟩ := hr
    have hpart : min (node.validSize - offset) (node.size - offset) = node.validSize - offset := by omega
    rw [hpart] at hcount hbytes
    have hdone : r.1.toNat = node.validSize - offset := by omega
    rw [if_neg (by omega), hdone]
    refine attains_pure ⟨by dsimp only; omega, fun i hi => ?_, hcached⟩
    dsimp only
    by_cases hi' : i < node.validSize - offset
    · rw [splice_of_lt hi']
      exact hbytes i hi'
    · rw [splice_of_mem (Nat.not_lt.mp hi') (by omega), Node.byte, if_neg (by omega)]
      rfl
  · refine attains_pure ⟨by dsimp only; omega, fun i hi => ?_, hsame⟩
    dsimp only
    rw [splice_of_mem (Nat.zero_le i) (by omega), Node.byte, if_neg (by omega)]
    rfl
  · exact attains_preadValid hfuel hreach hnode buf hsize (by omega) (by omega)

theorem Delivers.follows {node : Node} (hnode : node.Follows b sb chain) {size offset : ℕ}
    {r : ℤ × Buf × Node}
    (hr : Delivers b sb chain node size offset r) : r.2.2.Follows b sb chain ∧
      r.2.2.size = node.size ∧ r.2.2.byte b sb chain = node.byte b sb chain := by
  obtain ⟨index, cluster, heq, hcached⟩ := hr.cached
  rw [heq]
  exact ⟨⟨hnode.chained, hnode.start, hcached, hnode.validSize, hnode.size, hnode.short⟩, rfl, rfl⟩

end Reading

/-- A read: the buffer before it, the size and the offset. -/
structure FileRead where
  buffer : Buf
  size : ℕ
  offset : ℕ

/-- Reads of a node one after the other: what each returns, and the bytes it leaves in its buffer. -/
def genericPreads {δ : Type} (P : Platform δ) (fuel : ℕ) (sb : Buf) :
    Node → List FileRead → Prog (Device δ) (List (ℤ × List UInt8))
  | _, [] => pure []
  | node, ⟨buffer, size, offset⟩ :: requests => do
    let r ← exfatGenericPread P fuel sb node buffer size offset
    let rest ← genericPreads P fuel sb r.2.2 requests
    pure ((r.1, bytes r.2.1 r.1.toNat) :: rest)

section Runs

variable {d o fuel : ℕ} {front b : ℕ → UInt8} {sb : Buf} {chain : List ℕ} {node : Node}

/-- What a read of the flat file delivers. -/
def Node.slice (b : ℕ → UInt8) (sb : Buf) (chain : List ℕ) (node : Node) (request : FileRead) :
    ℤ × List UInt8 :=
  let n := min request.size (node.size - request.offset)
  (n, (List.range n).map fun i => node.byte b sb chain (request.offset + i))

theorem attains_genericPreads (hfuel : 2 ^ 32 ≤ fuel) (hreach : InReach d sb)
    (hnode : node.Follows b sb chain)
    {requests : List FileRead} (hrequests : ∀ x ∈ requests, x.size < 4294967296) :
    Attains (At front d b o) (· = requests.map (node.slice b sb chain))
      (genericPreads stick fuel sb node requests) := by
  induction requests generalizing node with
  | nil => exact attains_pure rfl
  | cons x requests ih =>
    obtain ⟨buffer, size, offset⟩ := x
    rw [genericPreads, List.map_cons]
    refine (attains_exfatGenericPread hfuel hreach hnode buffer (hrequests _ List.mem_cons_self) offset).bind
      fun r hr => ?_
    obtain ⟨hfollows, hsize, hbyte⟩ := hr.follows hnode
    refine (ih hfollows fun x hx => hrequests x (List.mem_cons_of_mem _ hx)).bind fun rest hrest => ?_
    have hslices : r.2.2.slice b sb chain = node.slice b sb chain := by
      funext request
      simp only [Node.slice, hsize, hbyte]
    rw [hslices] at hrest
    subst hrest
    refine attains_pure (congrArg (· :: _) ?_)
    have hbytes : bytes r.2.1 (min size (node.size - offset)) =
        (List.range (min size (node.size - offset))).map fun i => node.byte b sb chain (offset + i) :=
      List.map_congr_left fun i hi => hr.bytes i (List.mem_range.mp hi)
    rw [hr.count, Int.toNat_natCast, hbytes]
    rfl

/-- Any reads of a file, in any order and into any buffers, deliver the slices of its flat content. -/
theorem genericPreads_flat {s : Device Stick} (hs : At front d b o s) (hfuel : 2 ^ 32 ≤ fuel)
    (hreach : InReach d sb)
    (hnode : node.Follows b sb chain) {requests : List FileRead}
    (hrequests : ∀ x ∈ requests, x.size < 4294967296) :
    ∃ t, genericPreads stick fuel sb node requests s = (some (requests.map (node.slice b sb chain)), t) ∧
      At front d b o t := by
  obtain ⟨rs, t, hrun, rfl, ht⟩ := wp_returns (attains_genericPreads hfuel hreach hnode hrequests s hs)
  exact ⟨t, hrun, ht⟩

/-- On a medium of ones every cluster is linked to cluster `0x01010101`; the last byte of the file
is not valid, and what was in its place in the buffer is overwritten. -/
theorem genericPreads_flat_ones :
    let sb := put (put zeros 0x5c (leBytes 4 33554432)) 0x6c [9, 0]
    let node : Node :=
      { startCluster := 2, fptrCluster := 2, attrib := 0x20, validSize := 1023, size := 1024 }
    ∃ t, genericPreads stick (2 ^ 32) sb node [⟨zeros, 3, 511⟩, ⟨zeros, 2, 0⟩, ⟨fun _ => 7, 9, 1022⟩]
        (roomyStick, some 0) =
      (some [(3, [1, 1, 1]), (2, [1, 1]), (2, [1, 0])], t) := by
  intro sb node
  have hcount : sbClusterCount sb = 33554432 := by decide
  have hbits : sbSectorBits sb = 9 ∧ sbSpcBits sb = 0 := by decide
  have hfat : sbFatSectorStart sb = 0 ∧ sbClusterSectorStart sb = 0 := by decide
  have hsize : clusterSize sb = 512 := by
    rw [clusterSize, hbits.1, hbits.2]
    rfl
  have hreach : InReach 4096 sb := by
    refine ⟨by omega, fun cluster hvalid => ?_, fun cluster hvalid => ?_⟩
    all_goals rw [clusterInvalid, hcount] at hvalid
    · rw [exfatC2o, s2o, hsize, hfat.2, hbits.1, hbits.2]
      omega
    · rw [s2o, hfat.1]
      omega
  have hchain : Chain (window roomyStick.dev.medium 2097152) sb false [2, 16843009] := by
    refine ⟨fun cluster hcluster => ?_, fun k cluster next hthis hnext => ?_⟩
    · simp only [List.mem_cons, List.not_mem_nil, or_false] at hcluster
      rw [clusterInvalid, hcount]
      omega
    · obtain _ | _ | k := k
      · obtain rfl : cluster = 2 := (Option.some.inj hthis).symm
        obtain rfl : next = 16843009 := (Option.some.inj hnext).symm
        have hones : leNat (fun _ => (1 : UInt8)) 0 4 = 16843009 := by decide
        rw [nextCluster, if_neg Bool.false_ne_true, ← hones]
        exact leNat_congr fun _ _ => rfl
      · cases hnext
      · cases hnext
  have hnode : node.Follows (window roomyStick.dev.medium 2097152) sb [2, 16843009] :=
    ⟨hchain, rfl, rfl, by decide, by rw [hsize]; decide, by decide⟩
  have hat : At roomyStick.dev.medium 4096 (window roomyStick.dev.medium 2097152) 0 (roomyStick, some 0) :=
    ⟨roomyStick_tracks, fun _ _ => rfl, rfl⟩
  obtain ⟨t, hrun, -⟩ := genericPreads_flat hat (Nat.le_refl _) hreach hnode
    (show ∀ x ∈ [FileRead.mk zeros 3 511, ⟨zeros, 2, 0⟩, ⟨fun _ => 7, 9, 1022⟩], x.size < 4294967296 by simp)
  have hsizes : node.size = 1024 ∧ node.validSize = 1023 := ⟨rfl, rfl⟩
  have hbyte : ∀ i, node.byte (window roomyStick.dev.medium 2097152) sb [2, 16843009] i =
      if i < 1023 then 1 else 0 :=
    fun i => rfl
  refine ⟨t, hrun.trans ?_⟩
  simp [Node.slice, hbyte, hsizes, List.range_succ]

end Runs

end FormatStick.Exfat
