import FormatStick.AdapterRuns
import FormatStick.ExfatLayout
import Mathlib.Data.List.Pairwise

/-!
# The image of an exFAT volume

The writers of the objects only write where the device stands, so each of them emits a list of
bytes, and the lists of successive writers are appended. `create` emits the contents of the
objects at their places after `erase` has emitted zeros there.
-/
namespace FormatStick.Exfat
open Prog Splice Fields

/-- A faultless stick whose window at block `d` holds `a` behind the bytes of `front`, and a device
that stands at `o`. -/
structure At (front : ℕ → UInt8) (d : ℕ) (a : ℕ → UInt8) (o : ℕ) (s : Device Stick) : Prop where
  tracks : Tracks d a s.1
  front : ∀ i < d * 512, (store s.1).view i = front i
  pos : s.2 = some (o : ℤ)

/-- A program that returns `x` and leaves the bytes `bs` where the device stood, and the device
behind them. -/
def Emits {α : Type} (d : ℕ) (m : Prog (Device Stick) α) (x : α) (bs : List UInt8) : Prop :=
  ∀ front a o s, At front d a o s → d * 512 + o + bs.length ≤ 2199023255552 →
    Prog.wp m (fun r t => r = x ∧ At front d (put a o bs) (o + bs.length) t) (fun _ => False) s

section Emits

variable {α β : Type} {d : ℕ} {m : Prog (Device Stick) α} {x : α} {bs cs : List UInt8}

theorem emits_pure (x : α) : Emits d (pure x) x [] := by
  intro front a o s hs _
  have hput : put a o [] = a := splice_zero a _ o
  refine ⟨rfl, ?_⟩
  rw [hput]
  exact hs

theorem Emits.bind {f : α → Prog (Device Stick) β} {y : β} (hm : Emits d m x bs) (hf : Emits d (f x) y cs) :
    Emits d (m >>= f) y (bs ++ cs) := by
  intro front a o s hs hroom
  rw [List.length_append] at hroom
  rw [wp_bind]
  refine wp_mono (hm front a o s hs (by omega)) (fun r t ht => ?_) fun _ h => h
  obtain ⟨rfl, ht⟩ := ht
  refine wp_mono (hf _ _ _ t ht (by omega)) (fun r u hu => ⟨hu.1, ?_⟩) fun _ h => h
  rw [List.length_append, ← Nat.add_assoc, ← put_put_append]
  exact hu.2

/-- What only looks at the value emits nothing. -/
theorem Emits.map {f : α → Prog (Device Stick) β} {y : β} (hm : Emits d m x bs) (hf : f x = pure y) :
    Emits d (m >>= f) y bs := by
  have hbind := hm.bind (hf ▸ emits_pure y)
  rwa [List.append_nil] at hbind

theorem Emits.congr (hm : Emits d m x bs) (h : bs = cs) : Emits d m x cs := h ▸ hm

end Emits

section Writers

variable {d fuel : ℕ} (hfuel : 2 ^ 32 ≤ fuel)

theorem bytes_put (bs : List UInt8) : bytes (put zeros 0 bs) bs.length = bs := by
  apply List.ext_getElem
  · simp [bytes]
  · intro i h₁ h₂
    have hput := put_at (f := zeros) (a := 0) h₂
    rw [Nat.zero_add] at hput
    simp [bytes, hput, List.getElem?_eq_getElem h₂]

theorem put_bytes (a : ℕ → UInt8) (o : ℕ) (buf : Buf) (n : ℕ) : put a o (bytes buf n) = splice a o buf n := by
  have hlen : (bytes buf n).length = n := by simp [bytes]
  rw [put, hlen]
  apply splice_congr
  intro i hi
  simp [bytes, hi]

theorem At.wp_malloc {front a : ℕ → UInt8} {o : ℕ} {s : Device Stick} (hs : At front d a o s) :
    Prog.wp (malloc stick).left (fun r t => r = true ∧ At front d a o t) (fun _ => False) s := by
  rw [wp_left]
  have hfront : Prog.wp (malloc stick) (fun _ t => ∀ i < d * 512, (store t).view i = (store s.1).view i)
      (fun _ => True) s.1 := fun _ _ => rfl
  exact wp_mono (wp_with (wp_malloc_stick hs.tracks) hfront)
    (fun r t ht => ⟨ht.1.1, ⟨ht.1.2, fun i hi => (ht.2 i hi).trans (hs.front i hi), hs.pos⟩⟩)
    fun _ h => h

/-- A writer that needs memory. -/
theorem Emits.allocating {m : Prog (Device Stick) ℤ} {x y : ℤ} {bs : List UInt8} (hm : Emits d m x bs) :
    Emits d (do
      let allocated ← (malloc stick).left
      if allocated = false then pure y else m) x bs := by
  intro front a o s hs hroom
  rw [wp_bind]
  refine wp_mono hs.wp_malloc (fun r t ht => ?_) fun _ h => h
  obtain ⟨rfl, ht⟩ := ht
  rw [if_neg Bool.true_eq_false.mp]
  exact hm front a o t ht hroom

include hfuel

theorem emits_exfatWrite (buf : Buf) {n : ℕ} (hn : n < 4294967296) :
    Emits d (exfatWrite stick fuel buf n) n (bytes buf n) := by
  intro front a o s hs hroom
  have hlen : (bytes buf n).length = n := by simp [bytes]
  rw [hlen] at hroom
  rw [hlen, put_bytes]
  have hcarried : Carried d ⟨true, o, n⟩ := carried_write.mpr ⟨fun _ => hroom, hn⟩
  have hwrite := wp_transferred (R := fun _ => True) hs.pos
    (wp_mono (hs.tracks.wp_write hfuel buf hcarried) (fun r t ht => ⟨ht, trivial⟩) fun _ h => h)
  rw [exfatWrite, atPosition, wp_bind, wp_read, hs.pos]
  dsimp only
  rw [wp_bind]
  refine wp_mono (wp_with hwrite (wp_transferred_world (hs.tracks.wp_front hfuel buf hcarried)))
    (fun r t ht => ?_)
    fun _ h => h
  obtain ⟨⟨hwent, hpos, -⟩, hkept⟩ := ht
  exact ⟨hwent.ret, hwent.tracks,
    fun i hi => (hkept i hi).trans (hs.front i hi), by rw [hpos, Int.natCast_add]⟩

/-- Writes that a transfer can carry emit their buffers one after the other. -/
theorem emits_writeAll {ws : List (Buf × ℤ)} (hws : ∀ x ∈ ws, 0 ≤ x.2 ∧ x.2 < 4294967296) :
    Emits d (writeAll stick fuel ws) true (ws.flatMap fun x => bytes x.1 x.2.toNat) := by
  induction ws with
  | nil => exact emits_pure true
  | cons w ws ih =>
    obtain ⟨buf, size⟩ := w
    obtain ⟨hlow, hhigh⟩ := hws (buf, size) List.mem_cons_self
    dsimp only at hlow hhigh
    have hsize : ((size.toNat : ℕ) : ℤ) = size := Int.toNat_of_nonneg hlow
    have hwrite := emits_exfatWrite (d := d) hfuel buf (n := size.toNat) (by omega)
    rw [hsize] at hwrite
    rw [writeAll, List.flatMap_cons]
    refine hwrite.bind ?_
    rw [if_neg (by omega)]
    exact ih fun x hx => hws x (List.mem_cons_of_mem _ hx)

/-- An entry of the FAT; its cluster is not the last that 32 bits count. -/
theorem emits_fatWriteEntry {cluster : ℕ} (h : cluster + 1 < 4294967296) (value : ℕ) :
    Emits d (fatWriteEntry stick fuel cluster value) (cluster + 1) (leBytes 4 value) := by
  have hwrite := emits_exfatWrite (d := d) hfuel (put zeros 0 (leBytes 4 value))
    (n := (leBytes 4 value).length)
    (by rw [leBytes_length]; decide)
  rw [bytes_put, leBytes_length] at hwrite
  refine hwrite.map ?_
  have hnext : u32 ((cluster : ℤ) + 1) = cluster + 1 := u32_add h
  rw [if_neg (by omega), hnext]

/-- The links from a cluster to the one `n` clusters behind it. -/
theorem emits_fatWriteChain {n cluster : ℕ} (h : cluster + n < 4294967296) :
    Emits d (fatWriteChain stick fuel n cluster) (cluster + n)
      ((List.range' (cluster + 1) n).flatMap (leBytes 4)) := by
  induction n generalizing cluster with
  | zero => exact emits_pure cluster
  | succ n ih =>
    have hnext : u32 ((cluster : ℤ) + 1) = cluster + 1 := u32_add (b := 1) (by omega)
    have hsum : cluster + (n + 1) = cluster + 1 + n := by omega
    rw [fatWriteChain, List.range'_succ, List.flatMap_cons, hnext, hsum]
    refine (emits_fatWriteEntry hfuel (by omega) _).bind ?_
    rw [if_neg (Nat.succ_ne_zero _)]
    exact ih (by omega)

end Writers

/-- The entries of `n` clusters in a row from `cluster` on. -/
def chain (cluster n : ℕ) : List ℕ := List.range' (cluster + 1) (n - 1) ++ [0xffffffff]

@[simp] theorem chain_length (cluster : ℕ) {n : ℕ} (hn : 0 < n) : (chain cluster n).length = n := by
  simp only [chain, List.length_append, List.length_range', List.length_singleton]
  omega

namespace Geometry

variable (g : Geometry) (serial : ℕ) (label : List ℕ) (upcaseTable : Buf)

/-- The FAT: the media type, a constant, and one chain for each object in the heap. -/
def fatEntries : List ℕ :=
  [0xfffffff8, 0xffffffff] ++ chain 2 g.bitmapClusters ++ chain (2 + g.bitmapClusters) g.upcaseClusters ++
    chain (2 + g.bitmapClusters + g.upcaseClusters) 1

/-- What is written of an object. -/
def content : FsObject → List UInt8
  | .vbr => (vbrSectors (g.params serial label)).flatMap (bytes · 512)
  | .fat => g.fatEntries.flatMap (leBytes 4)
  | .cbm => bytes (bitmap g.allocated) (g.allocated ⌈/⌉ 8)
  | .uct => bytes upcaseTable upcaseSize
  | .rootdir => bytes (labelEntry (g.params serial label)) 32 ++
      (bytes (bitmapEntry (g.params serial label)) 32 ++
      bytes (upcaseEntry (g.params serial label) upcaseTable) 32)

end Geometry

section Objects

variable {d fuel : ℕ} {g : Geometry} {serial : ℕ} {label : List ℕ} {upcaseTable : Buf}

theorem emits_vbrWrite (hfuel : 2 ^ 32 ≤ fuel) (p : Params) :
    Emits d (vbrWrite stick fuel p) 0 ((vbrSectors p).flatMap (bytes · 512)) := by
  have hcarried : ∀ x ∈ (vbrSectors p).map fun sector => (sector, (512 : ℤ)), 0 ≤ x.2 ∧ x.2 < 4294967296 := by
    intro x hx
    obtain ⟨sector, -, rfl⟩ := List.mem_map.mp hx
    dsimp only
    decide
  have hwrites := emits_writeAll (d := d) hfuel hcarried
  rw [List.flatMap_map] at hwrites
  rw [vbrWrite]
  apply Emits.allocating
  exact hwrites.map rfl

/-- The entries of an object of `n` clusters of the heap. -/
theorem emits_fatWriteEntries (hfuel : 2 ^ 32 ≤ fuel) {cluster length n : ℕ}
    (hlength : 0 < length ∧ length ≤ 4294967296)
    (hn : length ⌈/⌉ g.cluster = n) (hcluster : 0 < cluster) (hroom : cluster + n < 2147483648) :
    Emits d (fatWriteEntries stick fuel (g.params serial label) cluster length) (cluster + n)
      ((chain cluster n).flatMap (leBytes 4)) := by
  have hbounds := g.cluster_bounds
  have hpos := ceilDiv_pos hlength.1 g.cluster_pos
  rw [hn] at hpos
  have hclusters : u64 ((u64 length : ℤ) + u64 (getClusterSize (g.params serial label)) - 1) /
      u64 (getClusterSize (g.params serial label)) = n := by
    have hnum : u64 ((length : ℤ) + g.cluster - 1) = length + g.cluster - 1 := by
      unfold u64
      omega
    rw [Geometry.getClusterSize_params, u64_of_lt (by omega), u64_of_lt (by omega), hnum, ← hn,
      Nat.ceilDiv_eq_add_pred_div]
  have hlast : u32 ((u32 ((cluster : ℤ) + n) : ℤ) - 1) = cluster + (n - 1) := by
    rw [u32_add (by omega)]
    unfold u32
    omega
  have hend : cluster + n = cluster + (n - 1) + 1 := by omega
  rw [fatWriteEntries, hclusters, hlast, Nat.add_sub_cancel_left, chain, List.flatMap_append, hend]
  refine (emits_fatWriteChain hfuel (by omega)).bind ?_
  rw [if_neg (by omega)]
  exact (emits_fatWriteEntry hfuel (by omega) _).congr (List.append_nil _).symm

theorem emits_fatWrite (hfuel : 2 ^ 32 ≤ fuel) (hfits : g.Fits) :
    Emits d (fatWrite stick fuel (g.params serial label)) 0 (g.fatEntries.flatMap (leBytes 4)) := by
  have hcluster := g.cluster_bounds
  have hclusters := g.clusters_le
  have hheap := hfits.heap_lt
  have hbytes := g.bitmapBytes_bounds
  have hbitmap := g.bitmapClusters_le
  have hpos := hfits.bitmapClusters_pos
  have hupcase := g.upcaseClusters_bounds
  rw [Geometry.allocated] at hheap
  have hcbmSize : cbmSize (g.params serial label) = g.bitmapBytes := g.cbmSize_params serial label (by omega)
  have hone : g.cluster ⌈/⌉ g.cluster = 1 := by
    rw [Nat.ceilDiv_eq_add_pred_div, Nat.div_eq_of_lt_le] <;> omega
  have hentries : g.fatEntries.flatMap (leBytes 4) = leBytes 4 0xfffffff8 ++ (leBytes 4 0xffffffff ++
      ((chain 2 g.bitmapClusters).flatMap (leBytes 4) ++
        ((chain (2 + g.bitmapClusters) g.upcaseClusters).flatMap (leBytes 4) ++
        (chain (2 + g.bitmapClusters + g.upcaseClusters) 1).flatMap (leBytes 4)))) := by
    simp only [Geometry.fatEntries, List.flatMap_append, List.flatMap_cons, List.flatMap_nil, List.append_nil,
      List.append_assoc]
  rw [fatWrite, hentries, hcbmSize, Geometry.getClusterSize_params]
  refine (emits_fatWriteEntry hfuel (by decide) _).bind ?_
  rw [if_neg (Nat.succ_ne_zero _)]
  refine (emits_fatWriteEntry hfuel (by decide) _).bind ?_
  rw [if_neg (Nat.succ_ne_zero _)]
  refine (emits_fatWriteEntries (n := g.bitmapClusters) hfuel (by omega) rfl (by decide) (by omega)).bind ?_
  rw [if_neg (by omega)]
  refine (emits_fatWriteEntries (n := g.upcaseClusters) hfuel (by decide) rfl (by omega) (by omega)).bind ?_
  rw [if_neg (by omega)]
  refine (emits_fatWriteEntries hfuel (by omega) hone (by omega) (by omega)).map ?_
  rw [if_neg (by omega)]

theorem allocatedClusters_params (hfits : g.Fits) :
    allocatedClusters (g.params serial label) = g.allocated := by
  have hcluster := g.cluster_bounds
  have hallocated := g.allocated_le
  have hheap := hfits.heap_lt
  have hone : divRoundUp (g.cluster : ℤ) g.cluster = 1 := by
    rw [divRoundUp_natCast g.cluster_pos, Nat.ceilDiv_eq_add_pred_div, Nat.div_eq_of_lt_le (k := 1)] <;> omega
  have hsum : ((g.bitmapClusters : ℤ) + g.upcaseClusters + 1) = (g.allocated : ℕ) := by
    rw [Geometry.allocated]
    omega
  rw [allocatedClusters, g.cbmSize_params serial label (by omega), Geometry.getClusterSize_params, hone,
    divRoundUp_natCast g.cluster_pos, divRoundUp_natCast g.cluster_pos]
  exact (congrArg u32 hsum).trans (u32_of_lt (by omega))

theorem emits_cbmWrite (hfuel : 2 ^ 32 ≤ fuel) (hfits : g.Fits) :
    Emits d (cbmWrite stick fuel (g.params serial label)) 0
      (bytes (bitmap g.allocated) (g.allocated ⌈/⌉ 8)) := by
  have hallocated := g.allocated_le
  have hbits : u32 ((u32 ((g.allocated : ℤ) + 8 - 1) / 8 * 8 : ℕ)) / 8 = g.allocated ⌈/⌉ 8 := by
    rw [Nat.ceilDiv_eq_add_pred_div]
    unfold u32
    omega
  rw [cbmWrite, allocatedClusters_params hfits]
  dsimp only
  rw [hbits]
  apply Emits.allocating
  refine (emits_exfatWrite hfuel _ (n := g.allocated ⌈/⌉ 8) ?_).map ?_
  · rw [Nat.ceilDiv_eq_add_pred_div]
    omega
  · rw [if_neg (by omega)]

theorem emits_rootdirWrite (hfuel : 2 ^ 32 ≤ fuel) (p : Params) :
    Emits d (rootdirWrite stick fuel p upcaseTable) 0
    (bytes (labelEntry p) 32 ++ (bytes (bitmapEntry p) 32 ++ bytes (upcaseEntry p upcaseTable) 32)) := by
  have hcarried : ∀ x ∈ [(labelEntry p, (32 : ℤ)), (bitmapEntry p, 32), (upcaseEntry p upcaseTable, 32)],
      0 ≤ x.2 ∧ x.2 < 4294967296 := by
    simp
  have hwrites := emits_writeAll (d := d) hfuel hcarried
  simp only [List.flatMap_cons, List.flatMap_nil, List.append_nil] at hwrites
  exact hwrites.map rfl

/-- What each writer emits. -/
theorem emits_writeObject (hfuel : 2 ^ 32 ≤ fuel) (hfits : g.Fits) (object : FsObject) :
    Emits d (writeObject stick fuel (g.params serial label) upcaseTable object) 0
      (g.content serial label upcaseTable object) := by
  cases object with
  | vbr => exact emits_vbrWrite hfuel _
  | fat => exact emits_fatWrite hfuel hfits
  | cbm => exact emits_cbmWrite hfuel hfits
  | uct =>
    rw [writeObject, uctWrite]
    refine (emits_exfatWrite hfuel upcaseTable (n := upcaseSize) (by decide)).map ?_
    rw [if_neg (by omega)]
  | rootdir => exact emits_rootdirWrite hfuel _

/-- A program that returns `x` and leaves the bytes `bs` at `start`, wherever the device stands. -/
def Stores (d start : ℕ) (m : Prog (Device Stick) ℤ) (bs : List UInt8) : Prop :=
  ∀ front a o s, At front d a o s → d * 512 + start + bs.length ≤ 2199023255552 →
    Prog.wp m (fun r t => r = 0 ∧ ∃ o', At front d (put a start bs) o' t) (fun _ => False) s

theorem Emits.stores {m : Prog (Device Stick) ℤ} {bs : List UInt8} (hm : Emits d m 0 bs) (p : Params)
    (start : ℕ) :
    Stores d start (do
      let r ← exfatSeek p start seekSet
      if r = -1 then pure 1 else m) bs := by
  intro front a o s hs hroom
  rw [wp_bind, exfatSeek, atPosition, wp_bind, wp_read, hs.pos]
  dsimp only
  rw [if_pos rfl, wp_bind, wp_update, wp_pure, if_neg (by omega)]
  refine wp_mono (hm front a start _ ⟨hs.tracks, hs.front, rfl⟩ hroom) (fun r t ht => ⟨ht.1, _, ht.2⟩)
    fun _ h => h

/-- The blocks that are erased cover the region. -/
theorem eraseBlocks_length (size n : ℕ) :
    (((List.range n).map fun i : ℕ => ((zeros, min ((size : ℤ) - i * 1048576) 1048576) : Buf × ℤ)).flatMap
      fun x => bytes x.1 x.2.toNat).length = min size (n * 1048576) := by
  induction n with
  | zero => simp
  | succ n ih =>
    rw [List.range_succ, List.map_append, List.flatMap_append, List.length_append, ih]
    simp only [List.map_cons, List.map_nil, List.flatMap_cons, List.flatMap_nil, List.append_nil, bytes,
      List.length_map,
      List.length_range]
    omega

theorem eraseBlocks_bytes (size : ℕ) :
    (eraseBlocks size).flatMap (fun x => bytes x.1 x.2.toNat) = List.replicate size 0 := by
  rw [List.eq_replicate_iff]
  constructor
  · have hmega : (1048576 : ℤ) = (1048576 : ℕ) := rfl
    have hblocks : (divRoundUp size 1048576).toNat = size ⌈/⌉ 1048576 := by
      rw [hmega, divRoundUp_natCast (by decide), Int.toNat_natCast]
    have hcover := le_ceilDiv_mul (x := size) (d := 1048576) (by decide)
    rw [eraseBlocks, hblocks, eraseBlocks_length]
    omega
  · intro x hx
    obtain ⟨y, hy, hx⟩ := List.mem_flatMap.mp hx
    obtain ⟨i, -, rfl⟩ := List.mem_map.mp hy
    obtain ⟨j, -, rfl⟩ := List.mem_map.mp hx
    rfl

theorem stores_eraseObject (hfuel : 2 ^ 32 ≤ fuel) (p : Params) (start size : ℕ) :
    Stores d start (eraseObject stick fuel p start size) (List.replicate size 0) := by
  have hblocks := mem_eraseBlocks size
  have hzeros := eraseBlocks_bytes size
  rw [eraseObject]
  generalize eraseBlocks size = ws at hblocks hzeros ⊢
  have hwrites := emits_writeAll (d := d) hfuel hblocks
  rw [hzeros] at hwrites
  apply Emits.stores
  exact hwrites.map rfl

end Objects

section Walks

variable {d : ℕ} {g : Geometry} {serial : ℕ} {label : List ℕ}

/-- A walk over the objects that stores something at the place of each. -/
theorem wp_forObjects {p : Params} {f : FsObject → ℤ → Prog (Device Stick) ℤ} {c : FsObject → List UInt8}
    (hf : ∀ object (start : ℕ), Stores d start (f object start) (c object)) {xs : List (FsObject × ℕ)}
    {position : ℤ}
    (hwalk : Geometry.Walk p position xs) (hroom : ∀ x ∈ xs, d * 512 + x.2 + (c x.1).length ≤ 2199023255552)
    {front a : ℕ → UInt8} {o : ℕ} {s : Device Stick} (hs : At front d a o s) :
    Prog.wp (forObjects p f (xs.map Prod.fst) position)
      (fun r t => r = 0 ∧ ∃ o', At front d (Splice.writeAll a (xs.map fun x => stored x.2 (c x.1))) o' t)
        (fun _ => False) s := by
  induction xs generalizing position a o s with
  | nil => exact ⟨rfl, o, hs⟩
  | cons x xs ih =>
    obtain ⟨hplace, hwalk⟩ := hwalk
    rw [List.map_cons, forObjects, hplace, wp_bind]
    refine wp_mono (hf x.1 x.2 front a o s hs (hroom x List.mem_cons_self)) (fun r t ht => ?_) fun _ h => h
    obtain ⟨rfl, o', ht⟩ := ht
    rw [if_neg (by decide)]
    exact ih hwalk (fun y hy => hroom y (List.mem_cons_of_mem x hy)) ht

end Walks

namespace Geometry

variable (g : Geometry) (serial : ℕ) (label : List ℕ) (upcaseTable : Buf)

/-- The bytes of each object that are written. -/
def written : FsObject → ℕ
  | .vbr => 6144
  | .fat => 4 * (2 + g.allocated)
  | .cbm => g.allocated ⌈/⌉ 8
  | .uct => upcaseSize
  | .rootdir => 96

/-- The bytes that belong to an object: it is erased to its size, and the FAT can be longer. -/
def reserved (object : FsObject) : ℕ := max (g.size object) (g.written object)

theorem fatEntries_length (hfits : g.Fits) : g.fatEntries.length = 2 + g.allocated := by
  have hpos := hfits.bitmapClusters_pos
  have hupcase := g.upcaseClusters_bounds
  simp only [fatEntries, List.length_append, List.length_cons, List.length_nil, chain_length _ hpos,
    chain_length _ hupcase.1, chain_length _ Nat.one_pos, allocated]
  omega

theorem flatMap_leBytes_length (xs : List ℕ) : (xs.flatMap (leBytes 4)).length = 4 * xs.length := by
  induction xs with
  | nil => rfl
  | cons x xs ih =>
    rw [List.flatMap_cons, List.length_append, leBytes_length, ih, List.length_cons]
    omega

theorem content_length (hfits : g.Fits) (object : FsObject) :
    (g.content serial label upcaseTable object).length = g.written object := by
  cases object with
  | vbr => simp [content, vbrSectors, bytes, written]
  | fat => rw [content, flatMap_leBytes_length, fatEntries_length g hfits, written]
  | cbm | uct => simp [content, bytes, written]
  | rootdir => simp [content, bytes, written]

/-- The objects lie one behind the other. -/
theorem places_pairwise (hfits : g.Fits) : g.places.Pairwise fun x y => x.2 + g.reserved x.1 ≤ y.2 := by
  have hcbm := g.bitmapBytes_le
  have huct := g.upcaseSize_le
  have hbits := hfits.allocated_bits
  have hentries := hfits.fat_entries
  have hheap := g.le_heap
  have htrans : IsTrans (FsObject × ℕ) fun x y => x.2 + g.reserved x.1 ≤ y.2 :=
    ⟨fun x y z hxy hyz => by omega⟩
  refine List.IsChain.pairwise ?_
  simp only [places, List.isChain_cons_cons, List.IsChain.singleton, and_true, reserved, size, written,
    Nat.add_mul]
  omega

/-- The last object ends inside the volume. -/
theorem places_le (hfits : g.Fits) : ∀ x ∈ g.places, x.2 + g.reserved x.1 ≤ g.usable * 512 := by
  have hend := hfits.end_le
  have hcluster := g.cluster_bounds
  have hheap := g.le_heap
  have hentries := hfits.fat_entries
  have hbits := hfits.allocated_bits
  have hcbm := g.bitmapBytes_le
  have huct := g.upcaseSize_le
  simp only [allocated, Nat.add_mul, Nat.one_mul] at hend
  intro x hx
  simp only [places, List.mem_cons, List.not_mem_nil, or_false] at hx
  rcases hx with rfl | rfl | rfl | rfl | rfl | rfl <;> simp only [reserved, size, written,
    Nat.add_mul] <;> omega

/-- Two objects do not meet. -/
theorem places_disjoint (hfits : g.Fits) {x y : FsObject × ℕ} (hx : x ∈ g.places) (hy : y ∈ g.places)
    (hne : x ≠ y) :
    x.2 + g.reserved x.1 ≤ y.2 ∨ y.2 + g.reserved y.1 ≤ x.2 := by
  let R : FsObject × ℕ → FsObject × ℕ → Prop :=
    fun x y => x.2 + g.reserved x.1 ≤ y.2 ∨ y.2 + g.reserved y.1 ≤ x.2
  have hsymm : Std.Symm R := ⟨fun x y h => h.symm⟩
  have hpairwise : g.places.Pairwise R := (g.places_pairwise hfits).imp fun h => .inl h
  exact hpairwise.forall hx hy hne

end Geometry

/-- `b` is `a` with the objects of the file system at their places, and nothing else is touched. -/
structure Imaged (g : Geometry) (content : FsObject → List UInt8) (a b : ℕ → UInt8) : Prop where
  objects : ∀ x ∈ g.places, ∀ i < g.reserved x.1, b (x.2 + i) = (content x.1).getD i 0
  kept : ∀ i, (∀ x ∈ g.places, i < x.2 ∨ x.2 + g.reserved x.1 ≤ i) → b i = a i

section Image

variable {g : Geometry} {content : FsObject → List UInt8} {a : ℕ → UInt8}

/-- A byte outside what is stored at the places. -/
theorem writeAll_places_of_not_mem {c : FsObject → List UInt8} {i : ℕ}
    (h : ∀ x ∈ g.places, i < x.2 ∨ x.2 + (c x.1).length ≤ i) :
    Splice.writeAll a (g.places.map fun x => stored x.2 (c x.1)) i = a i := by
  apply writeAll_of_forall_not_mem
  intro w hw
  obtain ⟨x, hx, rfl⟩ := List.mem_map.mp hw
  exact h x hx

/-- A byte of what is stored at a place. -/
theorem writeAll_places_of_mem (hfits : g.Fits) {c : FsObject → List UInt8}
    (hc : ∀ object, (c object).length ≤ g.reserved object)
    {x : FsObject × ℕ} (hx : x ∈ g.places) {i : ℕ} (hi : i < (c x.1).length) :
    Splice.writeAll a (g.places.map fun x => stored x.2 (c x.1)) (x.2 + i) = (c x.1).getD i 0 := by
  have hdisjoint : (g.places.map fun x => stored x.2 (c x.1)).Pairwise
      fun v w => v.addr + v.len ≤ w.addr ∨ w.addr + w.len ≤ v.addr := by
    rw [List.pairwise_map]
    refine (g.places_pairwise hfits).imp fun {x y} hxy => .inl ?_
    exact Nat.le_trans (Nat.add_le_add_left (hc x.1) x.2) hxy
  exact writeAll_of_mem a hdisjoint (List.mem_map_of_mem hx) hi

/-- Zeros at every place and then the contents there. -/
theorem imaged_writeAll (hfits : g.Fits) (hlen : ∀ object, (content object).length = g.written object) :
    Imaged g content a (Splice.writeAll
      (Splice.writeAll a (g.places.map fun x => stored x.2 (List.replicate (g.size x.1) 0)))
      (g.places.map fun x => stored x.2 (content x.1))) := by
  have hsize : ∀ object, g.size object ≤ g.reserved object := fun object => le_max_left _ _
  have hwritten : ∀ object, (content object).length ≤ g.reserved object := fun object => by
    rw [hlen]
    exact le_max_right _ _
  constructor
  · intro x hx i hi
    by_cases hin : i < (content x.1).length
    · exact writeAll_places_of_mem hfits hwritten hx hin
    · -- behind the content the zeros stay
      have hbehind : ∀ y ∈ g.places, x.2 + i < y.2 ∨ y.2 + (content y.1).length ≤ x.2 + i := by
        intro y hy
        rcases eq_or_ne x y with rfl | hne
        · omega
        · have hapart := g.places_disjoint hfits hx hy hne
          have hle := hwritten y.1
          omega
      have herased : i < (List.replicate (g.size x.1) (0 : UInt8)).length := by
        rw [List.length_replicate]
        have hreserved : g.reserved x.1 = max (g.size x.1) (g.written x.1) := rfl
        rw [hlen] at hin
        omega
      rw [writeAll_places_of_not_mem hbehind,
        writeAll_places_of_mem (c := fun object => List.replicate (g.size object) 0) hfits
          (fun object => by rw [List.length_replicate]; exact hsize object) hx herased,
            List.getD_eq_getElem?_getD, List.getD_eq_getElem?_getD, List.getElem?_eq_none (Nat.not_lt.mp hin),
        List.getElem?_replicate]
      split_ifs <;> rfl
  · intro i hi
    rw [writeAll_places_of_not_mem
      fun x hx => (hi x hx).imp_right (Nat.le_trans (Nat.add_le_add_left (hwritten x.1) x.2)),
      writeAll_places_of_not_mem (c := fun object => List.replicate (g.size object) 0) fun x hx => ?_]
    rw [List.length_replicate]
    exact (hi x hx).imp_right (Nat.le_trans (Nat.add_le_add_left (hsize x.1) x.2))

end Image

section Mkfs

variable {d fuel : ℕ} {g : Geometry} {serial : ℕ} {label : List ℕ} {upcaseTable : Buf} {front a : ℕ → UInt8}
  {s : Device Stick} {o : ℕ}

/-- The formatter on a volume that has the clusters. -/
theorem wp_mkfs_fits (hs : At front d a o s) (hfuel : 2 ^ 32 ≤ fuel) (hroom : d + g.usable ≤ 4294967296)
    (hfits : g.Fits) :
    Prog.wp (mkfs stick fuel (g.params serial label) upcaseTable)
      (fun r t => r = 0 ∧ ∃ b o', At front d b o' t ∧ Imaged g (g.content serial label upcaseTable) a b)
      (fun _ => False) s := by
  have hcluster := g.cluster_bounds
  have hheap : g.heap ≤ g.clusters := Nat.le_trans (Nat.le_add_right _ _) hfits.heap_lt
  have hwalk := g.walk_places serial label hheap
  have hlen := g.content_length serial label upcaseTable hfits
  have hin := g.places_le hfits
  have hfit : ∀ c : FsObject → List UInt8, (∀ object, (c object).length ≤ g.reserved object) →
      ∀ x ∈ g.places, d * 512 + x.2 + (c x.1).length ≤ 2199023255552 := by
    intro c hc x hx
    have hle := hc x.1
    have hend := hin x hx
    omega
  have herase : ∀ object (start : ℕ), Stores d start
      (eraseObject stick fuel (g.params serial label) start (getSize (g.params serial label) object))
      (List.replicate (g.size object) 0) := by
    intro object start
    rw [g.getSize_params serial label hheap]
    exact stores_eraseObject hfuel _ start (g.size object)
  have hcreate : ∀ object (start : ℕ), Stores d start (do
      let r ← exfatSeek (g.params serial label) start seekSet
      if r = -1 then pure 1 else writeObject stick fuel (g.params serial label) upcaseTable object)
      (g.content serial label upcaseTable object) :=
    fun object start => (emits_writeObject hfuel hfits object).stores _ start
  unfold mkfs
  rw [if_neg (by rw [Geometry.getClusterSize_params]; omega), Geometry.checkSize_params,
    if_neg (by rw [decide_eq_false_iff_not]; exact not_not_intro hfits), wp_bind, erase, wp_bind,
    ← Geometry.places_objects g]
  refine wp_mono hs.wp_malloc (fun allocated t ht => ?_) fun _ h => h
  obtain ⟨rfl, ht⟩ := ht
  rw [if_neg Bool.true_eq_false.mp]
  refine wp_mono (wp_forObjects herase hwalk (hfit _ fun object => ?_) ht) (fun r u hu => ?_) fun _ h => h
  · rw [List.length_replicate]
    exact le_max_left _ _
  obtain ⟨rfl, o', hu⟩ := hu
  rw [if_neg (by decide), wp_bind, create, ← Geometry.places_objects g]
  refine wp_mono (wp_forObjects hcreate hwalk (hfit _ fun object => ?_) hu) (fun r v hv => ?_) fun _ h => h
  · rw [hlen]
    exact le_max_right _ _
  obtain ⟨rfl, o'', hv⟩ := hv
  exact ⟨rfl, _, o'', hv, imaged_writeAll hfits hlen⟩

/-- The formatter on a volume that has not. -/
theorem wp_mkfs_not_fits (hs : At front d a o s) (hfits : ¬g.Fits) :
    Prog.wp (mkfs stick fuel (g.params serial label) upcaseTable) (fun r t => r = 1 ∧ At front d a o t)
      (fun _ => False) s := by
  have hcluster := g.cluster_bounds
  unfold mkfs
  rw [if_neg (by rw [Geometry.getClusterSize_params]; omega), Geometry.checkSize_params,
    if_pos (decide_eq_false hfits)]
  exact ⟨rfl, hs⟩

end Mkfs

section Bridge

variable {d fuel clusterSize usable : ℕ} {a : ℕ → UInt8} {w : World Stick}

/-- The volume that the bridge formats. -/
def bridgeGeometry (clusterSize usable : ℕ) (hcs : clusterSize < 1073742336)
    (husable : usable ≤ 4294967296) : Geometry where
  usable := usable
  bits := chosenBits clusterSize usable
  usable_le := husable
  bits_le := chosenBits_le hcs

/-- A roll of the dice does not touch the medium. -/
theorem At.wp_rand {front : ℕ → UInt8} (hw : At front d a 0 (w, some 0)) :
    Prog.wp (rand stick) (fun r t => r = w.dev.spec.dice w.dev.rolls ∧ At front d a 0 (t, some 0))
      (fun _ => False) w := by
  have hready := hw.tracks.ready
  exact ⟨rfl, ⟨⟨hready.sectorSize, hready.blockSize, hready.fill, hready.allocated, hready.reach⟩,
    hw.tracks.faultless,
    hw.tracks.driveOffset, hw.tracks.view⟩, hw.front, rfl⟩

/-- Nor does an allocation. -/
theorem At.wp_malloc_world {front : ℕ → UInt8} (hw : At front d a 0 (w, some 0)) :
    Prog.wp (malloc stick) (fun r t => r = true ∧ At front d a 0 (t, some 0)) (fun _ => False) w := by
  obtain ⟨hr, ht⟩ := wp_malloc_stick hw.tracks
  exact ⟨hr, ht, hw.front, rfl⟩

/-- A flush of the cache puts the window on the medium, and what is in front of it. -/
theorem sync_returns (hw : Tracks d a w) :
    ∃ t, usbScsiSync stick w = (some 0, t) ∧ window t.dev.medium (d * 512) = a ∧
      t.dev.medium = (store w).view := by
  obtain ⟨r, t, hsync, ht⟩ := wp_returns (wp_usbScsiSync hw.ready)
  have hlossless : Lossless w t := ht.frame.lossless hw.faultless
  have hmedium : t.dev.medium = (store w).view :=
    (WriteBack.Store.view_of_empty ht.settled.size_eq).symm.trans
      (ht.settled.view_eq (not_not_intro hlossless))
  obtain rfl : r = 0 := ht.executes hw.faultless
  refine ⟨t, hsync, ?_, hmedium⟩
  funext i
  rw [window_apply, Nat.add_comm, hmedium]
  exact hw.view i

/-- The bridge on a faultless stick succeeds exactly on a volume whose clusters suffice. -/
theorem wp_usbScsiFormatExfat (hcs : clusterSize < 1073742336) (husable : usable ≤ 4294967296)
    (hw : Tracks d a w) (hall : usbScsiGetUsableSectors w.drv = usable) (hroom : d + usable ≤ 4294967296)
    (hfuel : 2 ^ 32 ≤ fuel) (upcaseTable : Buf) (label : List ℕ) :
    Prog.wp (usbScsiFormatExfat stick fuel upcaseTable clusterSize label) (fun r t => ∃ b, Tracks d b t ∧
      (∀ i < d * 512, (store t).view i = (store w).view i) ∧
      let g := bridgeGeometry clusterSize usable hcs husable
      if g.Fits then r = 0 ∧ Imaged g (g.content (w.dev.spec.dice w.dev.rolls) label upcaseTable) a b
      else r = 1 ∧ b = a) (fun _ => False) w := by
  have hbits : setupSpcBits fuel 9 (clusterSize / 512 : ℕ) (i64 usable * 512) =
      some (chosenBits clusterSize usable) :=
    setupSpcBits_eq (by omega) husable (by omega)
  rw [usbScsiFormatExfat, wp_bind, wp_globals, hall]
  dsimp only
  rw [hbits]
  dsimp only
  have hat : At (store w).view d a 0 (w, some 0) := ⟨hw, fun _ _ => rfl, rfl⟩
  rw [wp_bind]
  refine wp_mono hat.wp_rand (fun serial t ht => ?_) fun _ h => h
  obtain ⟨rfl, ht⟩ := ht
  rw [wp_bind]
  refine wp_mono ht.wp_malloc_world (fun allocated u hu => ?_) fun _ h => h
  obtain ⟨rfl, hu⟩ := hu
  rw [if_pos rfl, wp_alongside]
  by_cases hfits : (bridgeGeometry clusterSize usable hcs husable).Fits
  · refine wp_mono (wp_mkfs_fits hu hfuel hroom hfits) (fun r v hv => ?_) fun _ h => h
    obtain ⟨rfl, b, o', hb, himage⟩ := hv
    exact ⟨b, hb.tracks, hb.front, by rw [if_pos hfits]; exact ⟨rfl, himage⟩⟩
  · refine wp_mono (wp_mkfs_not_fits hu hfits) (fun r v hv => ?_) fun _ h => h
    obtain ⟨rfl, hb⟩ := hv
    exact ⟨a, hb.tracks, hb.front, by rw [if_neg hfits]; exact ⟨rfl, rfl⟩⟩

/-- After the flush of the cache the medium holds the file system and is otherwise what it was, in
front of the window too. -/
theorem usbScsiFormatExfat_image (hcs : clusterSize < 1073742336) (husable : usable ≤ 4294967296)
    (hw : Tracks d a w) (hall : usbScsiGetUsableSectors w.drv = usable) (hroom : d + usable ≤ 4294967296)
    (hfuel : 2 ^ 32 ≤ fuel) (upcaseTable : Buf) (label : List ℕ) :
    ∃ r t u, usbScsiFormatExfat stick fuel upcaseTable clusterSize label w = (some r, t) ∧
      usbScsiSync stick t = (some 0, u) ∧
      (∀ i < d * 512, u.dev.medium i = (store w).view i) ∧
      let g := bridgeGeometry clusterSize usable hcs husable
      if g.Fits then
        r = 0 ∧ Imaged g (g.content (w.dev.spec.dice w.dev.rolls) label upcaseTable) a
          (window u.dev.medium (d * 512))
      else r = 1 ∧ window u.dev.medium (d * 512) = a := by
  obtain ⟨r, t, hformat, b, hb, hfront, himage⟩ :=
    wp_returns (wp_usbScsiFormatExfat hcs husable hw hall hroom hfuel upcaseTable label)
  obtain ⟨u, hsync, hwindow, hmedium⟩ := sync_returns hb
  refine ⟨r, t, u, hformat, hsync, fun i hi => ?_, ?_⟩
  · rw [hmedium, hfront i hi]
  · rwa [hwindow]

theorem roomyStick_tracks : Tracks 4096 (window roomyStick.dev.medium 2097152) roomyStick :=
  have hidle : Idle roomyStick := ⟨rfl, rfl, rfl⟩
  hidle.tracks ⟨fun _ => rfl, fun _ => rfl⟩

/-- A stick of 16 GiB in clusters of 32 KiB. -/
theorem usbScsiFormatExfat_image_roomy :
    ∃ t u, usbScsiFormatExfat stick (2 ^ 32) zeros 0 [] roomyStick = (some 0, t) ∧
      usbScsiSync stick t = (some 0, u) ∧
      (∀ i < 2097152, u.dev.medium i = 1) ∧
      let g := bridgeGeometry 0 33550336 (by decide) (by decide)
      g.bits = 6 ∧ Imaged g (g.content 0 [] zeros) (window roomyStick.dev.medium 2097152)
        (window u.dev.medium 2097152) := by
  have hfits : (bridgeGeometry 0 33550336 (by decide) (by decide)).Fits := by decide
  obtain ⟨r, t, u, hformat, hsync, hfront, himage⟩ := usbScsiFormatExfat_image (show 0 < 1073742336 by decide)
    (show 33550336 ≤ 4294967296 by decide) roomyStick_tracks rfl (by decide) (Nat.le_refl _) zeros []
  dsimp only at himage
  rw [if_pos hfits] at himage
  obtain ⟨rfl, himage⟩ := himage
  exact ⟨t, u, hformat, hsync, hfront, rfl, himage⟩

end Bridge

end FormatStick.Exfat
