import FormatStick.History

/-!
# Sector sizes

The driver takes the sector size that READ CAPACITY returns, whatever it is. Its cached
I/O works with it; the direct writers and the FAT formatter count in sectors of 512
bytes. So a FAT session is consistent on a stick with sectors of 512 bytes, as long
as the FAT layout starts no write at or past 4 GB, and on no other.
-/
namespace FormatStick
open Splice Prog Runs

variable {δ : Type}

/-- A READ(10) or WRITE(10) has a block at least, and the data length of its blocks. -/
def Cmd.Whole (s : ℕ) (c : Cmd) : Prop :=
  c.opcode = 0x28 ∨ c.opcode = 0x2a → 1 ≤ c.blocks ∧ c.dataLen = c.blocks * s

theorem Cmd.whole_cdb10 {s blocks len : ℕ} (op : UInt8) (lba : ℕ) (direction : UInt8) (h₁ : 1 ≤ blocks)
    (h₂ : blocks < 2 ^ 16) (hlen : len = blocks * s) :
      (Cmd.mk (cdb10 op lba blocks) direction len).Whole s := by
  intro _
  rw [blocks_cdb10 op lba direction len h₂]
  exact ⟨h₁, hlen⟩

/-- Sectors of 512 bytes, and what was sent after `l` has the length of its blocks. -/
structure Blockwise (l : List Sent) (w : World δ) : Prop where
  size : w.drv.gSectorSize = 512
  fill : w.drv.gCacheSectors ≤ kMaxCacheSectors
  sent : ∃ es, w.trace = l ++ es ∧ ∀ e ∈ es, e.cmd.Whole 512

section Blockwise

variable (P : Platform δ) {l : List Sent}

theorem blockwise_command {c : Cmd} (hc : c.Whole 512) (data : Buf) :
    Keeps (Blockwise l) (scsiCommand P c data) := by
  refine keeps_of_commanded (fun w t hw ht => ?_) data
  cases ht with
  | skipped _ => exact hw
  | sent _ e _ hcmd htrace _ hdrv _ =>
    obtain ⟨u, b, hdrv⟩ := hdrv
    obtain ⟨es, hes, hwhole⟩ := hw.sent
    constructor
    · rw [hdrv]
      exact hw.size
    · rw [hdrv]
      exact hw.fill
    · refine ⟨es ++ [e], by rw [htrace, hes, List.append_assoc], fun f hf => ?_⟩
      rcases List.mem_append.mp hf with hf | hf
      · exact hwhole f hf
      · rw [List.mem_singleton.mp hf, hcmd]
        exact hc

theorem blockwise_write10 {lba blocks len : ℕ} (h₁ : 1 ≤ blocks) (h₂ : blocks < 2 ^ 16)
    (hlen : len = blocks * 512) (data : Buf) : Keeps (Blockwise l) (write10 P lba blocks data len) :=
  (blockwise_command P (Cmd.whole_cdb10 _ _ _ h₁ h₂ hlen) data).bind fun _ => keeps_pure _

theorem blockwise_syncCache : Keeps (Blockwise l) (syncCache P) := by
  refine (blockwise_command P (fun h => ?_) zeros).bind fun _ => keeps_pure _
  rcases h with h | h
  · exact absurd h (by decide)
  · exact absurd h (by decide)

theorem blockwise_flush : Keeps (Blockwise l) (scsiFlushCacheInternal P) := by
  intro w hw
  refine wp_state ?_
  rw [scsiFlushCacheInternal, wp_bind, wp_globals]
  have hlt : w.drv.gCacheSectors < 2 ^ 16 := Nat.lt_of_le_of_lt hw.fill (by decide)
  split
  · exact hw
  · rename_i cache _
    refine wp_ite (fun _ => hw) fun hne => ?_
    have hlen : u32 (w.drv.gCacheSectors * w.drv.gSectorSize) = w.drv.gCacheSectors * 512 := by
      rw [hw.size]
      exact u32_mul (by omega)
    refine Keeps.wp ?_ hw
    have haccess : ∀ len, Keeps (Blockwise l) (access .gWriteCache 0 len id : Prog (World δ) Unit) :=
      fun _ => keeps_update fun t ht => ⟨ht.size, ht.fill, ht.sent⟩
    refine Keeps.bind ?_ fun _ => Keeps.bind (keeps_update fun t ht => ?_) fun _ => keeps_pure _
    · refine (blockwise_write10 P (Nat.pos_of_ne_zero hne) hlt hlen cache).bind fun _ => ?_
      exact (haccess _).bind fun _ => keeps_pure _
    · exact ⟨ht.size, Nat.zero_le _, ht.sent⟩

theorem blockwise_modifyPass (buf : Buf) (totalDone lba offsetInSector remaining : ℕ) :
    Keeps (Blockwise l) (modifyPass P buf totalDone lba offsetInSector remaining) := by
  refine (blockwise_flush P).bind fun _ w hw => wp_state ?_
  rw [wp_bind, wp_globals, hw.size]
  refine Keeps.wp ?_ hw
  have hbounce : ∀ start len b, Keeps (Blockwise l)
      (access .gBounceBuffer start len fun g => { g with gBounceBuffer := b } : Prog (World δ) Unit) :=
    fun _ _ _ => keeps_update fun t ht => ⟨ht.size, ht.fill, ht.sent⟩
  have htouch : Keeps (Blockwise l) (access .gBounceBuffer 0 512 id : Prog (World δ) Unit) :=
    keeps_update fun t ht => ⟨ht.size, ht.fill, ht.sent⟩
  have hread : Keeps (Blockwise l) (readBounce P lba 1 512) := by
    refine keeps_globals.bind fun g => ?_
    refine (blockwise_command P (Cmd.whole_cdb10 _ _ _ (Nat.le_refl 1) (by decide) rfl) _).bind fun r => ?_
    exact (hbounce _ _ _).bind fun _ => keeps_pure _
  refine hread.bind fun r => Keeps.ite (keeps_pure _) (Keeps.bind ?_ fun sector => Keeps.bind ?_ fun _ => ?_)
  · exact (hbounce _ _ _).bind fun _ => keeps_pure _
  · refine (blockwise_write10 P (Nat.le_refl 1) (by decide) rfl _).bind fun _ => ?_
    exact htouch.bind fun _ => keeps_pure _
  · exact Keeps.ite (keeps_pure _) (keeps_pure _)

/-- What a write request sends has the length of its blocks. -/
theorem blockwise_write (fuel : ℕ) (buf : Buf) (count offset : ℤ) :
    Keeps (Blockwise l) (scsiIoInternal P fuel buf count offset true) := by
  refine keeps_io (fun w _ hw => ⟨hw.size, hw.fill, hw.sent⟩)
    (keeps_transfer (fun count actual buf totalDone => ?_) _ _ _ _)
  refine keeps_globals.bind fun g => ?_
  have hcache := keeps_cachePass (P := P) (blockwise_flush P)
    (fun _ hw => ⟨hw.size, hw.fill, hw.sent⟩) (fun _ _ _ _ _ hw => ⟨hw.size, hw.fill, hw.sent⟩)
    fun w _ (hw : Blockwise l w) hn => ⟨hw.size, hn, hw.sent⟩
  rw [if_neg (show ¬true = false by decide)]
  exact Keeps.ite (hcache _ _ _ _) (blockwise_modifyPass P _ _ _ _ _)

theorem blockwise (l : List Sent) : Writing P (Blockwise l) where
  write _ _ _ h₁ h₂ := blockwise_write10 P h₁ (by omega) rfl _
  readMbr := blockwise_command P (Cmd.whole_cdb10 _ _ _ (Nat.le_refl 1) (by decide) rfl) _
  syncCache := blockwise_syncCache P
  flush := blockwise_flush P
  malloc _ hw := ⟨hw.size, hw.fill, hw.sent⟩
  rand _ hw := ⟨hw.size, hw.fill, hw.sent⟩
  ioWrite := blockwise_write P

end Blockwise

/-- A write of `count` bytes from sector `sector` of the partition on. -/
def writeAt (s : ℕ) (buf : Buf) (count sector : ℕ) : Request := writeRequest buf count (sector * s)

/-- Zeros for the sectors from `i` on of a region of `size` sectors, 64 of them at a time. -/
def zeroWrites (s start size i : ℕ) : List Request :=
  (List.range ((size - i + 63) / 64)).map fun k =>
    writeAt s zeros (512 * min 64 (size - (i + 64 * k))) (start + (i + 64 * k))

/-- One FAT. -/
def fatTableWrites (s : ℕ) (fatType : ℤ) (fatSize f : ℕ) : List Request :=
  [writeAt s (fatFirstChunk fatType) 32768 (fatReservedSectors fatType + f * fatSize)] ++
    zeroWrites s (fatReservedSectors fatType + f * fatSize) fatSize 64

/-- The writes that a FAT layout calls for, on a device with sectors of `s` bytes. -/
def fatWrites (s : ℕ) (fatType : ℤ) (fatSize : ℕ) (bs : Buf) : List Request :=
  [writeAt s bs 512 0] ++
    if fatType = 1 then
      [writeAt s bs 512 6] ++ ([writeAt s fatFsInfo 512 1] ++
        (fatTableWrites s fatType fatSize 0 ++ fatTableWrites s fatType fatSize 1))
    else
      fatTableWrites s fatType fatSize 0 ++ (fatTableWrites s fatType fatSize 1 ++
        zeroWrites s (fatReservedSectors fatType + 2 * fatSize) (fatRootDirSectors fatType) 0)

/-- None of these starts at or past byte 2^32, in sectors of 512 bytes. -/
def FatAddressable (fatType : ℤ) (fatSize : ℕ) : Prop :=
  if fatType = 1 then 32 + fatSize + (fatSize - 1) / 64 * 64 < 2 ^ 23 else 8 + 2 * fatSize < 2 ^ 23

theorem zeroWrites_of_le {s start size i : ℕ} (h : size ≤ i) : zeroWrites s start size i = [] := by
  have hno : (size - i + 63) / 64 = 0 := by omega
  rw [zeroWrites, hno]
  rfl

theorem zeroWrites_of_lt {s start size i : ℕ} (h : i < size) :
    zeroWrites s start size i =
      writeAt s zeros (512 * min 64 (size - i)) (start + i) :: zeroWrites s start size (i + 64) := by
  have hsucc : (size - i + 63) / 64 = (size - (i + 64) + 63) / 64 + 1 := by omega
  rw [zeroWrites, hsucc, List.range_succ_eq_map, List.map_cons, List.map_map]
  refine congrArg _ (List.map_congr_left fun k _ => ?_)
  have hk : i + 64 * (k + 1) = i + 64 + 64 * k := by omega
  change writeAt s zeros (512 * min 64 (size - (i + 64 * (k + 1)))) (start + (i + 64 * (k + 1))) = _
  rw [hk]

section Issues

variable {α β : Type} {P : Platform δ}

/-- The requests are `rs`. -/
def Requested (rs : List Request) (w : World δ) : Prop := w.requests = rs

/-- The program makes the requests `rs`, or the first of them if it is cut. -/
def Issues (rs : List Request) (m : Prog (World δ) α) : Prop := ∀ w,
  Prog.wp m (fun _ t => t.requests = w.requests ++ rs)
    (fun t => ∃ ps, ps <+: rs ∧ t.requests = w.requests ++ ps) w

/-- The program makes the first of the requests `rs`. -/
def IssuesOf (rs : List Request) (m : Prog (World δ) α) : Prop := ∀ w,
  ∃ ps, ps <+: rs ∧ (m w).2.requests = w.requests ++ ps

theorem Issues.issuesOf {rs : List Request} {m : Prog (World δ) α} (h : Issues rs m) : IssuesOf rs m :=
  fun w =>
  wp_state (I := fun t : World δ => ∃ ps, ps <+: rs ∧ t.requests = w.requests ++ ps)
    (wp_mono (h w) (fun _ _ ht => ⟨rs, List.prefix_rfl, ht⟩) fun _ ht => ht)

theorem issues_silent {m : Prog (World δ) α} (h : ∀ rs, Keeps (Requested rs) m) : Issues [] m := fun w =>
  wp_mono ((h w.requests).wp (s := w) rfl) (fun _ _ ht => ht.trans (List.append_nil _).symm) fun _ ht =>
    ⟨[], List.prefix_rfl, ht.trans (List.append_nil _).symm⟩

theorem Issues.bind {rs rs' : List Request} {m : Prog (World δ) β} {f : β → Prog (World δ) α}
    (hm : Issues rs m)
    (hf : ∀ b, Issues rs' (f b)) : Issues (rs ++ rs') (m >>= f) := by
  intro w
  rw [wp_bind]
  refine wp_mono (hm w) (fun b t ht => ?_) ?_
  · refine wp_mono (hf b t) (fun _ u hu => ?_) ?_
    · rw [hu, ht, List.append_assoc]
    · rintro u ⟨ps, hps, hu⟩
      refine ⟨rs ++ ps, (List.prefix_append_right_inj rs).mpr hps, ?_⟩
      rw [hu, ht, List.append_assoc]
  · rintro t ⟨ps, hps, ht⟩
    exact ⟨ps, hps.trans (List.prefix_append _ _), ht⟩

theorem Issues.bindOf {rs rs' : List Request} {m : Prog (World δ) β} {f : β → Prog (World δ) α}
    (hm : Issues rs m)
    (hf : ∀ b, IssuesOf rs' (f b)) : IssuesOf (rs ++ rs') (m >>= f) := by
  intro w
  refine wp_state (I := fun t : World δ => ∃ ps, ps <+: rs ++ rs' ∧ t.requests = w.requests ++ ps) ?_
  rw [wp_bind]
  refine wp_mono (hm w) (fun b t ht => wp_of_state ?_) ?_
  · obtain ⟨ps, hps, hu⟩ := hf b t
    refine ⟨rs ++ ps, (List.prefix_append_right_inj rs).mpr hps, ?_⟩
    rw [hu, ht, List.append_assoc]
  · rintro t ⟨ps, hps, ht⟩
    exact ⟨ps, hps.trans (List.prefix_append _ _), ht⟩

theorem issues_pure (a : α) : Issues [] (pure a : Prog (World δ) α) := issues_silent fun _ => keeps_pure a

theorem issuesOf_pure (rs : List Request) (a : α) : IssuesOf rs (pure a : Prog (World δ) α) := fun _ =>
  ⟨[], List.nil_prefix, (List.append_nil _).symm⟩

theorem cached_requested (P : Platform δ) (rs : List Request) : Cached P (Requested rs) :=
  cached_log P (· = rs)

theorem opens_requested (P : Platform δ) (rs : List Request) : Opens P (Requested rs) where
  command := (cached_requested P rs).command
  wrapSysDevice _ _ hw := hw
  activeConfig _ _ hw := hw
  assign _ _ _ hw := hw

/-- One call of `scsi_io_internal` is one request. -/
theorem issues_io (fuel : ℕ) (buf : Buf) (count offset : ℤ) (isWrite : Bool) :
    Issues [⟨buf, count, offset, isWrite⟩] (scsiIoInternal P fuel buf count offset isWrite) := by
  intro w
  have hrest := (cached_requested P (w.requests ++ [⟨buf, count, offset, isWrite⟩])).transfer fuel buf count
    offset isWrite
  exact wp_mono (hrest.wp (s := { w with requests := w.requests ++ [⟨buf, count, offset, isWrite⟩] }) rfl)
    (fun _ _ ht => ht) fun _ ht => ⟨_, List.prefix_rfl, ht⟩

/-- A loop whose passes take the requests `rs i` off the front. -/
theorem Issues.loop {ι : Type} {body : ι → Prog (World δ) (ι ⊕ α)} (p : ι → Prop) (rs : ι → List Request)
    (hpass : ∀ i, p i → ∀ w, Prog.wp (body i)
      (fun r t => match r with
        | .inl j => p j ∧ ∃ qs, rs i = qs ++ rs j ∧ t.requests = w.requests ++ qs
        | .inr _ => t.requests = w.requests ++ rs i)
      (fun t => ∃ ps, ps <+: rs i ∧ t.requests = w.requests ++ ps) w)
    (fuel : ℕ) {i : ι} (hi : p i) : Issues (rs i) (loop body fuel i) := by
  induction fuel generalizing i with
  | zero => exact fun w => ⟨[], List.nil_prefix, (List.append_nil _).symm⟩
  | succ fuel ih =>
    intro w
    rw [Prog.loop, wp_bind]
    refine wp_mono (hpass i hi w) (fun r t ht => ?_) fun _ ht => ht
    cases r with
    | inr a => exact ht
    | inl j =>
      obtain ⟨hj, qs, hqs, ht⟩ := ht
      rw [hqs]
      refine wp_mono (ih hj t) (fun _ u hu => ?_) ?_
      · rw [hu, ht, List.append_assoc]
      · rintro u ⟨ps, hps, hu⟩
        refine ⟨qs ++ ps, (List.prefix_append_right_inj qs).mpr hps, ?_⟩
        rw [hu, ht, List.append_assoc]

/-- The loop over the rest of a region, below byte 2^32. -/
theorem issues_zeroChunks (fuel start size : ℕ) (hsize : start + (size - 1) / 64 * 64 < 2 ^ 23)
    (hlt : size + 64 ≤ 2 ^ 23) (i : ℕ) :
    Issues (zeroWrites 512 start size (64 * i))
      (zeroChunks P fuel (start * 512) (size * 512) (32768 * i)) := by
  have hi : 64 * i = 32768 * i / 512 := by omega
  rw [hi]
  refine Issues.loop (fun j => 32768 ∣ j) (fun j => zeroWrites 512 start size (j / 512)) ?_ fuel
    (Nat.dvd_mul_right _ _)
  rintro j ⟨k, rfl⟩ w
  refine wp_ite (fun hlt' => ?_) fun hge => ?_
  · have hoffset : u32 ((start * 512 : ℕ) + (32768 * k : ℕ)) = (start + 64 * k) * 512 := by
      rw [u32_add (by omega)]
      omega
    have hnext : u32 ((32768 * k : ℕ) + 32768) = 32768 * (k + 1) := by
      unfold u32
      omega
    have hrest : u32 ((size * 512 : ℕ) - (32768 * k : ℕ)) = (size - 64 * k) * 512 := by
      unfold u32
      omega
    have hk : 32768 * k / 512 = 64 * k := by omega
    have hk' : 32768 * (k + 1) / 512 = 64 * k + 64 := by omega
    have hcount : (if (size - 64 * k) * 512 > 32768 then 32768 else (size - 64 * k) * 512) =
        512 * min 64 (size - 64 * k) := by
      split_ifs <;> omega
    simp only [hoffset, hnext, hrest, hcount]
    rw [wp_bind, hk, zeroWrites_of_lt (by omega)]
    refine wp_mono (issues_io fuel zeros _ _ true w) (fun r t ht => ?_) ?_
    · refine ⟨Nat.dvd_mul_right _ _, _, ?_, ht⟩
      rw [hk']
      rfl
    · rintro t ⟨ps, hps, ht⟩
      exact ⟨ps, hps.trans ⟨_, rfl⟩, ht⟩
  · rw [zeroWrites_of_le (by omega)]
    exact (List.append_nil _).symm

theorem FatAddressable.bound {fatType : ℤ} {fatSize : ℕ} (h : FatAddressable fatType fatSize) :
    fatReservedSectors fatType + fatSize + (fatSize - 1) / 64 * 64 < 2 ^ 23 ∧ fatSize + 64 ≤ 2 ^ 23 := by
  unfold FatAddressable at h
  unfold fatReservedSectors
  split_ifs at h ⊢ <;> omega

theorem FatAddressable.offset {fatType : ℤ} {fatSize : ℕ} (h : FatAddressable fatType fatSize) {f : ℕ}
    (hf : f ≤ 1 ∨ fatType ≠ 1 ∧ f = 2) :
    fatOffset fatType fatSize f = (fatReservedSectors fatType + f * fatSize) * 512 := by
  have hlt : fatReservedSectors fatType + f * fatSize < 2 ^ 23 := by
    rcases hf with hf | ⟨hne, rfl⟩
    · have hle : f * fatSize ≤ fatSize :=
        Nat.le_trans (Nat.mul_le_mul_right _ hf) (Nat.le_of_eq (Nat.one_mul _))
      have hbound := h.bound.1
      omega
    · rw [FatAddressable, if_neg hne] at h
      rw [fatReservedSectors, if_neg hne]
      exact h
  have hmul : u32 ((f : ℤ) * fatSize) = f * fatSize := u32_mul (by omega)
  rw [fatOffset, hmul, u32_add (by omega)]
  exact u32_mul (b := 512) (by omega)

theorem issues_writeFatTable (fuel : ℕ) {fatType : ℤ} {fatSize : ℕ}
    (h : FatAddressable fatType fatSize) {f : ℕ}
    (hf : f ≤ 1) : Issues (fatTableWrites 512 fatType fatSize f)
      (writeFatTable P fuel fatType fatSize f) := by
  obtain ⟨hbound, hlt⟩ := h.bound
  have hle : f * fatSize ≤ fatSize := Nat.le_trans (Nat.mul_le_mul_right _ hf) (Nat.le_of_eq (Nat.one_mul _))
  have hsize : u32 ((fatSize : ℤ) * 512) = fatSize * 512 := u32_mul (b := 512) (by omega)
  have hrest := issues_zeroChunks (P := P) fuel (fatReservedSectors fatType + f * fatSize) fatSize
    (by omega) hlt 1
  rw [Nat.mul_one, Nat.mul_one] at hrest
  rw [writeFatTable, h.offset (.inl hf), hsize, fatTableWrites]
  refine Issues.bind ?_ fun _ => hrest
  exact issues_io fuel _ _ _ true

/-- The writes behind the boot sector. -/
def fatRest (s : ℕ) (fatType : ℤ) (fatSize : ℕ) (bs : Buf) : List Request :=
  if fatType = 1 then
    [writeAt s bs 512 6] ++ ([writeAt s fatFsInfo 512 1] ++
      (fatTableWrites s fatType fatSize 0 ++ fatTableWrites s fatType fatSize 1))
  else
    fatTableWrites s fatType fatSize 0 ++ (fatTableWrites s fatType fatSize 1 ++
      zeroWrites s (fatReservedSectors fatType + 2 * fatSize) (fatRootDirSectors fatType) 0)

theorem issues_writeFatTables (fuel : ℕ) {fatType : ℤ} {fatSize : ℕ} (h : FatAddressable fatType fatSize)
    (bs : Buf) :
    Issues (fatRest 512 fatType fatSize bs) (writeFatTables P fuel fatType fatSize bs) := by
  have htable₀ := issues_writeFatTable (P := P) fuel h (Nat.zero_le 1)
  have htable₁ := issues_writeFatTable (P := P) fuel h (Nat.le_refl 1)
  rw [writeFatTables, fatRest]
  by_cases htype : fatType = 1
  · rw [if_pos htype, if_pos htype]
    refine Issues.bind ?_ fun _ => Issues.bind ?_ fun _ => htable₀.bind fun _ => htable₁
    · exact issues_io fuel _ _ _ true
    · exact issues_io fuel _ _ _ true
  · have hroot : fatRootDirSectors fatType = 32 := by
      rw [fatRootDirSectors, fatRootDirEntries, if_neg htype]
    have hsize : u32 ((32 : ℕ) * 512) = 32 * 512 := u32_mul (b := 512) (by decide)
    have hstart : fatReservedSectors fatType + 2 * fatSize < 2 ^ 23 := by
      rw [FatAddressable, if_neg htype] at h
      rw [fatReservedSectors, if_neg htype]
      exact h
    rw [if_neg htype, if_neg htype, h.offset (.inr ⟨htype, rfl⟩), hroot, hsize]
    have hrest := issues_zeroChunks (P := P) fuel (fatReservedSectors fatType + 2 * fatSize) 32 hstart
      (by decide) 0
    exact htable₀.bind fun _ => htable₁.bind fun _ => hrest

/-- The FAT formatter writes what its layout calls for, from the boot sector on. -/
theorem issues_writeFat (fuel : ℕ) {fatType : ℤ} {fatSize : ℕ} (h : FatAddressable fatType fatSize)
    (bs : Buf) :
    IssuesOf (fatWrites 512 fatType fatSize bs) (writeFat P fuel fatType fatSize bs) := by
  have hrest : ∀ r : ℤ × Buf, IssuesOf (fatRest 512 fatType fatSize bs) (if r.1 ≠ 512 then pure (-1) else do
      writeFatTables P fuel fatType fatSize bs
      pure (0 : ℤ)) := fun r => by
    split_ifs
    · exact issuesOf_pure _ _
    · have hfinal := (issues_writeFatTables (P := P) fuel h bs).bind fun _ => issues_pure (δ := δ) (0 : ℤ)
      rw [List.append_nil] at hfinal
      exact hfinal.issuesOf
  refine Issues.bindOf ?_ hrest
  exact issues_io fuel bs 512 0 true

/-- A formatter that returns 0 wrote all of it. -/
theorem writeFat_requests (fuel : ℕ) {fatType : ℤ} {fatSize : ℕ}
    (h : FatAddressable fatType fatSize) {bs : Buf}
    {w t : World δ} (hrun : writeFat P fuel fatType fatSize bs w = (some 0, t)) :
    t.requests = w.requests ++ fatWrites 512 fatType fatSize bs := by
  refine wp_run (Q := fun r t => r = 0 → t.requests = w.requests ++ fatWrites 512 fatType fatSize bs)
    (D := fun _ => True) ?_ hrun rfl
  rw [writeFat, wp_bind]
  refine wp_mono (issues_io fuel bs 512 0 true w) (fun r u hu => ?_) fun _ _ => trivial
  refine wp_ite (fun _ hr => by cases hr) fun _ => ?_
  rw [wp_bind]
  refine wp_mono (issues_writeFatTables fuel h bs u) (fun _ v hv _ => ?_) fun _ _ => trivial
  rw [hv, hu, List.append_assoc]
  rfl

/-- The disk and the window as the driver has them. -/
structure Seated (n driveOffset : ℕ) (type : ℤ) (w : World δ) : Prop where
  count : w.drv.gSectorCount = n
  offset : w.drv.gDriveOffsetSectors = driveOffset
  type : w.drv.gPartitionType = type

theorem cached_seated (P : Platform δ) (n d : ℕ) (ty : ℤ) : Cached P (Seated n d ty) :=
  cached_of_settings P fun _ _ h hw =>
    ⟨(congrArg Driver.gSectorCount h).trans hw.count, (congrArg Driver.gDriveOffsetSectors h).trans hw.offset,
      (congrArg Driver.gPartitionType h).trans hw.type⟩

theorem seated_writing (P : Platform δ) (n d : ℕ) (ty : ℤ) : Writing P (Seated n d ty) where
  toDirect := (cached_seated P n d ty).direct
  ioWrite fuel buf count offset := keeps_io (fun _ _ hw => ⟨hw.count, hw.offset, hw.type⟩)
    ((cached_seated P n d ty).transfer fuel buf count offset true)

end Issues

/-- `fat_size_sectors` of a session on a device of `n` sectors. -/
def FormatSession.fatSize (x : FormatSession δ) (n : ℕ) : ℕ :=
  fatSizeSectors x.fsType (u32 x.clusterSize) (fatUsableSectors
    { gSectorCount := n
      gDriveOffsetSectors := driveStart x.partitionType
      gPartitionType := x.partitionType })

/-- The requests of a session on sectors of `s` bytes: chunks of the wipe, then the first of the
writes that the FAT layout calls for. -/
def LaidOut (s : ℕ) (x : FormatSession δ) (n : ℕ) (rs : List Request) : Prop :=
  ∃ wipes fats bs, rs = wipes ++ fats ∧ (∀ q ∈ wipes, WipeRequest x.fsType q) ∧
    fats <+: fatWrites s x.fsType (x.fatSize n) bs

/-- Commands, offsets and layout agree with sectors of `s` bytes. -/
structure Consistent (s : ℕ) (x : FormatSession δ) (n : ℕ) (w t : World δ) : Prop where
  commands : ∀ e ∈ t.trace.drop w.trace.length, e.cmd.Whole s
  aligned : ∀ q ∈ t.requests.drop w.requests.length, (s : ℤ) ∣ q.offset
  laidOut : LaidOut s x n (t.requests.drop w.requests.length)

section Session

variable {P : Platform δ} {fuel : ℕ} {x : FormatSession δ} {n : ℕ} {rs : List Request}

/-- The requests after `rs` are laid out for sectors of 512 bytes. -/
def LaidAfter (x : FormatSession δ) (n : ℕ) (rs : List Request) (w : World δ) : Prop :=
  ∃ qs, w.requests = rs ++ qs ∧ LaidOut 512 x n qs

/-- Chunks of the wipe followed `rs`. -/
def WipedAfter (fsType : ℤ) (rs : List Request) (w : World δ) : Prop :=
  ∃ qs, w.requests = rs ++ qs ∧ ∀ q ∈ qs, WipeRequest fsType q

theorem Requested.wipedAfter {w : World δ} (h : Requested rs w) (fsType : ℤ) : WipedAfter fsType rs w :=
  ⟨[], h.trans (List.append_nil _).symm, fun _ hq => absurd hq List.not_mem_nil⟩

theorem WipedAfter.laid {w : World δ} (h : WipedAfter x.fsType rs w) : LaidAfter x n rs w := by
  obtain ⟨qs, hqs, hwipe⟩ := h
  exact ⟨qs, hqs, qs, [], zeros, (List.append_nil _).symm, hwipe, List.nil_prefix⟩

theorem keeps_wipedAfter_head (fuel : ℕ) (fsType : ℤ) :
    Keeps (WipedAfter fsType rs) (usbScsiWipePartitionHead P fuel fsType) := by
  have hcached : Cached P (WipedAfter fsType rs) :=
    cached_log P fun l => ∃ qs, l = rs ++ qs ∧ ∀ q ∈ qs, WipeRequest fsType q
  refine hcached.direct.usbScsiWipePartitionHead fuel fsType fun i hi => ?_
  refine Keeps.bind (keeps_update ?_) fun _ => hcached.transfer fuel zeros _ _ true
  rintro w ⟨qs, hqs, hwipe⟩
  refine ⟨qs ++ [writeRequest zeros 262144 (i * 262144)], ?_, fun q hq => ?_⟩
  · show w.requests ++ [_] = _
    rw [hqs, List.append_assoc]
    rfl
  · rcases List.mem_append.mp hq with hq | hq
    · exact hwipe q hq
    · exact ⟨i, hi, List.mem_singleton.mp hq⟩

/-- The FAT formatter on the session's window. -/
theorem usbScsiFormatFat_laid {w : World δ} (hfits : FatAddressable x.fsType (x.fatSize n))
    (hseat : Seated n (driveStart x.partitionType) x.partitionType w) (hw : WipedAfter x.fsType rs w) :
    LaidAfter x n rs (usbScsiFormatFat P fuel x.fsType (u32 x.clusterSize) usbDisk w).2 := by
  obtain ⟨qs, hqs, hwipe⟩ := hw
  have husable : fatUsableSectors w.drv = fatUsableSectors
      { gSectorCount := n
        gDriveOffsetSectors := driveStart x.partitionType
        gPartitionType := x.partitionType } := by
    simp only [fatUsableSectors, hseat.count, hseat.offset, hseat.type]
  refine wp_state ?_
  rw [usbScsiFormatFat, wp_bind, wp_globals]
  refine wp_ite (fun _ => ⟨qs, hqs, qs, [], zeros, (List.append_nil _).symm, hwipe, List.nil_prefix⟩)
    fun _ => ?_
  rw [wp_bind, wp_rand]
  refine wp_of_state ?_
  have hsize : fatSizeSectors x.fsType (u32 x.clusterSize) (fatUsableSectors w.drv) = x.fatSize n := by
    rw [husable]
    rfl
  rw [hsize]
  have hmbr : ∀ (g : Driver) (type : UInt8), Issues [] (updateMbr P g type) := fun g type => by
    refine issues_silent fun rs' => Keeps.ite ?_ (keeps_pure _)
    exact (cached_requested P rs').direct.updateMbrType type
  obtain ⟨ps, hps, ht⟩ := ((hmbr w.drv _).bindOf fun _ => issues_writeFat fuel hfits _)
    { w with dev := (P.rand w.dev).2 }
  refine ⟨qs ++ ps, ?_, qs, ps, _, rfl, hwipe, hps⟩
  rw [ht, ← List.append_assoc, ← hqs]

theorem wp_createPartition_seated {w : World δ} {d : ℕ} {ty : ℤ} (hw : Seated n d ty w)
    (partitionType fsType : ℤ)
    (part : ℕ) : Prog.wp (createPartition P partitionType fsType part)
      (fun _ t => Seated n (driveStart partitionType) ty t) (fun _ => True) w := by
  have hset : ∀ (t : World δ), Seated n d ty t → ∀ start, Prog.wp (do
      usbScsiSetPartitionOffset start
      usbScsiSetPartitionSize part) (fun _ t => Seated n start ty t) (fun _ => True) t := fun t ht start =>
    ⟨ht.count, rfl, ht.type⟩
  have hdirect := (cached_seated P n d ty).direct
  rw [createPartition, driveStart]
  refine wp_ite (fun h₁ => ?_) fun h₁ => wp_ite (fun h₂ => ?_) fun h₂ => ?_
  · rw [if_pos (.inl h₁), wp_bind]
    exact wp_mono ((hdirect.usbScsiWriteMbr _ _).wp hw) (fun _ t ht => hset t ht 4096) fun _ _ => trivial
  · rw [if_pos (.inr h₂), wp_bind]
    exact wp_mono ((hdirect.usbScsiWriteGpt _ _).wp hw) (fun _ t ht => hset t ht 4096) fun _ _ => trivial
  · rw [if_neg (by rintro (h | h); exacts [h₁ h, h₂ h])]
    exact hset w hw 0

theorem keeps_laidAfter_sync : Keeps (LaidAfter x n rs) (usbScsiSync P) := by
  rintro w ⟨qs, hqs, hlaid⟩
  exact ⟨qs, (cached_requested P (rs ++ qs)).direct.usbScsiSync w hqs, hlaid⟩

/-- The session from the size check on, below the driver's geometry. -/
theorem formatOn_laid (hfs : x.fsType = 1 ∨ x.fsType = 2 ∨ x.fsType = 3)
    (hfits : FatAddressable x.fsType (x.fatSize n))
    (part : ℕ) {w : World δ} {d : ℕ} (hseat : Seated n d x.partitionType w) (hreq : Requested rs w) :
    Prog.wp (formatOn P fuel x part) (fun _ t => LaidAfter x n rs t) (LaidAfter x n rs) w := by
  have hdirect := (cached_requested P rs).direct
  have hpartition := hdirect.createPartition (fun _ _ h => h) (fun _ _ h => h) x.partitionType x.fsType part
  rw [formatOn, wp_bind]
  refine wp_mono (wp_and (hpartition.wp hreq) (wp_createPartition_seated hseat _ _ _)) ?_
    fun t h => (Requested.wipedAfter h.1 x.fsType).laid
  rintro _ t ⟨ht, htseat⟩
  rw [wp_bind]
  have hwipe := (keeps_wipedAfter_head (P := P) fuel x.fsType).wp (ht.wipedAfter x.fsType)
  refine wp_mono (wp_and hwipe (((seated_writing P _ _ _).wipeHead fuel x.fsType).wp htseat)) ?_
    fun u h => h.1.laid
  rintro _ u ⟨hu, huseat⟩
  rw [wp_bind, formatStage_fat P fuel _ x.clusterSize hfs part]
  refine wp_mono (wp_of_state (usbScsiFormatFat_laid hfits huseat hu)) (fun r y hy => ?_) fun _ h => h
  exact (Keeps.bind keeps_laidAfter_sync fun _ => keeps_pure _).wp hy

theorem passed_laid (hfs : x.fsType = 1 ∨ x.fsType = 2 ∨ x.fsType = 3)
    (hfits : FatAddressable x.fsType (x.fatSize n))
    (part : ℕ) {w : World δ} (hcount : w.drv.gSectorCount = n) (hreq : Requested rs w) :
    Prog.wp (passed P fuel x part) (fun _ t => LaidAfter x n rs t) (LaidAfter x n rs) w := by
  have hcut : ∀ t : World δ, Requested rs t → LaidAfter x n rs t := fun t h => (h.wipedAfter x.fsType).laid
  have hdirect := (cached_requested P rs).direct
  have hseated := (cached_seated P n w.drv.gDriveOffsetSectors x.partitionType).direct
  rw [passed, wp_bind, usbScsiSetPartitionType, wp_assign, wp_bind]
  refine wp_mono (wp_and (hdirect.usbScsiWipeMbr.wp hreq) (hseated.usbScsiWipeMbr.wp ⟨hcount, rfl, rfl⟩)) ?_
    fun t h => hcut t h.1
  rintro _ t ⟨ht, htseat⟩
  rw [wp_bind]
  refine wp_mono (wp_and (hdirect.usbScsiWipeTail.wp ht) (hseated.usbScsiWipeTail.wp htseat)) ?_ fun u h =>
    hcut u h.1
  rintro _ u ⟨hu, huseat⟩
  exact formatOn_laid hfs hfits part huseat hu

theorem passed_blockwise {l : List Sent} (hfs : x.fsType = 1 ∨ x.fsType = 2 ∨ x.fsType = 3) (part : ℕ) :
    Keeps (Blockwise l) (passed P fuel x part) := by
  have hI := blockwise P l
  have hset : ∀ f : Driver → Driver,
      (∀ g, (f g).gSectorSize = g.gSectorSize ∧ (f g).gCacheSectors = g.gCacheSectors) →
      Keeps (Blockwise l) (assign f : Prog (World δ) Unit) := fun f hf => keeps_update fun w hw =>
    ⟨(hf w.drv).1.trans hw.size, (hf w.drv).2.symm ▸ hw.fill, hw.sent⟩
  refine Keeps.bind ?_ fun _ => hI.usbScsiWipeMbr.bind fun _ => hI.usbScsiWipeTail.bind fun _ => ?_
  · exact hset _ fun _ => ⟨rfl, rfl⟩
  refine (hI.createPartition (fun _ => ?_) (fun _ => ?_) _ _ _).bind fun _ =>
    (hI.wipeHead fuel _).bind fun _ => ?_
  · exact hset _ fun _ => ⟨rfl, rfl⟩
  · exact hset _ fun _ => ⟨rfl, rfl⟩
  rw [formatStage_fat P fuel _ x.clusterSize hfs part]
  exact (hI.usbScsiFormatFat fuel _ _ _).bind fun _ => hI.usbScsiSync.bind fun _ => keeps_pure _

end Session

/-- The write cache is no longer than its buffer. -/
def Filled (w : World δ) : Prop := w.drv.gCacheSectors ≤ kMaxCacheSectors

section Filled

variable (P : Platform δ)

theorem filled_command (c : Cmd) (data : Buf) : Keeps Filled (scsiCommand P c data) := by
  refine keeps_of_commanded (fun w t hw ht => ?_) data
  cases ht with
  | skipped _ => exact hw
  | sent _ e _ _ _ _ hdrv _ =>
    obtain ⟨u, b, hdrv⟩ := hdrv
    rw [Filled, hdrv]
    exact hw

theorem filled : Stable P Filled := by
  have hflush : Keeps Filled (scsiFlushCacheInternal P) :=
    keeps_flush (filled_command P)
      (fun _ => keeps_update fun _ hw => hw) (keeps_update fun _ _ => Nat.zero_le _)
  refine Cached.stable {
    command := filled_command P
    malloc := fun _ hw => hw
    rand := fun _ hw => hw
    bounce := fun _ _ f hf => keeps_update fun w hw => ?_
    flush := hflush
    cachePass := keeps_cachePass hflush (fun _ hw => hw) (fun _ _ _ _ _ hw => hw) fun _ _ _ hn => hn }
    (fun _ _ hw => hw) fun f hf w hw => ?_
  · obtain ⟨b, hb⟩ := hf w.drv
    change (f w.drv).gCacheSectors ≤ kMaxCacheSectors
    rw [hb]
    exact hw
  obtain ⟨d, n, ty, h⟩ := hf w.drv
  change Filled { w with drv := f w.drv }
  rw [h]
  exact hw

theorem filled_opens : Opens P Filled where
  command := filled_command P
  wrapSysDevice _ _ hw := hw
  activeConfig _ _ hw := hw
  assign f hf w hw := by
    change (f w.drv).gCacheSectors ≤ kMaxCacheSectors
    rw [(hf w.drv).2.1]
    exact hw

end Filled

/-- The process after the sessions `xs`. -/
def processAfter (P : Platform δ) (fuel : ℕ) (dev : δ) (xs : List (FormatSession δ)) : World δ :=
  xs.foldl (fun w x => x.run P fuel w) (loaded dev)

theorem processAfter_filled (P : Platform δ) (fuel : ℕ) (dev : δ) (xs : List (FormatSession δ)) :
    Filled (processAfter P fuel dev xs) := by
  have hrun : ∀ (w : World δ) (x : FormatSession δ), Filled w → Filled (x.run P fuel w) := fun w x hw =>
    (filled_opens P).startStableFormat (filled P) fuel (fun _ => (filled P).engine fuel _) _ _ _ _ _ hw
  unfold processAfter
  suffices h : ∀ w : World δ, Filled w →
    Filled (xs.foldl (fun w x => x.run P fuel w) w) from h _ (Nat.zero_le _)
  induction xs with
  | nil => exact fun _ hw => hw
  | cons x xs ih => exact fun w hw => ih _ (hrun w x hw)

/-- The command that starts the wipe of the old MBR. -/
def wipeCmd : Cmd := ⟨cdb10 0x2a 0 128, 0x00, 65536⟩

theorem wipeCmd_whole {s : ℕ} (h : wipeCmd.Whole s) : s = 512 := by
  have hlen : wipeCmd.dataLen = wipeCmd.blocks * s := (h (.inr rfl)).2
  have hblocks : wipeCmd.blocks = 128 := by decide
  have hdata : wipeCmd.dataLen = 65536 := rfl
  rw [hblocks, hdata] at hlen
  omega

section Wiped

variable {P : Platform δ} {fuel : ℕ} {x : FormatSession δ} {w : World δ}

/-- That command followed what was sent in `w`. -/
def WipeSent (w t : World δ) : Prop := ∃ e : Sent, e.cmd = wipeCmd ∧ w.trace ++ [e] <+: t.trace

/-- A session that passes the size check starts with it. -/
theorem wp_passed_wipes {v : ℕ × ℕ} (hw : Geometry v w) (ha : (P.malloc w.dev).1 = true) (part : ℕ) :
    Prog.wp (passed P fuel x part) (fun _ t => WipeSent w t) (fun t => WipeSent w t) w := by
  have hop : ¬(wipeCmd.opcode = 0x35 ∧ w.drv.gSyncCacheSupported = false) := fun h => absurd h.1 (by decide)
  rw [passed, wp_bind, usbScsiSetPartitionType, wp_assign, wp_bind, usbScsiWipeMbr, wp_bind, wp_malloc, if_neg
    (by rw [ha]; decide), wp_bind, show List.range 16 = 0 :: (List.range 15).map (· + 1) from rfl,
      List.map_cons,
    writeEach, wp_bind, write10, wp_bind]
  refine wp_mono (wp_scsiCommand_commanded P wipeCmd zeros) (fun r t ht => ?_) fun _ h => h.elim
  cases ht with
  | skipped h => exact absurd h hop
  | sent _ e _ hcmd htrace _ hdrv _ =>
    obtain ⟨u, b, hdrv⟩ := hdrv
    have hsteady : Steady v (w.trace ++ [e]) t := by
      refine ⟨?_, htrace ▸ List.prefix_rfl⟩
      rw [Geometry, hdrv]
      exact hw
    -- what follows only sends more
    have hI := steady P v (w.trace ++ [e])
    have hend : ∀ t, Steady v (w.trace ++ [e]) t → WipeSent w t := fun t ht => ⟨e, hcmd, ht.sent⟩
    rw [wp_pure]
    have heach : Keeps (Steady v (w.trace ++ [e])) (if r.1 ≠ 0 then pure false
        else writeEach P 128 (((List.range 15).map (· + 1)).map fun i => (128 * i, zeros))) :=
      Keeps.ite (keeps_pure _) (hI.writeEach (by decide) (Nat.le_refl _) _)
    refine wp_mono (heach.wp hsteady) (fun _ t ht => ?_) hend
    rw [wp_bind]
    refine wp_mono (hI.syncCache.wp ht) (fun _ t ht => ?_) hend
    rw [wp_pure, wp_bind]
    refine wp_mono (hI.usbScsiWipeTail.wp ht) (fun _ t ht => ?_) hend
    exact wp_mono ((hI.formatOn fuel x part).wp ht) (fun _ => hend) hend

theorem run_wipes (fuel : ℕ) {n s : ℕ} (hown : own P w x = some (some (n, s))) (hn : x.leastSectors < n)
    (ha : Allocated P w x) : ∃ e ∈ (x.run P fuel w).trace.drop w.trace.length, e.cmd = wipeCmd := by
  obtain ⟨v, u, hv, hsends⟩ :=
    ownCapacity_returns (P := P) (w := w) x (fun _ => True) ⟨trivial, trivial, trivial⟩
  obtain rfl : v = some (n, s) := Option.some.inj ((congrArg Prod.fst hv).symm.trans hown)
  obtain ⟨handle, hhandle⟩ := wrapSysDevice_of_own hv
  rw [Allocated, hv] at ha
  obtain ⟨es, hes, -⟩ := hsends.sent
  refine run_of_probe fuel x hhandle hv (I := fun t => ∃ e ∈ t.trace.drop w.trace.length, e.cmd = wipeCmd)
    (fun hle => absurd hn (Nat.not_lt_of_le hle)) fun _ => ?_
  have hin : ∀ t : World δ, WipeSent u t →
      ∃ e ∈ t.trace.drop w.trace.length, e.cmd = wipeCmd := by
    rintro t ⟨e, hcmd, fs, hfs⟩
    refine ⟨e, ?_, hcmd⟩
    rw [← hfs, hes, List.append_assoc, List.append_assoc, List.drop_left]
    exact List.mem_append_right _ (List.mem_append_left _ (List.mem_singleton_self e))
  exact wp_mono (wp_passed_wipes (adopt_geometry _ _) ha _) (fun _ => hin) hin

end Wiped

theorem zeroWrites_aligned {s start size i : ℕ} {q : Request} (h : q ∈ zeroWrites s start size i) :
    (s : ℤ) ∣ q.offset := by
  obtain ⟨k, -, rfl⟩ := List.mem_map.mp h
  exact Int.natCast_dvd_natCast.mpr (Nat.dvd_mul_left _ _)

theorem writeAt_aligned (s : ℕ) (buf : Buf) (count sector : ℕ) :
    (s : ℤ) ∣ (writeAt s buf count sector).offset :=
  Int.natCast_dvd_natCast.mpr (Nat.dvd_mul_left _ _)

/-- A FAT layout starts its writes at sectors. -/
theorem fatWrites_aligned {s : ℕ} {fatType : ℤ} {fatSize : ℕ} {bs : Buf} {q : Request}
    (h : q ∈ fatWrites s fatType fatSize bs) : (s : ℤ) ∣ q.offset := by
  have hone : ∀ {buf : Buf} {count sector : ℕ}, q ∈ [writeAt s buf count sector] → (s : ℤ) ∣ q.offset :=
      fun hq => by
    rw [List.mem_singleton.mp hq]
    exact writeAt_aligned s _ _ _
  have htable : ∀ f, q ∈ fatTableWrites s fatType fatSize f → (s : ℤ) ∣ q.offset := fun f hq =>
    (List.mem_append.mp hq).elim hone zeroWrites_aligned
  rcases List.mem_append.mp h with h | h
  · exact hone h
  · split_ifs at h
    · rcases List.mem_append.mp h with h | h
      · exact hone h
      · rcases List.mem_append.mp h with h | h
        · exact hone h
        · exact (List.mem_append.mp h).elim (htable 0) (htable 1)
    · rcases List.mem_append.mp h with h | h
      · exact htable 0 h
      · exact (List.mem_append.mp h).elim (htable 1) zeroWrites_aligned

theorem LaidOut.aligned {x : FormatSession δ} {n : ℕ} {rs : List Request} (h : LaidOut 512 x n rs) :
    ∀ q ∈ rs, ((512 : ℕ) : ℤ) ∣ q.offset := by
  obtain ⟨wipes, fats, bs, rfl, hwipe, hfat⟩ := h
  intro q hq
  rcases List.mem_append.mp hq with hq | hq
  · obtain ⟨i, -, rfl⟩ := hwipe q hq
    exact Int.natCast_dvd_natCast.mpr ⟨i * 512, by omega⟩
  · exact fatWrites_aligned (hfat.subset hq)

/-- On sectors of 512 bytes a FAT session whose layout lies below byte 2^32 is consistent, whatever
fails. On others no session is that starts to write. -/
theorem startStableFormat_consistent (P : Platform δ) (fuel : ℕ) (dev : δ) (xs : List (FormatSession δ))
    (x : FormatSession δ) {n s : ℕ} (hfs : x.fsType = 1 ∨ x.fsType = 2 ∨ x.fsType = 3)
    (hown : own P (processAfter P fuel dev xs) x = some (some (n, s))) (hn : x.leastSectors < n) :
    let w := processAfter P fuel dev xs
    (s = 512 → FatAddressable x.fsType (x.fatSize n) → Consistent s x n w (x.run P fuel w)) ∧
      (Allocated P w x → Consistent s x n w (x.run P fuel w) → s = 512) := by
  intro w
  constructor
  · rintro rfl hfits
    obtain ⟨v, u, hv, hsends⟩ := ownCapacity_returns (P := P) (w := w) x (fun c => c.Whole 512)
      ⟨fun h => absurd h (by decide), fun h => absurd h (by decide), fun h => absurd h (by decide)⟩
    obtain rfl : v = some (n, 512) := Option.some.inj ((congrArg Prod.fst hv).symm.trans hown)
    obtain ⟨handle, hhandle⟩ := wrapSysDevice_of_own hv
    have hstart : Filled (x.start w) := processAfter_filled P fuel dev xs
    have hfill : Filled u := ((filled_opens P).ownCapacity x.fd).run hstart hv
    have hreq : Requested w.requests u := ((opens_requested P _).ownCapacity x.fd).run (s := x.start w) rfl hv
    have hsmall : ¬n ≤ x.leastSectors := Nat.not_le_of_lt hn
    have hblock : ∃ es, (x.run P fuel w).trace = w.trace ++ es ∧ ∀ e ∈ es, e.cmd.Whole 512 :=
      run_of_probe fuel x hhandle hv (I := fun t => ∃ es, t.trace = w.trace ++ es ∧ ∀ e ∈ es, e.cmd.Whole 512)
        (fun h => absurd h hsmall) fun _ =>
          wp_mono ((passed_blockwise (l := w.trace) hfs _).wp ⟨rfl, hfill, hsends.sent⟩) (fun _ _ h => h.sent)
            fun _ h => h.sent
    have hlaid : LaidAfter x n w.requests (x.run P fuel w) :=
      run_of_probe fuel x hhandle hv (fun h => absurd h hsmall) fun _ => passed_laid hfs hfits _ rfl hreq
    obtain ⟨es, hes, hwhole⟩ := hblock
    obtain ⟨qs, hqs, hout⟩ := hlaid
    constructor
    · rw [hes, List.drop_left]
      exact hwhole
    · rw [hqs, List.drop_left]
      exact hout.aligned
    · rw [hqs, List.drop_left]
      exact hout
  · intro ha h
    obtain ⟨e, he, hcmd⟩ := run_wipes fuel hown hn ha
    exact wipeCmd_whole (hcmd ▸ h.commands e he)

/-- A FAT32 session on a stick of 70000 sectors of 4096 bytes. -/
def largeSectorFat : FormatSession Stick := { soundFat with
  dev := { soundSession.dev with spec := { soundSession.dev.spec with blockSize := 4096 } } }

/-- The wipe of the old MBR announces 128 sectors and sends 16 of them. -/
theorem startStableFormat_largeSectors :
    own stick (loaded soundSession.dev) largeSectorFat = some (some (70000, 4096)) ∧
      largeSectorFat.leastSectors < 70000 ∧
      ¬Consistent 4096 largeSectorFat 70000 (loaded soundSession.dev)
        (largeSectorFat.run stick 4 (loaded soundSession.dev)) := by
  have hown : own stick (loaded soundSession.dev) largeSectorFat = some (some (70000, 4096)) := by
    decide +kernel
  have hallocated : Allocated stick (loaded soundSession.dev) largeSectorFat := by
    unfold Allocated
    decide +kernel
  refine ⟨hown, by decide, fun h => ?_⟩
  obtain ⟨e, he, hcmd⟩ := run_wipes 4 hown (by decide) hallocated
  exact absurd (wipeCmd_whole (hcmd ▸ h.commands e he)) (by decide)

/-- The same session on sectors of 512 bytes. -/
theorem startStableFormat_consistent_512 :
    own stick (processAfter stick 4 soundSession.dev []) soundFat = some (some (70000, 512)) ∧
      Consistent 512 soundFat 70000 (processAfter stick 4 soundSession.dev [])
        (soundFat.run stick 4 (processAfter stick 4 soundSession.dev [])) := by
  have hown : own stick (processAfter stick 4 soundSession.dev []) soundFat = some (some (70000, 512)) := by
    decide +kernel
  have h := startStableFormat_consistent stick 4 soundSession.dev [] soundFat (.inl rfl) hown (by decide)
  refine ⟨hown, h.1 rfl ?_⟩
  unfold FatAddressable
  decide +kernel

end FormatStick
