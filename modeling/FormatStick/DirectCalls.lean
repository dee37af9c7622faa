import FormatStick.History

/-!
# Commands that bypass the cache

Five functions send READ(10) and WRITE(10) themselves, past the write cache. In every session
of a process they find the cache empty: a command that is sent while something is cached is
the flush of it, and what is flushed comes from the requests of the session it is sent in.
-/
namespace FormatStick
open Splice Prog Runs

variable {δ : Type}

/-- The first `len` bytes of `data` are bytes of write requests among `rs`. -/
def FromRequests (rs : List Request) (data : Buf) (len : ℕ) : Prop :=
  ∀ i < len, ∃ r ∈ rs, r.isWrite = true ∧ ∃ j : ℕ, (j : ℤ) < r.count ∧ data i = r.buf j

theorem FromRequests.mono {rs rs' : List Request} (h : rs ⊆ rs') {data : Buf} {len : ℕ}
    (hd : FromRequests rs data len) :
    FromRequests rs' data len := by
  intro i hi
  obtain ⟨r, hr, hbyte⟩ := hd i hi
  exact ⟨r, h hr, hbyte⟩

/-- A piece of a write request. -/
theorem fromRequests_window {rs : List Request} {r : Request} (hr : r ∈ rs) (hw : r.isWrite = true)
    {done len : ℕ}
    (h : ((done + len : ℕ) : ℤ) ≤ r.count) : FromRequests rs (window r.buf done) len := by
  intro i hi
  exact ⟨r, hr, hw, done + i, by omega, rfl⟩

/-- More data goes right behind, or inside what is there. -/
theorem FromRequests.splice {rs : List Request} {data piece : Buf} {a n len : ℕ} (hd : FromRequests rs data a)
    (hp : FromRequests rs piece n) (h : len ≤ a + n) : FromRequests rs (splice data a piece n) len := by
  intro i hi
  by_cases hlt : i < a
  · rw [splice_of_lt hlt]
    exact hd i hlt
  · obtain ⟨j, rfl⟩ := Nat.exists_eq_add_of_le (Nat.le_of_not_lt hlt)
    rw [splice_at (by omega)]
    exact hp j (by omega)

/-- A 32-bit sum is no longer than its parts. -/
theorem u32_add_le (a b : ℕ) : u32 ((a + b : ℕ) : ℤ) ≤ u32 a + u32 b := by
  unfold u32
  omega

theorem u32_u32_mul (a b : ℕ) : u32 (u32 a * b) = u32 (a * b) := by
  have ha : ((u32 a : ℕ) : ℤ) = (a : ℤ) % 2 ^ 32 := by
    unfold u32
    omega
  rw [ha]
  unfold u32
  rw [Int.mul_emod, Int.emod_emod_of_dvd _ (Int.dvd_refl _), ← Int.mul_emod]

/-- The command is the flush of what was cached when it was sent: WRITE(10) of the cached sectors
at their place, from the cache itself, and all of them bytes of the write requests `rs`. -/
structure Sent.Flushes (rs : List Request) (e : Sent) : Prop where
  cdb : e.cmd.cdb = cdb10 0x2a e.cacheLba e.cacheSectors
  direction : e.cmd.direction = 0x00
  data : e.cache = some e.data
  sourced : FromRequests rs e.data e.cmd.dataLen

/-- What the process has cached since `w₀` came from the write requests `rs` it was given since, and
whatever it sent while something was cached was a flush. -/
structure Sourced (w₀ : World δ) (rs : List Request) (w : World δ) : Prop where
  requests : w.requests = w₀.requests ++ rs
  backed : CacheBacked w
  cached : ∀ cache, w.drv.gWriteCache = some cache →
    FromRequests rs cache (u32 (w.drv.gCacheSectors * w.drv.gSectorSize))
  sent : ∃ es, w.trace = w₀.trace ++ es ∧ ∀ e ∈ es, e.cacheSectors ≠ 0 → e.Flushes rs

/-- The same with nothing cached. -/
def Clear (w₀ : World δ) (rs : List Request) (w : World δ) : Prop := CacheEmpty w ∧ Sourced w₀ rs w

section Command

variable {P : Platform δ} {w₀ w : World δ} {rs : List Request}

/-- With nothing cached any globals will do. -/
theorem Clear.congr (hw : Clear w₀ rs w) {w' : World δ} (hempty : CacheEmpty w')
    (hr : w'.requests = w.requests)
    (ht : w'.trace = w.trace) : Clear w₀ rs w' := by
  refine ⟨hempty, hr.trans hw.2.requests, hempty.backed, fun cache _ i hi => ?_, ?_⟩
  · have hzero : w'.drv.gCacheSectors = 0 := hempty
    rw [hzero, Int.natCast_zero, Int.zero_mul] at hi
    exact absurd hi (Nat.not_lt_zero i)
  · rw [ht]
    exact hw.2.sent

theorem clear_start (h : CacheEmpty w) : Clear w [] w :=
  Clear.congr (w := w) ⟨h, (List.append_nil _).symm, h.backed, fun cache _ i hi => by
    have hzero : w.drv.gCacheSectors = 0 := h
    rw [hzero, Int.natCast_zero, Int.zero_mul] at hi
    exact absurd hi (Nat.not_lt_zero i), [], (List.append_nil _).symm, fun _ he => absurd he List.not_mem_nil⟩
      h rfl rfl

/-- The entry that a command logs if it is sent. -/
structure Sent.Logs (c : Cmd) (data : Buf) (g : Driver) (e : Sent) : Prop where
  cmd : e.cmd = c
  data : e.data = data
  cache : e.cache = g.gWriteCache
  cacheLba : e.cacheLba = g.gCacheLba
  cacheSectors : e.cacheSectors = g.gCacheSectors

/-- What a command leaves behind. -/
structure Logs (c : Cmd) (data : Buf) (w t : World δ) : Prop where
  requests : t.requests = w.requests
  accesses : t.accesses = w.accesses
  drv : ∃ u b, t.drv = { w.drv with usb := u, gSyncCacheSupported := b }
  sent : ∃ es, t.trace = w.trace ++ es ∧ ∀ e ∈ es, e.Logs c data w.drv

theorem wp_scsiCommand_logs (c : Cmd) (data : Buf) :
    Prog.wp (scsiCommand P c data) (fun _ t => Logs c data w t) (fun _ => False) w := by
  have hentry : ∀ csw,
      ∀ e ∈ [Sent.mk c data w.drv.usb.gTag w.drv.gWriteCache w.drv.gCacheLba w.drv.gCacheSectors csw],
      e.Logs c data w.drv := fun csw e he => by
    rw [List.mem_singleton.mp he]
    exact ⟨rfl, rfl, rfl, rfl, rfl⟩
  rw [scsiCommand, wp_bind, wp_globals]
  refine wp_ite (fun _ => ?_) fun _ => ?_
  · exact ⟨rfl, rfl, ⟨_, _, rfl⟩, [], (List.append_nil _).symm, fun _ he => absurd he List.not_mem_nil⟩
  rw [wp_bind, wp_transact]
  cases (P.exchange w.drv.usb c data w.dev).csw with
  | none => exact ⟨rfl, rfl, ⟨_, _, rfl⟩, _, rfl, hentry _⟩
  | some csw =>
    refine wp_ite (fun _ => ?_) fun _ => wp_ite (fun _ => ?_) fun _ => ?_
    · exact ⟨rfl, rfl, ⟨_, _, rfl⟩, _, rfl, hentry _⟩
    · rw [wp_bind, wp_assign]
      exact ⟨rfl, rfl, ⟨_, _, rfl⟩, _, rfl, hentry _⟩
    · rw [wp_bind, wp_sense]
      exact ⟨rfl, rfl, ⟨_, _, rfl⟩, _, rfl, hentry _⟩

/-- A command is sent on an empty cache, or it is the flush. -/
theorem wp_scsiCommand_sourced (c : Cmd) (data : Buf) (hw : Sourced w₀ rs w)
    (h : ∀ e : Sent, e.Logs c data w.drv → e.cacheSectors ≠ 0 → e.Flushes rs) :
    Prog.wp (scsiCommand P c data) (fun _ t => Sourced w₀ rs t) (fun _ => False) w := by
  refine wp_mono (wp_scsiCommand_logs c data) (fun _ t ht => ?_) fun _ h => h
  obtain ⟨u, b, hdrv⟩ := ht.drv
  obtain ⟨es, hes, hall⟩ := hw.sent
  obtain ⟨fs, hfs, hlogged⟩ := ht.sent
  refine ⟨ht.requests.trans hw.requests, ?_, ?_, es ++ fs, by rw [hfs, hes, List.append_assoc],
    fun f hf => ?_⟩
  · rw [CacheBacked, hdrv]
    exact hw.backed
  · rw [hdrv]
    exact hw.cached
  · rcases List.mem_append.mp hf with hf | hf
    · exact hall f hf
    · exact h f (hlogged f hf)

theorem clear_command (c : Cmd) (data : Buf) : Keeps (Clear w₀ rs) (scsiCommand P c data) := by
  rintro w ⟨hempty, hw⟩
  have hsourced := wp_scsiCommand_sourced (P := P) c data hw fun e he hne =>
    absurd (he.cacheSectors.trans hempty) hne
  exact ⟨cacheEmpty_command c data w hempty, wp_state (wp_mono hsourced (fun _ _ h => h) fun _ h => h.elim)⟩

theorem clear_write10 (lba blocks : ℕ) (data : Buf) (len : ℕ) :
    Keeps (Clear w₀ rs) (write10 P lba blocks data len) := (clear_command _ _).bind fun _ => keeps_pure _

theorem clear_assign {f : Driver → Driver} (hf : ∀ g, (f g).gCacheSectors = g.gCacheSectors) :
    Keeps (Clear w₀ rs) (assign f : Prog (World δ) Unit) :=
  keeps_update fun w hw => hw.congr ((hf w.drv).trans hw.1) rfl rfl

theorem clear_access {buffer : DriverBuffer} {start len : ℕ} {f : Driver → Driver}
    (hf : ∀ g, (f g).gCacheSectors = g.gCacheSectors) :
    Keeps (Clear w₀ rs) (access buffer start len f : Prog (World δ) Unit) :=
  keeps_update fun w hw => hw.congr ((hf w.drv).trans hw.1) rfl rfl

/-- A flush sends what is cached and leaves nothing. -/
theorem wp_flush_clear (hw : Sourced w₀ rs w) :
    Prog.wp (scsiFlushCacheInternal P) (fun _ t => Clear w₀ rs t) (fun _ => False) w := by
  rw [scsiFlushCacheInternal, wp_bind, wp_globals]
  cases hcache : w.drv.gWriteCache with
  | none =>
    refine ⟨Nat.eq_zero_of_not_pos fun hpos => ?_, hw⟩
    have hsome := hw.backed hpos
    rw [hcache] at hsome
    exact absurd hsome (by decide)
  | some cache =>
    refine wp_ite (fun hzero => ⟨hzero, hw⟩) fun _ => ?_
    have hflush : ∀ e : Sent, e.Logs ⟨cdb10 0x2a w.drv.gCacheLba w.drv.gCacheSectors, 0x00,
        u32 (w.drv.gCacheSectors * w.drv.gSectorSize)⟩ cache w.drv → e.cacheSectors ≠ 0 → e.Flushes rs := by
      intro e he _
      refine ⟨?_, by rw [he.cmd], by rw [he.cache, hcache, he.data], ?_⟩
      · rw [he.cmd, he.cacheLba, he.cacheSectors]
      · rw [he.cmd, he.data]
        exact hw.cached cache hcache
    rw [wp_bind, wp_writeCache, write10, wp_bind]
    refine wp_mono (wp_scsiCommand_sourced _ _ hw hflush) (fun _ t ht => ?_) fun _ h => h
    rw [wp_pure, wp_bind, wp_assign]
    exact ⟨rfl, ht.requests, fun hpos => absurd hpos (Nat.lt_irrefl 0), fun _ _ i hi => absurd hi (by
      rw [Int.natCast_zero, Int.zero_mul]
      exact Nat.not_lt_zero i), ht.sent⟩

end Command

section Transfer

variable {P : Platform δ} {w₀ : World δ} {rs : List Request}

theorem sourced_readPass (buf : Buf) (totalDone lba offsetInSector remaining : ℕ) :
    Keeps (Sourced w₀ rs) (readPass P buf totalDone lba offsetInSector remaining) := by
  refine keeps_readPass (J := Clear w₀ rs) ?_ (fun _ _ _ _ => clear_command _ _) ?_ (fun _ h => h.2) _ _ _ _ _
  · exact fun w hw => wp_mono (wp_flush_clear hw) (fun _ _ h => h) fun _ h => h.elim
  · exact fun _ _ f hf => clear_access fun g => by
      obtain ⟨b, hb⟩ := hf g
      rw [hb]

theorem sourced_modifyPass (buf : Buf) (totalDone lba offsetInSector remaining : ℕ) :
    Keeps (Sourced w₀ rs) (modifyPass P buf totalDone lba offsetInSector remaining) := by
  refine keeps_modifyPass (J := Clear w₀ rs) ?_ (fun _ _ _ _ => clear_command _ _) clear_write10 ?_
    (fun _ h => h.2) _ _ _ _ _
  · exact fun w hw => wp_mono (wp_flush_clear hw) (fun _ _ h => h) fun _ h => h.elim
  · exact fun _ _ f hf => clear_access fun g => by
      obtain ⟨b, hb⟩ := hf g
      rw [hb]

theorem wp_allocateCache_clear (h : Clear w₀ rs w) :
    Prog.wp (allocateCache P)
      (fun a t => Clear w₀ rs t ∧ t.drv.gSectorSize = w.drv.gSectorSize ∧
        (a = true → t.drv.gWriteCache.isSome)) (fun _ => False) w := by
  rw [allocateCache, wp_bind, wp_globals]
  refine wp_ite (fun hsome => ⟨h, rfl, fun _ => hsome⟩) fun _ => ?_
  rw [wp_bind, wp_malloc]
  refine wp_ite (fun _ => ⟨h.congr h.1 rfl rfl, rfl, fun h => absurd h (by decide)⟩) fun _ => ?_
  exact ⟨h.congr h.1 rfl rfl, rfl, fun _ => rfl⟩

/-- Whole sectors of a write request go into the cache. -/
theorem sourced_cachePass {r : Request} (hr : r ∈ rs) (hw : r.isWrite = true) {totalDone remaining : ℕ}
    (hle : ((totalDone + remaining : ℕ) : ℤ) ≤ r.count) (lba : ℕ) :
    Keeps (Sourced w₀ rs) (cachePass P r.buf totalDone lba remaining) := by
  intro w hfresh
  obtain ⟨sectors, hsec⟩ : ∃ n, n = if remaining / w.drv.gSectorSize > 2048 then 2048
    else remaining / w.drv.gSectorSize := ⟨_, rfl⟩
  -- a pass takes no more than what remains
  have hlen : FromRequests rs (window r.buf totalDone) (u32 (sectors * w.drv.gSectorSize)) := by
    refine fromRequests_window hr hw ?_
    have hsectors : sectors * w.drv.gSectorSize ≤ remaining := by
      refine Nat.le_trans (Nat.mul_le_mul_right _ ?_) (Nat.div_mul_le_self remaining w.drv.gSectorSize)
      split_ifs at hsec <;> omega
    have hu := (u32_left (sectors * w.drv.gSectorSize)).1
    rw [← Int.natCast_mul]
    omega
  refine wp_state ?_
  rw [cachePass, wp_bind, wp_globals]
  dsimp only
  rw [← hsec]
  refine wp_ite (fun hadd => ?_) fun _ => ?_
  · rw [wp_bind, wp_copyToCache, wp_bind, wp_assign]
    refine ⟨hfresh.requests, fun _ => ?_, fun cache hcache => ?_, hfresh.sent⟩
    · show (w.drv.gWriteCache.map _).isSome
      rw [Option.isSome_map]
      exact hfresh.backed hadd.1
    · obtain ⟨cache', hcache', rfl⟩ := Option.map_eq_some_iff.mp hcache
      refine (hfresh.cached cache' hcache').splice hlen ?_
      show u32 ((u32 ((w.drv.gCacheSectors : ℤ) + sectors) : ℕ) * w.drv.gSectorSize) ≤ _
      rw [← Int.natCast_add, u32_u32_mul, Int.natCast_add, Int.add_mul, ← Int.natCast_mul, ← Int.natCast_mul]
      exact u32_add_le _ _
  · -- the flush and the allocation leave the sector size as it is
    have hsteady := (steady P (w.drv.gSectorCount, w.drv.gSectorSize) w.trace).flush.wp (s := w)
      ⟨rfl, List.prefix_rfl⟩
    rw [wp_bind]
    refine wp_mono (wp_and (wp_flush_clear hfresh) hsteady) (fun _ t ht => ?_) fun _ h => h.1.elim
    obtain ⟨hclear, hsteady⟩ := ht
    have hsize : t.drv.gSectorSize = w.drv.gSectorSize := congrArg Prod.snd hsteady.geometry
    rw [wp_bind]
    refine wp_mono (wp_allocateCache_clear hclear) (fun a u hu => ?_) fun _ h => h.elim
    refine wp_ite (fun _ => hu.1.2) fun hyes => ?_
    rw [wp_bind, wp_assign, wp_bind, wp_copyToCache, wp_bind, wp_assign]
    refine ⟨hu.1.2.requests, fun _ => ?_, fun cache hcache => ?_, hu.1.2.sent⟩
    · show (u.drv.gWriteCache.map _).isSome
      rw [Option.isSome_map]
      exact hu.2.2 (eq_true_of_ne_false hyes)
    · obtain ⟨cache', -, rfl⟩ := Option.map_eq_some_iff.mp hcache
      show FromRequests rs (splice cache' 0 (window r.buf totalDone) _) (u32 (sectors * u.drv.gSectorSize))
      rw [hu.2.1, hsize]
      refine FromRequests.splice (a := 0) (fun i hi => absurd hi (Nat.not_lt_zero i)) hlen ?_
      exact Nat.le_of_eq (Nat.zero_add _).symm

theorem sourced_ioPass {r : Request} (hr : r ∈ rs) {totalDone : ℕ} (hlt : (totalDone : ℤ) < r.count)
    (actual : ℤ)
    {buf : Buf} (hbuf : r.isWrite = true → buf = r.buf) :
    Keeps (Sourced w₀ rs) (ioPass P r.isWrite r.count actual buf totalDone) := by
  refine keeps_globals.bind fun g => ?_
  cases hw : r.isWrite with
  | false => exact sourced_readPass _ _ _ _ _
  | true =>
    rw [hbuf hw]
    refine Keeps.ite (sourced_readPass _ _ _ _ _) (Keeps.ite (sourced_cachePass hr hw ?_ _) ?_)
    swap
    · exact sourced_modifyPass _ _ _ _ _
    unfold u32
    omega

/-- A write request leaves the caller's buffer as it is. -/
theorem gives_ioPass (count actual : ℤ) (buf : Buf) (totalDone : ℕ) :
    Gives (fun o : Option (ℕ × Buf) => ∀ p ∈ o, p.2 = buf) (ioPass P true count actual buf totalDone) := by
  have hnone : ∀ p ∈ (none : Option (ℕ × Buf)), p.2 = buf := fun _ h => absurd h (Option.not_mem_none _)
  have hsome : ∀ n : ℕ, ∀ p ∈ some (n, buf), p.2 = buf := fun n p h => by
    rw [← Option.some.inj h]
  refine Gives.bind fun g => ?_
  rw [if_neg (show ¬true = false by decide)]
  refine Gives.ite ?_ ?_
  · refine Gives.bind fun g => Gives.ite (Gives.bind fun _ => Gives.bind fun _ => gives_pure (hsome _)) ?_
    refine Gives.bind fun _ => Gives.bind fun _ => Gives.ite (gives_pure hnone) ?_
    exact Gives.bind fun _ => Gives.bind fun _ => Gives.bind fun _ => gives_pure (hsome _)
  · refine Gives.bind fun _ => Gives.bind fun g => Gives.bind fun r => Gives.ite (gives_pure hnone) ?_
    refine Gives.bind fun _ => Gives.bind fun _ => Gives.ite (gives_pure hnone) (gives_pure (hsome _))

/-- A request that the process is given joins the requests it has had since `w₀`. -/
def Held (w₀ w : World δ) : Prop := ∃ rs, Sourced w₀ rs w

theorem held_io (fuel : ℕ) (buf : Buf) (count offset : ℤ) (isWrite : Bool) :
    Keeps (Held w₀) (scsiIoInternal P fuel buf count offset isWrite) := by
  rintro w ⟨rs, hw⟩
  obtain ⟨r, hr⟩ : ∃ r : Request, r = ⟨buf, count, offset, isWrite⟩ := ⟨_, rfl⟩
  have hmem : r ∈ rs ++ [r] := List.mem_append_right _ (List.mem_singleton_self r)
  have hsub : rs ⊆ rs ++ [r] := List.subset_append_left _ _
  have hlogged : Sourced w₀ (rs ++ [r]) { w with requests := w.requests ++ [r] } := by
    obtain ⟨es, hes, hall⟩ := hw.sent
    refine ⟨?_, hw.backed, fun cache hcache => (hw.cached cache hcache).mono hsub, es, hes,
      fun e he hne => ?_⟩
    · rw [hw.requests, List.append_assoc]
    · have hflush := hall e he hne
      exact ⟨hflush.cdb, hflush.direction, hflush.data, hflush.sourced.mono hsub⟩
  refine ⟨rs ++ [r], ?_⟩
  refine wp_state ?_
  rw [scsiIoInternal, wp_bind, wp_update, ← hr, wp_bind, wp_globals]
  obtain ⟨actual, hactual⟩ :
      ∃ actual, actual = offset + i64 (u64 (w.drv.gDriveOffsetSectors * w.drv.gSectorSize)) := ⟨_, rfl⟩
  change Prog.wp (loop (ioLoop P isWrite count
    (offset + i64 (u64 (w.drv.gDriveOffsetSectors * w.drv.gSectorSize)))) fuel
    (0, buf)) _ _ _
  rw [← hactual]
  refine wp_loop (fun i t => Sourced w₀ (rs ++ [r]) t ∧ (isWrite = true → i.2 = buf))
    (fun _ _ h => h.1) ?_ fuel _
    ⟨hlogged, fun _ => rfl⟩
  rintro ⟨done, b⟩ t ⟨ht, hb⟩
  rw [ioLoop]
  refine wp_ite (fun hlt => ?_) fun _ => ht
  have hpass : Keeps (Sourced w₀ (rs ++ [r])) (ioPass P isWrite count actual b done) := by
    subst hr
    exact sourced_ioPass hmem hlt actual hb
  have hgives : Prog.wp (ioPass P isWrite count actual b done) (fun o _ => isWrite = true → ∀ p ∈ o, p.2 = b)
      (fun _ => True) t := by
    cases isWrite with
    | false => exact wp_mono (gives_true _ t) (fun _ _ _ h => absurd h Bool.false_ne_true) fun _ h => h
    | true => exact wp_mono (gives_ioPass count actual b done t) (fun _ _ h _ => h) fun _ h => h
  rw [wp_bind]
  refine wp_mono (wp_and (hpass.wp ht) hgives) (fun o u hu => ?_) fun _ h => h.1
  cases o with
  | none => exact hu.1
  | some p => exact ⟨hu.1, fun h => (hu.2 h p rfl).trans (hb h)⟩

end Transfer

section Sessions

variable {P : Platform δ}

/-- The session up to here has left the cache empty, and has flushed only what it was asked to write. -/
def Drained (w₀ w : World δ) : Prop := ∃ rs, Clear w₀ rs w

theorem keeps_drained {α : Type} {w₀ : World δ} {m : Prog (World δ) α} (h : ∀ rs, Keeps (Clear w₀ rs) m) :
    Keeps (Drained w₀) m := by
  rintro w ⟨rs, hw⟩
  exact ⟨rs, h rs w hw⟩

theorem clear_direct (w₀ : World δ) (rs : List Request) : Direct P (Clear w₀ rs) where
  write _ _ _ _ _ := clear_write10 _ _ _ _
  readMbr := clear_command _ _
  syncCache := (clear_command _ _).bind fun _ => keeps_pure _
  flush _ hw := wp_state (wp_mono (wp_flush_clear hw.2) (fun _ _ h => h) fun _ h => h.elim)
  malloc _ hw := hw.congr hw.1 rfl rfl
  rand _ hw := hw.congr hw.1 rfl rfl

theorem drained_direct (w₀ : World δ) : Direct P (Drained w₀) where
  write _ _ _ h₁ h₂ := keeps_drained fun rs => (clear_direct w₀ rs).write _ _ _ h₁ h₂
  readMbr := keeps_drained fun rs => (clear_direct w₀ rs).readMbr
  syncCache := keeps_drained fun rs => (clear_direct w₀ rs).syncCache
  flush := keeps_drained fun rs => (clear_direct w₀ rs).flush
  malloc := keeps_drained fun rs => (clear_direct w₀ rs).malloc
  rand := keeps_drained fun rs => (clear_direct w₀ rs).rand

theorem drained_assign (w₀ : World δ) {f : Driver → Driver}
    (hf : ∀ g, (f g).gCacheSectors = g.gCacheSectors) :
    Keeps (Drained w₀) (assign f : Prog (World δ) Unit) := keeps_drained fun _ => clear_assign hf

theorem drained_opens (w₀ : World δ) : Opens P (Drained w₀) where
  command c data := keeps_drained fun _ => clear_command c data
  wrapSysDevice _ := keeps_drained fun _ _ hw => hw.congr hw.1 rfl rfl
  activeConfig _ := keeps_drained fun _ _ hw => hw.congr hw.1 rfl rfl
  assign _ hf := drained_assign w₀ fun g => (hf g).2.1

theorem drained_start {w : World δ} (hw : CacheEmpty w) (x : FormatSession δ) : Drained w (x.start w) :=
  ⟨[], (clear_start hw).congr hw rfl rfl⟩

theorem drained_prepare (w : World δ) (fd clusterSize partitionType fsType : ℤ) :
    Keeps (Drained w) (prepare P fd clusterSize partitionType fsType) :=
  (drained_opens w).prepare (drained_direct w) (fun _ => drained_assign w fun _ => rfl) fd _ _ _

theorem drained_createPartition (w : World δ) (partitionType fsType : ℤ) (part : ℕ) :
    Keeps (Drained w) (createPartition P partitionType fsType part) :=
  (drained_direct w).createPartition (fun _ => drained_assign w fun _ => rfl)
    (fun _ => drained_assign w fun _ => rfl)
    _ _ _

theorem Drained.held {w₀ w : World δ} (h : Drained w₀ w) : Held w₀ w := by
  obtain ⟨rs, hw⟩ := h
  exact ⟨rs, hw.2⟩

/-- A last sync leaves the cache empty. -/
theorem wp_sync_drained {w₀ w : World δ} (hw : Held w₀ w) :
    Prog.wp (usbScsiSync P) (fun _ t => Drained w₀ t) (fun _ => False) w := by
  obtain ⟨rs, hw⟩ := hw
  rw [usbScsiSync, wp_bind]
  refine wp_mono (wp_flush_clear hw) (fun _ t ht => ?_) fun _ h => h
  rw [syncCache, wp_bind]
  have hcommand : Keeps (Clear w₀ rs) (scsiCommand P syncCmd zeros) := clear_command syncCmd zeros
  have hclear := hcommand.wp ht
  refine wp_mono (wp_and (wp_scsiCommand_logs syncCmd zeros) hclear) (fun _ u hu => ?_) fun _ h => h.1
  exact ⟨rs, hu.2⟩

/-- So does the wipe of the head, or it never starts. -/
theorem wp_wipeHead_drained {w₀ w : World δ} (hw : Drained w₀ w) (fuel : ℕ) (fsType : ℤ) :
    Prog.wp (usbScsiWipePartitionHead P fuel fsType) (fun _ t => Drained w₀ t) (Held w₀) w := by
  rw [usbScsiWipePartitionHead, wp_bind]
  refine wp_mono ((drained_direct w₀).malloc.wp hw) (fun _ t ht => ?_) fun _ h => h.held
  refine wp_ite (fun _ => ht) fun _ => ?_
  have hchunks := keeps_wipeChunks (P := P) (I := Held w₀) fuel
    ((List.range (wipeSize fsType / 262144)).map (· * 262144))
    fun _ _ => held_io fuel _ _ _ _
  rw [wp_bind]
  refine wp_mono (hchunks.wp ht.held) (fun _ u hu => ?_) fun _ h => h
  rw [wp_bind]
  exact wp_mono (wp_sync_drained hu) (fun _ _ h => h) fun _ h => h.elim

theorem held_sync (w₀ : World δ) : Keeps (Held w₀) (usbScsiSync P) := fun _ hw =>
  wp_state (wp_mono (wp_sync_drained hw) (fun _ _ h => h.held) fun _ h => h.elim)

/-- The formatter changes the type in the MBR before its first request. -/
theorem wp_usbScsiFormatFat_held {w₀ w : World δ} (hw : Drained w₀ w) (fuel : ℕ) (fatType : ℤ)
    (clusterSize : ℕ)
    (label : List UInt8) : Prog.wp (usbScsiFormatFat P fuel fatType clusterSize label)
      (fun _ t => Held w₀ t) (Held w₀) w := by
  rw [usbScsiFormatFat, wp_bind, wp_globals]
  refine wp_ite (fun _ => hw.held) fun _ => ?_
  rw [wp_bind]
  refine wp_mono ((drained_direct w₀).rand.wp hw) (fun _ t ht => ?_) fun _ h => h.held
  have hupdate : Keeps (Drained w₀)
      (updateMbr P w.drv (fatMbrType fatType w.drv.gDriveOffsetSectors (fatUsableSectors w.drv))) :=
    Keeps.ite ((drained_direct w₀).updateMbrType _) (keeps_pure _)
  rw [wp_bind]
  refine wp_mono (hupdate.wp ht) (fun _ u hu => ?_) fun _ h => h.held
  exact (keeps_writeFat fatBuffers_any (fun _ _ _ _ _ _ => held_io _ _ _ _ _) fuel _ _ trivial).wp hu.held

theorem wp_formatStage_held {w₀ w : World δ} (hw : Drained w₀ w) (fuel : ℕ) (engine : ℕ → Engine)
    (clusterSize fsType : ℤ) (part : ℕ) :
    Prog.wp (formatStage P fuel (fun part => (engine part).run P fuel) clusterSize fsType part)
      (fun _ t => Held w₀ t)
      (Held w₀) w := by
  have hengine : Keeps (Held w₀) ((engine part).run P fuel) :=
    keeps_engine (fun _ _ _ => held_io _ _ _ _ _) (fun _ _ _ => held_io _ _ _ _ _) (held_sync w₀) _
  rw [formatStage]
  refine wp_ite (fun _ => ?_) fun _ => wp_ite (fun _ => hengine.wp hw.held) fun _ =>
    wp_ite (fun _ => ?_) fun _ => ?_
  · exact (hengine.bind fun _ => (held_sync w₀).bind fun _ => keeps_pure _).wp hw.held
  · exact ((held_sync w₀).bind fun _ => hengine.bind fun _ => (held_sync w₀).bind
      fun _ => keeps_pure _).wp hw.held
  · exact wp_usbScsiFormatFat_held hw fuel fsType _ _

/-- A session that returns leaves the cache empty. -/
theorem wp_session_drained {w₀ w : World δ} (hw : Drained w₀ w) (fuel : ℕ) (x : FormatSession δ) :
    Prog.wp (startStableFormat P fuel (fun part => (x.engine part).run P fuel) x.fd x.clusterSize
      x.partitionType x.fsType)
      (fun _ t => Drained w₀ t) (Held w₀) w := by
  rw [startStableFormat, wp_bind]
  refine wp_mono ((drained_prepare w₀ _ _ _ _).wp hw) (fun prepared t ht => ?_) fun _ h => h.held
  cases prepared with
  | none => exact ht
  | some part =>
    rw [wp_bind]
    refine wp_mono ((drained_createPartition w₀ _ _ _).wp ht) (fun _ u hu => ?_) fun _ h => h.held
    rw [wp_bind]
    refine wp_mono (wp_wipeHead_drained hu fuel _) (fun _ v hv => ?_) fun _ h => h
    rw [wp_bind]
    refine wp_mono (wp_formatStage_held hv fuel x.engine _ _ _) (fun _ y hy => ?_) fun _ h => h
    rw [wp_bind]
    exact wp_mono (wp_sync_drained hy) (fun _ _ h => h) fun _ h => h.elim

/-- After any completed sessions nothing is cached. Whatever a session then sends while something is
cached is the flush of it, and came from its own write requests. -/
theorem startStableFormat_flushes {fuel : ℕ} {dev : δ} {xs : List (FormatSession δ)}
    (hxs : Along (fun w x => x.run P fuel w) (Completed P fuel) (loaded dev) xs) {w : World δ}
    (hw : w = xs.foldl (fun w x => x.run P fuel w) (loaded dev)) (x : FormatSession δ) :
    CacheEmpty w ∧ ∀ e ∈ (x.run P fuel w).trace.drop w.trace.length, e.cacheSectors ≠ 0 →
      e.Flushes ((x.run P fuel w).requests.drop w.requests.length) := by
  have hempty : CacheEmpty w := by
    rw [hw]
    have hthroughout : Throughout (fun w x => x.run P fuel w) CacheEmpty (loaded dev) xs :=
      hxs.throughout (fun _ _ h hc => hc.empty h) rfl
    exact hthroughout.last
  have hheld : Held w (x.run P fuel w) :=
    wp_state (wp_mono (wp_session_drained (drained_start hempty x) fuel x) (fun _ _ h => h.held) fun _ h => h)
  obtain ⟨rs, hrequests, -, -, es, hes, hall⟩ := hheld
  rw [hrequests, hes, List.drop_left, List.drop_left]
  exact ⟨hempty, hall⟩

end Sessions

/-- A second session on the same stick. -/
theorem startStableFormat_flushes_second :
    CacheEmpty (soundFat.run stick 4 (loaded soundFat.dev)) ∧
      ∀ e ∈ (soundFat.run stick 4 (soundFat.run stick 4 (loaded soundFat.dev))).trace.drop
        (soundFat.run stick 4 (loaded soundFat.dev)).trace.length, e.cacheSectors ≠ 0 →
          e.cmd.cdb = cdb10 0x2a e.cacheLba e.cacheSectors := by
  have hone : Along (fun w x => x.run stick 4 w) (Completed stick 4) (loaded soundFat.dev) [soundFat] :=
    ⟨soundFat_completed, trivial⟩
  obtain ⟨hempty, hflushes⟩ :=
    startStableFormat_flushes (w := soundFat.run stick 4 (loaded soundFat.dev)) hone rfl soundFat
  exact ⟨hempty, fun e he hne => (hflushes e he hne).cdb⟩

end FormatStick
