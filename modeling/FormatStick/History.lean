import FormatStick.TwinSession

/-!
# What earlier sessions leave behind

Of all that the completed sessions of a process leave in the driver's globals, one flag
decides what the next session sends: whether a stick ever answered a SYNCHRONIZE CACHE
with a nonzero status. The write cache is empty between sessions.
-/
namespace FormatStick
open Splice Prog Runs

variable {δ : Type}

/-- A process before its first session. -/
def loaded (dev : δ) : World δ := ⟨{}, dev, [], [], []⟩

/-- The session returned. -/
def Completed (P : Platform δ) (fuel : ℕ) (w : World δ) (x : FormatSession δ) : Prop :=
  ∃ r t, startStableFormat P fuel (fun part => (x.engine part).run P fuel) x.fd x.clusterSize
    x.partitionType x.fsType
    (x.start w) = (some r, t)

section Whole

variable {P : Platform δ} {I : World δ → Prop}

/-- What `usb_scsi_init` needs to keep a property, besides commands. -/
structure Opens (P : Platform δ) (I : World δ → Prop) : Prop where
  command : ∀ c data, Keeps I (scsiCommand P c data)
  wrapSysDevice : ∀ fd, Keeps I (wrapSysDevice P fd)
  activeConfig : ∀ handle, Keeps I (activeConfig P handle)
  assign : ∀ f : Driver → Driver,
    (∀ g, (f g).gWriteCache = g.gWriteCache ∧ (f g).gCacheSectors = g.gCacheSectors ∧
    (f g).gSyncCacheSupported = g.gSyncCacheSupported ∧ (f g).gWriteCacheSize = g.gWriteCacheSize) →
      Keeps I (assign f)

namespace Opens

variable (hO : Opens P I)
include hO

theorem testUnitReady (tries : ℕ) : Keeps I (testUnitReady P tries) := by
  induction tries with
  | zero => exact keeps_pure _
  | succ tries ih => exact (hO.command _ _).bind fun _ => Keeps.ite (keeps_pure _) ih

theorem readCapacity (tries : ℕ) : Keeps I (readCapacity P tries) := by
  induction tries with
  | zero => exact keeps_pure _
  | succ tries ih =>
    refine (hO.command _ _).bind fun _ => Keeps.ite ?_ ih
    exact hO.assign _ fun _ => ⟨rfl, rfl, rfl, rfl⟩

theorem capacity (tries : ℕ) : Keeps I (capacity P tries) := by
  induction tries with
  | zero => exact keeps_pure _
  | succ tries ih => exact (hO.command _ _).bind fun _ => Keeps.ite (keeps_pure _) ih

theorem ownCapacity (fd : ℤ) : Keeps I (ownCapacity P fd) := by
  refine (hO.wrapSysDevice fd).bind fun handle => ?_
  cases handle with
  | none => exact keeps_pure _
  | some handle =>
    refine Keeps.bind ?_ fun _ => (hO.activeConfig handle).bind fun conf => ?_
    · exact hO.assign _ fun _ => ⟨rfl, rfl, rfl, rfl⟩
    cases conf with
    | none => exact keeps_pure _
    | some conf =>
      refine Keeps.bind ?_ fun _ => Keeps.ite (keeps_pure _) ?_
      · exact hO.assign _ fun _ => ⟨rfl, rfl, rfl, rfl⟩
      · exact (hO.command _ _).bind fun _ => (hO.testUnitReady 3).bind fun _ => hO.capacity 5

theorem usbScsiInit (handle : ℕ) : Keeps I (usbScsiInit P handle) := by
  refine Keeps.bind ?_ fun _ => (hO.activeConfig handle).bind fun conf => ?_
  · exact hO.assign _ fun _ => ⟨rfl, rfl, rfl, rfl⟩
  cases conf with
  | none => exact keeps_pure _
  | some conf =>
    refine Keeps.bind ?_ fun _ => Keeps.ite (keeps_pure _) ?_
    · exact hO.assign _ fun _ => ⟨rfl, rfl, rfl, rfl⟩
    · exact (hO.command _ _).bind fun _ => (hO.testUnitReady 3).bind fun _ => hO.readCapacity 5

theorem prepare (hI : Direct P I) (htype : ∀ type, Keeps I (usbScsiSetPartitionType type))
    (fd clusterSize partitionType fsType : ℤ) : Keeps I (prepare P fd clusterSize partitionType fsType) := by
  refine (hO.wrapSysDevice fd).bind fun handle => ?_
  cases handle with
  | none => exact keeps_pure _
  | some handle =>
    refine (hO.usbScsiInit handle).bind fun _ => keeps_globals.bind fun _ => Keeps.ite (keeps_pure _) ?_
    exact (htype _).bind fun _ => hI.usbScsiWipeMbr.bind fun _ =>
      hI.usbScsiWipeTail.bind fun _ => keeps_pure _

/-- A property that the whole of a session keeps. -/
theorem startStableFormat (hI : Stable P I) (fuel : ℕ) {engine : ℕ → Prog (World δ) ℤ}
    (he : ∀ part, Keeps I (engine part)) (fd clusterSize partitionType fsType : ℤ) :
    Keeps I (startStableFormat P fuel engine fd clusterSize partitionType fsType) := by
  refine (hO.prepare hI.toDirect hI.type fd _ _ _).bind fun prepared => ?_
  cases prepared with
  | none => exact keeps_pure _
  | some part =>
    refine (hI.createPartition hI.offset hI.size _ _ _).bind fun _ => (hI.wipeHead fuel _).bind fun _ => ?_
    exact (hI.formatStage fuel he _ _ _).bind fun _ => hI.usbScsiSync.bind fun _ => keeps_pure _

end Opens

end Whole

section Flag

variable (P : Platform δ)

/-- The flag for SYNCHRONIZE CACHE tells what was sent: it is cleared exactly if one was refused. -/
def FlagTells (w : World δ) : Prop := w.drv.gSyncCacheSupported = false ↔ ∃ e ∈ w.trace, e.Unsupported

theorem flagTells_command (c : Cmd) (data : Buf) : Keeps FlagTells (scsiCommand P c data) := by
  refine keeps_of_commanded (fun w t hw ht => ?_) data
  cases ht with
  | skipped _ => exact hw
  | sent _ e _ _ htrace _ _ hsync =>
    rw [FlagTells] at hw ⊢
    rw [hsync, htrace, hw]
    simp only [List.mem_append, List.mem_singleton, or_and_right, exists_or, exists_eq_left]

/-- No SYNCHRONIZE CACHE was sent after `l`, and none will be. -/
structure Muted (l : List Sent) (w : World δ) : Prop where
  sync : w.drv.gSyncCacheSupported = false
  sent : ∃ es, w.trace = l ++ es ∧ ∀ e ∈ es, e.cmd.opcode ≠ 0x35

theorem muted_command (l : List Sent) (c : Cmd) (data : Buf) : Keeps (Muted l) (scsiCommand P c data) := by
  refine keeps_of_commanded (fun w t hw ht => ?_) data
  cases ht with
  | skipped _ => exact hw
  | sent _ e h hcmd htrace _ _ hsync =>
    obtain ⟨es, hes, hop⟩ := hw.sent
    refine ⟨hsync.mpr (.inl hw.sync), es ++ [e], by rw [htrace, hes, List.append_assoc], fun f hf => ?_⟩
    rcases List.mem_append.mp hf with hf | hf
    · exact hop f hf
    · rw [List.mem_singleton.mp hf, hcmd]
      exact fun hc => h ⟨hc, hw.sync⟩

/-- Where anything is cached there is a cache. -/
def CacheBacked (w : World δ) : Prop := 0 < w.drv.gCacheSectors → w.drv.gWriteCache.isSome

theorem cacheBacked_command (c : Cmd) (data : Buf) : Keeps CacheBacked (scsiCommand P c data) := by
  refine keeps_of_commanded (fun w t hw ht => ?_) data
  cases ht with
  | skipped _ => exact hw
  | sent _ e _ _ _ _ hdrv _ =>
    obtain ⟨u, b, hdrv⟩ := hdrv
    rw [CacheBacked, hdrv]
    exact hw

theorem cacheBacked_assign {f : Driver → Driver}
    (hf : ∀ g, (f g).gWriteCache = g.gWriteCache ∧ (f g).gCacheSectors = g.gCacheSectors) :
    Keeps CacheBacked (assign f : Prog (World δ) Unit) := by
  refine keeps_update fun w hw => ?_
  rw [CacheBacked, (hf w.drv).1, (hf w.drv).2]
  exact hw

theorem cacheBacked_flush : Keeps CacheBacked (scsiFlushCacheInternal P) :=
  keeps_flush (cacheBacked_command P)
    (fun _ _ hw => hw) (keeps_update fun _ _ h => absurd h (Nat.lt_irrefl 0))

/-- An allocation that succeeds leaves a cache. -/
theorem wp_allocateCache_backed {w : World δ} (hw : CacheBacked w) :
    Prog.wp (allocateCache P) (fun a t => CacheBacked t ∧ (a = true → t.drv.gWriteCache.isSome))
      (fun _ => False) w := by
  rw [allocateCache, wp_bind, wp_globals]
  refine wp_ite (fun h => ⟨hw, fun _ => h⟩) fun _ => ?_
  rw [wp_bind, wp_malloc]
  exact wp_ite (fun _ => ⟨hw, fun h => absurd h (by decide)⟩) fun _ => ⟨fun _ => rfl, fun _ => rfl⟩

theorem cacheBacked_cachePass (buf : Buf) (totalDone lba remaining : ℕ) :
    Keeps CacheBacked (cachePass P buf totalDone lba remaining) := by
  intro w hw
  refine wp_state ?_
  rw [cachePass, wp_bind, wp_globals]
  refine wp_ite (fun hrun => ?_) fun _ => ?_
  · rw [wp_bind, wp_copyToCache, wp_bind, wp_assign]
    intro _
    show (w.drv.gWriteCache.map _).isSome
    rw [Option.isSome_map]
    exact hw hrun.1
  · rw [wp_bind]
    refine wp_mono ((cacheBacked_flush P).wp hw) (fun _ t ht => ?_) fun _ h => h
    rw [wp_bind]
    refine wp_mono (wp_allocateCache_backed P ht) (fun a u hu => wp_ite (fun _ => hu.1) fun hyes => ?_)
      fun _ h => h.elim
    rw [wp_bind, wp_assign, wp_bind, wp_copyToCache, wp_bind, wp_assign]
    intro _
    show (u.drv.gWriteCache.map _).isSome
    rw [Option.isSome_map]
    exact hu.2 (eq_true_of_ne_false hyes)

theorem cacheBacked : Stable P CacheBacked :=
  Cached.stable {
    command := cacheBacked_command P
    malloc := fun _ hw => hw
    rand := fun _ hw => hw
    bounce := fun _ _ f hf => keeps_update fun w hw => by
      obtain ⟨b, hb⟩ := hf w.drv
      change 0 < (f w.drv).gCacheSectors → (f w.drv).gWriteCache.isSome
      rw [hb]
      exact hw
    flush := cacheBacked_flush P
    cachePass := cacheBacked_cachePass P } (fun _ _ hw => hw) fun f hf => cacheBacked_assign fun g => by
      obtain ⟨d, n, ty, h⟩ := hf g
      rw [h]
      exact ⟨rfl, rfl⟩

theorem muted (l : List Sent) : Stable P (Muted l) := by
  refine stable_of_assign (muted_command P l) ?_ ?_ ?_ ?_
  · exact fun _ hw => ⟨hw.sync, hw.sent⟩
  · exact fun _ hw => ⟨hw.sync, hw.sent⟩
  · exact fun _ _ _ hw => ⟨hw.sync, hw.sent⟩
  · exact fun f hf w hw => ⟨(hf w.drv).2.2.2.trans hw.sync, hw.sent⟩

theorem flagTells_assign {f : Driver → Driver} (hf : ∀ g, (f g).gSyncCacheSupported = g.gSyncCacheSupported) :
    Keeps FlagTells (assign f : Prog (World δ) Unit) := by
  refine keeps_update fun w hw => ?_
  rw [FlagTells, hf]
  exact hw

theorem flagTells : Stable P FlagTells := by
  refine stable_of_assign (flagTells_command P) ?_ ?_ ?_ ?_
  · exact fun _ hw => hw
  · exact fun _ hw => hw
  · exact fun _ _ _ hw => hw
  · exact fun _ hf => flagTells_assign fun g => (hf g).2.2.2

theorem muted_opens (l : List Sent) : Opens P (Muted l) where
  command := muted_command P l
  wrapSysDevice _ _ hw := ⟨hw.sync, hw.sent⟩
  activeConfig _ _ hw := ⟨hw.sync, hw.sent⟩
  assign _ hf w hw := ⟨(hf w.drv).2.2.1.trans hw.sync, hw.sent⟩

theorem flagTells_opens : Opens P FlagTells where
  command := flagTells_command P
  wrapSysDevice _ _ hw := hw
  activeConfig _ _ hw := hw
  assign _ hf := flagTells_assign fun g => (hf g).2.2.1

/-- A process without SYNCHRONIZE CACHE runs a session without it. -/
theorem run_muted (fuel : ℕ) {w : World δ} (x : FormatSession δ) (hs : w.drv.gSyncCacheSupported = false) :
    ∀ e ∈ (x.run P fuel w).trace.drop w.trace.length, e.cmd.opcode ≠ 0x35 := by
  have hstart : Muted w.trace (x.start w) :=
    ⟨hs, [], (List.append_nil _).symm, fun _ h => absurd h List.not_mem_nil⟩
  have hI := muted P w.trace
  obtain ⟨es, hes, hop⟩ :=
    ((muted_opens P w.trace).startStableFormat hI fuel (fun part => hI.engine fuel (x.engine part))
    x.fd x.clusterSize x.partitionType x.fsType _ hstart).sent
  rw [FormatSession.run, hes, List.drop_left]
  exact hop

end Flag

section Voiced

variable {P : Platform δ}

/-- A SYNCHRONIZE CACHE was sent since `w`. -/
def Voiced (v : ℕ × ℕ) (w t : World δ) : Prop :=
  ∃ (l : List Sent) (e : Sent), e.cmd.opcode = 0x35 ∧ w.trace <+: l ∧ Steady v (l ++ [e]) t

theorem keeps_voiced {α : Type} {v : ℕ × ℕ} {w : World δ} {m : Prog (World δ) α}
    (h : ∀ l, Keeps (Steady v l) m) :
    Keeps (Voiced v w) m := by
  rintro t ⟨l, e, hop, hl, ht⟩
  exact ⟨l, e, hop, hl, h _ t ht⟩

/-- SYNCHRONIZE CACHE is still supported. -/
structure Awake (v : ℕ × ℕ) (l : List Sent) (w : World δ) : Prop where
  steady : Steady v l w
  sync : w.drv.gSyncCacheSupported = true

theorem wp_write10_awake {v : ℕ × ℕ} {l : List Sent} {w : World δ} (hw : Awake v l w) (lba blocks : ℕ)
    (data : Buf)
    (len : ℕ) : Prog.wp (write10 P lba blocks data len) (fun _ t => Awake v l t) (fun _ => False) w := by
  rw [write10, wp_bind]
  refine wp_mono (wp_scsiCommand_commanded P _ data) (fun _ t ht => ?_) fun _ h => h
  rw [wp_pure]
  cases ht with
  | skipped _ => exact hw
  | sent _ e _ hcmd htrace _ hdrv hsync =>
    obtain ⟨u, b, hdrv⟩ := hdrv
    refine ⟨⟨?_, hw.steady.sent.trans (htrace ▸ List.prefix_append _ _)⟩, ?_⟩
    · rw [Geometry, hdrv]
      exact hw.steady.geometry
    · refine eq_true_of_ne_false fun h => ?_
      rcases hsync.mp h with h | h
      · exact absurd (hw.sync.symm.trans h) (by decide)
      · have hop := h.1
        rw [hcmd] at hop
        exact absurd hop (show (0x2a : UInt8) ≠ 0x35 by decide)

theorem wp_writeEach_awake {v : ℕ × ℕ} {l : List Sent} (blocks : ℕ) (ws : List (ℕ × Buf)) {w : World δ}
    (hw : Awake v l w) : Prog.wp (writeEach P blocks ws) (fun _ t => Awake v l t) (fun _ => False) w := by
  induction ws generalizing w with
  | nil => exact hw
  | cons x ws ih =>
    rw [writeEach, wp_bind]
    refine wp_mono (wp_write10_awake hw _ _ _ _) (fun _ t ht => ?_) fun _ h => h
    exact wp_ite (fun _ => ht) fun _ => ih ht

theorem wp_syncCache_voiced {v : ℕ × ℕ} {w t : World δ} (ht : Awake v w.trace t) :
    Prog.wp (syncCache P) (fun _ u => Voiced v w u) (fun _ => False) t := by
  rw [syncCache, wp_bind]
  refine wp_mono (wp_scsiCommand_commanded P _ _) (fun _ u hu => ?_) fun _ h => h
  rw [wp_pure]
  cases hu with
  | skipped h => exact absurd (ht.sync.symm.trans h.2) (by decide)
  | sent _ e _ hcmd htrace _ hdrv _ =>
    obtain ⟨u', b, hdrv⟩ := hdrv
    refine ⟨t.trace, e, by rw [hcmd, syncCmd_opcode], ht.steady.sent, ?_, htrace ▸ List.prefix_rfl⟩
    rw [Geometry, hdrv]
    exact ht.steady.geometry

/-- The wipe of the old MBR ends with a SYNCHRONIZE CACHE. -/
theorem wp_usbScsiWipeMbr_voiced {v : ℕ × ℕ} {w : World δ} (hw : Geometry v w)
    (hs : w.drv.gSyncCacheSupported = true) (ha : (P.malloc w.dev).1 = true) :
    Prog.wp (usbScsiWipeMbr P) (fun _ t => Voiced v w t) (fun _ => False) w := by
  rw [usbScsiWipeMbr, wp_bind, wp_malloc]
  refine wp_ite (fun h => absurd (ha.symm.trans h) (by decide)) fun _ => ?_
  have hstart : Awake v w.trace { w with dev := (P.malloc w.dev).2 } := ⟨⟨hw, List.prefix_rfl⟩, hs⟩
  rw [wp_bind]
  refine wp_mono (wp_writeEach_awake _ _ hstart) (fun _ t ht => ?_) fun _ h => h
  rw [wp_bind]
  exact wp_mono (wp_syncCache_voiced ht) (fun _ _ h => h) fun _ h => h

/-- A session that gets to format sends SYNCHRONIZE CACHE in a process that knows it. -/
theorem run_voiced (fuel : ℕ) {w : World δ} (x : FormatSession δ) (hs : w.drv.gSyncCacheSupported = true)
    {v : ℕ × ℕ} {u : World δ} (hv : ownCapacity P x.fd (x.start w) = (some (some v), u))
    (hlt : x.leastSectors < v.1)
    (ha : (P.malloc u.dev).1 = true) :
    ∃ e ∈ (x.run P fuel w).trace.drop w.trace.length, e.cmd.opcode = 0x35 := by
  obtain ⟨handle, hhandle⟩ := wrapSysDevice_of_own hv
  obtain ⟨v', u', hv', hsends⟩ := ownCapacity_returns (P := P) (w := w) x (fun c => c.opcode ≠ 0x35)
    ⟨by decide, by decide, by decide⟩
  obtain ⟨rfl, rfl⟩ : some v = v' ∧ u = u' := by
    have := hv.symm.trans hv'
    exact ⟨Option.some.inj (congrArg Prod.fst this), congrArg Prod.snd this⟩
  obtain ⟨es, hes, -⟩ := hsends.sent
  have hsync : u.drv.gSyncCacheSupported = true := (hsends.sync fun _ h => h).trans hs
  have hvoiced : Voiced v (adopt (some v) u) (x.run P fuel w) := by
    refine run_of_probe fuel x hhandle hv (fun hle => absurd hle (Nat.not_le_of_lt hlt)) fun _ => ?_
    rw [passed, wp_bind, usbScsiSetPartitionType, wp_assign, wp_bind]
    refine wp_mono (wp_usbScsiWipeMbr_voiced (v := v) rfl hsync ha) (fun _ y hy => ?_) fun _ h => h.elim
    have htail : Keeps (Voiced v (adopt (some v) u)) (usbScsiWipeTail P) :=
      keeps_voiced fun l => (steady P v l).usbScsiWipeTail
    rw [wp_bind]
    refine wp_mono (htail.wp hy) (fun _ z hz => ?_) fun _ h => h
    exact (keeps_voiced fun l => (steady P v l).formatOn fuel x _).wp hz
  obtain ⟨l, e, hop, ⟨fs, hfs⟩, -, ⟨gs, hgs⟩⟩ := hvoiced
  have htrace : (adopt (some v) u).trace = w.trace ++ es := hes
  refine ⟨e, ?_, hop⟩
  rw [← hgs, ← hfs, htrace, List.append_assoc, List.append_assoc, List.append_assoc, List.drop_left]
  simp

end Voiced

section Between

variable {P : Platform δ}

/-- Nothing is cached. -/
def CacheEmpty (w : World δ) : Prop := w.drv.gCacheSectors = 0

theorem CacheEmpty.backed {w : World δ} (h : CacheEmpty w) : CacheBacked w :=
  fun hpos => absurd h (Nat.ne_of_gt hpos)

theorem cacheEmpty_command (c : Cmd) (data : Buf) : Keeps CacheEmpty (scsiCommand P c data) := by
  refine keeps_of_commanded (fun w t hw ht => ?_) data
  cases ht with
  | skipped _ => exact hw
  | sent _ e _ _ _ _ hdrv _ =>
    obtain ⟨u, b, hdrv⟩ := hdrv
    rw [CacheEmpty, hdrv]
    exact hw

theorem cacheEmpty_opens : Opens P CacheEmpty where
  command := cacheEmpty_command
  wrapSysDevice _ _ hw := hw
  activeConfig _ _ hw := hw
  assign _ hf w hw := (hf w.drv).2.1.trans hw

theorem wp_flush_empty {w : World δ} (hw : CacheBacked w) :
    Prog.wp (scsiFlushCacheInternal P) (fun _ t => CacheEmpty t) (fun _ => False) w := by
  rw [scsiFlushCacheInternal, wp_bind, wp_globals]
  cases hcache : w.drv.gWriteCache with
  | none =>
    refine Nat.eq_zero_of_not_pos fun hpos => ?_
    have hsome := hw hpos
    rw [hcache] at hsome
    exact absurd hsome (by decide)
  | some cache =>
    refine wp_ite id fun _ => ?_
    rw [wp_bind, wp_writeCache, write10, wp_bind]
    refine wp_mono (wp_scsiCommand_commanded P _ _) (fun _ t _ => ?_) fun _ h => h
    rw [wp_pure, wp_bind, wp_assign]
    rfl

theorem cacheEmpty_direct : Direct P CacheEmpty where
  write _ _ _ _ _ := (cacheEmpty_command _ _).bind fun _ => keeps_pure _
  readMbr := cacheEmpty_command _ _
  syncCache := (cacheEmpty_command _ _).bind fun _ => keeps_pure _
  flush := keeps_flush cacheEmpty_command (fun _ _ hw => hw) (keeps_update fun _ _ => rfl)
  malloc _ hw := hw
  rand _ hw := hw

/-- The last sync of a session leaves nothing in the cache. -/
theorem wp_session_empty (fuel : ℕ) (x : FormatSession δ) {w : World δ} (hw : CacheEmpty w) :
    Prog.wp (startStableFormat P fuel (fun part => (x.engine part).run P fuel) x.fd x.clusterSize
      x.partitionType x.fsType)
      (fun _ t => CacheEmpty t) (fun _ => True) w := by
  have hI := cacheBacked P
  have htype : ∀ type, Keeps CacheEmpty (usbScsiSetPartitionType type : Prog (World δ) Unit) :=
    fun _ _ hw => hw
  rw [startStableFormat, wp_bind]
  refine wp_mono ((cacheEmpty_opens.prepare cacheEmpty_direct htype _ _ _ _).wp hw) (fun prepared t ht => ?_)
    fun _ _ => trivial
  cases prepared with
  | none => exact ht
  | some part =>
    rw [wp_bind]
    refine wp_mono ((hI.createPartition hI.offset hI.size _ _ _).wp ht.backed) (fun _ u hu => ?_)
      fun _ _ => trivial
    rw [wp_bind]
    refine wp_mono ((hI.wipeHead fuel _).wp hu) (fun _ v hv => ?_) fun _ _ => trivial
    rw [wp_bind]
    refine wp_mono ((hI.formatStage fuel (fun part => hI.engine fuel (x.engine part)) _ _ _).wp hv)
      (fun _ y hy => ?_)
      fun _ _ => trivial
    rw [wp_bind, usbScsiSync, wp_bind]
    refine wp_mono (wp_flush_empty hy) (fun _ z hz => ?_) fun _ h => h.elim
    exact wp_mono (cacheEmpty_direct.syncCache.wp hz) (fun _ _ h => h) fun _ _ => trivial

/-- A session that returned left nothing in the cache. -/
theorem Completed.empty {fuel : ℕ} {w : World δ} {x : FormatSession δ} (h : Completed P fuel w x)
    (hw : CacheEmpty w) : CacheEmpty (x.run P fuel w) := by
  obtain ⟨r, t, hrun⟩ := h
  have ht : x.run P fuel w = t := congrArg Prod.snd hrun
  rw [ht]
  have hstart : CacheEmpty (FormatSession.start w x) := hw
  exact wp_run (Q := fun _ t => CacheEmpty t) (wp_session_empty fuel x hstart) hrun

/-- The states of a process whose sessions return. -/
theorem history_settled {fuel : ℕ} {w : World δ} (hw : CacheEmpty w ∧ FlagTells w)
    {xs : List (FormatSession δ)}
    (hxs : Along (fun w x => x.run P fuel w) (Completed P fuel) w xs) :
    Throughout (fun w x => x.run P fuel w) (fun w => CacheEmpty w ∧ FlagTells w) w xs := by
  refine hxs.throughout (fun w x h hc => ⟨hc.empty h.1, ?_⟩) hw
  exact (flagTells_opens P).startStableFormat (flagTells P) fuel
    (fun part => (flagTells P).engine fuel (x.engine part))
    _ _ _ _ _ h.2

/-- Without memory for its first wipe a session sends nothing more. -/
theorem passed_starved (fuel : ℕ) (x : FormatSession δ) (part : ℕ) {w : World δ}
    (ha : ¬(P.malloc w.dev).1 = true) :
    (passed P fuel x part w).2.trace = w.trace := by
  refine wp_state (I := fun t : World δ => t.trace = w.trace) ?_
  rw [passed, wp_bind, usbScsiSetPartitionType, wp_assign, wp_bind, usbScsiWipeMbr, wp_bind, wp_malloc]
  exact wp_ite (fun _ => rfl) fun h => absurd ((Bool.not_eq_false _).mp h) ha

/-- A session that does not get to format sends what its probe sent. -/
theorem run_probe_only (fuel : ℕ) {w : World δ} (x : FormatSession δ) {v : ℕ × ℕ} {u : World δ}
    (hv : ownCapacity P x.fd (x.start w) = (some (some v), u))
    (hno : ¬(x.leastSectors < v.1 ∧ (P.malloc u.dev).1 = true)) : (x.run P fuel w).trace = u.trace := by
  obtain ⟨handle, hhandle⟩ := wrapSysDevice_of_own hv
  rw [FormatSession.run, startStableFormat_probed fuel x hhandle hv]
  by_cases hle : (adopt (some v) u).drv.gSectorCount ≤ x.leastSectors
  · rw [if_pos hle]
    rfl
  · rw [if_neg hle]
    exact passed_starved (w := adopt (some v) u) fuel x _ fun ha => hno ⟨Nat.lt_of_not_le hle, ha⟩

end Between

theorem soundFat_completed : Completed stick 4 (loaded soundFat.dev) soundFat :=
  ⟨true, _, eq_of_fst (by decide +kernel)⟩

end FormatStick
