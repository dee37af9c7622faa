import FormatStick.Twins

/-!
# The same session in two processes

A session that formats a FAT volume sends the same commands in two processes that agree
on whether SYNCHRONIZE CACHE is sent at all. Where they do not agree, one sends it after
the first wipe and the other never does.
-/
namespace FormatStick
open Splice Prog Runs

variable {δ : Type} {P : Platform δ} {E : δ → δ → Prop} {A : Prop} {v : ℕ × ℕ} {l l' : List Sent}

section Writers

/-- Run in linked processes, the program does the same in both. -/
abbrev Mirrored (E : δ → δ → Prop) (A : Prop) (v : ℕ × ℕ) (l l' : List Sent) {α : Type}
    (m : Prog (World δ) α) : Prop :=
  Coupled (Twin E True (Core A v) l l') Eq m m

theorem mirrored_pure {α : Type} (a : α) : Mirrored E A v l l' (pure a : Prog (World δ) α) := Coupled.pure rfl

/-- Globals of which only the sector count is used. -/
theorem mirrored_count {α : Type} {f : Driver → Prog (World δ) α}
    (hf : ∀ g g' : Driver, g.gSectorCount = g'.gSectorCount → f g = f g')
    (h : ∀ g, Mirrored E A v l l' (f g)) :
    Mirrored E A v l l' (globals >>= f) := by
  refine both_globals.bind fun g g' hg => ?_
  rw [hf g' g hg.1.count.symm]
  exact h g

theorem mirrored_assign {f : Driver → Driver}
    (hf : ∀ g, (f g).usb = g.usb ∧ (f g).gSyncCacheSupported = g.gSyncCacheSupported)
    (hK : ∀ g g', Core A v g g' → Core A v (f g) (f g')) :
      Mirrored E A v l l' (assign f : Prog (World δ) Unit) :=
  both_assign hf hf hK

theorem mirrored_offset (sectors : ℕ) :
    Mirrored E A v l l' (usbScsiSetPartitionOffset sectors : Prog (World δ) Unit) :=
  mirrored_assign (fun _ => ⟨rfl, rfl⟩) fun _ _ h =>
    ⟨h.geometry, h.geometry', rfl, h.type, h.fill, h.lba, h.cached, h.cache, h.allocated⟩

theorem mirrored_size (sectors : ℕ) :
    Mirrored E A v l l' (usbScsiSetPartitionSize sectors : Prog (World δ) Unit) :=
  mirrored_assign (fun _ => ⟨rfl, rfl⟩) fun _ _ h =>
    ⟨h.geometry, h.geometry', h.offset, h.type, h.fill, h.lba, h.cached, h.cache, h.allocated⟩

theorem mirrored_type (type : ℤ) : Mirrored E A v l l' (usbScsiSetPartitionType type : Prog (World δ) Unit) :=
  mirrored_assign (fun _ => ⟨rfl, rfl⟩) fun _ _ h =>
    ⟨h.geometry, h.geometry', h.offset, rfl, h.fill, h.lba, h.cached, h.cache, h.allocated⟩

variable (hP : Identical P E) (hA : A → Ample P E)
include hP

theorem mirrored_write10 (lba blocks : ℕ) (data : Buf) (len : ℕ) :
    Mirrored E A v l l' (write10 P lba blocks data len) :=
  both_write10 hP (core_local A v) lba blocks (Agree.refl len data)

theorem mirrored_syncCache : Mirrored E A v l l' (syncCache P) := both_syncCache hP (core_local A v) trivial

theorem mirrored_writeEach (blocks : ℕ) (ws : List (ℕ × Buf)) :
    Mirrored E A v l l' (writeEach P blocks ws) := by
  induction ws with
  | nil => exact mirrored_pure _
  | cons x ws ih =>
    exact (mirrored_write10 hP _ _ _ _).seq fun _ =>
      Coupled.ite Iff.rfl (fun _ => mirrored_pure _) fun _ => ih

theorem mirrored_randBytes (n : ℕ) : Mirrored E A v l l' (randBytes P n) := by
  induction n with
  | zero =>
    rw [randBytes_zero]
    exact mirrored_pure _
  | succ n ih =>
    rw [randBytes_succ]
    exact (both_rand hP).seq fun _ => ih.seq fun _ => mirrored_pure _

theorem mirrored_usbScsiWipeTail : Mirrored E A v l l' (usbScsiWipeTail P) := by
  refine mirrored_count (fun g g' h => by rw [h]) fun g => ?_
  exact (mirrored_writeEach hP _ _).seq fun _ => (mirrored_syncCache hP).seq fun _ => mirrored_pure _

theorem mirrored_usbScsiWipeMbr : Mirrored E A v l l' (usbScsiWipeMbr P) := by
  refine (both_malloc hP).seq fun _ => Coupled.ite Iff.rfl (fun _ => Coupled.cut) fun _ => ?_
  exact (mirrored_writeEach hP _ _).seq fun _ => (mirrored_syncCache hP).seq fun _ => mirrored_pure _

theorem mirrored_usbScsiWriteMbr (part : ℕ) (type : UInt8) :
    Mirrored E A v l l' (usbScsiWriteMbr P part type) := by
  refine mirrored_count (fun g g' h => by rw [h]) fun g => (mirrored_write10 hP _ _ _ _).seq fun _ => ?_
  refine Coupled.ite Iff.rfl (fun _ => mirrored_pure _) fun _ => ?_
  exact (mirrored_syncCache hP).seq fun _ => mirrored_pure _

/-- The sector that is read back comes from the stick, so it is the same in both. -/
theorem mirrored_updateMbrType (type : UInt8) : Mirrored E A v l l' (updateMbrType P type) := by
  refine (both_read10 hP (core_local A v) 0 1 zeros zeros 512).bind fun r r' hr => ?_
  refine Coupled.ite (by rw [hr.1]) (fun _ => mirrored_pure _) fun hok => ?_
  have hsector : Agree 512 r.2 r'.2 := hr.2 (by omega)
  rw [← hsector 510 (by decide), ← hsector 511 (by decide)]
  refine Coupled.ite Iff.rfl (fun _ => ?_) fun _ => mirrored_pure _
  refine (both_write10 hP (core_local A v) 0 1 ?_).seq fun _ => mirrored_pure _
  exact hsector.splice _ _ _ (.inl (Nat.le_refl _))

theorem mirrored_writeGptSectors (n : ℕ) (entries header : Buf) :
    Mirrored E A v l l' (writeGptSectors P n entries header) := by
  refine (mirrored_write10 hP _ _ _ _).seq fun _ => Coupled.ite Iff.rfl (fun _ => mirrored_pure _) fun _ => ?_
  refine (mirrored_writeEach hP _ _).seq fun _ => Coupled.ite Iff.rfl (fun _ => mirrored_pure _) fun _ => ?_
  refine (mirrored_writeEach hP _ _).seq fun _ => (mirrored_write10 hP _ _ _ _).seq fun _ => ?_
  exact (mirrored_syncCache hP).seq fun _ => mirrored_pure _

theorem mirrored_usbScsiWriteGpt (part : ℕ) (fsType : ℤ) :
    Mirrored E A v l l' (usbScsiWriteGpt P part fsType) := by
  refine mirrored_count (fun g g' h => by simp only [h]) fun g => (mirrored_randBytes hP _).seq fun _ => ?_
  refine (mirrored_write10 hP _ _ _ _).seq fun _ => Coupled.ite Iff.rfl (fun _ => mirrored_pure _) fun _ => ?_
  exact (mirrored_randBytes hP _).seq fun _ => (mirrored_randBytes hP _).seq fun _ =>
    mirrored_writeGptSectors hP _ _ _

theorem mirrored_createPartition (partitionType fsType : ℤ) (part : ℕ) :
    Mirrored E A v l l' (createPartition P partitionType fsType part) := by
  refine Coupled.ite Iff.rfl (fun _ => ?_) fun _ => Coupled.ite Iff.rfl (fun _ => ?_) fun _ => ?_
  · exact (mirrored_usbScsiWriteMbr hP _ _).seq fun _ => (mirrored_offset _).seq fun _ => mirrored_size _
  · exact (mirrored_usbScsiWriteGpt hP _ _).seq fun _ => (mirrored_offset _).seq fun _ => mirrored_size _
  · exact (mirrored_offset _).seq fun _ => mirrored_size _

include hA

theorem mirrored_wipeChunks (fuel : ℕ) (offsets : List ℕ) :
    Mirrored E A v l l' (wipeChunks P fuel offsets) := by
  induction offsets with
  | nil => exact mirrored_pure _
  | cons o offsets ih =>
    refine (both_io hP hA _ _ _ _).seq fun _ => Coupled.ite Iff.rfl (fun _ => ih) fun _ => ?_
    exact (both_io hP hA _ _ _ _).seq fun _ => Coupled.ite Iff.rfl (fun _ => ih) fun _ => mirrored_pure _

theorem mirrored_usbScsiWipePartitionHead (fuel : ℕ) (fsType : ℤ) :
    Mirrored E A v l l' (usbScsiWipePartitionHead P fuel fsType) := by
  refine (both_malloc hP).seq fun _ => Coupled.ite Iff.rfl (fun _ => mirrored_pure _) fun _ => ?_
  exact (mirrored_wipeChunks hP hA fuel _).seq fun _ => (both_usbScsiSync hP).seq fun _ => mirrored_pure _

theorem mirrored_zeroChunks (fuel base size i : ℕ) : Mirrored E A v l l' (zeroChunks P fuel base size i) := by
  refine Coupled.loop (V := Eq) ?_ fuel i i rfl
  rintro i _ rfl
  refine Coupled.ite Iff.rfl (fun _ => ?_) fun _ => Coupled.pure (.inr rfl)
  exact (both_io hP hA _ _ _ _).seq fun _ => Coupled.pure (.inl rfl)

theorem mirrored_writeFatTable (fuel : ℕ) (fatType : ℤ) (fatSize f : ℕ) :
    Mirrored E A v l l' (writeFatTable P fuel fatType fatSize f) :=
  (both_io hP hA _ _ _ _).seq fun _ => mirrored_zeroChunks hP hA fuel _ _ _

theorem mirrored_writeFatTables (fuel : ℕ) (fatType : ℤ) (fatSize : ℕ) (bs : Buf) :
    Mirrored E A v l l' (writeFatTables P fuel fatType fatSize bs) := by
  have htable : ∀ f, Mirrored E A v l l' (writeFatTable P fuel fatType fatSize f) :=
    mirrored_writeFatTable hP hA fuel fatType fatSize
  refine Coupled.ite Iff.rfl (fun _ => ?_) fun _ => ?_
  · refine (both_io hP hA _ _ _ _).seq fun _ => (both_io hP hA _ _ _ _).seq fun _ => ?_
    exact (htable 0).seq fun _ => htable 1
  · exact (htable 0).seq fun _ => (htable 1).seq fun _ => mirrored_zeroChunks hP hA fuel _ _ _

theorem mirrored_usbScsiFormatFat (fuel : ℕ) (fatType : ℤ) (clusterSize : ℕ) (label : List UInt8) :
    Mirrored E A v l l' (usbScsiFormatFat P fuel fatType clusterSize label) := by
  refine both_globals.bind fun g g' hg => ?_
  have husable : fatUsableSectors g' = fatUsableSectors g := by
    rw [fatUsableSectors, fatUsableSectors, hg.1.count, hg.1.offset, hg.1.type]
  rw [husable, ← hg.1.offset]
  refine Coupled.ite Iff.rfl (fun _ => mirrored_pure _) fun _ => (both_rand hP).seq fun _ => ?_
  have hmbr : ∀ type, updateMbr P g' type = updateMbr P g type := fun type => by
    rw [updateMbr, updateMbr, hg.1.type]
  rw [hmbr]
  refine Coupled.seq (Coupled.ite Iff.rfl (fun _ => mirrored_updateMbrType hP _) fun _ => mirrored_pure _)
    fun _ => ?_
  refine (both_io hP hA _ _ _ _).seq fun _ => Coupled.ite Iff.rfl (fun _ => mirrored_pure _) fun _ => ?_
  exact (mirrored_writeFatTables hP hA fuel _ _ _).seq fun _ => mirrored_pure _

end Writers

section Probe

/-- What the driver globals of two processes share before the geometry is read. -/
structure Unread (A : Prop) (g g' : Driver) : Prop where
  fill : g.gCacheSectors = 0
  fill' : g'.gCacheSectors = 0
  offset : g.gDriveOffsetSectors = g'.gDriveOffsetSectors
  type : g.gPartitionType = g'.gPartitionType
  allocated : A ∨ g.gWriteCache.isSome = g'.gWriteCache.isSome

theorem unread_local (A : Prop) : Local (Unread A) :=
  fun _ _ _ _ _ _ h => ⟨h.fill, h.fill', h.offset, h.type, h.allocated⟩

theorem both_testUnitReady {S : Prop} {K : Driver → Driver → Prop} (hP : Identical P E) (hK : Local K)
    (tries : ℕ) :
    Coupled (Twin E S K l l') Eq (testUnitReady P tries) (testUnitReady P tries) := by
  induction tries with
  | zero => exact Coupled.pure rfl
  | succ tries ih =>
    refine (both_scsiCommand hP hK _ (fun h => absurd h (by decide)) fun _ => Agree.refl _ _).bind
      fun r r' hr => ?_
    exact Coupled.ite (by rw [hr.1]) (fun _ => Coupled.pure rfl) fun _ => ih

theorem both_capacity {S : Prop} {K : Driver → Driver → Prop} (hP : Identical P E) (hK : Local K)
    (tries : ℕ) :
    Coupled (Twin E S K l l') Eq (capacity P tries) (capacity P tries) := by
  induction tries with
  | zero => exact Coupled.pure rfl
  | succ tries ih =>
    refine (both_scsiCommand hP hK _ (fun h => absurd h (by decide)) fun _ => Agree.refl _ _).bind
      fun r r' hr => ?_
    refine Coupled.ite (by rw [hr.1]) (fun hok => Coupled.pure ?_) fun _ => ih
    have hdata : Agree 8 r.2 r'.2 := hr.2 rfl (by decide) hok (.inr (Agree.refl _ _))
    simp only [be32, hdata 0 (by decide), hdata 1 (by decide), hdata 2 (by decide), hdata 3 (by decide),
      hdata 4 (by decide), hdata 5 (by decide), hdata 6 (by decide), hdata 7 (by decide)]

/-- Two processes before the same device: what they are told of it is the same, and from then on
they are linked. -/
theorem both_probe {S : Prop} (hP : Identical P E) {s s' : World δ}
    (hS : S → s.drv.gSyncCacheSupported = s'.drv.gSyncCacheSupported) (hE : E s.dev s'.dev)
    (hfill : s.drv.gCacheSectors = 0) (hfill' : s'.drv.gCacheSectors = 0)
    (halloc : A ∨ s.drv.gWriteCache.isSome = s'.drv.gWriteCache.isSome) (handle : ℕ) :
    wpBoth (probe P handle) (probe P handle)
      (fun o o' t t' => o = o' ∧ (o.isSome → Twin E S (Unread A) s.trace s'.trace t t'))
        (fun _ _ => True) s s' := by
  obtain ⟨hconf, hE'⟩ := hP.activeConfig handle hE
  have hcall : ∀ w' : World δ, w'.dev = s'.dev →
      activeConfig P handle w' =
        (some (P.activeConfig handle s.dev).1, { w' with dev := (P.activeConfig handle s'.dev).2 }) := by
    intro w' hw'
    rw [hconf, ← hw']
    rfl
  rw [probe]
  refine wpBoth_returns rfl rfl (wpBoth_returns rfl (hcall _ rfl) ?_)
  cases (P.activeConfig handle s.dev).1 with
  | none => exact ⟨rfl, fun h => absurd h (by decide)⟩
  | some conf =>
    have hrest : Coupled (Twin E S (Unread A) s.trace s'.trace) Eq
        (if (bulkEndpoints conf).1 = 0 ∨ (bulkEndpoints conf).2 = 0 then pure none
        else do
          let _ ← scsiCommand P ⟨[0x12, 0, 0, 0, 36, 0], 0x80, 36⟩ zeros
          testUnitReady P 3
          capacity P 5)
        (if (bulkEndpoints conf).1 = 0 ∨ (bulkEndpoints conf).2 = 0 then pure none
        else do
          let _ ← scsiCommand P ⟨[0x12, 0, 0, 0, 36, 0], 0x80, 36⟩ zeros
          testUnitReady P 3
          capacity P 5) := by
      refine Coupled.ite Iff.rfl (fun _ => Coupled.pure rfl) fun _ => ?_
      refine (both_scsiCommand hP (unread_local A) _ (fun h => absurd h (by decide))
        fun _ => Agree.refl _ _).bind
        fun _ _ _ => ?_
      exact (both_testUnitReady hP (unread_local A) 3).seq fun _ => both_capacity hP (unread_local A) 5
    refine wpBoth_bind ((wpBoth_assign _ _).mpr ?_)
    refine wpBoth_mono (hrest _ _ ?_) (fun _ _ _ _ h => ⟨h.1, fun _ => h.2⟩) fun _ _ _ => trivial
    have hnothing : ∀ l : List Sent, l = l ++ [] := fun l => (List.append_nil l).symm
    exact ⟨⟨⟨rfl, rfl, rfl⟩, hS, hE', [], [], hnothing _, hnothing _, .nil⟩, hfill, hfill', rfl, rfl, halloc⟩

/-- Two processes before the same device: what they are told of it is the same, and from then on
they are linked. -/
theorem both_ownCapacity {S : Prop} (hP : Identical P E) {s s' : World δ}
    (hS : S → s.drv.gSyncCacheSupported = s'.drv.gSyncCacheSupported) (hE : E s.dev s'.dev)
    (hfill : s.drv.gCacheSectors = 0) (hfill' : s'.drv.gCacheSectors = 0)
    (halloc : A ∨ s.drv.gWriteCache.isSome = s'.drv.gWriteCache.isSome) (fd : ℤ) :
    wpBoth (ownCapacity P fd) (ownCapacity P fd)
      (fun o o' t t' => o = o' ∧ (o.isSome → Twin E S (Unread A) s.trace s'.trace t t'))
        (fun _ _ => True) s s' := by
  obtain ⟨hhandle, hE'⟩ := hP.wrapSysDevice fd hE
  have hcall : wrapSysDevice P fd s' =
      (some (P.wrapSysDevice fd s.dev).1, { s' with dev := (P.wrapSysDevice fd s'.dev).2 }) := by
    rw [hhandle]
    rfl
  refine wpBoth_returns rfl hcall ?_
  cases (P.wrapSysDevice fd s.dev).1 with
  | none => exact ⟨rfl, fun h => absurd h (by decide)⟩
  | some handle =>
    refine both_probe hP ?_ ?_ ?_ ?_ ?_ handle
    · exact hS
    · exact hE'
    · exact hfill
    · exact hfill'
    · exact halloc

/-- The geometry that both processes adopt is the last thing that they have to share. -/
theorem Twin.adopt {u u' : World δ} (h : Twin E True (Unread A) l l' u u') (v : ℕ × ℕ) :
    Twin E True (Core A v) l l' (adopt (some v) u) (adopt (some v) u') where
  linked := ⟨h.linked.usb, h.linked.sync, h.linked.dev, h.linked.trace⟩
  related :=
    { geometry := rfl
      geometry' := rfl
      offset := h.related.offset
      type := h.related.type
      fill := h.related.fill.trans h.related.fill'.symm
      lba := fun hpos => absurd h.related.fill (Nat.ne_of_gt hpos)
      cached := fun hpos => absurd h.related.fill (Nat.ne_of_gt hpos)
      cache := fun c _ c' _ i hi => by
        have hzero : u32 ((u.drv.gCacheSectors : ℤ) * v.2) = 0 := by
          rw [h.related.fill]
          simp [u32]
        change i < u32 ((u.drv.gCacheSectors : ℤ) * v.2) at hi
        omega
      allocated := h.related.allocated }

end Probe

section Sessions

variable (hP : Identical P E) (hA : A → Ample P E)
include hP

/-- The commands on the way from `w` to `t` and those from `w'` to `t'` are the same. -/
def SameCommands (w t w' t' : World δ) : Prop :=
  List.Forall₂ SameCommand (t.trace.drop w.trace.length) (t'.trace.drop w'.trace.length)

omit hP in
theorem map_cmd_eq {es es' : List Sent} (h : List.Forall₂ SameCommand es es') :
    es.map Sent.cmd = es'.map Sent.cmd := by
  induction h with
  | nil => rfl
  | cons he _ ih => exact congrArg₂ List.cons he.cmd ih

omit hP in
theorem Linked.same {S : Prop} {w w' t t' : World δ} (h : Linked E S w.trace w'.trace t t') :
    SameCommands w t w' t' := by
  obtain ⟨es, es', hes, hes', hall⟩ := h.trace
  rw [SameCommands, hes, hes', List.drop_left, List.drop_left]
  exact hall

/-- The probes of two processes before the same device. -/
theorem ownCapacity_twin {S : Prop} {w w' : World δ} (x : FormatSession δ) {dev : δ} (hdev : E x.dev dev)
    (hS : S → w.drv.gSyncCacheSupported = w'.drv.gSyncCacheSupported)
    (hfill : w.drv.gCacheSectors = 0) (hfill' : w'.drv.gCacheSectors = 0)
    (halloc : A ∨ w.drv.gWriteCache.isSome = w'.drv.gWriteCache.isSome) {v : ℕ × ℕ} {u : World δ}
    (hv : ownCapacity P x.fd (x.start w) = (some (some v), u)) :
    ∃ u', ownCapacity P x.fd ({ x with dev := dev }.start w') = (some (some v), u') ∧
      Twin E S (Unread A) w.trace w'.trace u u' := by
  have hboth : wpBoth (ownCapacity P x.fd) (ownCapacity P x.fd)
      (fun o o' t t' => o = o' ∧ (o.isSome → Twin E S (Unread A) w.trace w'.trace t t')) (fun _ _ => True)
      (x.start w) ({ x with dev := dev }.start w') := by
    refine both_ownCapacity hP ?_ ?_ ?_ ?_ ?_ x.fd
    · exact hS
    · exact hdev
    · exact hfill
    · exact hfill'
    · exact halloc
  unfold wpBoth at hboth
  rw [hv] at hboth
  rcases hv' : ownCapacity P x.fd ({ x with dev := dev }.start w') with ⟨_ | o, u'⟩ <;> rw [hv'] at hboth
  · exact hboth.elim
  · obtain ⟨rfl, htwin⟩ := hboth
    exact ⟨u', hv', htwin rfl⟩

include hA

/-- From the size check on a FAT session is the same in both processes. -/
theorem mirrored_passed (fuel : ℕ) (x : FormatSession δ) (hfat : x.fsType = 1 ∨ x.fsType = 2 ∨ x.fsType = 3)
    (dev : δ)
    (part : ℕ) :
    Coupled (Twin E True (Core A v) l l') Eq (passed P fuel x part)
      (passed P fuel { x with dev := dev } part) := by
  have hstage : Mirrored E A v l l'
      (formatStage P fuel (fun part => (x.engine part).run P fuel) x.clusterSize x.fsType part) := by
    rw [formatStage, if_neg (by omega), if_neg (by omega), if_neg (by omega)]
    exact mirrored_usbScsiFormatFat hP hA fuel _ _ _
  refine (mirrored_type _).seq fun _ => (mirrored_usbScsiWipeMbr hP).seq fun _ =>
    (mirrored_usbScsiWipeTail hP).seq fun _ => ?_
  refine (mirrored_createPartition hP _ _ _).seq fun _ =>
    (mirrored_usbScsiWipePartitionHead hP hA fuel _).seq fun _ => ?_
  exact hstage.seq fun _ => (both_usbScsiSync hP).seq fun _ => mirrored_pure _

/-- Processes that agree on SYNCHRONIZE CACHE send the same commands. -/
theorem run_same (fuel : ℕ) {w w' : World δ} (x : FormatSession δ)
    (hfat : x.fsType = 1 ∨ x.fsType = 2 ∨ x.fsType = 3)
    {dev : δ} (hdev : E x.dev dev) (hS : w.drv.gSyncCacheSupported = w'.drv.gSyncCacheSupported)
    (hfill : w.drv.gCacheSectors = 0) (hfill' : w'.drv.gCacheSectors = 0)
    (halloc : A ∨ w.drv.gWriteCache.isSome = w'.drv.gWriteCache.isSome) {v : ℕ × ℕ} {u : World δ}
    (hv : ownCapacity P x.fd (x.start w) = (some (some v), u)) :
    SameCommands w (x.run P fuel w) w' ({ x with dev := dev }.run P fuel w') := by
  obtain ⟨u', hv', htwin⟩ := ownCapacity_twin hP x hdev (fun _ : True => hS) hfill hfill' halloc hv
  obtain ⟨handle, hhandle⟩ := wrapSysDevice_of_own hv
  have hhandle' : (P.wrapSysDevice x.fd dev).1 = some handle := by
    rw [← (hP.wrapSysDevice x.fd hdev).1, hhandle]
  have hrun := startStableFormat_probed fuel x hhandle hv
  have hrun' := startStableFormat_probed fuel { x with dev := dev } hhandle' hv'
  rw [FormatSession.run, FormatSession.run, hrun, hrun']
  refine Linked.same (E := E) (S := True) ?_
  by_cases hle : v.1 ≤ x.leastSectors
  · rw [if_pos (show (adopt (some v) u).drv.gSectorCount ≤ x.leastSectors from hle),
      if_pos (show (adopt (some v) u').drv.gSectorCount ≤ FormatSession.leastSectors { x with dev := dev }
        from hle)]
    exact (htwin.adopt v).linked
  · rw [if_neg (show ¬(adopt (some v) u).drv.gSectorCount ≤ x.leastSectors from hle),
      if_neg (show ¬(adopt (some v) u').drv.gSectorCount ≤ FormatSession.leastSectors { x with dev := dev }
        from hle)]
    exact ((mirrored_passed hP hA fuel x hfat dev _).state (htwin.adopt v)).linked

end Sessions

end FormatStick
