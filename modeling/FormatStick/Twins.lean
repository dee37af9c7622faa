import FormatStick.Coupled
import FormatStick.OwnGeometry

/-!
# Two processes before the same stick

Two processes whose driver globals agree where it matters run the same session. The
globals that an earlier session leaves behind (the cache's place and content, the
bounce buffer, the tags) may differ; what is sent does not.
-/
namespace FormatStick
open Splice Prog

variable {δ : Type}

/-- Two buffers agree in their first `n` bytes. -/
def Agree (n : ℕ) (b c : Buf) : Prop := ∀ i < n, b i = c i

theorem Agree.refl (n : ℕ) (b : Buf) : Agree n b b := fun _ _ => rfl

/-- The same data overwrites two buffers: they agree as far as they did, and on the data. -/
theorem Agree.splice {n n' : ℕ} {b c : Buf} (h : Agree n b c) (addr : ℕ) (data : Buf) (len : ℕ)
    (hn : n' ≤ n ∨ n' ≤ addr + len ∧ addr ≤ n) :
    Agree n' (splice b addr data len) (splice c addr data len) := by
  intro i hi
  by_cases hin : addr ≤ i ∧ i < addr + len
  · rw [Splice.splice, Splice.splice, if_pos hin, if_pos hin]
  · rw [Splice.splice, Splice.splice, if_neg hin, if_neg hin]
    exact h i (by omega)

/-- The command takes its data from the buffer. -/
def Cmd.Outgoing (c : Cmd) : Prop := c.direction ≠ 0x80 ∨ c.opcode = 0x2a

/-- The USB state but for the tag. -/
structure SameUsb (u u' : Usb) : Prop where
  handle : u.gUsbHandle = u'.gUsbHandle
  epIn : u.gEpIn = u'.gEpIn
  epOut : u.gEpOut = u'.gEpOut

/-- The same answer to a command: the same status, and with an accepted IN command the same data. A
READ(10) fills the buffer; other commands may leave a part of it, which is the same in `b` and `b'`. -/
structure SameReply (E : δ → δ → Prop) (c : Cmd) (b b' : Buf) (r r' : Reply δ) : Prop where
  status : r.csw.map Csw.status = r'.csw.map Csw.status
  data : c.direction = 0x80 → r.csw.map Csw.status = some 0 → c.opcode = 0x28 ∨ Agree c.dataLen b b' →
    Agree c.dataLen r.data r'.data
  usb : SameUsb r.usb r'.usb
  dev : E r.dev r'.dev

/-- States of the platform related by `E` respond identically to identical commands, whatever
their tags, and hand out the same memory and random numbers. -/
structure Identical (P : Platform δ) (E : δ → δ → Prop) : Prop where
  exchange : ∀ {u u' d d'} (c : Cmd) {b b' : Buf}, SameUsb u u' → E d d' →
    (c.Outgoing → Agree c.dataLen b b') →
      SameReply E c b b' (P.exchange u c b d) (P.exchange u' c b' d')
  requestSense : ∀ {u u' d d'}, SameUsb u u' → E d d' →
    SameUsb (P.requestSense u d).1 (P.requestSense u' d').1 ∧
      E (P.requestSense u d).2 (P.requestSense u' d').2
  malloc : ∀ {d d'}, E d d' → (P.malloc d).1 = (P.malloc d').1 ∧ E (P.malloc d).2 (P.malloc d').2
  rand : ∀ {d d'}, E d d' → (P.rand d).1 = (P.rand d').1 ∧ E (P.rand d).2 (P.rand d').2
  wrapSysDevice : ∀ {d d'} fd, E d d' →
    (P.wrapSysDevice fd d).1 = (P.wrapSysDevice fd d').1 ∧
      E (P.wrapSysDevice fd d).2 (P.wrapSysDevice fd d').2
  activeConfig : ∀ {d d'} handle, E d d' →
    (P.activeConfig handle d).1 = (P.activeConfig handle d').1 ∧
      E (P.activeConfig handle d).2 (P.activeConfig handle d').2

/-- Memory never runs out, and an allocation is not seen elsewhere. -/
structure Ample (P : Platform δ) (E : δ → δ → Prop) : Prop where
  enough : ∀ {d d'}, E d d' → (P.malloc d).1 = true ∧ (P.malloc d').1 = true
  left : ∀ {d d'}, E d d' → E (P.malloc d).2 d'
  right : ∀ {d d'}, E d d' → E d (P.malloc d').2

/-- The same command: the CDB, direction and length, and the data where it goes out. -/
structure SameCommand (e e' : Sent) : Prop where
  cmd : e.cmd = e'.cmd
  data : e.cmd.Outgoing → Agree e.cmd.dataLen e.data e'.data

/-- What two processes share at any time of a session: what they sent after `l` and `l'`, and all
that a command depends on. Under `S` that includes the flag for SYNCHRONIZE CACHE. -/
structure Linked (E : δ → δ → Prop) (S : Prop) (l l' : List Sent) (w w' : World δ) : Prop where
  usb : SameUsb w.drv.usb w'.drv.usb
  sync : S → w.drv.gSyncCacheSupported = w'.drv.gSyncCacheSupported
  dev : E w.dev w'.dev
  trace : ∃ es es', w.trace = l ++ es ∧ w'.trace = l' ++ es' ∧ List.Forall₂ SameCommand es es'

/-- A relation of driver globals other than the USB state and the flag for SYNCHRONIZE CACHE. -/
def Local (K : Driver → Driver → Prop) : Prop :=
  ∀ g g' u u' b b', K g g' →
    K { g with usb := u, gSyncCacheSupported := b } { g' with usb := u', gSyncCacheSupported := b' }

/-- Linked processes whose globals are related by `K`. -/
structure Twin (E : δ → δ → Prop) (S : Prop) (K : Driver → Driver → Prop) (l l' : List Sent)
    (w w' : World δ) :
    Prop where
  linked : Linked E S l l' w w'
  related : K w.drv w'.drv

section Commands

variable {P : Platform δ} {E : δ → δ → Prop} {S : Prop} {K : Driver → Driver → Prop} {l l' : List Sent}
  {w w' : World δ}

theorem Linked.sent {e e' : Sent} {t t' : World δ} (h : Linked E S l l' w w') (he : SameCommand e e')
    (ht : t.trace = w.trace ++ [e]) (ht' : t'.trace = w'.trace ++ [e']) (hu : SameUsb t.drv.usb t'.drv.usb)
    (hs : S → t.drv.gSyncCacheSupported = t'.drv.gSyncCacheSupported) (hd : E t.dev t'.dev) :
    Linked E S l l' t t' := by
  obtain ⟨es, es', hes, hes', hall⟩ := h.trace
  refine ⟨hu, hs, hd, es ++ [e], es' ++ [e'], by rw [ht, hes, List.append_assoc],
    by rw [ht', hes', List.append_assoc], ?_⟩
  exact List.rel_append hall (.cons he .nil)

theorem wpBoth_globals {Q : Driver → Driver → World δ → World δ → Prop} {D : World δ → World δ → Prop} :
    wpBoth globals globals Q D w w' ↔ Q w.drv w'.drv w w' := Iff.rfl

theorem wpBoth_assign {Q : Unit → Unit → World δ → World δ → Prop} {D : World δ → World δ → Prop}
    (f f' : Driver → Driver) :
    wpBoth (assign f) (assign f') Q D w w' ↔
      Q () () { w with drv := f w.drv } { w' with drv := f' w'.drv } := Iff.rfl

theorem wpBoth_copyToCache {Q : Unit → Unit → World δ → World δ → Prop} {D : World δ → World δ → Prop}
    {start start' len len' : ℕ} {src src' : Buf} :
    wpBoth (copyToCache start src len) (copyToCache start' src' len') Q D w w' ↔
      Q () ()
        { w with
          drv := { w.drv with gWriteCache := w.drv.gWriteCache.map fun cache => splice cache start src len }
          accesses := w.accesses ++ [⟨.gWriteCache, start, len, w.drv.gWriteCacheSize⟩] }
        { w' with
          drv := { w'.drv with
            gWriteCache := w'.drv.gWriteCache.map fun cache => splice cache start' src' len' }
          accesses := w'.accesses ++ [⟨.gWriteCache, start', len', w'.drv.gWriteCacheSize⟩] } := Iff.rfl

theorem both_globals : Coupled (Twin E S K l l')
    (fun g g' => K g g' ∧ (S → g.gSyncCacheSupported = g'.gSyncCacheSupported))
    globals globals := fun _ _ hT => ⟨⟨hT.related, hT.linked.sync⟩, hT⟩

theorem both_assign {f : Driver → Driver}
    (hf : ∀ g, (f g).usb = g.usb ∧ (f g).gSyncCacheSupported = g.gSyncCacheSupported)
    {f' : Driver → Driver} (hf' : ∀ g, (f' g).usb = g.usb ∧
      (f' g).gSyncCacheSupported = g.gSyncCacheSupported)
    (hK : ∀ g g', K g g' → K (f g) (f' g')) : Coupled (Twin E S K l l') Eq (assign f) (assign f') := by
  intro w w' hT
  refine ⟨rfl, ⟨?_, fun hs => ?_, hT.linked.dev, hT.linked.trace⟩, hK _ _ hT.related⟩
  · change SameUsb (f w.drv).usb (f' w'.drv).usb
    rw [(hf _).1, (hf' _).1]
    exact hT.linked.usb
  · change (f w.drv).gSyncCacheSupported = (f' w'.drv).gSyncCacheSupported
    rw [(hf _).2, (hf' _).2]
    exact hT.linked.sync hs

theorem both_access (buffer : DriverBuffer) (start len : ℕ) {f : Driver → Driver}
    (hf : ∀ g, (f g).usb = g.usb ∧ (f g).gSyncCacheSupported = g.gSyncCacheSupported)
    {f' : Driver → Driver} (hf' : ∀ g, (f' g).usb = g.usb ∧
      (f' g).gSyncCacheSupported = g.gSyncCacheSupported)
    (hK : ∀ g g', K g g' → K (f g) (f' g')) :
    Coupled (Twin E S K l l') Eq (access buffer start len f) (access buffer start len f') := by
  intro w w' hT
  have hassign : Coupled (Twin E S K l l') Eq (assign f) (assign f') := both_assign hf hf' hK
  obtain ⟨-, hnext⟩ := hassign w w' hT
  exact ⟨rfl, ⟨hnext.linked.usb, hnext.linked.sync, hnext.linked.dev, hnext.linked.trace⟩, hnext.related⟩

/-- An access that changes nothing. -/
theorem both_touch (buffer : DriverBuffer) (start len : ℕ) :
    Coupled (Twin E S K l l') Eq (access buffer start len id) (access buffer start len id) :=
  both_access _ _ _ (fun _ => ⟨rfl, rfl⟩) (fun _ => ⟨rfl, rfl⟩) fun _ _ h => h

variable (hP : Identical P E)
include hP

theorem both_malloc : Coupled (Twin E S K l l') Eq (malloc P) (malloc P) := fun _ _ hT => by
  obtain ⟨heq, hdev⟩ := hP.malloc hT.linked.dev
  exact ⟨heq, ⟨hT.linked.usb, hT.linked.sync, hdev, hT.linked.trace⟩, hT.related⟩

theorem both_rand : Coupled (Twin E S K l l') Eq (rand P) (rand P) := fun _ _ hT => by
  obtain ⟨heq, hdev⟩ := hP.rand hT.linked.dev
  exact ⟨heq, ⟨hT.linked.usb, hT.linked.sync, hdev, hT.linked.trace⟩, hT.related⟩

variable (hK : Local K)
include hK

theorem both_transact (c : Cmd) {b b' : Buf} (hb : c.Outgoing → Agree c.dataLen b b') :
    Coupled (Twin E S K l l') (fun r r' : Option Csw × Buf => r.1.map Csw.status = r'.1.map Csw.status ∧
      (c.direction = 0x80 → r.1.map Csw.status = some 0 → c.opcode = 0x28 ∨ Agree c.dataLen b b' →
        Agree c.dataLen r.2 r'.2))
      (transact P c b) (transact P c b') := by
  intro w w' hT
  have hreply := hP.exchange c hT.linked.usb hT.linked.dev hb
  refine ⟨⟨hreply.status, hreply.data⟩, ?_, hK _ _ _ _ _ _ hT.related⟩
  have hcmd : SameCommand
      ⟨c, b, w.drv.usb.gTag, w.drv.gWriteCache, w.drv.gCacheLba, w.drv.gCacheSectors,
        (P.exchange w.drv.usb c b w.dev).csw⟩
      ⟨c, b', w'.drv.usb.gTag, w'.drv.gWriteCache, w'.drv.gCacheLba, w'.drv.gCacheSectors,
        (P.exchange w'.drv.usb c b' w'.dev).csw⟩ := ⟨rfl, hb⟩
  exact hT.linked.sent hcmd rfl rfl hreply.usb hT.linked.sync hreply.dev

theorem both_sense : Coupled (Twin E S K l l') Eq (sense P) (sense P) := by
  intro w w' hT
  obtain ⟨husb, hdev⟩ := hP.requestSense hT.linked.usb hT.linked.dev
  exact ⟨rfl, ⟨husb, hT.linked.sync, hdev, hT.linked.trace⟩, hK _ _ _ _ _ _ hT.related⟩

/-- The same command, in linked processes. -/
theorem both_scsiCommand (c : Cmd) (hS : c.opcode = 0x35 → S) {b b' : Buf}
    (hb : c.Outgoing → Agree c.dataLen b b') :
    Coupled (Twin E S K l l') (fun r r' : ℤ × Buf =>
      r.1 = r'.1 ∧ (c.direction = 0x80 → c.opcode ≠ 0x35 → r.1 = 0 → c.opcode = 0x28 ∨ Agree c.dataLen b b' →
        Agree c.dataLen r.2 r'.2))
      (scsiCommand P c b) (scsiCommand P c b') := by
  have hdisable : Coupled (Twin E S K l l') Eq
      (assign fun g => { g with gSyncCacheSupported := false } : Prog (World δ) Unit)
      (assign fun g => { g with gSyncCacheSupported := false }) := fun w w' hT =>
    ⟨rfl, ⟨hT.linked.usb, fun _ => rfl, hT.linked.dev, hT.linked.trace⟩, hK _ _ _ _ _ _ hT.related⟩
  refine both_globals.bind fun g g' hg => Coupled.ite ?_ (fun hskip => ?_) fun _ => ?_
  · exact and_congr_right fun hop => by rw [hg.2 (hS hop)]
  · exact Coupled.pure ⟨rfl, fun _ h => absurd hskip.1 h⟩
  refine (both_transact hP hK c hb).bind fun r r' hr => ?_
  obtain ⟨hstatus, hdata⟩ := hr
  cases hcsw : r.1 with
  | none =>
    rw [hcsw] at hstatus
    rw [Option.map_eq_none_iff.mp hstatus.symm]
    exact Coupled.pure ⟨rfl, fun _ _ h => absurd h (show ¬(-1 : ℤ) = 0 by decide)⟩
  | some csw =>
    rw [hcsw] at hstatus hdata
    obtain ⟨csw', hcsw', hst⟩ := Option.map_eq_some_iff.mp hstatus.symm
    rw [hcsw']
    refine Coupled.ite (by rw [hst]) (fun hok => ?_) fun _ => Coupled.ite Iff.rfl (fun hop => ?_) fun _ => ?_
    · exact Coupled.pure ⟨rfl, fun hdir _ _ hb => hdata hdir (congrArg some hok) hb⟩
    · exact hdisable.bind fun _ _ _ => Coupled.pure ⟨rfl, fun _ h => absurd hop h⟩
    · exact (both_sense hP hK).bind fun _ _ _ =>
        Coupled.pure ⟨rfl, fun _ _ h => absurd h (show ¬(-1 : ℤ) = 0 by decide)⟩

theorem both_write10 (lba blocks : ℕ) {b b' : Buf} {len : ℕ} (hb : Agree len b b') :
    Coupled (Twin E S K l l') Eq (write10 P lba blocks b len) (write10 P lba blocks b' len) := by
  have hop : (Cmd.mk (cdb10 0x2a lba blocks) 0x00 len).opcode ≠ 0x35 := by
    show (0x2a : UInt8) ≠ 0x35
    decide
  exact (both_scsiCommand hP hK _ (fun h => absurd h hop) fun _ => hb).bind fun _ _ hr => Coupled.pure hr.1

theorem both_read10 (lba blocks : ℕ) (b b' : Buf) (len : ℕ) :
    Coupled (Twin E S K l l') (fun r r' => r.1 = r'.1 ∧ (r.1 = 0 → Agree len r.2 r'.2))
      (read10 P lba blocks b len) (read10 P lba blocks b' len) := by
  have hop : (Cmd.mk (cdb10 0x28 lba blocks) 0x80 len).opcode ≠ 0x35 := by
    show (0x28 : UInt8) ≠ 0x35
    decide
  have hin : ¬(Cmd.mk (cdb10 0x28 lba blocks) 0x80 len).Outgoing := by
    show ¬((0x80 : UInt8) ≠ 0x80 ∨ (0x28 : UInt8) = 0x2a)
    decide
  exact (both_scsiCommand hP hK _ (fun h => absurd h hop) fun h => absurd h hin).mono fun _ _ hr =>
    ⟨hr.1, fun hok => hr.2 rfl hop hok (.inl rfl)⟩

theorem both_writeBounce (lba blocks : ℕ) {b b' : Buf} {len : ℕ} (hb : Agree len b b') :
    Coupled (Twin E S K l l') Eq (writeBounce P lba blocks b len) (writeBounce P lba blocks b' len) :=
  (both_write10 hP hK _ _ hb).seq fun _ => (both_touch _ _ _).seq fun _ => Coupled.pure rfl

theorem both_writeCache (lba blocks : ℕ) {b b' : Buf} {len : ℕ} (hb : Agree len b b') :
    Coupled (Twin E S K l l') Eq (writeCache P lba blocks b len) (writeCache P lba blocks b' len) :=
  (both_write10 hP hK _ _ hb).seq fun _ => (both_touch _ _ _).seq fun _ => Coupled.pure rfl

theorem both_syncCache (hS : S) : Coupled (Twin E S K l l') Eq (syncCache P) (syncCache P) :=
  (both_scsiCommand hP hK _ (fun _ => hS) fun _ => Agree.refl _ _).bind fun _ _ hr => Coupled.pure hr.1

end Commands

/-- What the driver globals of two processes share within a session of geometry `v`. Where `A`
does not hold, both have allocated the write cache or neither has. -/
structure Core (A : Prop) (v : ℕ × ℕ) (g g' : Driver) : Prop where
  geometry : (g.gSectorCount, g.gSectorSize) = v
  geometry' : (g'.gSectorCount, g'.gSectorSize) = v
  offset : g.gDriveOffsetSectors = g'.gDriveOffsetSectors
  type : g.gPartitionType = g'.gPartitionType
  fill : g.gCacheSectors = g'.gCacheSectors
  lba : 0 < g.gCacheSectors → g.gCacheLba = g'.gCacheLba
  cached : 0 < g.gCacheSectors → g.gWriteCache.isSome ∧ g'.gWriteCache.isSome
  cache : ∀ c ∈ g.gWriteCache, ∀ c' ∈ g'.gWriteCache, Agree (u32 (g.gCacheSectors * g.gSectorSize)) c c'
  allocated : A ∨ g.gWriteCache.isSome = g'.gWriteCache.isSome

theorem core_local (A : Prop) (v : ℕ × ℕ) : Local (Core A v) := fun _ _ _ _ _ _ h =>
  ⟨h.geometry, h.geometry', h.offset, h.type, h.fill, h.lba, h.cached, h.cache, h.allocated⟩

namespace Core

variable {A : Prop} {v : ℕ × ℕ} {g g' : Driver} (h : Core A v g g')
include h

theorem size : g.gSectorSize = g'.gSectorSize := congrArg Prod.snd (h.geometry.trans h.geometry'.symm)

theorem count : g.gSectorCount = g'.gSectorCount := congrArg Prod.fst (h.geometry.trans h.geometry'.symm)

/-- An empty cache has nothing to agree on. -/
theorem flushed : Core A v { g with gCacheSectors := 0 } { g' with gCacheSectors := 0 } where
  geometry := h.geometry
  geometry' := h.geometry'
  offset := h.offset
  type := h.type
  fill := rfl
  lba h := absurd h (Nat.lt_irrefl 0)
  cached h := absurd h (Nat.lt_irrefl 0)
  cache c _ c' _ i hi := by
    have : u32 (((0 : ℕ) : ℤ) * (g.gSectorSize : ℕ)) = 0 := by simp [u32]
    change i < u32 (((0 : ℕ) : ℤ) * (g.gSectorSize : ℕ)) at hi
    omega
  allocated := h.allocated

end Core

theorem u32_natCast (x : ℕ) : u32 x = x % 4294967296 := by
  unfold u32
  omega

/-- The cached run does not outgrow its parts, wherever the 32-bit lengths wrap. -/
theorem u32_fill_le (a b s : ℕ) : u32 ((u32 ((a : ℤ) + b) : ℕ) * s) ≤ u32 (a * s) + u32 (b * s) := by
  rw [← Int.natCast_add, ← Int.natCast_mul, ← Int.natCast_mul, ← Int.natCast_mul, u32_natCast, u32_natCast,
    u32_natCast, u32_natCast, Nat.mod_mul_mod, Nat.add_mul, Nat.add_mod]
  exact Nat.mod_le _ _

/-- With nothing cached, any two caches will do. -/
theorem Core.allocate {A : Prop} {v : ℕ × ℕ} {g g' : Driver} (h : Core A v g g') (hzero : g.gCacheSectors = 0)
    {c c' : Option Buf} (hc : c.isSome) (hc' : c'.isSome) (z z' : ℕ) :
    Core A v { g with gWriteCache := c, gWriteCacheSize := z }
      { g' with gWriteCache := c', gWriteCacheSize := z' } where
  geometry := h.geometry
  geometry' := h.geometry'
  offset := h.offset
  type := h.type
  fill := h.fill
  lba := h.lba
  cached _ := ⟨hc, hc'⟩
  cache _ _ _ _ i hi := by
    have hnone : u32 ((g.gCacheSectors : ℤ) * (g.gSectorSize : ℕ)) = 0 := by simp [hzero, u32]
    change i < u32 ((g.gCacheSectors : ℤ) * (g.gSectorSize : ℕ)) at hi
    omega
  allocated := .inr (hc.trans hc'.symm)

/-- A new run in the cache: its old content does not matter. -/
theorem Core.restart {A : Prop} {v : ℕ × ℕ} {g g' : Driver} (h : Core A v g g')
    (hcache : g.gWriteCache.isSome)
    (hcache' : g'.gWriteCache.isSome) (lba sectors : ℕ) (data : Buf) {len : ℕ}
    (hlen : len = u32 (sectors * v.2)) :
    Core A v
      { g with
        gCacheLba := lba
        gWriteCache := g.gWriteCache.map fun cache => splice cache 0 data len
        gCacheSectors := sectors }
      { g' with
        gCacheLba := lba
        gWriteCache := g'.gWriteCache.map fun cache => splice cache 0 data len
        gCacheSectors := sectors } where
  geometry := h.geometry
  geometry' := h.geometry'
  offset := h.offset
  type := h.type
  fill := rfl
  lba _ := rfl
  cached _ := ⟨by simpa using hcache, by simpa using hcache'⟩
  cache c hc c' hc' := by
    have hsize : g.gSectorSize = v.2 := congrArg Prod.snd h.geometry
    obtain ⟨b, -, rfl⟩ := Option.map_eq_some_iff.mp hc
    obtain ⟨b', -, rfl⟩ := Option.map_eq_some_iff.mp hc'
    have hnone : Agree 0 b b' := fun _ hi => absurd hi (Nat.not_lt_zero _)
    refine hnone.splice 0 data len (.inr ⟨?_, Nat.le_refl 0⟩)
    exact Nat.le_of_eq (by rw [Nat.zero_add, hlen, ← hsize])
  allocated := h.allocated.imp id fun ha => by simpa using ha

/-- The cached run grows. -/
theorem Core.extend {A : Prop} {v : ℕ × ℕ} {g g' : Driver} (h : Core A v g g') (hpos : 0 < g.gCacheSectors)
    (sectors : ℕ) (data : Buf)
    {len : ℕ} (hlen : len = u32 (sectors * v.2)) :
    Core A v
      { g with
        gWriteCache := g.gWriteCache.map fun cache =>
          splice cache (u32 (g.gCacheSectors * v.2)) data len
        gCacheSectors := u32 (g.gCacheSectors + sectors) }
      { g' with
        gWriteCache := g'.gWriteCache.map fun cache =>
          splice cache (u32 (g'.gCacheSectors * v.2)) data len
        gCacheSectors := u32 (g'.gCacheSectors + sectors) } where
  geometry := h.geometry
  geometry' := h.geometry'
  offset := h.offset
  type := h.type
  fill := congrArg (fun n : ℕ => u32 (n + sectors)) h.fill
  lba _ := h.lba hpos
  cached _ := by
    obtain ⟨hc, hc'⟩ := h.cached hpos
    exact ⟨by simpa using hc, by simpa using hc'⟩
  cache c hc c' hc' := by
    have hsize : g.gSectorSize = v.2 := congrArg Prod.snd h.geometry
    obtain ⟨b, hb, rfl⟩ := Option.map_eq_some_iff.mp hc
    obtain ⟨b', hb', rfl⟩ := Option.map_eq_some_iff.mp hc'
    rw [← h.fill, hlen, ← hsize]
    refine (h.cache b hb b' hb').splice _ data _ (.inr ⟨?_, Nat.le_refl _⟩)
    exact u32_fill_le _ _ _
  allocated := h.allocated.imp id fun ha => by simpa using ha

section Passes

variable {P : Platform δ} {E : δ → δ → Prop} {A : Prop} {v : ℕ × ℕ} {l l' : List Sent}
  (hP : Identical P E) (hA : A → Ample P E)
include hP

theorem both_flush : Coupled (Twin E True (Core A v) l l') Eq (scsiFlushCacheInternal P)
    (scsiFlushCacheInternal P) := by
  refine both_globals.bind fun g g' hg => ?_
  obtain ⟨hg, -⟩ := hg
  by_cases h0 : g.gCacheSectors = 0
  · -- nothing is cached, whether or not there is a cache
    rw [← hg.fill, h0]
    cases g.gWriteCache with
    | none => cases g'.gWriteCache with
      | none => exact Coupled.pure rfl
      | some c' => exact Coupled.pure rfl
    | some c => cases g'.gWriteCache with
      | none => exact Coupled.pure rfl
      | some c' => exact Coupled.pure rfl
  · have hpos : 0 < g.gCacheSectors := Nat.pos_of_ne_zero h0
    obtain ⟨hc, hc'⟩ := hg.cached hpos
    obtain ⟨c, hc⟩ := Option.isSome_iff_exists.mp hc
    obtain ⟨c', hc'⟩ := Option.isSome_iff_exists.mp hc'
    rw [hc, hc']
    refine Coupled.ite (by rw [hg.fill]) (fun h => absurd h h0) fun _ => ?_
    rw [← hg.fill, ← hg.size, ← hg.lba hpos]
    refine (both_writeCache hP (core_local A v) _ _ (hg.cache c hc c' hc')).seq fun r => ?_
    refine Coupled.seq ?_ fun _ => Coupled.pure rfl
    refine both_assign ?_ ?_ ?_
    · exact fun _ => ⟨rfl, rfl⟩
    · exact fun _ => ⟨rfl, rfl⟩
    · exact fun _ _ h => h.flushed

theorem both_modifyPass (buf : Buf) (totalDone lba offsetInSector remaining : ℕ) :
    Coupled (Twin E True (Core A v) l l') Eq (modifyPass P buf totalDone lba offsetInSector remaining)
      (modifyPass P buf totalDone lba offsetInSector remaining) := by
  have hbounce : ∀ (start len : ℕ) (b b' : Buf), Coupled (Twin E True (Core A v) l l') Eq
      (access .gBounceBuffer start len fun g => { g with gBounceBuffer := b } : Prog (World δ) Unit)
      (access .gBounceBuffer start len fun g => { g with gBounceBuffer := b' }) := by
    intro start len b b'
    refine both_access _ _ _ ?_ ?_ ?_
    · exact fun _ => ⟨rfl, rfl⟩
    · exact fun _ => ⟨rfl, rfl⟩
    · exact fun _ _ h => ⟨h.geometry, h.geometry', h.offset, h.type, h.fill, h.lba, h.cached, h.cache,
        h.allocated⟩
  refine (both_flush hP).seq fun _ => both_globals.bind fun g g' hg => ?_
  rw [← hg.1.size]
  have hread : Coupled (Twin E True (Core A v) l l')
      (fun r r' => r.1 = r'.1 ∧ (r.1 = 0 → Agree g.gSectorSize r.2 r'.2))
      (readBounce P lba 1 g.gSectorSize) (readBounce P lba 1 g.gSectorSize) :=
    both_globals.bind fun _ _ _ => (both_read10 hP (core_local A v) lba 1 _ _ g.gSectorSize).bind
        fun _ _ hr =>
      (hbounce _ _ _ _).seq fun _ => Coupled.pure hr
  refine hread.bind fun r r' hr => Coupled.ite (by rw [hr.1]) (fun _ => Coupled.pure rfl) fun hok => ?_
  have hsector : Agree g.gSectorSize r.2 r'.2 := hr.2 (by omega)
  have hcopy : Coupled (Twin E True (Core A v) l l') (Agree g.gSectorSize)
      (copyToBounce r.2 offsetInSector (window buf totalDone)
        (if u32 ((g.gSectorSize : ℤ) - offsetInSector) < remaining then u32
          ((g.gSectorSize : ℤ) - offsetInSector)
        else remaining))
      (copyToBounce r'.2 offsetInSector (window buf totalDone)
        (if u32 ((g.gSectorSize : ℤ) - offsetInSector) < remaining then u32
          ((g.gSectorSize : ℤ) - offsetInSector)
        else remaining)) :=
    (hbounce _ _ _ _).seq fun _ => Coupled.pure (hsector.splice _ _ _ (.inl (Nat.le_refl _)))
  refine hcopy.bind fun b b' hb => (both_writeBounce hP (core_local A v) lba 1 hb).seq fun res => ?_
  exact Coupled.ite Iff.rfl (fun _ => Coupled.pure rfl) fun _ => Coupled.pure rfl

include hA

/-- The write cache is there, or it is allocated, in both processes. -/
theorem both_allocateCache {w w' : World δ} (hT : Twin E True (Core A v) l l' w w') :
    wpBoth (allocateCache P) (allocateCache P)
      (fun a a' t t' => a = a' ∧ Twin E True (Core A v) l l' t t' ∧
        (a = true → t.drv.gWriteCache.isSome ∧ t'.drv.gWriteCache.isSome))
      (Twin E True (Core A v) l l') w w' := by
  obtain ⟨⟨husb, hsync, hdev, htrace⟩, hcore⟩ := hT
  -- where one of them has no cache, nothing is cached
  have hzero : ¬(w.drv.gWriteCache.isSome ∧ w'.drv.gWriteCache.isSome) → w.drv.gCacheSectors = 0 := fun hno =>
    Nat.eq_zero_of_not_pos fun hpos => hno (hcore.cached hpos)
  rw [wpBoth]
  by_cases h : w.drv.gWriteCache.isSome <;> by_cases h' : w'.drv.gWriteCache.isSome
  · rw [allocateCache_some h, allocateCache_some h']
    exact ⟨rfl, ⟨⟨husb, hsync, hdev, htrace⟩, hcore⟩, fun _ => ⟨h, h'⟩⟩
  · have hmem := hA (hcore.allocated.resolve_right fun heq => h' (heq ▸ h))
    have hyes : ¬(P.malloc w'.dev).1 = false := by simp [(hmem.enough hdev).2]
    rw [allocateCache_some h, allocateCache_none h', if_neg hyes]
    refine ⟨rfl, ⟨⟨husb, hsync, hmem.right hdev, htrace⟩, ?_⟩, fun _ => ⟨h, rfl⟩⟩
    exact hcore.allocate (hzero fun hboth => h' hboth.2) h rfl w.drv.gWriteCacheSize _
  · have hmem := hA (hcore.allocated.resolve_right fun heq => h (heq ▸ h'))
    have hyes : ¬(P.malloc w.dev).1 = false := by simp [(hmem.enough hdev).1]
    rw [allocateCache_none h, allocateCache_some h', if_neg hyes]
    refine ⟨rfl, ⟨⟨husb, hsync, hmem.left hdev, htrace⟩, ?_⟩, fun _ => ⟨rfl, h'⟩⟩
    exact hcore.allocate (hzero fun hboth => h hboth.1) rfl h' _ w'.drv.gWriteCacheSize
  · obtain ⟨heq, hdev'⟩ := hP.malloc hdev
    rw [allocateCache_none h, allocateCache_none h', ← heq]
    split_ifs
    · exact ⟨rfl, ⟨⟨husb, hsync, hdev', htrace⟩, hcore⟩, fun hno => absurd hno (by decide)⟩
    · refine ⟨rfl, ⟨⟨husb, hsync, hdev', htrace⟩, ?_⟩, fun _ => ⟨rfl, rfl⟩⟩
      exact hcore.allocate (hzero fun hboth => h hboth.1) rfl rfl _ _

theorem both_cachePass (buf : Buf) (totalDone lba remaining : ℕ) :
    Coupled (Twin E True (Core A v) l l') Eq (cachePass P buf totalDone lba remaining)
      (cachePass P buf totalDone lba remaining) := by
  intro w w' hT
  have hg := hT.related
  have hsize : w.drv.gSectorSize = v.2 := congrArg Prod.snd hg.geometry
  have hsize' : w'.drv.gSectorSize = v.2 := congrArg Prod.snd hg.geometry'
  refine wpBoth_bind (wpBoth_globals.mpr ?_)
  rw [hsize, hsize']
  refine wpBoth_ite ?_ (fun hrun => ?_) fun _ => ?_
  · rw [← hg.fill]
    exact and_congr_right fun hpos => by rw [hg.lba hpos]
  · refine wpBoth_bind (wpBoth_copyToCache.mpr (wpBoth_bind ((wpBoth_assign _ _).mpr ?_)))
    refine ⟨rfl, ⟨hT.linked.usb, hT.linked.sync, hT.linked.dev, hT.linked.trace⟩, ?_⟩
    exact hg.extend hrun.1 _ _ rfl
  · refine wpBoth_bind (wpBoth_mono (both_flush hP w w' hT) (fun _ _ t t' ht => ?_) fun _ _ h => h)
    refine wpBoth_bind (wpBoth_mono (both_allocateCache hP hA ht.2) (fun a a' u u' hu => ?_) fun _ _ h => h)
    obtain ⟨rfl, hu, hsome⟩ := hu
    refine wpBoth_ite Iff.rfl (fun _ => ⟨rfl, hu⟩) fun hyes => ?_
    obtain ⟨hc, hc'⟩ := hsome (eq_true_of_ne_false hyes)
    refine wpBoth_bind ((wpBoth_assign _ _).mpr (wpBoth_bind (wpBoth_copyToCache.mpr (wpBoth_bind
      ((wpBoth_assign _ _).mpr ?_)))))
    refine ⟨rfl, ⟨hu.linked.usb, hu.linked.sync, hu.linked.dev, hu.linked.trace⟩, ?_⟩
    exact hu.related.restart hc hc' _ _ _ rfl

/-- One write request. -/
theorem both_io (fuel : ℕ) (buf : Buf) (count offset : ℤ) :
    Coupled (Twin E True (Core A v) l l') Eq (scsiIoInternal P fuel buf count offset true)
      (scsiIoInternal P fuel buf count offset true) := by
  have hrequests : Coupled (Twin E True (Core A v) l l') Eq
      (Prog.update fun w : World δ => { w with requests := w.requests ++ [⟨buf, count, offset, true⟩] })
      (Prog.update fun w : World δ => { w with requests := w.requests ++ [⟨buf, count, offset, true⟩] }) :=
    fun w w' hT => ⟨rfl, ⟨hT.linked.usb, hT.linked.sync, hT.linked.dev, hT.linked.trace⟩, hT.related⟩
  refine hrequests.seq fun _ => both_globals.bind fun g g' hg => ?_
  rw [← hg.1.size, ← hg.1.offset]
  have hpass : ∀ (actual : ℤ) (b : Buf) (done : ℕ), Coupled (Twin E True (Core A v) l l') Eq
      (ioPass P true count actual b done) (ioPass P true count actual b done) := by
    intro actual b done
    refine both_globals.bind fun g g' hg => ?_
    rw [← hg.1.size]
    refine Coupled.ite Iff.rfl (fun h => absurd h (by decide)) fun _ => ?_
    exact Coupled.ite Iff.rfl (fun _ => both_cachePass hP hA _ _ _ _) fun _ => both_modifyPass hP _ _ _ _ _
  refine Coupled.loop (V := Eq) ?_ fuel _ _ rfl
  rintro ⟨done, b⟩ _ rfl
  rw [ioLoop]
  refine Coupled.ite Iff.rfl (fun _ => ?_) fun _ => Coupled.pure (.inr rfl)
  refine (hpass _ b done).seq fun r => ?_
  cases r with
  | none => exact Coupled.pure (.inr rfl)
  | some r => exact Coupled.pure (.inl rfl)

omit hA in
theorem both_usbScsiSync : Coupled (Twin E True (Core A v) l l') Eq (usbScsiSync P) (usbScsiSync P) :=
  (both_flush hP).seq fun _ => both_syncCache hP (core_local A v) trivial

end Passes

end FormatStick
