import FormatStick.Keeps
import FormatStick.Session

/-!
# What a session keeps

A session does everything through a few operations of the driver: direct WRITE(10)s,
one READ(10) of the MBR, SYNCHRONIZE CACHE, the flush and the cached I/O. A property of
the process that these keep is kept by the whole session after `usb_scsi_init`. This
is about any platform, whatever its devices answer.
-/
namespace FormatStick
open Splice Prog

variable {δ : Type}

/-- A SYNCHRONIZE CACHE that was answered with a nonzero status. -/
def Sent.Unsupported (e : Sent) : Prop := e.cmd.opcode = 0x35 ∧ ∃ csw, e.csw = some csw ∧ csw.status ≠ 0

/-- What `scsi_command` does to the process: it skips a SYNCHRONIZE CACHE that is not supported,
and sends any other command. -/
inductive Commanded (c : Cmd) (w : World δ) : World δ → Prop
  | skipped (h : c.opcode = 0x35 ∧ w.drv.gSyncCacheSupported = false) : Commanded c w w
  | sent (t : World δ) (e : Sent) (h : ¬(c.opcode = 0x35 ∧ w.drv.gSyncCacheSupported = false))
      (hcmd : e.cmd = c)
      (htrace : t.trace = w.trace ++ [e])
      (hlogs : t.requests = w.requests ∧ t.accesses = w.accesses)
      (hdrv : ∃ u b, t.drv = { w.drv with usb := u, gSyncCacheSupported := b })
      (hsync : t.drv.gSyncCacheSupported = false ↔ w.drv.gSyncCacheSupported = false ∨ e.Unsupported) :
      Commanded c w t

theorem wp_scsiCommand_commanded (P : Platform δ) {w : World δ} (c : Cmd) (data : Buf) :
    Prog.wp (scsiCommand P c data) (fun _ t => Commanded c w t) (fun _ => False) w := by
  rw [scsiCommand, wp_bind, wp_globals]
  refine wp_ite (fun h => .skipped h) fun hnot => ?_
  rw [wp_bind, wp_transact]
  cases hcsw : (P.exchange w.drv.usb c data w.dev).csw with
  | none =>
    refine .sent _ _ hnot rfl rfl ⟨rfl, rfl⟩ ⟨_, _, rfl⟩ (iff_of_eq (or_iff_left ?_).eq.symm)
    rintro ⟨-, csw, h, -⟩
    cases h
  | some csw =>
    refine wp_ite (fun hok => ?_) fun hbad => wp_ite (fun hop => ?_) fun hop => ?_
    · refine .sent _ _ hnot rfl rfl ⟨rfl, rfl⟩ ⟨_, _, rfl⟩ (iff_of_eq (or_iff_left ?_).eq.symm)
      rintro ⟨-, csw', h, hne⟩
      cases h
      exact hne hok
    · rw [wp_bind, wp_assign]
      exact .sent _ _ hnot rfl rfl ⟨rfl, rfl⟩ ⟨_, _, rfl⟩ (iff_of_true rfl (.inr ⟨hop, csw, rfl, hbad⟩))
    · rw [wp_bind, wp_sense]
      refine .sent _ _ hnot rfl rfl ⟨rfl, rfl⟩ ⟨_, _, rfl⟩ (iff_of_eq (or_iff_left ?_).eq.symm)
      exact fun h => hop h.1

/-- A property that commands keep, by what `scsi_command` does. -/
theorem keeps_of_commanded {P : Platform δ} {I : World δ → Prop} {c : Cmd}
    (h : ∀ w t, I w → Commanded c w t → I t)
    (data : Buf) : Keeps I (scsiCommand P c data) := fun w hw =>
  wp_state (wp_mono (wp_scsiCommand_commanded P c data) (fun _ t ht => h w t hw ht) fun _ hf => hf.elim)

/-- The operations below the cached I/O keep `I`. -/
structure Direct (P : Platform δ) (I : World δ → Prop) : Prop where
  write : ∀ lba blocks data, 1 ≤ blocks → blocks ≤ 128 → Keeps I (write10 P lba blocks data (blocks * 512))
  readMbr : Keeps I (read10 P 0 1 zeros 512)
  syncCache : Keeps I (syncCache P)
  flush : Keeps I (scsiFlushCacheInternal P)
  malloc : Keeps I (malloc P)
  rand : Keeps I (rand P)

/-- So do the write requests, which are all that a FAT session needs besides the setters. -/
structure Writing (P : Platform δ) (I : World δ → Prop) : Prop extends Direct P I where
  ioWrite : ∀ fuel buf count offset, Keeps I (scsiIoInternal P fuel buf count offset true)

/-- The operations that a session is made of keep `I`. -/
structure Stable (P : Platform δ) (I : World δ → Prop) : Prop extends Writing P I where
  ioRead : ∀ fuel buf count offset, Keeps I (scsiIoInternal P fuel buf count offset false)
  offset : ∀ sectors, Keeps I (usbScsiSetPartitionOffset sectors)
  size : ∀ sectors, Keeps I (usbScsiSetPartitionSize sectors)
  type : ∀ type, Keeps I (usbScsiSetPartitionType type)

theorem keeps_globals {I : World δ → Prop} : Keeps I (globals : Prog (World δ) Driver) :=
  keeps_read.bind fun _ => keeps_pure _

section Requests

variable {P : Platform δ} {I : World δ → Prop}

theorem keeps_wipeChunks (fuel : ℕ) (offsets : List ℕ)
    (h : ∀ o ∈ offsets, Keeps I (scsiIoInternal P fuel zeros 262144 o true)) :
      Keeps I (wipeChunks P fuel offsets) := by
  induction offsets with
  | nil => exact keeps_pure _
  | cons o offsets ih =>
    have ho := h o List.mem_cons_self
    have hrest := ih fun o' ho' => h o' (List.mem_cons_of_mem _ ho')
    exact ho.bind fun _ => Keeps.ite hrest (ho.bind fun _ => Keeps.ite hrest (keeps_pure _))

/-- Buffers of which the FAT formatter writes nothing else but a boot sector. -/
structure FatBuffers (B : Buf → Prop) : Prop where
  zero : B zeros
  info : B fatFsInfo
  first : ∀ fatType, B (fatFirstChunk fatType)

variable {B : Buf → Prop} (hB : FatBuffers B)
  (hwrite : ∀ fuel buf count offset, B buf → 0 ≤ offset →
    Keeps I (scsiIoInternal P fuel buf count offset true))
include hB hwrite

theorem keeps_zeroChunks (fuel base size i : ℕ) : Keeps I (zeroChunks P fuel base size i) := by
  refine Keeps.loop (fun i => Keeps.ite ?_ (keeps_pure _)) fuel i
  exact (hwrite _ _ _ _ hB.zero (Int.natCast_nonneg _)).bind fun _ => keeps_pure _

theorem keeps_writeFatTable (fuel : ℕ) (fatType : ℤ) (fatSize f : ℕ) :
    Keeps I (writeFatTable P fuel fatType fatSize f) :=
  (hwrite _ _ _ _ (hB.first fatType) (Int.natCast_nonneg _)).bind fun _ =>
    keeps_zeroChunks hB hwrite fuel _ _ _

theorem keeps_writeFatTables (fuel : ℕ) (fatType : ℤ) (fatSize : ℕ) {bs : Buf} (hbs : B bs) :
    Keeps I (writeFatTables P fuel fatType fatSize bs) := by
  have htable := keeps_writeFatTable hB hwrite fuel fatType fatSize
  refine Keeps.ite ?_ ?_
  · refine (hwrite _ _ _ _ hbs (by decide)).bind fun _ =>
      (hwrite _ _ _ _ hB.info (by decide)).bind fun _ => ?_
    exact (htable 0).bind fun _ => htable 1
  · exact (htable 0).bind fun _ => (htable 1).bind fun _ => keeps_zeroChunks hB hwrite fuel _ _ _

theorem keeps_writeFat (fuel : ℕ) (fatType : ℤ) (fatSize : ℕ) {bs : Buf} (hbs : B bs) :
    Keeps I (writeFat P fuel fatType fatSize bs) := by
  refine (hwrite _ _ _ _ hbs (Int.le_refl 0)).bind fun _ => Keeps.ite (keeps_pure _) ?_
  exact (keeps_writeFatTables hB hwrite fuel _ _ hbs).bind fun _ => keeps_pure _

omit hB hwrite in
/-- Nothing is asked of them where any write will do. -/
theorem fatBuffers_any : FatBuffers fun _ => True := ⟨trivial, trivial, fun _ => trivial⟩

end Requests

theorem keeps_engine {P : Platform δ} {I : World δ → Prop} {fuel : ℕ}
    (hread : ∀ buf count offset, Keeps I (scsiIoInternal P fuel buf count offset false))
    (hwrite : ∀ buf count offset, Keeps I (scsiIoInternal P fuel buf count offset true))
    (hsync : Keeps I (usbScsiSync P)) (e : Engine) : Keeps I (e.run P fuel) := by
  induction e with
  | done r => exact keeps_pure r
  | pread buf count offset next ih => exact (hread _ _ _).bind ih
  | pwrite buf count offset next ih => exact ((hwrite _ _ _).bind fun _ => keeps_pure _).bind ih
  | sync next ih => exact hsync.bind ih

namespace Direct

variable {P : Platform δ} {I : World δ → Prop} (hI : Direct P I)
include hI

theorem and {J : World δ → Prop} (hJ : Direct P J) : Direct P fun w => I w ∧ J w where
  write lba blocks data h₁ h₂ := (hI.write lba blocks data h₁ h₂).and (hJ.write lba blocks data h₁ h₂)
  readMbr := hI.readMbr.and hJ.readMbr
  syncCache := hI.syncCache.and hJ.syncCache
  flush := hI.flush.and hJ.flush
  malloc := hI.malloc.and hJ.malloc
  rand := hI.rand.and hJ.rand

theorem usbScsiSync : Keeps I (usbScsiSync P) := hI.flush.bind fun _ => hI.syncCache

theorem writeEach {blocks : ℕ} (h₁ : 1 ≤ blocks) (h₂ : blocks ≤ 128) (ws : List (ℕ × Buf)) :
    Keeps I (writeEach P blocks ws) := by
  induction ws with
  | nil => exact keeps_pure _
  | cons x ws ih => exact (hI.write x.1 blocks x.2 h₁ h₂).bind fun _ => Keeps.ite (keeps_pure _) ih

theorem sector (lba : ℕ) (data : Buf) : Keeps I (write10 P lba 1 data 512) :=
  hI.write lba 1 data (Nat.le_refl _) (by decide)

theorem sectors (ws : List (ℕ × Buf)) : Keeps I (FormatStick.writeEach P 1 ws) :=
  hI.writeEach (Nat.le_refl _) (by decide) ws

theorem randBytes (n : ℕ) : Keeps I (randBytes P n) := by
  induction n with
  | zero =>
    rw [randBytes_zero]
    exact keeps_pure _
  | succ n ih =>
    rw [randBytes_succ]
    exact hI.rand.bind fun _ => ih.bind fun _ => keeps_pure _

theorem usbScsiWipeTail : Keeps I (usbScsiWipeTail P) :=
  keeps_globals.bind fun _ => (hI.sectors _).bind fun _ => hI.syncCache.bind fun _ => keeps_pure _

theorem usbScsiWipeMbr : Keeps I (usbScsiWipeMbr P) := by
  refine hI.malloc.bind fun _ => Keeps.ite keeps_cut ?_
  exact (hI.writeEach (by decide) (Nat.le_refl _) _).bind fun _ => hI.syncCache.bind fun _ => keeps_pure _

theorem usbScsiWriteMbr (part : ℕ) (type : UInt8) : Keeps I (usbScsiWriteMbr P part type) := by
  refine keeps_globals.bind fun g => (hI.sector _ _).bind fun _ => Keeps.ite (keeps_pure _) ?_
  exact hI.syncCache.bind fun _ => keeps_pure _

theorem updateMbrType (type : UInt8) : Keeps I (updateMbrType P type) := by
  refine hI.readMbr.bind fun r => Keeps.ite (keeps_pure _) (Keeps.ite ?_ (keeps_pure _))
  exact (hI.sector _ _).bind fun _ => keeps_pure _

theorem writeGptSectors (n : ℕ) (entries header : Buf) : Keeps I (writeGptSectors P n entries header) := by
  refine (hI.sector _ _).bind fun _ => Keeps.ite (keeps_pure _) ?_
  refine (hI.sectors _).bind fun _ => Keeps.ite (keeps_pure _) ?_
  exact (hI.sectors _).bind fun _ => (hI.sector _ _).bind fun _ => hI.syncCache.bind fun _ => keeps_pure _

theorem usbScsiWriteGpt (part : ℕ) (fsType : ℤ) : Keeps I (usbScsiWriteGpt P part fsType) := by
  refine keeps_globals.bind fun g => (hI.randBytes _).bind fun _ => ?_
  refine (hI.sector _ _).bind fun _ => Keeps.ite (keeps_pure _) ?_
  exact (hI.randBytes _).bind fun _ => (hI.randBytes _).bind fun _ => hI.writeGptSectors _ _ _

theorem createPartition (hoffset : ∀ sectors, Keeps I (usbScsiSetPartitionOffset sectors))
    (hsize : ∀ sectors, Keeps I (usbScsiSetPartitionSize sectors)) (partitionType fsType : ℤ) (part : ℕ) :
    Keeps I (createPartition P partitionType fsType part) := by
  refine Keeps.ite ?_ (Keeps.ite ?_ ?_)
  · exact (hI.usbScsiWriteMbr _ _).bind fun _ => (hoffset 4096).bind fun _ => hsize part
  · exact (hI.usbScsiWriteGpt _ _).bind fun _ => (hoffset 4096).bind fun _ => hsize part
  · exact (hoffset 0).bind fun _ => hsize part

theorem usbScsiWipePartitionHead (fuel : ℕ) (fsType : ℤ)
    (hio : ∀ i < wipeSize fsType / 262144,
      Keeps I (scsiIoInternal P fuel zeros 262144 (i * 262144 : ℕ) true)) :
    Keeps I (usbScsiWipePartitionHead P fuel fsType) := by
  refine hI.malloc.bind fun _ => Keeps.ite (keeps_pure _) ?_
  refine (keeps_wipeChunks fuel _ fun o ho => ?_).bind fun _ => hI.usbScsiSync.bind fun _ => keeps_pure _
  obtain ⟨i, hi, rfl⟩ := List.mem_map.mp ho
  exact hio i (List.mem_range.mp hi)

end Direct

namespace Writing

variable {P : Platform δ} {I : World δ → Prop} (hI : Writing P I)
include hI

theorem wipeHead (fuel : ℕ) (fsType : ℤ) : Keeps I (usbScsiWipePartitionHead P fuel fsType) :=
  hI.usbScsiWipePartitionHead fuel fsType fun _ _ => hI.ioWrite _ _ _ _

theorem usbScsiFormatFat (fuel : ℕ) (fatType : ℤ) (clusterSize : ℕ) (label : List UInt8) :
    Keeps I (usbScsiFormatFat P fuel fatType clusterSize label) := by
  refine keeps_globals.bind fun g => Keeps.ite (keeps_pure _) (hI.rand.bind fun _ => ?_)
  refine Keeps.bind (Keeps.ite (hI.updateMbrType _) (keeps_pure _)) fun _ => ?_
  exact keeps_writeFat fatBuffers_any (fun _ _ _ _ _ _ => hI.ioWrite _ _ _ _) fuel _ _ trivial

end Writing

namespace Stable

variable {P : Platform δ} {I : World δ → Prop} (hI : Stable P I)
include hI

theorem engine (fuel : ℕ) (e : Engine) : Keeps I (e.run P fuel) :=
  keeps_engine (hI.ioRead fuel) (hI.ioWrite fuel) hI.usbScsiSync e

theorem formatStage (fuel : ℕ) {engine : ℕ → Prog (World δ) ℤ} (he : ∀ part, Keeps I (engine part))
    (clusterSize fsType : ℤ) (part : ℕ) : Keeps I (formatStage P fuel engine clusterSize fsType part) := by
  refine Keeps.ite ?_ (Keeps.ite (he part) (Keeps.ite ?_ (hI.usbScsiFormatFat fuel _ _ _)))
  · exact (he part).bind fun _ => hI.usbScsiSync.bind fun _ => keeps_pure _
  · exact hI.usbScsiSync.bind fun _ => (he part).bind fun _ => hI.usbScsiSync.bind fun _ => keeps_pure _

end Stable

section Commands

variable {P : Platform δ} {I : World δ → Prop}

theorem keeps_ioPass {isWrite : Bool}
    (hread : isWrite = false → ∀ buf totalDone lba offsetInSector remaining,
      Keeps I (readPass P buf totalDone lba offsetInSector remaining))
    (hcache : isWrite ≠ false → ∀ buf totalDone lba remaining,
      Keeps I (cachePass P buf totalDone lba remaining))
    (hmodify : isWrite ≠ false → ∀ buf totalDone lba offsetInSector remaining,
      Keeps I (modifyPass P buf totalDone lba offsetInSector remaining)) (count actual : ℤ) (buf : Buf)
        (totalDone : ℕ) :
    Keeps I (ioPass P isWrite count actual buf totalDone) := by
  refine keeps_globals.bind fun g => ?_
  split_ifs with hdirection
  · exact hread hdirection _ _ _ _ _
  · exact Keeps.ite (hcache hdirection _ _ _ _) (hmodify hdirection _ _ _ _ _)

/-- A request from its place in the log on. -/
def transfer (P : Platform δ) (fuel : ℕ) (buf : Buf) (count offset : ℤ) (isWrite : Bool) :
    Prog (World δ) (ℤ × Buf) := do
  let g ← globals
  Prog.loop (ioLoop P isWrite count (offset + i64 (u64 (g.gDriveOffsetSectors * g.gSectorSize))))
    fuel (0, buf)

/-- What every pass of the transfer loop keeps, the loop keeps. -/
theorem keeps_transfer {isWrite : Bool}
    (hpass : ∀ count actual buf totalDone, Keeps I (ioPass P isWrite count actual buf totalDone))
    (fuel : ℕ) (buf : Buf) (count offset : ℤ) : Keeps I (transfer P fuel buf count offset isWrite) := by
  refine keeps_globals.bind fun g => Keeps.loop ?_ fuel _
  rintro ⟨done, b⟩
  rw [ioLoop]
  refine Keeps.ite ((hpass _ _ b done).bind fun r => ?_) (keeps_pure _)
  cases r with
  | none => exact keeps_pure _
  | some r => exact keeps_pure _

theorem keeps_io {fuel : ℕ} {buf : Buf} {count offset : ℤ} {isWrite : Bool}
    (hrequests : ∀ w rs, I w → I { w with requests := rs })
    (htransfer : Keeps I (transfer P fuel buf count offset isWrite)) :
    Keeps I (scsiIoInternal P fuel buf count offset isWrite) :=
  Keeps.bind (fun w hw => hrequests w _ hw) fun _ => htransfer

/-- A flush sends a command and empties the cache. -/
theorem keeps_flush (hcommand : ∀ c data, Keeps I (scsiCommand P c data))
    (haccess : ∀ len, Keeps I (access .gWriteCache 0 len id))
    (hempty : Keeps I (assign fun g => { g with gCacheSectors := 0 })) :
      Keeps I (scsiFlushCacheInternal P) := by
  refine keeps_globals.bind fun g => ?_
  split
  · exact keeps_pure _
  · rename_i cache _
    have hwrite : Keeps I (writeCache P g.gCacheLba g.gCacheSectors cache
        (u32 (g.gCacheSectors * g.gSectorSize))) :=
      ((hcommand _ _).bind fun _ => keeps_pure _).bind fun _ => (haccess _).bind fun _ => keeps_pure _
    exact Keeps.ite (keeps_pure _) (hwrite.bind fun _ => hempty.bind fun _ => keeps_pure _)

/-- A run of whole sectors fills the cache up to its bound. -/
theorem keeps_cachePass (hflush : Keeps I (scsiFlushCacheInternal P)) (hmalloc : Keeps I (malloc P))
    (hcache : ∀ w c z l as, I w →
      I { w with
        drv := { w.drv with gWriteCache := c, gWriteCacheSize := z, gCacheLba := l }
        accesses := as })
    (hfill : ∀ w n, I w → n ≤ kMaxCacheSectors → I { w with drv := { w.drv with gCacheSectors := n } })
    (buf : Buf) (totalDone lba remaining : ℕ) : Keeps I (cachePass P buf totalDone lba remaining) := by
  have hcopy : ∀ start src len, Keeps I (copyToCache start src len : Prog (World δ) Unit) :=
    fun _ _ _ => keeps_update fun t ht => hcache t _ t.drv.gWriteCacheSize t.drv.gCacheLba _ ht
  have hallocate : Keeps I (allocateCache P) := by
    refine keeps_globals.bind fun g =>
      Keeps.ite (keeps_pure _) (hmalloc.bind fun _ => Keeps.ite (keeps_pure _) ?_)
    exact Keeps.bind (keeps_update fun t ht => hcache t _ _ t.drv.gCacheLba t.accesses ht)
      fun _ => keeps_pure _
  intro w hw
  refine wp_state ?_
  rw [cachePass, wp_bind, wp_globals]
  refine wp_ite (fun hadd => ?_) fun _ => ?_
  · rw [wp_bind, copyToCache, wp_access]
    exact hfill _ _ (hcopy _ _ _ w hw) hadd.2.2
  · refine Keeps.wp (hflush.bind fun _ => hallocate.bind fun _ => Keeps.ite (keeps_pure _) ?_) hw
    refine Keeps.bind (keeps_update fun t ht => ?_) fun _ => (hcopy _ _ _).bind fun _ => ?_
    · exact hcache t t.drv.gWriteCache t.drv.gWriteCacheSize _ t.accesses ht
    · refine Keeps.bind (keeps_update fun t ht => hfill t _ ht ?_) fun _ => keeps_pure _
      unfold kMaxCacheSectors
      split_ifs
      · exact Nat.le_refl _
      · omega

section Bounced

variable {J : World δ → Prop} (hflush : ∀ w, I w → Prog.wp (scsiFlushCacheInternal P) (fun _ t => J t) I w)
  (hread : ∀ lba blocks data len, Keeps J (read10 P lba blocks data len))
  (hwrite : ∀ lba blocks data len, Keeps J (write10 P lba blocks data len))
  (hbounce : ∀ start len (f : Driver → Driver), (∀ g, ∃ b, f g = { g with gBounceBuffer := b }) →
    Keeps J (access .gBounceBuffer start len f)) (hJ : ∀ w, J w → I w)

include hread hbounce in
theorem keeps_readBounce (lba blocks len : ℕ) : Keeps J (readBounce P lba blocks len) := by
  refine keeps_globals.bind fun g => (hread _ _ _ _).bind fun r => Keeps.bind ?_ fun _ => keeps_pure _
  exact hbounce _ _ _ fun _ => ⟨_, rfl⟩

include hflush hread hbounce hJ

/-- What a flush reaches, the rest of a pass through the bounce buffer keeps. -/
theorem keeps_readPass (buf : Buf) (totalDone lba offsetInSector remaining : ℕ) :
    Keeps I (readPass P buf totalDone lba offsetInSector remaining) := by
  refine Keeps.bind_into hflush (fun _ => keeps_globals.bind fun g => ?_) hJ
  refine (keeps_readBounce hread hbounce _ _ _).bind fun r => ?_
  refine Keeps.ite (keeps_pure _) (Keeps.bind (Keeps.bind ?_ fun _ => keeps_pure _) fun _ => keeps_pure _)
  exact hbounce _ _ _ fun g => ⟨g.gBounceBuffer, rfl⟩

include hwrite in
theorem keeps_modifyPass (buf : Buf) (totalDone lba offsetInSector remaining : ℕ) :
    Keeps I (modifyPass P buf totalDone lba offsetInSector remaining) := by
  refine Keeps.bind_into hflush (fun _ => keeps_globals.bind fun g => ?_) hJ
  refine (keeps_readBounce hread hbounce _ _ _).bind fun r => ?_
  refine Keeps.ite (keeps_pure _) (Keeps.bind (Keeps.bind ?_ fun _ => keeps_pure _) fun sector => ?_)
  · exact hbounce _ _ _ fun _ => ⟨_, rfl⟩
  · refine Keeps.bind ((hwrite _ _ _ _).bind fun _ => Keeps.bind ?_ fun _ => keeps_pure _) fun _ => ?_
    · exact hbounce _ _ _ fun g => ⟨g.gBounceBuffer, rfl⟩
    · exact Keeps.ite (keeps_pure _) (keeps_pure _)

end Bounced

/-- A property of the process that every command keeps, and everything that is done to the bounce
buffer and the write cache. -/
structure Cached (P : Platform δ) (I : World δ → Prop) : Prop where
  command : ∀ c data, Keeps I (scsiCommand P c data)
  malloc : Keeps I (malloc P)
  rand : Keeps I (rand P)
  bounce : ∀ start len (f : Driver → Driver), (∀ g, ∃ b, f g = { g with gBounceBuffer := b }) →
    Keeps I (access .gBounceBuffer start len f)
  flush : Keeps I (scsiFlushCacheInternal P)
  cachePass : ∀ buf totalDone lba remaining, Keeps I (cachePass P buf totalDone lba remaining)

namespace Cached

variable (hI : Cached P I)
include hI

theorem write10 (lba blocks : ℕ) (data : Buf) (len : ℕ) : Keeps I (write10 P lba blocks data len) :=
  (hI.command _ _).bind fun _ => keeps_pure _

theorem readPass (buf : Buf) (totalDone lba offsetInSector remaining : ℕ) :
    Keeps I (readPass P buf totalDone lba offsetInSector remaining) :=
  keeps_readPass (fun _ hw => hI.flush.wp hw) (fun _ _ _ _ => hI.command _ _) hI.bounce
    (fun _ hw => hw) _ _ _ _ _

theorem modifyPass (buf : Buf) (totalDone lba offsetInSector remaining : ℕ) :
    Keeps I (modifyPass P buf totalDone lba offsetInSector remaining) :=
  keeps_modifyPass (fun _ hw => hI.flush.wp hw) (fun _ _ _ _ => hI.command _ _) hI.write10 hI.bounce
    (fun _ hw => hw) _ _ _ _ _

theorem transfer (fuel : ℕ) (buf : Buf) (count offset : ℤ) (isWrite : Bool) :
    Keeps I (transfer P fuel buf count offset isWrite) :=
  keeps_transfer (keeps_ioPass (fun _ => hI.readPass) (fun _ => hI.cachePass) fun _ => hI.modifyPass) fuel buf
    count offset

theorem direct : Direct P I where
  write lba blocks data _ _ := hI.write10 lba blocks data _
  readMbr := hI.command _ _
  syncCache := (hI.command _ _).bind fun _ => keeps_pure _
  flush := hI.flush
  malloc := hI.malloc
  rand := hI.rand

theorem stable (hrequests : ∀ w rs, I w → I { w with requests := rs })
    (hset : ∀ f : Driver → Driver, (∀ g, ∃ d n ty,
      f g = { g with gDriveOffsetSectors := d, gPartitionSectors := n, gPartitionType := ty }) →
        Keeps I (assign f)) :
    Stable P I where
  toDirect := hI.direct
  ioWrite fuel buf count offset := keeps_io hrequests (hI.transfer fuel buf count offset true)
  ioRead fuel buf count offset := keeps_io hrequests (hI.transfer fuel buf count offset false)
  offset _ := hset _ fun _ => ⟨_, _, _, rfl⟩
  size _ := hset _ fun _ => ⟨_, _, _, rfl⟩
  type _ := hset _ fun _ => ⟨_, _, _, rfl⟩

end Cached

/-- A property that has nothing to do with the bounce buffer and the write cache. -/
theorem cached_of_assign (hcommand : ∀ c data, Keeps I (scsiCommand P c data)) (hmalloc : Keeps I (malloc P))
    (hrand : Keeps I (rand P)) (haccesses : ∀ w as, I w → I { w with accesses := as })
    (hassign : ∀ f : Driver → Driver, (∀ g, ∃ b c z l n, f g = { g with
      gBounceBuffer := b
      gWriteCache := c
      gWriteCacheSize := z
      gCacheLba := l
      gCacheSectors := n }) → Keeps I (assign f)) :
    Cached P I := by
  have hempty : Keeps I (assign fun g => { g with gCacheSectors := 0 }) :=
    hassign _ fun _ => ⟨_, _, _, _, _, rfl⟩
  have hflush := keeps_flush hcommand (fun _ => keeps_update fun w hw => haccesses w _ hw) hempty
  refine ⟨hcommand, hmalloc, hrand, fun start len f hf => keeps_update fun w hw => ?_, hflush, ?_⟩
  · refine haccesses { w with drv := f w.drv } _ (hassign f (fun g => ?_) w hw)
    obtain ⟨b, hb⟩ := hf g
    exact ⟨b, _, _, _, _, hb⟩
  · refine keeps_cachePass hflush hmalloc (fun w c z l as hw => ?_) fun w n hw _ => ?_
    · refine haccesses { w with drv := { w.drv with gWriteCache := c, gWriteCacheSize := z, gCacheLba := l } }
        as ?_
      exact hassign (fun g => { g with gWriteCache := c, gWriteCacheSize := z, gCacheLba := l })
        (fun _ => ⟨_, _, _, _, _, rfl⟩) w hw
    · exact hassign (fun g => { g with gCacheSectors := n }) (fun _ => ⟨_, _, _, _, _, rfl⟩) w hw

/-- The globals that neither a command nor the cached I/O assigns. -/
def Driver.settings (g : Driver) : Driver :=
  { g with
    usb := {}
    gBounceBuffer := fun _ => 0
    gWriteCache := none
    gWriteCacheSize := 0
    gCacheLba := 0
    gCacheSectors := 0
    gSyncCacheSupported := true }

/-- A property of those globals. -/
theorem cached_of_settings (P : Platform δ)
    (h : ∀ w t : World δ, t.drv.settings = w.drv.settings → I w → I t) :
    Cached P I := by
  refine cached_of_assign (fun c data => ?_) (fun w hw => h w _ rfl hw) (fun w hw => h w _ rfl hw)
    (fun w as hw => h w { w with accesses := as } rfl hw) fun f hf w hw => ?_
  · refine keeps_of_commanded (fun w t hw ht => ?_) data
    cases ht with
    | skipped _ => exact hw
    | sent _ e _ _ _ _ hdrv _ =>
      obtain ⟨u, b, hdrv⟩ := hdrv
      exact h w t (by rw [hdrv]; rfl) hw
  · obtain ⟨b, c, z, l, n, hset⟩ := hf w.drv
    exact h w { w with drv := f w.drv } (by rw [hset]; rfl) hw

/-- A property of the requests so far. -/
theorem cached_log (P : Platform δ) (L : List Request → Prop) : Cached P (fun w => L w.requests) := by
  refine cached_of_assign (fun c data => ?_) (fun _ hw => hw) (fun _ hw => hw) (fun _ _ hw => hw)
    fun _ _ _ hw => hw
  refine keeps_of_commanded (fun w t hw ht => ?_) data
  cases ht with
  | skipped _ => exact hw
  | sent _ e _ _ _ hlogs _ _ =>
    rw [hlogs.1]
    exact hw

/-- The assignments of a session after `usb_scsi_init`, but those of the USB state and of the flag
for SYNCHRONIZE CACHE. -/
def Settles (f : Driver → Driver) : Prop :=
  ∀ g, (f g).usb = g.usb ∧ (f g).gSectorCount = g.gSectorCount ∧ (f g).gSectorSize = g.gSectorSize ∧
    (f g).gSyncCacheSupported = g.gSyncCacheSupported

/-- A property that has nothing to do with those either. -/
theorem stable_of_assign (hcommand : ∀ c data, Keeps I (scsiCommand P c data)) (hmalloc : Keeps I (malloc P))
    (hrand : Keeps I (rand P)) (hlogs : ∀ w rs as, I w → I { w with requests := rs, accesses := as })
    (hassign : ∀ f, Settles f → Keeps I (assign f)) : Stable P I := by
  refine (cached_of_assign hcommand hmalloc hrand (fun w as => hlogs w w.requests as)
      fun f hf => hassign f fun g =>
    ?_).stable (fun w rs => hlogs w rs w.accesses) fun f hf => hassign f fun g => ?_
  · obtain ⟨b, c, z, l, n, h⟩ := hf g
    rw [h]
    exact ⟨rfl, rfl, rfl, rfl⟩
  · obtain ⟨d, n, ty, h⟩ := hf g
    rw [h]
    exact ⟨rfl, rfl, rfl, rfl⟩

end Commands

/-- The sector count and size that the driver has. -/
def Geometry (v : ℕ × ℕ) (w : World δ) : Prop := (w.drv.gSectorCount, w.drv.gSectorSize) = v

/-- The geometry is `v`, and what was sent starts with `l`. -/
structure Steady (v : ℕ × ℕ) (l : List Sent) (w : World δ) : Prop where
  geometry : Geometry v w
  sent : l <+: w.trace

theorem steady_command (P : Platform δ) (v : ℕ × ℕ) (l : List Sent) (c : Cmd) (data : Buf) :
    Keeps (Steady v l) (scsiCommand P c data) := by
  refine keeps_of_commanded (fun w t hw ht => ?_) data
  cases ht with
  | skipped _ => exact hw
  | sent _ e _ _ htrace _ hdrv _ =>
    obtain ⟨u, b, hdrv⟩ := hdrv
    refine ⟨?_, hw.sent.trans (htrace ▸ List.prefix_append _ _)⟩
    rw [Geometry, hdrv]
    exact hw.geometry

/-- Only `usb_scsi_init` changes the geometry. -/
theorem steady (P : Platform δ) (v : ℕ × ℕ) (l : List Sent) : Stable P (Steady v l) := by
  refine stable_of_assign (steady_command P v l) ?_ ?_ ?_ ?_
  · exact fun _ hw => ⟨hw.geometry, hw.sent⟩
  · exact fun _ hw => ⟨hw.geometry, hw.sent⟩
  · exact fun _ _ _ hw => ⟨hw.geometry, hw.sent⟩
  · intro f hf w hw
    obtain ⟨-, hcount, hsize, -⟩ := hf w.drv
    refine ⟨Eq.trans ?_ hw.geometry, hw.sent⟩
    exact Prod.ext hcount hsize

end FormatStick
