import FormatStick.Blocks
import FormatStick.Operations

/-!
# The order in which sectors reach the medium

On a faultless stick every stretch of a run keeps one equation: the sectors its
commands wrote, followed by the sectors it leaves in the cache, are the sectors
that were cached before, followed by the images it accepted. The equation composes
along a run, so the medium always holds a prefix of what was accepted.
-/
namespace FormatStick
open Splice WriteBack

/-- The images in the write cache: consecutive sectors from `g_cache_lba` on. -/
def Driver.cached (g : Driver) : List (Write UInt8) :=
  blocks 512 (g.gWriteCache.getD zeros) g.gCacheLba g.gCacheSectors

/-- The images that a command puts on the medium. -/
def Sent.written (e : Sent) : List (Write UInt8) :=
  if e.cmd.opcode = 0x2a then blocks 512 e.data e.cmd.lba e.cmd.blocks else []

/-- The images in the write cache while a command is sent: with sectors in the cache the
driver sends nothing but the command that carries them. -/
def Sent.cached (e : Sent) : List (Write UInt8) := blocks 512 e.data e.cmd.lba e.cacheSectors

/-- The stick after a list of commands. -/
def Stick.after (d : Stick) (es : List Sent) : Stick :=
  es.foldl (fun d e => (d.exchange {} e.cmd e.data).dev) d

/-- The stretch of a run from `w` to `t`: it sent the commands `es` and accepted the
images `new`. -/
structure Ordered (w : World Stick) (es : List Sent) (new : List (Write UInt8)) (t : World Stick) : Prop where
  trace : t.trace = w.trace ++ es
  fits : ∀ e ∈ es, e.cmd.Fits 512
  medium : t.dev.medium = writeAll w.dev.medium (es.flatMap Sent.written)
  order : es.flatMap Sent.written ++ t.drv.cached = w.drv.cached ++ new
  moments : ∀ pre e post, es = pre ++ e :: post → e.cacheSectors ≤ 2048 ∧
    (0 < e.cacheSectors → e.written = e.cached) ∧
    ∃ m ≤ new.length, pre.flatMap Sent.written ++ e.cached = w.drv.cached ++ new.take m

theorem Ordered.refl (w : World Stick) : Ordered w [] [] w where
  trace := (List.append_nil _).symm
  fits _ he := absurd he List.not_mem_nil
  medium := rfl
  order := (List.append_nil _).symm
  moments pre e post h := absurd h (by simp)

theorem Ordered.trans {w t u : World Stick} {es es' : List Sent} {new new' : List (Write UInt8)}
    (h : Ordered w es new t) (h' : Ordered t es' new' u) : Ordered w (es ++ es') (new ++ new') u where
  trace := by rw [h'.trace, h.trace, List.append_assoc]
  fits e he := (List.mem_append.mp he).elim (h.fits e) (h'.fits e)
  medium := by rw [h'.medium, h.medium, List.flatMap_append, writeAll_append]
  order := by rw [List.flatMap_append, List.append_assoc, h'.order, ← List.append_assoc, h.order,
    List.append_assoc]
  moments pre e post hsplit := by
    -- a command of the second stretch has all of the first before it
    have hsecond : ∀ mid, pre = es ++ mid → es' = mid ++ e :: post → e.cacheSectors ≤ 2048 ∧
        (0 < e.cacheSectors → e.written = e.cached) ∧
        ∃ m ≤ (new ++ new').length, pre.flatMap Sent.written ++ e.cached = w.drv.cached ++
          (new ++ new').take m := by
      rintro mid rfl hes'
      obtain ⟨hmax, hflush, m, hm, heq⟩ := h'.moments mid e post hes'
      refine ⟨hmax, hflush, new.length + m, by rw [List.length_append]; omega, ?_⟩
      rw [List.flatMap_append, List.append_assoc, heq, ← List.append_assoc, h.order, List.append_assoc,
        List.take_length_add_append]
    rcases List.append_eq_append_iff.mp hsplit with ⟨mid, hpre, hes'⟩ | ⟨mid, hes, hpost⟩
    · exact hsecond mid hpre hes'
    · cases mid with
      | nil =>
        rw [List.append_nil] at hes
        exact hsecond [] (by rw [hes, List.append_nil]) hpost.symm
      | cons e' mid =>
        obtain ⟨rfl, -⟩ := List.cons.inj hpost
        obtain ⟨hmax, hflush, m, hm, heq⟩ := h.moments pre e mid hes
        refine ⟨hmax, hflush, m, by rw [List.length_append]; omega, ?_⟩
        rw [List.take_append_of_le_length hm, heq]

/-- Nothing is sent and nothing accepted as long as the cache and the medium stay. -/
theorem Ordered.of_quiet {w t : World Stick} (htrace : t.trace = w.trace)
    (hmedium : t.dev.medium = w.dev.medium)
    (hcached : t.drv.cached = w.drv.cached) : Ordered w [] [] t where
  trace := by rw [htrace, List.append_nil]
  fits _ he := absurd he List.not_mem_nil
  medium := hmedium
  order := by rw [hcached]; exact (List.append_nil _).symm
  moments pre e post h := absurd h (by simp)

/-- Images are accepted into the cache. -/
theorem Ordered.of_cached {w t : World Stick} {new : List (Write UInt8)} (htrace : t.trace = w.trace)
    (hmedium : t.dev.medium = w.dev.medium) (hcached : t.drv.cached = w.drv.cached ++ new) :
    Ordered w [] new t where
  trace := by rw [htrace, List.append_nil]
  fits _ he := absurd he List.not_mem_nil
  medium := hmedium
  order := hcached
  moments pre e post h := absurd h (by simp)

/-- One command is sent that writes what was cached, or finds the cache empty. -/
theorem Ordered.of_sent {w t : World Stick} {e : Sent} {new : List (Write UInt8)}
    (htrace : t.trace = w.trace ++ [e])
    (hfit : e.cmd.Fits 512) (hmedium : t.dev.medium = writeAll w.dev.medium e.written)
    (horder : e.written ++ t.drv.cached = w.drv.cached ++ new) (hmax : e.cacheSectors ≤ 2048)
    (hflush : 0 < e.cacheSectors → e.written = e.cached) (hcached : e.cached = w.drv.cached) :
    Ordered w [e] new t where
  trace := htrace
  fits x hx := List.mem_singleton.mp hx ▸ hfit
  medium := by simpa using hmedium
  order := by simpa using horder
  moments pre x post h := by
    obtain ⟨rfl, rfl, -⟩ : pre = [] ∧ x = e ∧ post = [] := by
      cases pre with
      | nil => simpa [eq_comm] using h
      | cons y pre => simp at h
    exact ⟨hmax, hflush, 0, Nat.zero_le _, by simpa using hcached⟩

/-- What the store shows is what the medium and the cached images make together. -/
theorem store_view (w : World Stick) : (store w).view = writeAll w.dev.medium w.drv.cached := by
  rw [Driver.cached, writeAll_blocks]
  rfl

/-- The view takes up the images in the order they were accepted in. -/
theorem Ordered.view {w t : World Stick} {es : List Sent} {new : List (Write UInt8)}
    (h : Ordered w es new t) :
    (store t).view = writeAll (store w).view new := by
  rw [store_view, store_view, h.medium, ← writeAll_append, h.order, writeAll_append]

theorem cached_of_empty {g : Driver} (h : g.gCacheSectors = 0) : g.cached = [] := by
  rw [Driver.cached, h, blocks_zero]

theorem Sent.cached_of_empty {e : Sent} (h : e.cacheSectors = 0) : e.cached = [] := by
  rw [Sent.cached, h, blocks_zero]

/-- One READ(10) or WRITE(10) on a faultless stick. -/
structure Executed (w : World Stick) (c : Cmd) (data : Buf) (e : Sent) (t : World Stick) : Prop where
  cached : t.drv.cached = w.drv.cached
  cmd : e.cmd = c
  data : e.data = data
  cacheSectors : e.cacheSectors = w.drv.gCacheSectors
  trace : t.trace = w.trace ++ [e]
  medium : t.dev.medium = writeAll w.dev.medium e.written

theorem Served.executed {w t : World Stick} {c : Cmd} {data : Buf} {r : ℤ × Buf} (h : Served w c data r t)
    (hb : w.dev.spec.blockSize = 512) (hf : Faultless w.dev.spec) (hfit : c.Fits 512) :
      ∃ e, Executed w c data e t := by
  obtain ⟨e, htrace, hcmd, hdata, hfill, -⟩ := h.trace
  obtain ⟨u, hu⟩ := h.drv
  refine ⟨e, by rw [hu]; rfl, hcmd, hdata, hfill, htrace, ?_⟩
  have hok : r.1 = 0 := h.executes (hb ▸ hfit) hf
  obtain ⟨-, -, hm⟩ | ⟨hr, -⟩ := h.outcome
  · rw [hm, Stick.mediumAfter, Sent.written, hcmd, hdata, hb]
    split_ifs with hop
    · rw [writeAll_blocks, hfit (.inr hop)]
    · rfl
  · omega

section Steps

variable {w : World Stick} (hw : Ready w) (hf : Faultless w.dev.spec)
include hw hf

theorem wp_flush_ordered :
    Prog.wp (scsiFlushCacheInternal stick) (fun _ t => FlushDone w t ∧ ∃ es, Ordered w es [] t)
      (fun _ => False) w := by
  refine Prog.wp_with (wp_scsiFlushCacheInternal hw) ?_
  simp only [scsiFlushCacheInternal, Prog.wp_bind, wp_globals]
  cases hc : w.drv.gWriteCache with
  | none => exact ⟨[], Ordered.refl w⟩
  | some cache =>
    refine Prog.wp_ite (fun _ => ⟨[], Ordered.refl w⟩) fun hz => ?_
    have hfill := hw.fill
    have hreach := hw.reach (Nat.pos_of_ne_zero hz)
    have hlen : u32 (w.drv.gCacheSectors * w.drv.gSectorSize) = w.drv.gCacheSectors * 512 := by
      rw [hw.sectorSize, u32_mul (by omega)]
    have hfit := fits_cdb10 0x2a w.drv.gCacheLba 0x00 (show w.drv.gCacheSectors < 2 ^ 16 by omega)
    simp only [hlen, wp_writeCache, write10, Prog.wp_bind, wp_assign, Prog.wp_pure]
    refine Prog.wp_mono (wp_scsiCommand (by rw [opcode_cdb10]; decide) cache) ?_ (fun _ h => h.elim)
    intro r t h
    obtain ⟨e, he⟩ := h.executed hw.blockSize hf hfit
    have hlba : e.cmd.lba = w.drv.gCacheLba := by rw [he.cmd, lba_cdb10 _ _ _ _ (by omega)]
    have hblk : e.cmd.blocks = w.drv.gCacheSectors := by rw [he.cmd, blocks_cdb10 _ _ _ _ (by omega)]
    have hcached : e.cached = w.drv.cached := by
      rw [Sent.cached, Driver.cached, hc, he.data, hlba, he.cacheSectors]
      rfl
    have hwritten : e.written = e.cached := by
      rw [Sent.written, he.cmd, if_pos (opcode_cdb10 ..), ← he.cmd, hblk, Sent.cached, he.cacheSectors]
    refine ⟨[e], .of_sent he.trace (he.cmd ▸ hfit) he.medium ?_ (he.cacheSectors ▸ hfill) (fun _ => hwritten)
      hcached⟩
    rw [cached_of_empty rfl, hwritten, hcached]

/-- A read with an empty cache. -/
theorem wp_read10_ordered (hempty : w.drv.gCacheSectors = 0) {lba blocks : ℕ} (hl : lba < 4294967296)
    (hb : blocks < 2 ^ 16) (data : Buf) :
    Prog.wp (read10 stick lba blocks data (blocks * 512))
      (fun r t => ReadDone w lba blocks data r t ∧ ∃ e, Ordered w [e] [] t) (fun _ => False) w := by
  refine Prog.wp_with (wp_read10 hw hl hb data) ?_
  have hfit := fits_cdb10 0x28 lba 0x80 hb
  refine Prog.wp_mono (wp_scsiCommand (by rw [opcode_cdb10]; decide) data) ?_ (fun _ h => h.elim)
  intro r t h
  obtain ⟨e, he⟩ := h.executed hw.blockSize hf hfit
  have hfill : e.cacheSectors = 0 := he.cacheSectors.trans hempty
  have hwritten : e.written = [] := by
    rw [Sent.written, he.cmd, if_neg (by rw [opcode_cdb10]; decide)]
  refine ⟨e, .of_sent he.trace (he.cmd ▸ hfit) he.medium ?_ (by omega) (fun h => by omega) ?_⟩
  · rw [hwritten, he.cached, List.append_nil, List.nil_append]
  · rw [Sent.cached_of_empty hfill, cached_of_empty hempty]

/-- A write of one sector with an empty cache. -/
theorem wp_write10_ordered (hempty : w.drv.gCacheSectors = 0) {lba : ℕ} (hl : lba < 4294967296) (data : Buf) :
    Prog.wp (write10 stick lba 1 data (1 * 512))
      (fun r t => WriteDone w lba 1 data r t ∧ ∃ e, Ordered w [e] (blocks 512 data lba 1) t)
        (fun _ => False) w := by
  refine Prog.wp_with (wp_write10 hw hl (show 1 < 2 ^ 16 by decide) data) ?_
  have hfit := fits_cdb10 0x2a lba 0x00 (show 1 < 2 ^ 16 by decide)
  rw [write10, Prog.wp_bind]
  refine Prog.wp_mono (wp_scsiCommand (by rw [opcode_cdb10]; decide) data) ?_ (fun _ h => h.elim)
  intro r t h
  obtain ⟨e, he⟩ := h.executed hw.blockSize hf hfit
  have hfill : e.cacheSectors = 0 := he.cacheSectors.trans hempty
  have hwritten : e.written = blocks 512 data lba 1 := by
    rw [Sent.written, he.cmd, if_pos (opcode_cdb10 ..), lba_cdb10 _ _ _ _ hl,
      blocks_cdb10 _ _ _ _ (show 1 < 2 ^ 16 by decide), he.data]
  refine ⟨e, .of_sent he.trace (he.cmd ▸ hfit) he.medium ?_ (by omega) (fun h => by omega) ?_⟩
  · rw [hwritten, he.cached, cached_of_empty hempty, List.append_nil, List.nil_append]
  · rw [Sent.cached_of_empty hfill, cached_of_empty hempty]

/-- Whole sectors behind the cached run, or in place of a flushed one. -/
theorem wp_cachePass_ordered (buf : Buf) (done lba : ℕ) {rem : ℕ} (h512 : 512 ≤ rem) :
    Prog.wp (cachePass stick buf done lba rem)
      (fun r t => ∃ n es, r = some (n * 512, buf) ∧ n * 512 ≤ rem ∧
        Ordered w es (blocks 512 (window buf done) lba n) t) (fun _ => False) w := by
  obtain ⟨sectors, hsec⟩ : ∃ n, n = if rem / 512 > 2048 then 2048 else rem / 512 := ⟨_, rfl⟩
  obtain ⟨hpos, hmax, hle⟩ := sectors_bounds h512 hsec
  have hfill := hw.fill
  simp only [cachePass, Prog.wp_bind, wp_globals, hw.sectorSize, ← hsec,
    u32_mul (show sectors * 512 < 4294967296 by omega)]
  refine Prog.wp_ite ?_ ?_
  · rintro ⟨hpos', hadj, hroom⟩
    obtain ⟨cache, hc⟩ := Option.isSome_iff_exists.mp (hw.allocated hpos')
    have hr := hw.reach hpos'
    rw [u64_add (by omega)] at hadj
    have hlen : u32 (w.drv.gCacheSectors * (512 : ℕ)) = w.drv.gCacheSectors * 512 := u32_mul (by omega)
    simp only [Prog.wp_bind, wp_copyToCache, wp_assign, Prog.wp_pure, hc, Option.map_some,
      u32_add (show w.drv.gCacheSectors + sectors < 4294967296 by omega), hlen]
    refine ⟨sectors, [], rfl, hle, .of_cached rfl rfl ?_⟩
    -- the run grows at its end
    rw [Driver.cached, Driver.cached, hc, hadj, blocks_append]
    congr 1
    · exact blocks_congr fun i hi => splice_of_lt hi
    · exact blocks_congr fun i hi => splice_at hi
  · intro _
    simp only [Prog.wp_bind]
    refine Prog.wp_mono (wp_flush_ordered hw hf) ?_ (fun _ h => h)
    rintro _ t ⟨h, es, hes⟩
    have hstage : ∀ u : World Stick, u.trace = t.trace → u.dev.medium = t.dev.medium →
        u.drv.cached = blocks 512 (window buf done) lba sectors →
        Ordered w es (blocks 512 (window buf done) lba sectors) u := by
      intro u htrace hmedium hcached
      have hnew : u.drv.cached = t.drv.cached ++ blocks 512 (window buf done) lba sectors := by
        rw [hcached, cached_of_empty h.empty, List.nil_append]
      simpa using hes.trans (.of_cached htrace hmedium hnew)
    have hcopied : ∀ cache, blocks 512 (splice cache 0 (window buf done) (sectors * 512)) lba sectors =
        blocks 512 (window buf done) lba sectors := fun cache => blocks_congr fun i hi => by
      rw [splice_of_mem (Nat.zero_le i) (by omega), Nat.sub_zero]
    simp only [allocateCache, Prog.wp_bind, wp_globals]
    cases hc : t.drv.gWriteCache with
    | some cache =>
      simp only [Option.isSome_some, if_true, Prog.wp_pure, Bool.true_eq_false, if_false, Prog.wp_bind,
        wp_copyToCache, wp_assign, hc, Option.map_some]
      exact ⟨sectors, es, rfl, hle, hstage _ rfl rfl (hcopied _)⟩
    | none =>
      have hyes : t.dev.spec.heap t.dev.mallocs = true := h.frame.spec ▸ hf.heap _
      simp only [Option.isSome_none, Bool.false_eq_true, if_false, wp_malloc, stick, hyes, Bool.true_eq_false,
        Prog.wp_bind, wp_assign, wp_copyToCache, Prog.wp_pure, Option.map_some]
      exact ⟨sectors, es, rfl, hle, hstage _ rfl rfl (hcopied _)⟩

/-- Part of a sector: its merged content is written before the pass ends. -/
theorem wp_modifyPass_ordered (buf : Buf) (done lba off : ℕ) {rem : ℕ} (hl : lba < 4294967296)
    (hoff : off < 512) (hrem : 0 < rem) :
    Prog.wp (modifyPass stick buf done lba off rem)
      (fun r t => ∃ k es, r = some (k, buf) ∧ k ≤ rem ∧ (k = rem ∨ off + k = 512) ∧
        Ordered w es (images 512 (store w).view (lba * 512 + off) (window buf done) k) t)
          (fun _ => False) w := by
  simp only [modifyPass, Prog.wp_bind, wp_globals]
  refine Prog.wp_mono (wp_flush_ordered hw hf) ?_ (fun _ h => h)
  rintro _ t ⟨h, es, hes⟩
  have hrest : u32 (((512 : ℕ) : ℤ) - off) = 512 - off := by
    unfold u32
    omega
  obtain ⟨n, hn⟩ : ∃ n, n = if 512 - off < rem then 512 - off else rem := ⟨_, rfl⟩
  have hbounds : 0 < n ∧ n ≤ rem ∧ off + n ≤ 512 ∧ (n = rem ∨ off + n = 512) := by split_ifs at hn <;> omega
  obtain ⟨hpos, hle, hin, hend⟩ := hbounds
  have hft : Faultless t.dev.spec := h.frame.spec ▸ hf
  simp only [h.ready.sectorSize, hrest, ← hn]
  rw [wp_readBounce]
  refine Prog.wp_mono (wp_read10_ordered h.ready hft h.empty hl (show 1 < 2 ^ 16 by decide) _) ?_
    (fun _ h => h)
  rintro r u ⟨hr, e, he⟩
  obtain ⟨g, hg⟩ := hr.drv
  have hok : r.1 = 0 := hr.executes hft
  have hdata : r.2 = splice t.drv.gBounceBuffer 0 (window t.dev.medium (lba * 512)) (1 * 512) := by
    obtain ⟨-, hd⟩ | hd := hr.result
    · exact hd
    · omega
  have hempty : u.drv.gCacheSectors = 0 := by
    rw [hg]
    exact h.empty
  simp only [hok, ne_eq, not_true_eq_false, if_false, Prog.wp_bind, wp_copyToBounce, wp_writeBounce]
  obtain ⟨sector, hsector⟩ : ∃ b, b = splice r.2 off (window buf done) n := ⟨_, rfl⟩
  rw [← hsector]
  have hfu : ∀ as, Faultless (bounced u sector as).dev.spec := fun _ => hr.frame.spec ▸ hft
  refine Prog.wp_mono (wp_write10_ordered (hr.ready.bounced sector _) (hfu _) hempty hl sector) ?_
    (fun _ h => h)
  rintro res v ⟨hv, e', he'⟩
  have hdone : res = 0 := hv.executes (hfu _)
  simp only [hdone, not_true_eq_false, if_false, Prog.wp_pure]
  have hview : (store w).view = t.dev.medium := by
    have := hes.view
    rw [writeAll_nil, Store.view_of_empty h.settled.size_eq] at this
    exact this.symm
  have himages : images 512 (store w).view (lba * 512 + off) (window buf done) n =
      blocks 512 sector lba 1 := by
    rw [images_within (by decide) _ _ hpos (by omega), show (lba * 512 + off) / 512 = lba by omega]
    refine blocks_congr fun i hi => ?_
    rw [hview, hsector, hdata, window_apply]
    simp only [splice, window_apply, Nat.zero_le, Nat.zero_add, hi, Nat.sub_zero, and_self, if_true]
    split_ifs <;> first | rfl | omega | (congr 1; omega)
  have hstretch := (hes.trans he).trans ((Ordered.of_quiet (w := u)
    (t := bounced u sector _) rfl rfl rfl).trans he')
  rw [List.append_nil, List.nil_append, List.nil_append, ← himages] at hstretch
  exact ⟨n, _, rfl, hle, hend, hstretch.trace, hstretch.fits, hstretch.medium, hstretch.order,
    hstretch.moments⟩

theorem wp_readPass_ordered (buf : Buf) (done lba off rem : ℕ) (hl : lba < 4294967296) :
    Prog.wp (readPass stick buf done lba off rem) (fun _ t => ∃ es, Ordered w es [] t)
      (fun _ => False) w := by
  simp only [readPass, Prog.wp_bind, wp_globals]
  refine Prog.wp_mono (wp_flush_ordered hw hf) ?_ (fun _ h => h)
  rintro _ t ⟨h, es, hes⟩
  obtain ⟨sectors, hsec⟩ : ∃ n, n = if u32 ((rem : ℤ) + off + (512 : ℕ) - 1) / 512 > 2048 then 2048
      else u32 ((rem : ℤ) + off + (512 : ℕ) - 1) / 512 := ⟨_, rfl⟩
  have hmax : sectors ≤ 2048 := by split_ifs at hsec <;> omega
  have hft : Faultless t.dev.spec := h.frame.spec ▸ hf
  simp only [h.ready.sectorSize, ← hsec, u32_mul (show sectors * 512 < 4294967296 by omega)]
  rw [wp_readBounce]
  refine Prog.wp_mono (wp_read10_ordered h.ready hft h.empty hl (by omega) _) ?_ (fun _ h => h)
  rintro r u ⟨hr, e, he⟩
  have hok : r.1 = 0 := hr.executes hft
  simp only [hok, ne_eq, not_true_eq_false, if_false, Prog.wp_bind, wp_copyFromBounce, Prog.wp_pure]
  exact ⟨_, (hes.trans he).trans (.of_quiet rfl rfl rfl)⟩

/-- One pass of the loop when writing: the images of the bytes it takes are accepted, up to
a sector boundary or the end of the request. -/
theorem wp_ioPass_write_ordered (buf : Buf) {count actual : ℤ} {done : ℕ} (p left : ℕ)
    (hp : actual + done = p)
    (hr : count - done = left) (hleft : 0 < left) (hsmall : left < 4294967296)
    (hreach : p + left ≤ 2199023255552) :
    Prog.wp (ioPass stick true count actual buf done)
      (fun r t => ∃ k es, r = some (k, buf) ∧ k ≤ left ∧ (k = left ∨ 512 ∣ p + k) ∧
        Ordered w es (images 512 (store w).view p (window buf done) k) t) (fun _ => False) w := by
  obtain ⟨hlba, hoff⟩ := position (p := p) (by omega)
  have hrem : u32 left = left := (u32_left left).2 hsmall
  have hsplit : p / 512 * 512 + p % 512 = p := Nat.div_add_mod' p 512
  simp only [ioPass, Prog.wp_bind, wp_globals, hw.sectorSize, hp, hr, hlba, hoff, hrem,
    Bool.true_eq_false, if_false]
  refine Prog.wp_ite ?_ ?_
  · rintro ⟨hz, h512⟩
    refine Prog.wp_mono (wp_cachePass_ordered hw hf buf done (p / 512) h512) ?_ (fun _ h => h)
    rintro r t ⟨n, es, hr, hle, hes⟩
    have himages : images 512 (store w).view p (window buf done) (n * 512) =
        blocks 512 (window buf done) (p / 512) n := by
      have := images_whole (b := 512) (by omega) (store w).view (p / 512) (window buf done) n
      rw [hz, Nat.add_zero] at hsplit
      rwa [hsplit] at this
    exact ⟨n * 512, es, hr, hle, .inr (by omega), himages ▸ hes⟩
  · intro _
    refine Prog.wp_mono (wp_modifyPass_ordered hw hf buf done (p / 512) (p % 512) (by omega) (by omega) hleft)
      ?_ (fun _ h => h)
    rintro r t ⟨k, es, hr, hle, hend, hes⟩
    rw [hsplit] at hes
    exact ⟨k, es, hr, hle, hend.imp_right fun h => by omega, hes⟩

end Steps

/-- A write request under way: the images of its first `k` bytes are accepted, and these
end at a sector boundary unless they are all of it. -/
structure WriteInOrder (w : World Stick) (p count : ℕ) (buf : Buf) (k : ℕ) (t : World Stick) : Prop where
  soFar : WriteSoFar w p count buf k t
  boundary : k = 0 ∨ k = count ∨ 512 ∣ p + k
  ordered : ∃ es, Ordered w es (images 512 (store w).view p buf k) t

/-- The images of a part of a request are the first images of the whole. -/
theorem WriteInOrder.take {w t : World Stick} {p count k : ℕ} {buf : Buf}
    (h : WriteInOrder w p count buf k t) :
    ∃ m es, Ordered w es ((images 512 (store w).view p buf count).take m) t := by
  obtain ⟨es, hes⟩ := h.ordered
  have hle := h.soFar.le
  by_cases hk : k = count
  · exact ⟨(images 512 (store w).view p buf count).length, es, by rw [List.take_length]; exact hk ▸ hes⟩
  · have hcut := images_append (b := 512) (by decide) (store w).view buf (h.boundary.imp_right fun hb =>
      hb.resolve_left hk) (count - k)
    rw [Nat.add_sub_cancel' hle] at hcut
    exact ⟨(images 512 (store w).view p buf k).length, es, by rw [hcut, List.take_left]; exact hes⟩

theorem wp_ioLoop_write_ordered {w t : World Stick} {p count done : ℕ} {buf : Buf} {actual : ℤ}
    (hf : Faultless w.dev.spec) (hsmall : count < 4294967296)
    (hp : 0 < count → actual = p ∧ p + count ≤ 2199023255552) (h : WriteInOrder w p count buf done t) :
    Prog.wp (ioLoop stick true count actual (done, buf))
      (fun r u => match r with
        | .inl (k, b) => b = buf ∧ WriteInOrder w p count buf k u
        | .inr _ => WriteInOrder w p count buf count u)
      (fun _ => False) t := by
  obtain ⟨hsoFar, hboundary, es, hes⟩ := h
  have hle := hsoFar.le
  have hft : Faultless t.dev.spec := hsoFar.frame.spec ▸ hf
  by_cases hlt : (done : ℤ) < count
  · obtain ⟨hact, hreach⟩ := hp (by omega)
    have hpass := @wp_ioPass_write_ordered t hsoFar.ready hft buf count actual done (p + done) (count - done)
      (by rw [hact]; omega) (by omega) (by omega) (by omega) (by omega)
    have hloop := wp_ioLoop_write hp hsoFar
    rw [ioLoop, if_pos hlt, Prog.wp_bind] at hloop ⊢
    refine Prog.wp_mono (Prog.wp_and hloop hpass) ?_ (fun _ h => h.1)
    rintro r u ⟨hr, k, es', rfl, hk, hend, hes'⟩
    obtain ⟨⟨-, hnext⟩, -⟩ := hr
    have hstart : done = 0 ∨ 512 ∣ p + done := hboundary.imp_right fun hb => hb.resolve_left (by omega)
    refine ⟨rfl, hnext, .inr (hend.imp (fun h => by rw [h, Nat.add_sub_cancel' hle]) fun hb => ?_),
      es ++ es', ?_⟩
    · rwa [← Nat.add_assoc]
    · rw [images_append (show 0 < 512 by omega) _ _ hstart, ← writeAll_images (show 0 < 512 by omega),
        ← hes.view]
      exact hes.trans hes'
  · have hk : done = count := by omega
    subst hk
    rw [ioLoop, if_neg hlt]
    exact ⟨hsoFar, hboundary, es, hes⟩

/-- The record of requests is no part of the order. -/
theorem Ordered.asked {w t : World Stick} {es : List Sent} {new : List (Write UInt8)} {rs : List Request}
    (h : Ordered { w with requests := rs } es new t) : Ordered w es new t :=
  ⟨h.trace, h.fits, h.medium, h.order, h.moments⟩

section Requests

variable {w : World Stick} (hw : Ready w) (hf : Faultless w.dev.spec) (fuel : ℕ) (buf : Buf)
include hw hf

theorem wp_scsiIoInternal_write_ordered {count o : ℕ} (hsmall : count < 4294967296)
    (hreach : Reach w o count) :
    Prog.wp (scsiIoInternal stick fuel buf count o true)
      (fun _ t => ∃ es, Ordered w es (images 512 (store w).view (place w o) buf count) t)
      (fun t => Ready t ∧ ∃ m es,
        Ordered w es ((images 512 (store w).view (place w o) buf count).take m) t) w := by
  simp only [scsiIoInternal, Prog.wp_bind, Prog.wp_update, wp_globals, hw.sectorSize]
  obtain ⟨w', hw'⟩ : ∃ w' : World Stick, w' = { w with requests := w.requests ++ [⟨buf, count, o, true⟩] } :=
    ⟨_, rfl⟩
  have hstart : WriteInOrder w' (place w o) count buf 0 w' :=
    ⟨.start (hw' ▸ hw.asked _) _ _ _, .inl rfl, [], by rw [images_zero]; exact .refl w'⟩
  rw [← hw']
  refine Prog.wp_loop (fun i t => i.2 = buf ∧ WriteInOrder w' (place w o) count buf i.1 t) ?_ ?_ fuel (0, buf)
    ⟨rfl, hstart⟩
  · rintro i t ⟨-, h⟩
    obtain ⟨m, es, hes⟩ := h.take
    subst hw'
    exact ⟨h.soFar.ready, m, es, hes.asked⟩
  · rintro ⟨done, b⟩ t ⟨rfl, ht⟩
    have hfw : Faultless w'.dev.spec := by rw [hw']; exact hf
    refine Prog.wp_mono (wp_ioLoop_write_ordered hfw hsmall hreach.actual ht) ?_ (fun _ h => h.elim)
    rintro (⟨k, b'⟩ | r) u hu
    · exact hu
    · obtain ⟨es, hes⟩ := hu.ordered
      subst hw'
      exact ⟨es, hes.asked⟩

theorem wp_scsiIoInternal_read_ordered {count o : ℕ} (hreach : Reach w o count) :
    Prog.wp (scsiIoInternal stick fuel buf count o false) (fun _ t => ∃ es, Ordered w es [] t)
      (fun t => Ready t ∧ ∃ es, Ordered w es [] t) w := by
  simp only [scsiIoInternal, Prog.wp_bind, Prog.wp_update, wp_globals, hw.sectorSize]
  obtain ⟨w', hw'⟩ : ∃ w' : World Stick, w' = { w with requests := w.requests ++ [⟨buf, count, o, false⟩] } :=
    ⟨_, rfl⟩
  have hready : Ready w' := hw' ▸ hw.asked _
  have hstart : ReadSoFar w' (place w o) count buf 0 buf w' :=
    ⟨Frame.refl w', hready, Nat.zero_le _, fun _ => rfl, fun _ _ => (splice_zero _ _ _).symm,
      fun _ h => h, fun _ h => h⟩
  have hback : ∀ {es t}, Ordered w' es [] t → Ordered w es [] t := by
    intro es t h
    subst hw'
    exact h.asked
  rw [← hw']
  refine Prog.wp_loop (fun i t => ReadSoFar w' (place w o) count buf i.1 i.2 t ∧ ∃ es, Ordered w' es [] t)
    ?_ ?_
    fuel (0, buf) ⟨hstart, [], .refl w'⟩
  · rintro i t ⟨ht, es, hes⟩
    exact ⟨ht.ready, es, hback hes⟩
  · rintro ⟨done, b⟩ t ⟨ht, es, hes⟩
    have hft : Faultless t.dev.spec := by rw [ht.frame.spec, hw']; exact hf
    have hle := ht.le
    have hloop := wp_ioLoop_read hreach.actual ht
    rw [ioLoop] at hloop ⊢
    by_cases hlt : (done : ℤ) < count
    · obtain ⟨hact, hend⟩ := hreach.actual (by omega)
      have hpos := (position (p := place w o + done) (by omega)).1
      have hpass : Prog.wp (ioPass stick false count (o + i64 (u64 (w.drv.gDriveOffsetSectors * (512 : ℕ))))
          b done)
          (fun _ u => ∃ es, Ordered t es [] u) (fun _ => False) t := by
        simp only [ioPass, Prog.wp_bind, wp_globals, ht.ready.sectorSize, hact, if_true,
          ← Int.natCast_add, hpos]
        exact wp_readPass_ordered ht.ready hft b done _ _ _ (by omega)
      rw [if_pos hlt, Prog.wp_bind] at hloop ⊢
      refine Prog.wp_mono (Prog.wp_and hloop hpass) ?_ (fun _ h => h.1.elim)
      rintro (_ | ⟨k, b'⟩) u ⟨hr, es', hes'⟩
      · exact ⟨_, hback (hes.trans hes')⟩
      · exact ⟨hr.1, _, hes.trans hes'⟩
    · rw [if_neg hlt]
      exact ⟨es, hback hes⟩

theorem wp_usbScsiSync_ordered :
    Prog.wp (usbScsiSync stick) (fun _ t => ∃ es, Ordered w es [] t) (fun _ => False) w := by
  rw [usbScsiSync, Prog.wp_bind]
  refine Prog.wp_mono (wp_flush_ordered hw hf) ?_ (fun _ h => h)
  rintro _ t ⟨h, es, hes⟩
  have hfit : syncCmd.Fits 512 := by
    rintro (h | h) <;> exact absurd h (by decide)
  have hsent : ∀ (u : World Stick) (c : Option Csw), u.dev.medium = t.dev.medium →
      u.drv.cached = t.drv.cached →
      u.trace = t.trace ++ [⟨syncCmd, zeros, t.drv.usb.gTag, t.drv.gWriteCache, t.drv.gCacheLba,
        t.drv.gCacheSectors, c⟩] → ∃ es, Ordered w es [] u := by
    intro u c hmedium hcached htrace
    have hempty := cached_of_empty h.empty
    have hwritten : Sent.written
        ⟨syncCmd, zeros, t.drv.usb.gTag, t.drv.gWriteCache, t.drv.gCacheLba, t.drv.gCacheSectors, c⟩ = [] :=
      if_neg (show ¬syncCmd.opcode = 0x2a by decide)
    refine ⟨_, hes.trans (.of_sent htrace hfit (by rw [hwritten]; exact hmedium) ?_ ?_ ?_ ?_)⟩
    · rw [hwritten, hcached, List.nil_append, List.append_nil]
    · exact h.empty ▸ Nat.zero_le _
    · exact fun hpos => absurd h.empty (Nat.ne_of_gt hpos)
    · rw [Sent.cached_of_empty h.empty, hempty]
  simp only [syncCache, scsiCommand, Prog.wp_bind, wp_globals, Prog.wp_pure]
  refine Prog.wp_ite (fun _ => ⟨es, hes⟩) fun _ => ?_
  have hmed : t.dev.mediumAfter syncCmd zeros = t.dev.medium := if_neg (by decide)
  have hx : t.dev.Executes syncCmd :=
    ⟨(h.frame.spec ▸ hf).fate _, by rw [h.ready.blockSize]; exact hfit⟩
  rw [Prog.wp_bind, wp_transact]
  simp only [stick, Stick.exchange, hx, if_true, Prog.wp_pure]
  exact hsent _ _ hmed rfl rfl

end Requests

/-- The sector images of one operation, with `v` the content before it and the drive
offset at block `d`. -/
def Op.sectorImages (d : ℕ) (v : Buf) : Op → List (Write UInt8)
  | .pwrite buf count offset => images 512 v (offset.toNat + d * 512) buf count.toNat
  | _ => []

/-- The sector images of a list of operations, in program order. -/
def programOrder (d : ℕ) (v : Buf) : List Op → List (Write UInt8)
  | [] => []
  | op :: ops => op.sectorImages d v ++ programOrder d (writeAll v (op.sectorImages d v)) ops

/-- One operation accepts its images, and a part of it that is cut the first of them. -/
theorem wp_runOp_ordered {w : World Stick} (hw : Ready w) (hf : Faultless w.dev.spec) (fuel : ℕ) {op : Op}
    (hop : op.InRange w.drv.gDriveOffsetSectors) :
    Prog.wp (runOp stick fuel op)
      (fun _ t => ∃ es, Ordered w es (op.sectorImages w.drv.gDriveOffsetSectors (store w).view) t)
      (fun t => Ready t ∧ ∃ m es, Ordered w es
        ((op.sectorImages w.drv.gDriveOffsetSectors (store w).view).take m) t) w := by
  cases op with
  | pread buf count offset =>
    obtain ⟨h₀, h₁, -, h₃⟩ := hop
    obtain ⟨o, rfl⟩ := Int.eq_ofNat_of_zero_le h₀
    obtain ⟨n, rfl⟩ := Int.eq_ofNat_of_zero_le h₁
    have hreach : Reach w o n := fun hn => by
      have := h₃ (by omega)
      unfold place
      omega
    simp only [runOp, usbScsiPreadInternal, Prog.wp_bind, Prog.wp_pure]
    refine Prog.wp_mono (wp_scsiIoInternal_read_ordered hw hf fuel buf hreach) (fun _ _ h => h) ?_
    rintro t ⟨ht, es, hes⟩
    exact ⟨ht, 0, es, hes⟩
  | pwrite buf count offset =>
    obtain ⟨h₀, h₁, h₂, h₃⟩ := hop
    obtain ⟨o, rfl⟩ := Int.eq_ofNat_of_zero_le h₀
    obtain ⟨n, rfl⟩ := Int.eq_ofNat_of_zero_le h₁
    have hreach : Reach w o n := fun hn => by
      have := h₃ (by omega)
      unfold place
      omega
    simp only [runOp, usbScsiPwriteInternal, Prog.wp_bind, Prog.wp_pure]
    exact wp_scsiIoInternal_write_ordered hw hf fuel buf (by omega) hreach
  | sync =>
    simp only [runOp, Prog.wp_bind, Prog.wp_pure]
    exact Prog.wp_mono (wp_usbScsiSync_ordered hw hf) (fun _ _ h => h) (fun _ h => h.elim)

/-- A whole run accepts its images in program order. -/
theorem wp_runOps_ordered {w : World Stick} (hw : Ready w) (hf : Faultless w.dev.spec) {fuel : ℕ}
    (hfuel : 2 ^ 32 ≤ fuel) (ops : List Op) (hops : ∀ op ∈ ops, op.InRange w.drv.gDriveOffsetSectors) :
    Prog.wp (runOps stick fuel ops)
      (fun _ t => Ready t ∧ (∃ rs, Frame w rs t) ∧
        ∃ es, Ordered w es (programOrder w.drv.gDriveOffsetSectors (store w).view ops) t)
      (fun _ => False) w := by
  induction ops generalizing w with
  | nil => exact ⟨hw, ⟨[], Frame.refl w⟩, [], Ordered.refl w⟩
  | cons op ops ih =>
    simp only [runOps, Prog.wp_bind, Prog.wp_pure]
    have hop := hops op List.mem_cons_self
    refine Prog.wp_mono (Prog.wp_and (wp_runOp hw fuel hop.fits) (wp_runOp_ordered hw hf fuel hop)) ?_
      (fun _ h => absurd h.1 (by omega))
    rintro r t ⟨h, es, hes⟩
    obtain ⟨rs, hframe⟩ := h.frame
    rw [← hframe.driveOffset] at hops
    refine Prog.wp_mono (ih h.ready (hframe.spec ▸ hf)
      fun op' hop' => hops op' (List.mem_cons_of_mem _ hop')) ?_ (fun _ h => h)
    rintro _ u ⟨hu, ⟨rs', hframe'⟩, es', hes'⟩
    rw [hframe.driveOffset, hes.view] at hes'
    exact ⟨hu, ⟨_, hframe.trans hframe'⟩, _, hes.trans hes'⟩

/-- On a faultless stick the commands leave the medium with what they write. -/
theorem after_medium {d : Stick} (hb : d.spec.blockSize = 512) (hf : Faultless d.spec) {es : List Sent}
    (hes : ∀ e ∈ es, e.cmd.Fits 512) : (d.after es).medium = writeAll d.medium (es.flatMap Sent.written) := by
  induction es generalizing d with
  | nil => rfl
  | cons e es ih =>
    have hfit : e.cmd.Fits 512 := hes e List.mem_cons_self
    have hx : d.Executes e.cmd := ⟨hf.fate _, by rw [hb]; exact hfit⟩
    have hmed : d.mediumAfter e.cmd e.data = writeAll d.medium e.written := by
      rw [Stick.mediumAfter, Sent.written, hb]
      split_ifs with hop
      · rw [writeAll_blocks, hfit (.inr hop)]
      · rfl
    have hstep : (d.exchange {} e.cmd e.data).dev =
        { d with served := d.served + 1, medium := d.mediumAfter e.cmd e.data } := by
      simp only [Stick.exchange, hx, if_true]
    rw [Stick.after, List.foldl_cons, hstep, List.flatMap_cons, writeAll_append, ← hmed]
    exact ih hb hf fun e' he' => hes e' (List.mem_cons_of_mem _ he')

/-- The medium is `m` with the first of the accepted images applied, and the others, at most
2048, are the cached ones. -/
def InOrder (m : Buf) (accepted : List (Write UInt8)) (medium : Buf) (cached : List (Write UInt8)) : Prop :=
  ∃ n ≤ accepted.length, medium = writeAll m (accepted.take n) ∧ cached = accepted.drop n ∧
    cached.length ≤ 2048

theorem InOrder.of_append {m : Buf} {written cached accepted : List (Write UInt8)}
    (h : written ++ cached = accepted)
    (hmax : cached.length ≤ 2048) : InOrder m accepted (writeAll m written) cached := by
  subst h
  refine ⟨written.length, by rw [List.length_append]; omega, ?_, ?_, hmax⟩
  · rw [List.take_left]
  · rw [List.drop_left]

/-- Writes are never reordered: the medium holds a prefix of the sector images in program
order and the cache the rest of those accepted so far. This is so after the operations
`before`, at every pass of the next one (the state `t` in which it is cut or returns), and
whenever that one sends a command. -/
theorem runOps_inOrder {w : World Stick} (hw : Idle w) (hf : Faultless w.dev.spec)
    (before : List Op) (op : Op)
    (hops : ∀ o ∈ before ++ [op], o.InRange w.drv.gDriveOffsetSectors) {fuel : ℕ} (hfuel : 2 ^ 32 ≤ fuel)
    (passes : ℕ) :
    let d := w.drv.gDriveOffsetSectors
    let accepted := programOrder d w.dev.medium before
    let new := op.sectorImages d (writeAll w.dev.medium accepted)
    ∃ rs u r t es, runOps stick fuel before w = (some rs, u) ∧ runOp stick passes op u = (r, t) ∧
      t.trace = u.trace ++ es ∧ t.dev.medium = (u.dev.after es).medium ∧
      InOrder w.dev.medium accepted u.dev.medium u.drv.cached ∧
      (r.isSome → InOrder w.dev.medium (accepted ++ new) t.dev.medium t.drv.cached) ∧
      (∃ m, InOrder w.dev.medium (accepted ++ new.take m) t.dev.medium t.drv.cached) ∧
      ∀ pre e post, es = pre ++ e :: post → (0 < e.cacheSectors → e.written = e.cached) ∧
        ∃ m, InOrder w.dev.medium (accepted ++ new.take m) (u.dev.after pre).medium e.cached := by
  intro d accepted new
  obtain ⟨rs, u, hrun, hu, ⟨rs', hframe⟩, es₀, hes₀⟩ :=
    Prog.wp_returns (wp_runOps_ordered hw.ready hf hfuel before
    fun o ho => hops o (List.mem_append_left _ ho))
  rw [hw.view] at hes₀
  have hfu : Faultless u.dev.spec := hframe.spec ▸ hf
  have hop : op.InRange u.drv.gDriveOffsetSectors :=
    hframe.driveOffset ▸ hops op (List.mem_append_right _ (List.mem_singleton_self op))
  have hview : (store u).view = writeAll w.dev.medium accepted := by rw [hes₀.view, hw.view]
  have hempty : w.drv.cached = [] := cached_of_empty hw.empty
  -- a stretch behind the run so far: where it ends, and where it sends its commands
  have hstretch : ∀ {es m t}, Ready t → Ordered u es (new.take m) t → t.dev.medium = (u.dev.after es).medium ∧
      InOrder w.dev.medium (accepted ++ new.take m) t.dev.medium t.drv.cached ∧
      ∀ pre e post, es = pre ++ e :: post → (0 < e.cacheSectors → e.written = e.cached) ∧
        ∃ m, InOrder w.dev.medium (accepted ++ new.take m) (u.dev.after pre).medium e.cached := by
    intro es m t ht hes
    have hall := hes₀.trans hes
    have hafter : ∀ {fs}, (∀ e ∈ fs, e.cmd.Fits 512) →
        (u.dev.after fs).medium = writeAll w.dev.medium ((es₀ ++ fs).flatMap Sent.written) := by
      intro fs hfs
      rw [after_medium hu.blockSize hfu hfs, hes₀.medium, List.flatMap_append, writeAll_append]
    refine ⟨by rw [hafter hes.fits, hall.medium], ?_, fun pre e post hsplit => ?_⟩
    · have horder := hall.order
      rw [hempty, List.nil_append] at horder
      rw [hall.medium]
      refine .of_append horder ?_
      rw [Driver.cached, blocks_length]
      exact ht.fill
    · obtain ⟨hmax, hflush, k, -, hk⟩ := hes.moments pre e post hsplit
      have horder : (es₀ ++ pre).flatMap Sent.written ++ e.cached = accepted ++ new.take (min k m) := by
        have h₀ := hes₀.order
        rw [hempty, List.nil_append] at h₀
        rw [List.flatMap_append, List.append_assoc, hk, ← List.append_assoc, h₀, List.take_take]
      refine ⟨hflush, min k m, ?_⟩
      rw [hafter fun e he => hes.fits e (hsplit ▸ List.mem_append_left _ he)]
      exact .of_append horder (by rw [Sent.cached, blocks_length]; exact hmax)
  have hbefore := (hstretch (m := 0) hu (Ordered.refl u)).2.1
  rw [List.take_zero, List.append_nil] at hbefore
  have hrunOp := Prog.wp_and (wp_runOp hu passes hop.fits) (wp_runOp_ordered hu hfu passes hop)
  rw [hframe.driveOffset, hview] at hrunOp
  unfold Prog.wp at hrunOp
  rcases hr : runOp stick passes op u with ⟨_ | r, t⟩ <;> rw [hr] at hrunOp
  · obtain ⟨-, ht, m, es, hes⟩ := hrunOp
    obtain ⟨hmedium, hend, hmoments⟩ := hstretch ht hes
    exact ⟨rs, u, none, t, es, hrun, hr, hes.trace, hmedium, hbefore, fun h => absurd h (by simp),
      ⟨m, hend⟩, hmoments⟩
  · obtain ⟨h, es, hes⟩ := hrunOp
    rw [← List.take_length (l := op.sectorImages _ _)] at hes
    obtain ⟨hmedium, hend, hmoments⟩ := hstretch h.ready hes
    refine ⟨rs, u, some r, t, es, hrun, hr, hes.trace, hmedium, hbefore, fun _ => ?_, ⟨_, hend⟩, hmoments⟩
    rwa [List.take_length] at hend

/-- Two overlapping writes and the sync behind them. -/
theorem runOps_inOrder_overlap :
    let before : List Op := [.pwrite (fun _ => 2) 3000 100, .pwrite (fun _ => 3) 1024 512]
    ∃ rs u, runOps stick (2 ^ 32) before onesStick = (some rs, u) ∧
      InOrder onesStick.dev.medium (programOrder 4096 onesStick.dev.medium before)
        u.dev.medium u.drv.cached := by
  intro before
  obtain ⟨rs, u, r, t, es, hrun, -, -, -, hbefore, -⟩ := runOps_inOrder (w := onesStick) ⟨rfl, rfl, rfl⟩
    ⟨fun _ => rfl, fun _ => rfl⟩ before .sync (by
      intro op hop
      simp only [before, List.cons_append, List.nil_append, List.mem_cons, List.not_mem_nil, or_false] at hop
      rcases hop with rfl | rfl | rfl <;> simp [Op.InRange, onesStick]) (Nat.le_refl _) 0
  exact ⟨rs, u, hrun, hbefore⟩

end FormatStick
