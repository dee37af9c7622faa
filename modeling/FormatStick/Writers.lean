import FormatStick.CachedIo
import FormatStick.Tables

/-!
# Writers and what they write

A writer is described by the set of its writes. `Wrote` says that whatever happened
on the way was one of them, for runs with failures and cut runs alike; that the
writes went through is a separate fact, known where the commands were confirmed.
The direct writers of the partition tables are the first of them.
-/
namespace FormatStick
open Splice WriteBack

/-- Every write on the way from `w` to `t`, direct or through the cache, is one of `W`. -/
structure Wrote (W : Write UInt8 → Prop) (w t : World Stick) : Prop where
  ready : Ready t
  spec : t.dev.spec = w.dev.spec
  trace : w.trace <+: t.trace
  confirmed : Faultless w.dev.spec → Confirmed w t
  changes : ∀ a, t.dev.medium a ≠ w.dev.medium a →
    ∃ e ∈ t.trace, e.cmd.opcode = 0x2a ∧ e.cmd.lba * 512 ≤ a ∧ a < (e.cmd.lba + e.cmd.blocks) * 512
  sat : ∀ φ, (store w).Sat φ → (∀ v, W v → ∀ i < v.len, φ (v.addr + i) (v.data i)) → (store t).Sat φ
  below : ∀ {k} n, Below k n w → (∀ v, W v → v.addr + v.len ≤ n * 512) → Below k n t

namespace Wrote

variable {W W' : Write UInt8 → Prop} {w t u : World Stick}

theorem of_frame {rs : List Request} (h : Frame w rs t) (hr : Ready t)
    (hsat : ∀ φ, (store w).Sat φ → (∀ v, W v → ∀ i < v.len, φ (v.addr + i) (v.data i)) → (store t).Sat φ)
    (hbelow : ∀ {k} n, Below k n w → (∀ v, W v → v.addr + v.len ≤ n * 512) → Below k n t) : Wrote W w t :=
  ⟨hr, h.spec, h.trace, h.confirmed, h.changes, hsat, hbelow⟩

theorem refl (hw : Ready w) : Wrote W w w :=
  of_frame (Frame.refl w) hw (fun _ h _ => h) fun _ h _ => h

theorem mono (h : Wrote W w t) (hW : ∀ v, W v → W' v) : Wrote W' w t :=
  ⟨h.ready, h.spec, h.trace, h.confirmed, h.changes, fun φ hs hv => h.sat φ hs fun v hw => hv v (hW v hw),
    fun n hn hv => h.below n hn fun v hw => hv v (hW v hw)⟩

theorem trans (h : Wrote W w t) (h' : Wrote W t u) : Wrote W w u where
  ready := h'.ready
  spec := h'.spec.trans h.spec
  trace := h.trace.trans h'.trace
  confirmed hf := Since.trans (h.confirmed hf) (h'.confirmed (h.spec ▸ hf)) h.trace h'.trace
  changes a ha := by
    by_cases hu : u.dev.medium a = t.dev.medium a
    · obtain ⟨e, he, hin⟩ := h.changes a (hu ▸ ha)
      exact ⟨e, h'.trace.subset he, hin⟩
    · exact h'.changes a hu
  sat φ hs hv := h'.sat φ (h.sat φ hs hv) hv
  below n hn hv := h'.below n (h.below n hn hv) hv

end Wrote

/-- Nothing was written on the way from `w` to `t`, and the cache is as it was. -/
structure Quiet (w t : World Stick) : Prop where
  frame : Frame w [] t
  ready : Ready t
  store : store t = store w
  below : ∀ {k} n, Below k n w → Below k n t

namespace Quiet

variable {w t u : World Stick}

theorem wrote (h : Quiet w t) (W : Write UInt8 → Prop) : Wrote W w t :=
  Wrote.of_frame h.frame h.ready (fun _ hs _ => by rw [h.store]; exact hs) fun n hn _ => h.below n hn

theorem empty (h : Quiet w t) (hw : w.drv.gCacheSectors = 0) : t.drv.gCacheSectors = 0 := by
  have hsize : t.drv.gCacheSectors * 512 = w.drv.gCacheSectors * 512 := congrArg Store.size h.store
  omega

theorem medium (h : Quiet w t) : t.dev.medium = w.dev.medium := congrArg Store.medium h.store

theorem trans (h : Quiet w t) (h' : Quiet t u) : Quiet w u :=
  ⟨h.frame.trans h'.frame, h'.ready, h'.store.trans h.store, fun n hn => h'.below n (h.below n hn)⟩

/-- A change of the stick's counters. -/
theorem of_dev {d : Stick} (hw : Ready w) (hs : d.spec = w.dev.spec) (hm : d.medium = w.dev.medium) :
    Quiet w { w with dev := d } :=
  ⟨⟨rfl, rfl, rfl, rfl, rfl, hs, (List.append_nil _).symm, List.prefix_rfl,
      fun _ => since_of_trace_eq rfl, fun a ha => absurd (congrFun hm a) ha⟩,
    ⟨hw.sectorSize, hs ▸ hw.blockSize, hw.fill, hw.allocated, hw.reach⟩,
    store_eq hm rfl rfl rfl, fun _ h => ⟨h.cached, h.sent⟩⟩

end Quiet

theorem SyncDone.quiet {w t : World Stick} {r : ℤ} (h : SyncDone w r t) : Quiet w t :=
  ⟨h.frame, h.ready, h.store, h.below⟩

theorem ReadDone.quiet {w t : World Stick} {lba blocks : ℕ} {data : Buf} {r : ℤ × Buf}
    (h : ReadDone w lba blocks data r t) : Quiet w t := by
  obtain ⟨u, hu⟩ := h.drv
  exact ⟨h.frame, h.ready, store_of_drv hu rfl rfl rfl h.medium, h.below⟩

/-- `blocks` sectors of `x.2` at block `x.1`, as a write of the flat medium. -/
def sectorWrite (blocks : ℕ) (x : ℕ × Buf) : Write UInt8 := ⟨x.1 * 512, x.2, blocks * 512⟩

/-- Every WRITE(10) on the way that starts below block `m` was confirmed. -/
def ConfirmedBelow (m : ℕ) (w t : World Stick) : Prop :=
  Since (fun e => e.cmd.opcode = 0x2a → e.cmd.lba < m → e.Ok) w t

theorem Confirmed.below {w t : World Stick} (h : Confirmed w t) (m : ℕ) : ConfirmedBelow m w t :=
  Since.mono h fun _ he hop _ => he hop

namespace WriteDone

variable {w t : World Stick} {lba blocks : ℕ} {data : Buf} {r : ℤ}

theorem empty (h : WriteDone w lba blocks data r t) (hw : w.drv.gCacheSectors = 0) :
    t.drv.gCacheSectors = 0 := by
  obtain ⟨u, hu⟩ := h.drv
  rw [hu]
  exact hw

theorem store_of_failed (h : WriteDone w lba blocks data r t) (hr : r ≠ 0) : store t = store w := by
  obtain ⟨u, hu⟩ := h.drv
  rcases h.result with ⟨hr', -⟩ | ⟨-, hm⟩
  · exact absurd hr' hr
  · exact store_of_drv hu rfl rfl rfl hm

theorem store_of_done (h : WriteDone w lba blocks data r t) (hr : r = 0) :
    store t = (store w).through (lba * 512) data (blocks * 512) := by
  obtain ⟨u, hu⟩ := h.drv
  rcases h.result with ⟨-, hm⟩ | ⟨hr', -⟩
  · exact store_eq hm (by rw [hu]; rfl) (by rw [hu]; rfl) (by rw [hu]; rfl)
  · exact absurd (hr'.symm.trans hr) (by decide)

theorem wrote {W : Write UInt8 → Prop} (h : WriteDone w lba blocks data r t)
    (hW : W (sectorWrite blocks (lba, data))) : Wrote W w t := by
  refine Wrote.of_frame h.frame h.ready (fun φ hs hv => ?_) fun n hn hv => h.below n hn ?_
  · by_cases hr : r = 0
    · rw [h.store_of_done hr]
      exact hs.through (hv _ hW)
    · rw [h.store_of_failed hr]
      exact hs
  · have : lba * 512 + blocks * 512 ≤ n * 512 := hv _ hW
    omega

theorem confirmed (h : WriteDone w lba blocks data r t) (hl : lba < 4294967296) {m : ℕ} (hm : lba < m)
    (hc : ConfirmedBelow m w t) : r = 0 := by
  obtain ⟨e, htr, hcmd, -, hok⟩ := h.sent
  rw [ConfirmedBelow, Since, htr, List.drop_left] at hc
  refine hok.mp (hc e (List.mem_singleton_self e) (by rw [hcmd]; rfl) ?_)
  rw [hcmd, lba_cdb10 0x2a blocks 0x00 (blocks * 512) hl]
  exact hm

end WriteDone

/-- What a series of direct writes does. -/
structure EachDone (blocks : ℕ) (ws : List (ℕ × Buf)) (w : World Stick) (r : Bool) (t : World Stick) :
    Prop where
  frame : Frame w [] t
  ready : Ready t
  wrote : Wrote (· ∈ ws.map (sectorWrite blocks)) w t
  empty : w.drv.gCacheSectors = 0 → t.drv.gCacheSectors = 0
  full : r = true → t.dev.medium = writeAll w.dev.medium (ws.map (sectorWrite blocks))
  confirmed : ∀ m, (∀ x ∈ ws, x.1 < m) → ConfirmedBelow m w t → r = true

theorem wp_writeEach {w : World Stick} (hw : Ready w) {blocks : ℕ} (hb : blocks < 2 ^ 16)
    (ws : List (ℕ × Buf)) (hws : ∀ x ∈ ws, x.1 < 4294967296) :
    Prog.wp (writeEach stick blocks ws) (EachDone blocks ws w) (fun _ => False) w := by
  induction ws generalizing w with
  | nil =>
    exact ⟨Frame.refl w, hw, Wrote.refl hw, id, fun _ => rfl, fun _ _ _ => rfl⟩
  | cons x ws ih =>
    obtain ⟨lba, data⟩ := x
    have hl : lba < 4294967296 := hws _ List.mem_cons_self
    rw [writeEach, Prog.wp_bind]
    refine Prog.wp_mono (wp_write10 hw hl hb data) ?_ (fun _ h => h)
    intro res t h
    have hfirst : Wrote (· ∈ ((lba, data) :: ws).map (sectorWrite blocks)) w t :=
      h.wrote List.mem_cons_self
    refine Prog.wp_ite ?_ ?_
    · intro hr
      exact ⟨h.frame, h.ready, hfirst, h.empty, fun hf => absurd hf Bool.false_ne_true,
        fun m hm hc => absurd (h.confirmed hl (hm _ List.mem_cons_self) hc) hr⟩
    · intro hr
      rw [not_not] at hr
      refine Prog.wp_mono (ih h.ready fun x hx => hws x (List.mem_cons_of_mem _ hx)) ?_ (fun _ h => h)
      intro r u hu
      refine ⟨h.frame.trans hu.frame, hu.ready,
        hfirst.trans (hu.wrote.mono fun _ hv => List.mem_cons_of_mem _ hv),
        fun he => hu.empty (h.empty he), fun hr' => ?_, fun m hm hc => ?_⟩
      · have hm : t.dev.medium = _ := congrArg Store.medium (h.store_of_done hr)
        rw [hu.full hr', hm]
        rfl
      · exact hu.confirmed m (fun x hx => hm x (List.mem_cons_of_mem _ hx)) (Since.right hc h.frame.trace)

/-- Sector `x.1` of a medium holds `x.2`. -/
def HoldsSector (m : Buf) (x : ℕ × Buf) : Prop := ∀ i < 512, m (x.1 * 512 + i) = x.2 i

/-- Direct writes to different sectors are all on the medium afterwards. -/
theorem holdsSector_writeAll (f : Buf) {ws : List (ℕ × Buf)} (hnd : (ws.map Prod.fst).Nodup)
    {x : ℕ × Buf} (hx : x ∈ ws) : HoldsSector (writeAll f (ws.map (sectorWrite 1))) x := by
  have hd : (ws.map (sectorWrite 1)).Pairwise fun v w =>
      v.addr + v.len ≤ w.addr ∨ w.addr + w.len ≤ v.addr := by
    rw [List.pairwise_map]
    refine (List.pairwise_map.mp hnd).imp ?_
    intro y z hne
    simp only [sectorWrite]
    omega
  exact fun i hi => writeAll_of_mem f hd (List.mem_map_of_mem hx) hi

/-- A sector stays as it was if every write that meets it writes what it holds. -/
theorem HoldsSector.agreed {W : Write UInt8 → Prop} {w t : World Stick} {x : ℕ × Buf}
    (h : HoldsSector w.dev.medium x) (hempty : w.drv.gCacheSectors = 0) (hw : Wrote W w t)
    (hW : ∀ v, W v → ∀ i < v.len, ∀ j < 512, v.addr + i = x.1 * 512 + j → v.data i = x.2 j) :
    HoldsSector t.dev.medium x := by
  have hsat : (store w).Sat fun a b => ∀ i < 512, a = x.1 * 512 + i → b = x.2 i := by
    refine ⟨fun a i hi ha => ?_, fun i hi => ?_⟩
    · rw [ha]
      exact h i hi
    · change i < w.drv.gCacheSectors * 512 at hi
      omega
  have hsat' := hw.sat _ hsat fun v hv i hi j hj ha => hW v hv i hi j hj ha
  exact fun i hi => hsat'.medium _ i hi rfl

/-- A sector that no write meets stays as it was, if it is not cached either. -/
theorem HoldsSector.wrote {W : Write UInt8 → Prop} {w t : World Stick} {x : ℕ × Buf}
    (h : HoldsSector w.dev.medium x) (hempty : w.drv.gCacheSectors = 0) (hw : Wrote W w t)
    (hW : ∀ v, W v → v.addr + v.len ≤ x.1 * 512 ∨ x.1 * 512 + 512 ≤ v.addr) :
    HoldsSector t.dev.medium x := by
  refine h.agreed hempty hw fun v hv i hi j hj ha => ?_
  have := hW v hv
  omega

end FormatStick
