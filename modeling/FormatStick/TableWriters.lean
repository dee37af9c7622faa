import FormatStick.Writers
import Mathlib.Data.List.Nodup

/-!
# What the writers of the partition tables do to a stick

One lemma of one shape for each: the writes it is made of, and the sectors that hold
its table once the commands below block 34 are confirmed.
-/
namespace FormatStick
open Splice WriteBack

/-- A part of a session that leaves the driver's globals alone and does no cached I/O. -/
structure Stage (W : Write UInt8 → Prop) (w t : World Stick) : Prop where
  frame : Frame w [] t
  wrote : Wrote W w t
  empty : w.drv.gCacheSectors = 0 → t.drv.gCacheSectors = 0

namespace Stage

variable {W : Write UInt8 → Prop} {w t u : World Stick}

theorem trans (h : Stage W w t) (h' : Stage W t u) : Stage W w u :=
  ⟨h.frame.trans h'.frame, h.wrote.trans h'.wrote, fun he => h'.empty (h.empty he)⟩

theorem of_quiet (h : Quiet w t) (W : Write UInt8 → Prop) : Stage W w t :=
  ⟨h.frame, h.wrote W, h.empty⟩

theorem of_write {lba blocks : ℕ} {data : Buf} {r : ℤ} (h : WriteDone w lba blocks data r t)
    (hW : W (sectorWrite blocks (lba, data))) : Stage W w t :=
  ⟨h.frame, h.wrote hW, h.empty⟩

theorem of_each {blocks : ℕ} {ws : List (ℕ × Buf)} {r : Bool} (h : EachDone blocks ws w r t)
    (hW : ∀ x ∈ ws, W (sectorWrite blocks x)) : Stage W w t := by
  refine ⟨h.frame, h.wrote.mono fun v hv => ?_, h.empty⟩
  obtain ⟨x, hx, rfl⟩ := List.mem_map.mp hv
  exact hW x hx

end Stage

/-- The writes of `usb_scsi_wipe_tail`. -/
def TailWrite (n : ℕ) (v : Write UInt8) : Prop :=
  ∃ lba, n ≤ lba + 34 ∧ lba < n ∧ v = sectorWrite 1 (lba, zeros)

theorem wp_usbScsiWipeTail {w : World Stick} (hw : Ready w) (hpos : 0 < w.drv.gSectorCount)
    (hn : w.drv.gSectorCount ≤ 4294967296) :
    Prog.wp (usbScsiWipeTail stick) (fun _ t => Stage (TailWrite w.drv.gSectorCount) w t)
      (fun _ => False) w := by
  have hlast : u64 ((w.drv.gSectorCount : ℤ) - 1) = w.drv.gSectorCount - 1 := by
    unfold u64
    omega
  have hlbas : ∀ lba ∈ tailLbas (w.drv.gSectorCount - 1),
      w.drv.gSectorCount ≤ lba + 34 ∧ lba < w.drv.gSectorCount := by
    intro lba hlba
    rw [tailLbas] at hlba
    split_ifs at hlba with h
    · obtain ⟨i, hi, rfl⟩ := List.mem_map.mp hlba
      have := List.mem_range.mp hi
      unfold u64 at h
      omega
    · exact absurd hlba List.not_mem_nil
  simp only [usbScsiWipeTail, Prog.wp_bind, wp_globals, hlast, Prog.wp_pure]
  refine Prog.wp_mono (wp_writeEach hw (by decide) _ ?_) ?_ (fun _ h => h)
  · intro x hx
    obtain ⟨lba, hlba, rfl⟩ := List.mem_map.mp hx
    have := (hlbas lba hlba).2
    change lba < 4294967296
    omega
  · intro _ t h
    have hstage : Stage (TailWrite w.drv.gSectorCount) w t := Stage.of_each h fun x hx => by
      obtain ⟨lba, hlba, rfl⟩ := List.mem_map.mp hx
      obtain ⟨h₁, h₂⟩ := hlbas lba hlba
      exact ⟨lba, h₁, h₂, rfl⟩
    refine Prog.wp_mono (wp_syncCache h.ready) ?_ (fun _ h => h)
    intro _ u hu
    exact hstage.trans (Stage.of_quiet hu.quiet _)

/-- The writes of `usb_scsi_wipe_mbr`. -/
def HeadWrite (v : Write UInt8) : Prop := ∃ i < 16, v = sectorWrite 128 (128 * i, zeros)

theorem wp_usbScsiWipeMbr {w : World Stick} (hw : Ready w) :
    Prog.wp (usbScsiWipeMbr stick) (fun _ t => Stage HeadWrite w t)
      (fun t => Stage HeadWrite w t ∧ ¬Faultless w.dev.spec) w := by
  have halloc : Quiet w { w with dev := { w.dev with mallocs := w.dev.mallocs + 1 } } :=
    Quiet.of_dev hw rfl rfl
  simp only [usbScsiWipeMbr, Prog.wp_bind, wp_malloc]
  refine Prog.wp_ite ?_ ?_
  · intro hno
    refine ⟨Stage.of_quiet halloc _, fun hf => ?_⟩
    exact absurd ((hf.heap w.dev.mallocs).symm.trans hno) (by decide)
  · intro _
    simp only [Prog.wp_bind, Prog.wp_pure]
    refine Prog.wp_mono (wp_writeEach halloc.ready (by decide) _ ?_) ?_ (fun _ h => h.elim)
    · intro x hx
      obtain ⟨i, hi, rfl⟩ := List.mem_map.mp hx
      have := List.mem_range.mp hi
      change 128 * i < 4294967296
      omega
    · intro _ t h
      have hstage : Stage HeadWrite w t := (Stage.of_quiet halloc _).trans <|
        Stage.of_each h fun x hx => by
          obtain ⟨i, hi, rfl⟩ := List.mem_map.mp hx
          exact ⟨i, List.mem_range.mp hi, rfl⟩
      refine Prog.wp_mono (wp_syncCache h.ready) ?_ (fun _ h => h.elim)
      intro _ u hu
      exact hstage.trans (Stage.of_quiet hu.quiet _)

/-- The length an MBR records is that of its partition. -/
theorem mbrNumSectors_eq {n part : ℕ} (hpart : 4096 + part ≤ n) (hn : n ≤ 4294967296) :
    mbrNumSectors n part = part := by
  have hlen : u32 part = part := u32_of_lt (by omega)
  have hrest : u64 ((n : ℤ) - 4096) = n - 4096 := by
    unfold u64
    omega
  rw [mbrNumSectors, hlen, hrest]
  exact if_neg (by omega)

/-- What `usb_scsi_write_mbr` does: `mbr` is its sector. -/
structure MbrDone (mbr : Buf) (w t : World Stick) : Prop where
  stage : Stage (· = sectorWrite 1 (0, mbr)) w t
  holds : ConfirmedBelow 34 w t → HoldsSector t.dev.medium (0, mbr)

theorem WriteDone.holds {w t : World Stick} {lba : ℕ} {data : Buf} {r : ℤ}
    (h : WriteDone w lba 1 data r t) (hr : r = 0) : HoldsSector t.dev.medium (lba, data) := by
  have hm : t.dev.medium = splice w.dev.medium (lba * 512) data (1 * 512) :=
    congrArg Store.medium (h.store_of_done hr)
  intro i hi
  rw [hm]
  exact splice_at (show i < 1 * 512 by omega)

theorem wp_usbScsiWriteMbr {w : World Stick} (hw : Ready w) (partitionSectors : ℕ)
    (partitionType : UInt8) :
    Prog.wp (usbScsiWriteMbr stick partitionSectors partitionType)
      (fun _ t => MbrDone (mbrSector partitionType
        (mbrNumSectors w.drv.gSectorCount partitionSectors)) w t) (fun _ => False) w := by
  simp only [usbScsiWriteMbr, Prog.wp_bind, wp_globals]
  refine Prog.wp_mono (wp_write10 hw (show 0 < 4294967296 by decide) (show 1 < 2 ^ 16 by decide) _) ?_
    (fun _ h => h)
  intro r t h
  have hstage : Stage (· = sectorWrite 1 (0, mbrSector partitionType
      (mbrNumSectors w.drv.gSectorCount partitionSectors))) w t := Stage.of_write h rfl
  refine Prog.wp_ite ?_ ?_
  · intro hr
    exact ⟨hstage, fun hc => absurd (h.confirmed (by decide) (by decide) hc) hr⟩
  · intro hr
    rw [not_not] at hr
    simp only [Prog.wp_bind, Prog.wp_pure]
    refine Prog.wp_mono (wp_syncCache h.ready) ?_ (fun _ h => h)
    intro _ u hu
    refine ⟨hstage.trans (Stage.of_quiet hu.quiet _), fun _ => ?_⟩
    rw [hu.quiet.medium]
    exact h.holds hr

/-- The bytes of `n` rolls of the dice from roll `k` on. -/
def rolled (s : StickSpec) (k n : ℕ) : List UInt8 := (List.range n).map fun i => u8 (s.dice (k + i))

@[simp] theorem rolled_length (s : StickSpec) (k n : ℕ) : (rolled s k n).length = n := by simp [rolled]

theorem rolled_succ (s : StickSpec) (k n : ℕ) : rolled s k (n + 1) = u8 (s.dice k) :: rolled s (k + 1) n := by
  rw [rolled, List.range_succ_eq_map, List.map_cons, List.map_map]
  refine congrArg₂ List.cons rfl (List.map_congr_left fun i _ => ?_)
  rw [Function.comp_apply, Nat.succ_eq_add_one, Nat.add_assoc, Nat.add_comm 1 i]

theorem wp_randBytes {w : World Stick} (hw : Ready w) (n : ℕ) :
    Prog.wp (randBytes stick n)
      (fun xs t => xs = rolled w.dev.spec w.dev.rolls n ∧ Quiet w t ∧ t.dev.rolls = w.dev.rolls + n)
      (fun _ => False) w := by
  suffices h : ∀ d : Stick, d.spec = w.dev.spec → d.medium = w.dev.medium →
      Prog.wp (randBytes stick n)
        (fun xs t => xs = rolled d.spec d.rolls n ∧ Quiet w t ∧ t.dev.rolls = d.rolls + n)
        (fun _ => False) { w with dev := d } from h w.dev rfl rfl
  induction n with
  | zero =>
    intro d hs hm
    rw [randBytes_zero]
    exact ⟨rfl, Quiet.of_dev hw hs hm, rfl⟩
  | succ n ih =>
    intro d hs hm
    simp only [randBytes_succ, Prog.wp_bind, wp_rand, Prog.wp_pure]
    refine Prog.wp_mono (ih { d with rolls := d.rolls + 1 } hs hm) ?_ (fun _ h => h)
    rintro xs t ⟨hxs, hq, hr⟩
    refine ⟨?_, hq, hr.trans (by rw [Nat.add_right_comm]; rfl)⟩
    rw [rolled_succ, hxs]
    rfl

/-- The sectors of a GPT: protective MBR, primary header, entry array, backup header. -/
structure GptTable where
  mbr : Buf
  header : Buf
  entries : Buf
  backup : Buf

/-- The GPT `usb_scsi_write_gpt` encodes from its random bytes. -/
def gptTable (n partitionSectors : ℕ) (fsType : ℤ) (diskSig guid diskGuid : List UInt8) : GptTable :=
  let entries := gptEntries fsType guid (gptPartitionEnd n partitionSectors)
  let header := sealHeader (gptHeader n diskGuid (crc32 0 entries (512 * 32)))
  ⟨protectiveMbr diskSig n, header, entries, sealHeader (backupHeader n header)⟩

/-- The sectors at the start of the disk. -/
def GptTable.primary (T : GptTable) : List (ℕ × Buf) :=
  (0, T.mbr) :: (1, T.header) :: entrySectors 2 T.entries

/-- The sectors at the end of a disk of `n` sectors. -/
def GptTable.secondary (T : GptTable) (n : ℕ) : List (ℕ × Buf) :=
  entrySectors (u64 (n - 33)) T.entries ++ [(u64 (n - 1), T.backup)]

theorem mem_entrySectors {lba : ℕ} (h : lba + 32 < 2 ^ 64) (entries : Buf) (x : ℕ × Buf) :
    x ∈ entrySectors lba entries ↔ ∃ i < 32, x = (lba + i, window entries (i * 512)) := by
  have hu : ∀ i < 32, u64 ((lba : ℤ) + (i : ℕ)) = lba + i := fun i hi => u64_add (by omega)
  simp only [entrySectors, List.mem_map, List.mem_range]
  refine exists_congr fun i => and_congr_right fun hi => ?_
  rw [hu i hi]
  exact eq_comm

theorem entrySectors_nodup {lba : ℕ} (h : lba + 32 < 2 ^ 64) (entries : Buf) :
    ((entrySectors lba entries).map Prod.fst).Nodup := by
  rw [entrySectors, List.map_map]
  refine List.nodup_range.map_on ?_
  intro i hi j hj hij
  rw [List.mem_range] at hi hj
  have hij' : u64 ((lba : ℤ) + (i : ℕ)) = u64 ((lba : ℤ) + (j : ℕ)) := hij
  rw [u64_add (by omega), u64_add (by omega)] at hij'
  omega

theorem GptTable.primary_lt (T : GptTable) : ∀ x ∈ T.primary, x.1 < 34 := by
  intro x hx
  simp only [primary, List.mem_cons, mem_entrySectors (show 2 + 32 < 2 ^ 64 by decide)] at hx
  rcases hx with rfl | rfl | ⟨i, hi, rfl⟩
  · exact Nat.zero_lt_succ 33
  · exact Nat.succ_lt_succ (Nat.zero_lt_succ 32)
  · change 2 + i < 34
    omega

theorem GptTable.secondary_bounds (T : GptTable) {n : ℕ} (h : 67 ≤ n) (hn : n ≤ 4294967296) :
    ∀ x ∈ T.secondary n, n - 33 ≤ x.1 ∧ x.1 < n := by
  have h₃₃ : u64 ((n : ℤ) - 33) = n - 33 := by unfold u64; omega
  have h₁ : u64 ((n : ℤ) - 1) = n - 1 := by unfold u64; omega
  intro x hx
  simp only [secondary, List.mem_append, List.mem_singleton, h₃₃, h₁,
    mem_entrySectors (show n - 33 + 32 < 2 ^ 64 by omega)] at hx
  rcases hx with ⟨i, hi, rfl⟩ | rfl
  · change n - 33 ≤ n - 33 + i ∧ n - 33 + i < n
    omega
  · change n - 33 ≤ n - 1 ∧ n - 1 < n
    omega

/-- The writes of one GPT. -/
def GptTable.Write (T : GptTable) (n : ℕ) (v : Splice.Write UInt8) : Prop :=
  ∃ x ∈ T.primary ++ T.secondary n, v = sectorWrite 1 x

/-- What `usb_scsi_write_gpt` does on a stick of `n` sectors: `T` is its table. -/
structure GptDone (n : ℕ) (T : GptTable) (w : World Stick) (r : ℤ) (t : World Stick) : Prop where
  stage : Stage (T.Write n) w t
  primary : w.drv.gCacheSectors = 0 → ConfirmedBelow 34 w t → ∀ x ∈ T.primary, HoldsSector t.dev.medium x
  full : w.drv.gCacheSectors = 0 → Confirmed w t → r = 0 ∧
    ∀ x ∈ T.primary ++ T.secondary n, HoldsSector t.dev.medium x

/-- The state between two commands of `usb_scsi_write_gpt`, the sectors `done` written. -/
structure GptSoFar (n : ℕ) (T : GptTable) (done : List (ℕ × Buf)) (w t : World Stick) : Prop where
  stage : Stage (T.Write n) w t
  holds : w.drv.gCacheSectors = 0 → ∀ x ∈ done, HoldsSector t.dev.medium x

namespace GptSoFar

variable {n : ℕ} {T : GptTable} {done : List (ℕ × Buf)} {w t u : World Stick}

theorem quiet (h : GptSoFar n T done w t) (hq : Quiet t u) : GptSoFar n T done w u := by
  refine ⟨h.stage.trans (Stage.of_quiet hq _), fun he x hx => ?_⟩
  rw [hq.medium]
  exact h.holds he x hx

/-- More direct writes, to other sectors than those done. -/
theorem each (h : GptSoFar n T done w t) {ws : List (ℕ × Buf)} {r : Bool} (hd : EachDone 1 ws t r u)
    (hws : ∀ x ∈ ws, x ∈ T.primary ++ T.secondary n) (hnew : ∀ x ∈ done, ∀ y ∈ ws, x.1 ≠ y.1) :
    GptSoFar n T done w u := by
  refine ⟨h.stage.trans (Stage.of_each hd fun x hx => ⟨x, hws x hx, rfl⟩), fun he x hx => ?_⟩
  refine (h.holds he x hx).wrote (h.stage.empty he) hd.wrote fun v hv => ?_
  obtain ⟨y, hy, rfl⟩ := List.mem_map.mp hv
  have := hnew x hx y hy
  simp only [sectorWrite]
  omega

/-- Direct writes that all went through. -/
theorem each_done (h : GptSoFar n T done w t) {ws : List (ℕ × Buf)} {r : Bool}
    (hd : EachDone 1 ws t r u) (hr : r = true) (hnd : (ws.map Prod.fst).Nodup)
    (hws : ∀ x ∈ ws, x ∈ T.primary ++ T.secondary n) (hnew : ∀ x ∈ done, ∀ y ∈ ws, x.1 ≠ y.1) :
    GptSoFar n T (done ++ ws) w u := by
  refine ⟨(h.each hd hws hnew).stage, fun he x hx => ?_⟩
  rcases List.mem_append.mp hx with hx | hx
  · exact (h.each hd hws hnew).holds he x hx
  · rw [hd.full hr]
    exact holdsSector_writeAll _ hnd hx

end GptSoFar

/-- One WRITE(10) is a series of one. -/
theorem WriteDone.each {w t : World Stick} {lba blocks : ℕ} {data : Buf} {r : ℤ}
    (h : WriteDone w lba blocks data r t) (hl : lba < 4294967296) :
    EachDone blocks [(lba, data)] w (decide (r = 0)) t where
  frame := h.frame
  ready := h.ready
  wrote := h.wrote (List.mem_singleton_self _)
  empty := h.empty
  full hr := congrArg Store.medium (h.store_of_done (of_decide_eq_true hr))
  confirmed _ hm hc := decide_eq_true (h.confirmed hl (hm _ (List.mem_singleton_self _)) hc)

/-- A command below block 34 that failed on the way, and the early return after it. -/
theorem GptSoFar.failed {n : ℕ} {T : GptTable} {done : List (ℕ × Buf)} {w t u : World Stick} (r : ℤ)
    (h : GptSoFar n T done w u) (hwt : w.trace <+: t.trace) (hfail : ¬ConfirmedBelow 34 t u) :
    GptDone n T w r u :=
  ⟨h.stage, fun _ hc => absurd (Since.right hc hwt) hfail,
    fun _ hc => absurd (Since.right (hc.below 34) hwt) hfail⟩

/-- The second half of `usb_scsi_write_gpt`, with the protective MBR on the medium. -/
theorem wp_writeGptSectors {n : ℕ} {T : GptTable} (hpos : 67 ≤ n) (hn : n ≤ 4294967296)
    (hbackup : T.backup = sealHeader (backupHeader n T.header)) {w t : World Stick} (ht : Ready t)
    (h : GptSoFar n T [(0, T.mbr)] w t) :
    Prog.wp (writeGptSectors stick n T.entries T.header) (GptDone n T w) (fun _ => False) t := by
  have h₃₃ : u64 ((n : ℤ) - 33) = n - 33 := by unfold u64; omega
  have h₁ : u64 ((n : ℤ) - 1) = n - 1 := by unfold u64; omega
  have hlow := T.primary_lt
  have hhigh := T.secondary_bounds hpos hn
  have hprimary : T.primary = [(0, T.mbr)] ++ [(1, T.header)] ++ entrySectors 2 T.entries := rfl
  have hsecondary : T.secondary n = entrySectors (n - 33) T.entries ++ [(n - 1, T.backup)] := by
    rw [GptTable.secondary, h₃₃, h₁]
  have hheader : (1, T.header) ∈ T.primary ++ T.secondary n := by simp [GptTable.primary]
  have hentries : ∀ x ∈ entrySectors 2 T.entries, x ∈ T.primary ++ T.secondary n ∧ 2 ≤ x.1 ∧ x.1 < 34 := by
    intro x hx
    refine ⟨by rw [hprimary]; simp [hx], ?_⟩
    obtain ⟨i, hi, rfl⟩ := (mem_entrySectors (by decide) _ _).mp hx
    change 2 ≤ 2 + i ∧ 2 + i < 34
    omega
  have hcopies : ∀ x ∈ entrySectors (n - 33) T.entries, x ∈ T.primary ++ T.secondary n ∧
      n - 33 ≤ x.1 ∧ x.1 < n - 1 := by
    intro x hx
    refine ⟨by rw [hsecondary]; simp [hx], ?_⟩
    obtain ⟨i, hi, rfl⟩ := (mem_entrySectors (by omega) _ _).mp hx
    change n - 33 ≤ n - 33 + i ∧ n - 33 + i < n - 1
    omega
  have hlast : (n - 1, T.backup) ∈ T.primary ++ T.secondary n := by rw [hsecondary]; simp
  rw [writeGptSectors, Prog.wp_bind, h₃₃, h₁, ← hbackup]
  refine Prog.wp_mono (wp_write10 ht (show 1 < 4294967296 by decide) (show 1 < 2 ^ 16 by decide) _)
    ?_ (fun _ h => h)
  intro r u hd
  have hone : ∀ x ∈ [(1, T.header)], x ∈ T.primary ++ T.secondary n := by simpa using hheader
  have hnew : ∀ x ∈ [(0, T.mbr)], ∀ y ∈ [(1, T.header)], x.1 ≠ y.1 := by simp
  refine Prog.wp_ite ?_ ?_
  · intro hr
    refine (h.each (hd.each (by decide)) hone hnew).failed _ h.stage.frame.trace fun hc => ?_
    exact hr (hd.confirmed (by decide) (by decide) hc)
  · intro hr
    rw [not_not] at hr
    have hu := h.each_done (hd.each (by decide)) (decide_eq_true hr) (List.nodup_singleton _) hone hnew
    rw [Prog.wp_bind]
    refine Prog.wp_mono (wp_writeEach hd.ready (show 1 < 2 ^ 16 by decide) _ fun x hx => ?_) ?_
      (fun _ h => h)
    · have := (hentries x hx).2
      omega
    intro primary v hp
    have hnew' : ∀ x ∈ [(0, T.mbr)] ++ [(1, T.header)], ∀ y ∈ entrySectors 2 T.entries, x.1 ≠ y.1 := by
      intro x hx y hy
      have := (hentries y hy).2
      simp only [List.cons_append, List.nil_append, List.mem_cons, List.not_mem_nil, or_false] at hx
      rcases hx with rfl | rfl <;> dsimp only <;> omega
    refine Prog.wp_ite ?_ ?_
    · intro hr
      refine (hu.each hp (fun x hx => (hentries x hx).1) hnew').failed _ hu.stage.frame.trace fun hc => ?_
      exact absurd (hr.symm.trans (hp.confirmed 34 (fun x hx => (hentries x hx).2.2) hc)) (by decide)
    · intro hr
      rw [Bool.not_eq_false] at hr
      -- the primary table is on the medium, and what follows goes to other sectors
      have hv : GptSoFar n T T.primary w v := hu.each_done hp hr
        (entrySectors_nodup (by decide) _) (fun x hx => (hentries x hx).1) hnew'
      rw [Prog.wp_bind]
      refine Prog.wp_mono (wp_writeEach hp.ready (show 1 < 2 ^ 16 by decide) _ fun x hx => ?_) ?_
        (fun _ h => h)
      · have := (hcopies x hx).2
        omega
      intro secondary x hs
      have hsnew : ∀ y ∈ T.primary, ∀ z ∈ entrySectors (n - 33) T.entries, y.1 ≠ z.1 := by
        intro y hy z hz
        have := hlow y hy
        have := (hcopies z hz).2
        omega
      rw [Prog.wp_bind]
      refine Prog.wp_mono (wp_write10 hs.ready (show n - 1 < 4294967296 by omega)
        (show 1 < 2 ^ 16 by decide) _) ?_ (fun _ h => h)
      intro r' y hb
      have hbnew : ∀ z ∈ T.primary, ∀ z' ∈ [(n - 1, T.backup)], z.1 ≠ z'.1 := by
        intro z hz z' hz'
        have := hlow z hz
        rw [List.mem_singleton.mp hz']
        dsimp only
        omega
      rw [Prog.wp_bind]
      refine Prog.wp_mono (wp_syncCache hb.ready) ?_ (fun _ h => h)
      intro _ z hz
      have hbone : ∀ z ∈ [(n - 1, T.backup)], z ∈ T.primary ++ T.secondary n := by simpa using hlast
      have hfinal : GptSoFar n T T.primary w z := ((hv.each hs (fun x hx => (hcopies x hx).1) hsnew).each
        (hb.each (by omega)) hbone hbnew).quiet hz.quiet
      refine ⟨hfinal.stage, fun he _ => hfinal.holds he, fun he hc => ⟨rfl, ?_⟩⟩
      have hsdone : secondary = true := hs.confirmed n (fun x hx => by have := (hcopies x hx).2; omega) <|
        Since.left (Since.right (hc.below n) hv.stage.frame.trace) hs.frame.trace
          (hb.frame.trace.trans hz.frame.trace)
      have hbdone : r' = 0 := hb.confirmed (by omega) (show n - 1 < n by omega) <|
        Since.left (Since.right (Since.right (hc.below n) hv.stage.frame.trace) hs.frame.trace)
          hb.frame.trace hz.frame.trace
      have hx := hv.each_done hs hsdone (entrySectors_nodup (by omega) _) (fun x hx => (hcopies x hx).1) hsnew
      have hy := (hx.each_done (hb.each (by omega)) (decide_eq_true hbdone) (List.nodup_singleton _) hbone
        fun a ha b hb' => ?_).quiet hz.quiet
      · rw [hsecondary, ← List.append_assoc]
        exact hy.holds he
      · rcases List.mem_append.mp ha with ha | ha
        · exact hbnew a ha b hb'
        · have := (hcopies a ha).2
          rw [List.mem_singleton.mp hb']
          dsimp only
          omega

/-- The table `usb_scsi_write_gpt` encodes in a state: the random bytes are those of its next rolls. -/
def rolledTable (w : World Stick) (partitionSectors : ℕ) (fsType : ℤ) : GptTable :=
  gptTable w.drv.gSectorCount partitionSectors fsType (rolled w.dev.spec w.dev.rolls 4)
    (rolled w.dev.spec (w.dev.rolls + 4) 16) (rolled w.dev.spec (w.dev.rolls + 20) 16)

theorem wp_usbScsiWriteGpt {w : World Stick} (hw : Ready w) (hpos : 67 ≤ w.drv.gSectorCount)
    (hn : w.drv.gSectorCount ≤ 4294967296) (partitionSectors : ℕ) (fsType : ℤ) :
    Prog.wp (usbScsiWriteGpt stick partitionSectors fsType)
      (GptDone w.drv.gSectorCount (rolledTable w partitionSectors fsType) w) (fun _ => False) w := by
  obtain ⟨T, hT⟩ : ∃ T, T = rolledTable w partitionSectors fsType := ⟨_, rfl⟩
  have hmbr : T.mbr = protectiveMbr (rolled w.dev.spec w.dev.rolls 4) w.drv.gSectorCount := by rw [hT]; rfl
  rw [usbScsiWriteGpt, Prog.wp_bind, wp_globals, Prog.wp_bind, ← hT]
  refine Prog.wp_mono (wp_randBytes hw 4) ?_ (fun _ h => h)
  rintro sig t ⟨rfl, hq, hroll⟩
  rw [Prog.wp_bind, ← hmbr]
  refine Prog.wp_mono (wp_write10 hq.ready (show 0 < 4294967296 by decide) (show 1 < 2 ^ 16 by decide) _)
    ?_ (fun _ h => h)
  intro r u hd
  have hstart : GptSoFar w.drv.gSectorCount T [] w t :=
    ⟨Stage.of_quiet hq _, fun _ x hx => absurd hx List.not_mem_nil⟩
  have hone : ∀ x ∈ [(0, T.mbr)], x ∈ T.primary ++ T.secondary w.drv.gSectorCount := fun x hx => by
    rw [List.mem_singleton.mp hx]
    simp [GptTable.primary]
  have hnew : ∀ x ∈ ([] : List (ℕ × Buf)), ∀ y ∈ [(0, T.mbr)], x.1 ≠ y.1 := by simp
  refine Prog.wp_ite ?_ ?_
  · intro hr
    refine (hstart.each (hd.each (by decide)) hone hnew).failed _ hq.frame.trace fun hc => ?_
    exact hr (hd.confirmed (by decide) (by decide) hc)
  · intro hr
    rw [not_not] at hr
    have hu := hstart.each_done (hd.each (by decide)) (decide_eq_true hr) (List.nodup_singleton _) hone hnew
    rw [Prog.wp_bind]
    refine Prog.wp_mono (wp_randBytes hd.ready 16) ?_ (fun _ h => h)
    rintro guid v ⟨hguid, hqv, hroll'⟩
    rw [Prog.wp_bind]
    refine Prog.wp_mono (wp_randBytes hqv.ready 16) ?_ (fun _ h => h)
    rintro diskGuid x ⟨hdisk, hqx, -⟩
    have hspec : v.dev.spec = w.dev.spec := hqv.frame.spec.trans (hd.frame.spec.trans hq.frame.spec)
    rw [hd.rolls, hroll, hd.frame.spec, hq.frame.spec] at hguid
    rw [hroll', hd.rolls, hroll, hspec] at hdisk
    have hentries : T.entries =
        gptEntries fsType guid (gptPartitionEnd w.drv.gSectorCount partitionSectors) := by
      rw [hT, hguid]
      rfl
    have hheader : T.header =
        sealHeader (gptHeader w.drv.gSectorCount diskGuid (crc32 0 T.entries (512 * 32))) := by
      rw [hentries, hguid, hdisk, hT]
      rfl
    have hbackup : T.backup = sealHeader (backupHeader w.drv.gSectorCount T.header) := by
      rw [hT]
      rfl
    rw [← hentries]
    dsimp only
    rw [← hheader]
    have hrest := wp_writeGptSectors hpos hn hbackup hqx.ready ((hu.quiet hqv).quiet hqx)
    exact Prog.wp_mono hrest (fun _ _ h => h) (fun _ h => h)

end FormatStick
