import FormatStick.F2fsIo
import Mathlib.Data.List.Induction

/-!
# The F2FS adapter as a store

A store returns at every byte what was last written or zeroed there. The reads and writes
of the adapter agree with each other, the fills never reach the stick. A run presents one
store exactly where no read meets a byte that a fill should have changed.
-/
namespace FormatStick
open Splice

namespace F2fs

/-- What a call does to a store of bytes, with places as offset and length. -/
inductive Effect
  | write (buf : Buf) (offset len : ℕ)
  | fill (places : List (ℕ × ℕ))
  | read (offset len : ℕ)

/-- The byte lies in one of the places. -/
def Within (places : List (ℕ × ℕ)) (i : ℕ) : Prop := ∃ p ∈ places, p.1 ≤ i ∧ i < p.1 + p.2

instance (places : List (ℕ × ℕ)) (i : ℕ) : Decidable (Within places i) :=
  inferInstanceAs (Decidable (∃ _ ∈ _, _ ∧ _))

/-- The segments that `fillSegments` zeroes. -/
def segments (segSize step : ℕ) : ℕ → ℕ → List (ℕ × ℕ)
  | 0, _ => []
  | n + 1, segAddr => (segAddr, segSize) :: segments segSize step n (u64 (segAddr + step))

/-- The half of an area that its initialisation zeroes. -/
def SuperBlock.area (sb : SuperBlock) (blkaddr segmentCount step : ℕ) : List (ℕ × ℕ) :=
  segments sb.segSize step (segmentCount / 2) (u64 (blkaddr * sb.blkSize))

def Call.effect : Call → Effect
  | .devWrite buf offset len => .write buf offset len
  | .devFill offset len => .fill [(offset, len)]
  | .devWriteBlock buf blkAddr => .write buf (blockOffset blkAddr) f2fsBlksize
  | .devFillBlock blkAddr => .fill [(blockOffset blkAddr, f2fsBlksize)]
  | .devRead _ offset len => .read offset len
  | .devReadBlock _ blkAddr => .read (blockOffset blkAddr) f2fsBlksize
  | .initSitArea sb => .fill (sb.area sb.sitBlkaddr sb.segmentCountSit sb.segSize)
  | .initNatArea sb => .fill (sb.area sb.natBlkaddr sb.segmentCountNat (u32 (2 * sb.segSize)))

/-- The store after one call. -/
def Effect.hold (a : ℕ → UInt8) : Effect → ℕ → UInt8
  | .write buf offset len => splice a offset buf len
  | .fill places => fun i => if Within places i then 0 else a i
  | .read _ _ => a

/-- The store after one call whose fill is left out. -/
def Effect.put (a : ℕ → UInt8) : Effect → ℕ → UInt8
  | .write buf offset len => splice a offset buf len
  | _ => a

/-- What a store holds after a list of calls. -/
def held (a : ℕ → UInt8) (calls : List Call) : ℕ → UInt8 := calls.foldl (fun b call => call.effect.hold b) a

/-- What the writes among them alone leave. -/
def written (a : ℕ → UInt8) (calls : List Call) : ℕ → UInt8 := calls.foldl (fun b call => call.effect.put b) a

/-- The last call that wrote or filled the byte filled it. -/
def Effect.FilledAfter (i : ℕ) (before : Prop) : Effect → Prop
  | .write _ offset len => ¬(offset ≤ i ∧ i < offset + len) ∧ before
  | .fill places => Within places i ∨ before
  | .read _ _ => before

def Filled (calls : List Call) (i : ℕ) : Prop := calls.foldl (fun p call => call.effect.FilledAfter i p) False

/-- Every read returns what `store` holds after the calls before it. -/
def ReadsBack (store : List Call → ℕ → UInt8) (calls : List Call) (rs : List Result) : Prop :=
  ∀ before call after, calls = before ++ call :: after → ∀ offset len, call.effect = .read offset len →
    rs[before.length]? = some (0, bytes (window (store before) offset) len)

/-- The calls presented one store that held `a` at first. -/
def Coherent (a : ℕ → UInt8) (calls : List Call) (rs : List Result) : Prop := ReadsBack (held a) calls rs

/-- No read meets a byte that a fill should have changed. -/
def FillsUnseen (a : ℕ → UInt8) (calls : List Call) : Prop :=
  ∀ before call after, calls = before ++ call :: after → ∀ offset len, call.effect = .read offset len →
    ∀ i, offset ≤ i → i < offset + len → Filled before i → written a before i = 0

/-- The reads and writes that the driver's 32-bit loop is made for, with the drive offset at
block `d`. -/
def Effect.InRange (d : ℕ) : Effect → Prop
  | .write _ offset len | .read offset len =>
    offset < 2 ^ 63 ∧ len < 2 ^ 32 - 1024 ∧ (0 < len → d * 512 + offset + len ≤ 2 ^ 32 * 512)
  | .fill _ => True

instance (d : ℕ) : (e : Effect) → Decidable (e.InRange d)
  | .write _ _ _ | .read _ _ => inferInstanceAs (Decidable (_ ∧ _ ∧ (_ → _)))
  | .fill _ => inferInstanceAs (Decidable True)

section Store

variable {a : ℕ → UInt8}

@[simp] theorem held_append_singleton (calls : List Call) (call : Call) :
    held a (calls ++ [call]) = call.effect.hold (held a calls) := by simp [held]

@[simp] theorem written_append_singleton (calls : List Call) (call : Call) :
    written a (calls ++ [call]) = call.effect.put (written a calls) := by simp [written]

@[simp] theorem filled_append_singleton (calls : List Call) (call : Call) (i : ℕ) :
    Filled (calls ++ [call]) i ↔ call.effect.FilledAfter i (Filled calls i) := by simp [Filled]

@[simp] theorem not_filled_nil (i : ℕ) : ¬Filled [] i := by simp [Filled]

/-- A filled byte is zero, every other byte is what the writes left. -/
theorem held_of_filled (calls : List Call) (i : ℕ) :
    (Filled calls i → held a calls i = 0) ∧ (¬Filled calls i → held a calls i = written a calls i) := by
  induction calls using List.reverseRecOn with
  | nil => simp [held, written]
  | append_singleton calls call ih =>
    rw [filled_append_singleton, held_append_singleton, written_append_singleton]
    cases call.effect with
    | write buf offset len =>
      by_cases hi : offset ≤ i ∧ i < offset + len
      · simp [Effect.FilledAfter, Effect.hold, Effect.put, splice, hi]
      · simpa [Effect.FilledAfter, Effect.hold, Effect.put, splice, hi] using ih
    | fill places =>
      by_cases hi : Within places i
      · simp [Effect.FilledAfter, Effect.hold, hi]
      · simpa [Effect.FilledAfter, Effect.hold, Effect.put, hi] using ih
    | read offset len => exact ih

theorem held_eq_written_iff (calls : List Call) (i : ℕ) :
    written a calls i = held a calls i ↔ (Filled calls i → written a calls i = 0) := by
  obtain ⟨hfilled, hnot⟩ := held_of_filled (a := a) calls i
  by_cases hi : Filled calls i
  · simp [hi, hfilled hi]
  · simp [hi, hnot hi]

theorem bytes_eq_iff (b b' : Buf) (n : ℕ) : bytes b n = bytes b' n ↔ ∀ i < n, b i = b' i := by
  simp [bytes]

/-- Reads that return what the writes left return what the store holds exactly where no fill
is seen. -/
theorem ReadsBack.coherent_iff {calls : List Call} {rs : List Result} (h : ReadsBack (written a) calls rs) :
    Coherent a calls rs ↔ FillsUnseen a calls := by
  have hread : ∀ before offset len, bytes (window (written a before) offset) len =
      bytes (window (held a before) offset) len ↔
      ∀ i, offset ≤ i → i < offset + len → Filled before i → written a before i = 0 := by
    intro before offset len
    rw [bytes_eq_iff]
    constructor
    · intro hb i hlo hhi
      have := hb (i - offset) (by omega)
      rw [window_apply, window_apply, Nat.add_sub_cancel' hlo] at this
      exact (held_eq_written_iff before i).mp this
    · intro hb i hi
      exact (held_eq_written_iff before (offset + i)).mpr (hb _ (by omega) (by omega))
  constructor
  · intro hc before call after hcalls offset len heffect
    have heq := (h before call after hcalls offset len heffect).symm.trans
      (hc before call after hcalls offset len heffect)
    simp only [Option.some.injEq, Prod.mk.injEq, true_and] at heq
    exact (hread before offset len).mp heq
  · intro hu before call after hcalls offset len heffect
    rw [h before call after hcalls offset len heffect,
      (hread before offset len).mpr (hu before call after hcalls offset len heffect)]

end Store

section Run

variable {φ : Type} {c : Configuration} {F : Files φ} {d fuel : ℕ} {a : ℕ → UInt8} {s : World Stick × φ}

/-- A fill leaves the stick and its driver alone. -/
theorem wp_devFill (buf : Buf) (offset len : ℕ) :
    Prog.wp (devFill c F buf offset len) (fun _ t => t.1 = s.1) (fun _ => False) s := by
  unfold devFill
  refine Prog.wp_ite (fun _ => rfl) fun _ => Prog.wp_ite (fun _ => rfl) fun _ =>
    Prog.wp_ite (fun _ => rfl) fun _ => ?_
  simp only [Prog.wp_bind, Prog.wp_right]
  refine Prog.wp_ite (fun _ => rfl) fun _ => ?_
  simp

theorem wp_fillSegments (segSize step n segAddr : ℕ) :
    Prog.wp (fillSegments c F segSize step n segAddr) (fun _ t => t.1 = s.1) (fun _ => False) s := by
  induction n generalizing segAddr s with
  | zero => rfl
  | succ n ih =>
    rw [fillSegments, Prog.wp_bind]
    refine Prog.wp_mono (wp_devFill zeros segAddr segSize) ?_ (fun _ h => h)
    intro r t ht
    refine Prog.wp_ite (fun _ => ht) fun _ => ?_
    exact Prog.wp_mono (ih _) (fun _ _ h => h.trans ht) fun _ h => h

/-- The initialisation of an area takes its buffer from the heap and no more. -/
theorem wp_initArea (hs : Tracks d a s.1) (sb : SuperBlock) (blkaddr segmentCount step : ℕ) :
    Prog.wp (initArea c F stick sb blkaddr segmentCount step) (fun _ t => Tracks d a t.1)
      (fun _ => False) s := by
  rw [initArea, Prog.wp_bind, Prog.wp_left, wp_malloc]
  have hheap : Tracks d a { s.1 with dev := (stick.malloc s.1.dev).2 } :=
    ⟨⟨hs.ready.sectorSize, hs.ready.blockSize, hs.ready.fill, hs.ready.allocated, hs.ready.reach⟩,
      hs.faultless,
      hs.driveOffset, hs.view⟩
  refine Prog.wp_ite (fun _ => ?_) fun _ => hheap
  exact Prog.wp_mono (wp_fillSegments _ _ _ _) (fun _ _ h => h ▸ hheap) fun _ h => h

/-- A read takes its bytes from what the writes left. -/
theorem wp_devRead (hc : c.Usb) (hs : Tracks d a s.1) (hfuel : 2 ^ 32 ≤ fuel) (buf : Buf) {offset len : ℕ}
    (hin : (Effect.read offset len).InRange d) :
    Prog.wp (devRead c F stick fuel buf offset len)
      (fun r t => (r.1, bytes r.2 len) = (0, bytes (window a offset) len) ∧ Tracks d a t.1)
        (fun _ => False) s := by
  obtain ⟨hoffset, hlen, hreach⟩ := hin
  have hop : (Op.pread buf len offset).InRange d := ⟨by omega, by omega, by omega, fun h => by omega⟩
  have hrun := hs.wp_runOp hfuel hop.fits
  simp only [runOp, Prog.wp_bind, Prog.wp_pure] at hrun
  rw [devRead, if_pos hc, i64_of_lt hoffset, i64_of_lt (by omega), Prog.wp_bind, Prog.wp_left]
  refine Prog.wp_mono hrun ?_ (fun _ h => h)
  rintro r t ⟨-, hr, ht⟩
  simp only [FlatArray.result, Int.toNat_natCast, Prod.mk.injEq] at hr
  refine ⟨?_, ht⟩
  simp [hr.1, hr.2]

theorem wp_devWrite (hc : c.Usb) (hs : Tracks d a s.1) (hfuel : 2 ^ 32 ≤ fuel) {buf : Buf} {offset len : ℕ}
    (hin : (Effect.write buf offset len).InRange d) :
    Prog.wp (devWrite c F stick fuel buf offset len) (fun _ t => Tracks d (splice a offset buf len) t.1)
      (fun _ => False) s := by
  obtain ⟨hoffset, hlen, hreach⟩ := hin
  have hop : (Op.pwrite buf len offset).InRange d := ⟨by omega, by omega, by omega, fun h => by omega⟩
  have hrun := hs.wp_runOp hfuel hop.fits
  simp only [runOp, Prog.wp_bind, Prog.wp_pure] at hrun
  rw [devWrite, if_pos hc, i64_of_lt hoffset, i64_of_lt (by omega), Prog.wp_bind, Prog.wp_left]
  refine Prog.wp_mono hrun ?_ (fun _ h => h)
  rintro r t ⟨-, -, ht⟩
  exact ht

theorem wp_plain {m : Prog (World Stick × φ) ℤ} {I : World Stick × φ → Prop}
    (h : Prog.wp m (fun _ t => I t) (fun _ => False) s) :
    Prog.wp (plain m) (fun _ t => I t) (fun _ => False) s := by
  rw [plain, Prog.wp_bind]
  exact h

/-- One call: the stick follows its writes, and its read takes the bytes from there. -/
theorem wp_run (hc : c.Usb) (hs : Tracks d a s.1) (hfuel : 2 ^ 32 ≤ fuel) {call : Call}
    (hin : call.effect.InRange d) :
    Prog.wp (call.run c F stick fuel)
      (fun r t => Tracks d (call.effect.put a) t.1 ∧
        ∀ offset len, call.effect = .read offset len → r = (0, bytes (window a offset) len))
      (fun _ => False) s := by
  have hquiet : ∀ {m : Prog (World Stick × φ) ℤ} {b : ℕ → UInt8},
      Prog.wp m (fun _ t => Tracks d b t.1) (fun _ => False) s →
        (∀ offset len, call.effect ≠ .read offset len) →
      Prog.wp (plain m) (fun r t => Tracks d b t.1 ∧
        ∀ offset len, call.effect = .read offset len → r = (0, bytes (window a offset) len))
          (fun _ => False) s :=
    fun h hno => Prog.wp_mono (wp_plain h) (fun _ _ ht => ⟨ht, fun o l he => absurd he (hno o l)⟩)
      fun _ h => h
  have hfill : ∀ offset len, Prog.wp (devFill c F zeros offset len) (fun _ t => Tracks d a t.1)
      (fun _ => False) s :=
    fun offset len => Prog.wp_mono (wp_devFill zeros offset len) (fun _ _ h => h ▸ hs) fun _ h => h
  cases call with
  | devWrite buf offset len => exact hquiet (wp_devWrite hc hs hfuel hin) (by simp [Call.effect])
  | devFill offset len => exact hquiet (hfill offset len) (by simp [Call.effect])
  | devWriteBlock buf blkAddr => exact hquiet (wp_devWrite hc hs hfuel hin) (by simp [Call.effect])
  | devFillBlock blkAddr => exact hquiet (hfill _ _) (by simp [Call.effect])
  | devRead buf offset len =>
    rw [Call.run, Prog.wp_bind]
    refine Prog.wp_mono (wp_devRead hc hs hfuel buf hin) ?_ fun _ h => h
    rintro r t ⟨hr, ht⟩
    refine ⟨ht, fun o l he => ?_⟩
    obtain ⟨rfl, rfl⟩ : offset = o ∧ len = l := by simpa [Call.effect] using he
    exact hr
  | devReadBlock buf blkAddr =>
    rw [Call.run, Prog.wp_bind]
    refine Prog.wp_mono (wp_devRead hc hs hfuel buf hin) ?_ fun _ h => h
    rintro r t ⟨hr, ht⟩
    refine ⟨ht, fun o l he => ?_⟩
    obtain ⟨rfl, rfl⟩ : blockOffset blkAddr = o ∧ f2fsBlksize = l := by simpa [Call.effect] using he
    exact hr
  | initSitArea sb => exact hquiet (wp_initArea hs _ _ _ _) (by simp [Call.effect])
  | initNatArea sb => exact hquiet (wp_initArea hs _ _ _ _) (by simp [Call.effect])

/-- The run lemma: every read returns what the writes before it left. -/
theorem wp_runCalls (hc : c.Usb) (hs : Tracks d a s.1) (hfuel : 2 ^ 32 ≤ fuel) {calls : List Call}
    (hin : ∀ call ∈ calls, call.effect.InRange d) :
    Prog.wp (runCalls c F stick fuel calls) (fun rs _ => ReadsBack (written a) calls rs)
      (fun _ => False) s := by
  induction calls generalizing a s with
  | nil =>
    intro before call after hcalls
    simp at hcalls
  | cons call calls ih =>
    rw [runCalls, Prog.wp_bind]
    refine Prog.wp_mono (wp_run hc hs hfuel (hin call List.mem_cons_self)) ?_ (fun _ h => h)
    rintro r t ⟨ht, hr⟩
    rw [Prog.wp_bind]
    refine Prog.wp_mono (ih ht fun call' h => hin call' (List.mem_cons_of_mem _ h)) ?_ (fun _ h => h)
    intro rs u hrs before call' after hcalls offset len heffect
    cases before with
    | nil =>
      obtain ⟨rfl, -⟩ : call = call' ∧ calls = after := by simpa using hcalls
      simp [hr offset len heffect, written]
    | cons first before =>
      obtain ⟨rfl, hrest⟩ : call = first ∧ calls = before ++ call' :: after := by simpa using hcalls
      simpa [written] using hrs before call' after hrest offset len heffect

end Run

/-- A read inside what the call before it filled returns zeros exactly where the writes had left
zeros. -/
theorem ReadsBack.zero_iff {a : ℕ → UInt8} {calls before after : List Call} {rs : List Result}
    (h : ReadsBack (written a) calls rs) {fill read : Call} (hcalls : calls = before ++ fill :: read :: after)
    {places : List (ℕ × ℕ)} (hfill : fill.effect = .fill places) {offset len : ℕ}
    (hread : read.effect = .read offset len) :
    ∃ r, rs[before.length + 1]? = some r ∧
      (r.2 = bytes zeros len ↔ ∀ i, offset ≤ i → i < offset + len → written a before i = 0) := by
  have hback := h (before ++ [fill]) read after (by simp [hcalls]) offset len hread
  rw [List.length_append, List.length_singleton, written_append_singleton, hfill] at hback
  refine ⟨_, hback, ?_⟩
  rw [bytes_eq_iff]
  constructor
  · intro hb i hlo hhi
    have := hb (i - offset) (by omega)
    rwa [window_apply, Nat.add_sub_cancel' hlo] at this
  · intro hb i hi
    exact hb _ (by omega) (by omega)

/-- The adapter presents one store exactly in the runs whose reads meet no byte that a fill
should have changed; what a fill left is zero exactly where it was zero before. -/
theorem coherent_iff_fillsUnseen {φ : Type} {c : Configuration} (hc : c.Usb) (F : Files φ)
    {s : World Stick × φ}
    (hidle : Idle s.1) (hf : Faultless s.1.dev.spec) (calls : List Call)
    (hin : ∀ call ∈ calls, call.effect.InRange s.1.drv.gDriveOffsetSectors) {fuel : ℕ}
    (hfuel : 2 ^ 32 ≤ fuel) :
    let a := window s.1.dev.medium (s.1.drv.gDriveOffsetSectors * 512)
    ∃ rs t, runCalls c F stick fuel calls s = (some rs, t) ∧
      ((∀ r ∈ rs, r.1 = 0) →
        (Coherent a calls rs ↔ FillsUnseen a calls) ∧
        ∀ before after fill read places offset len, calls = before ++ fill :: read :: after →
          fill.effect = .fill places → read.effect = .read offset len →
          ∃ r, rs[before.length + 1]? = some r ∧
            (r.2 = bytes zeros len ↔ ∀ i, offset ≤ i → i < offset + len → written a before i = 0)) := by
  intro a
  obtain ⟨rs, t, hrun, hrs⟩ := Prog.wp_returns (wp_runCalls hc (hidle.tracks hf) hfuel hin (F := F))
  refine ⟨rs, t, hrun, fun _ => ⟨hrs.coherent_iff, ?_⟩⟩
  intro before after fill read places offset len hcalls hfill hread
  exact hrs.zero_iff hcalls hfill hread

/-- Descriptor 0, where everything succeeds and nothing is kept. -/
def devNull : Files Unit where
  lseek _ offset _ := (offset, ())
  read _ buf _ _ := ((0, buf), ())
  write _ _ len _ := (len, ())
  dcacheRead _ buf _ _ _ := ((1, buf), ())
  dcacheUpdateCache _ _ _ _ _ := (1, ())

/-- The configuration for a volume of 30 GiB, as `get_device_info` and
`f2fs_prepare_super_block` leave it. -/
def volumeConfiguration : Configuration where
  devices := [⟨some "usb_device", 0, 0, 7864319⟩]
  first := by simp
  dryRun := false
  sparseMode := false

def volumeSuperBlock : SuperBlock := ⟨12, 9, 1536, 2, 2560, 68⟩

/-- A stick whose volume was wiped up to 128 MiB and holds ones behind. -/
def wipedStick : World Stick :=
  { onesStick with dev := { onesStick.dev with medium := fun i => if i < 136314880 then 0 else 1 } }

/-- A byte of the NAT area behind the wipe, after the area was filled. -/
theorem coherent_natArea :
    let calls : List Call := [.initNatArea volumeSuperBlock, .devRead zeros 136314880 1]
    ∃ t, runCalls volumeConfiguration devNull stick 4 calls (wipedStick, ()) = (some [(0, []), (0, [1])], t) ∧
      ¬Coherent (window wipedStick.dev.medium (4096 * 512)) calls [(0, []), (0, [1])] := by
  intro calls
  refine ⟨_, Prog.eq_of_fst (by decide +kernel), fun h => ?_⟩
  have hback := h [.initNatArea volumeSuperBlock] (.devRead zeros 136314880 1) [] rfl _ _ rfl
  exact absurd hback (by decide +kernel)

/-- A write, a fill of bytes that were zero, and a read across both. -/
def wipedCalls : List Call := [.devWriteBlock (fun _ => 7) 0, .devFillBlock 1, .devRead zeros 4094 4]

theorem wipedCalls_fillsUnseen : FillsUnseen (window wipedStick.dev.medium (4096 * 512)) wipedCalls := by
  intro before call after hcalls offset len heffect i _ _ hfilled
  -- the read is the third call
  obtain ⟨rfl, rfl⟩ : before = [.devWriteBlock (fun _ => 7) 0, .devFillBlock 1] ∧
      call = .devRead zeros 4094 4 := by
    rcases before with _ | ⟨first, _ | ⟨second, _ | ⟨third, before⟩⟩⟩ <;> simp [wipedCalls] at hcalls
    · simp [← hcalls.1, Call.effect] at heffect
    · simp [← hcalls.2.1, Call.effect] at heffect
    · simp [← hcalls.1, ← hcalls.2.1, ← hcalls.2.2.1]
  have hi : 4096 ≤ i ∧ i < 4096 + 4096 := by
    rcases hfilled with ⟨p, hp, hplace⟩ | ⟨-, hno⟩
    · obtain rfl : p = (blockOffset 1, f2fsBlksize) := by simpa using hp
      exact hplace
    · exact absurd hno (by simp)
  have hwritten : written (window wipedStick.dev.medium (4096 * 512))
      [.devWriteBlock (fun _ => 7) 0, .devFillBlock 1] i =
      splice (window wipedStick.dev.medium (4096 * 512)) 0 (fun _ => 7) 4096 i := rfl
  rw [hwritten, splice_of_ge (by omega)]
  simp only [wipedStick, window_apply]
  rw [if_pos (by omega)]

theorem coherent_iff_fillsUnseen_wiped :
    ∃ rs t, runCalls volumeConfiguration devNull stick (2 ^ 32) wipedCalls (wipedStick, ()) = (some rs, t) ∧
      ((∀ r ∈ rs, r.1 = 0) → Coherent (window wipedStick.dev.medium (4096 * 512)) wipedCalls rs) := by
  obtain ⟨rs, t, hrun, hrs⟩ :=
    coherent_iff_fillsUnseen (c := volumeConfiguration) rfl devNull (s := (wipedStick, ()))
    ⟨rfl, rfl, rfl⟩ ⟨fun _ => rfl, fun _ => rfl⟩ wipedCalls (by decide) (Nat.le_refl _)
  exact ⟨rs, t, hrun, fun hzero => (hrs hzero).1.mpr wipedCalls_fillsUnseen⟩

end F2fs

end FormatStick
