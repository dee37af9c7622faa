import FormatStick.Exfat
import FormatStick.FatArithmetic

/-!
# Runs of the exFAT formatter

The formatter touches the driver by write requests alone. On a device that obliges, whatever it
erases or writes goes through, so that only its own arithmetic can stop it.
-/
namespace FormatStick.Exfat
open Prog

section Keeps

variable {δ : Type} {P : Platform δ} {fuel : ℕ} {I : World δ → Prop}

/-- A property of the process, whatever the position. -/
def InWorld (I : World δ → Prop) (s : Device δ) : Prop := I s.1

theorem keeps_left {α : Type} {m : Prog (World δ) α} (h : Keeps I m) :
    Keeps (InWorld I) (m.left : Prog (Device δ) α) :=
  fun s hs => h s.1 hs

theorem keeps_alongside {α : Type} {m : Prog (Device δ) α} (h : Keeps (InWorld I) m) (pos : Option ℤ) :
    Keeps I (m.alongside pos) := fun w hw => h (w, pos) hw

theorem keeps_atPosition {α : Type} {f : ℤ → Prog (Device δ) α} (h : ∀ pos, Keeps (InWorld I) (f pos)) :
    Keeps (InWorld I) (atPosition f) := by
  refine keeps_read.bind fun s => ?_
  cases s.2 with
  | none => exact keeps_cut
  | some pos => exact h pos

theorem keeps_exfatSeek (p : Params) (offset whence : ℤ) :
    Keeps (InWorld I) (exfatSeek p offset whence : Prog (Device δ) ℤ) := by
  refine keeps_atPosition fun pos => Keeps.bind ?_ fun _ => keeps_pure _
  exact keeps_update fun _ hs => hs

variable (hwrite : ∀ buf count offset, Keeps I (scsiIoInternal P fuel buf count offset true))
include hwrite

theorem keeps_exfatWrite (buf : Buf) (size : ℤ) : Keeps (InWorld I) (exfatWrite P fuel buf size) := by
  refine keeps_atPosition fun pos => Keeps.bind ?_ fun _ => keeps_pure _
  refine (keeps_left (hwrite buf size pos)).bind fun r =>
    Keeps.ite (Keeps.bind ?_ fun _ => keeps_pure _) (keeps_pure _)
  exact keeps_update fun _ hs => hs

theorem keeps_writeAll (ws : List (Buf × ℤ)) : Keeps (InWorld I) (writeAll P fuel ws) := by
  induction ws with
  | nil => exact keeps_pure _
  | cons x ws ih => exact (keeps_exfatWrite hwrite x.1 x.2).bind fun _ => Keeps.ite (keeps_pure _) ih

variable (p : Params)

theorem keeps_eraseObject (start size : ℤ) : Keeps (InWorld I) (eraseObject P fuel p start size) :=
  (keeps_exfatSeek p start seekSet).bind fun _ => Keeps.ite (keeps_pure _) <|
    (keeps_writeAll hwrite _).bind fun _ => keeps_pure _

omit hwrite in
theorem keeps_forObjects {f : FsObject → ℤ → Prog (Device δ) ℤ}
    (hf : ∀ object position, Keeps (InWorld I) (f object position))
    (objects : List FsObject) (position : ℤ) : Keeps (InWorld I) (forObjects p f objects position) := by
  induction objects generalizing position with
  | nil => exact keeps_pure _
  | cons object rest ih => exact (hf _ _).bind fun _ => Keeps.ite (keeps_pure _) (ih _)

theorem keeps_fatWriteEntry (cluster value : ℕ) : Keeps (InWorld I) (fatWriteEntry P fuel cluster value) :=
  (keeps_exfatWrite hwrite _ _).bind fun _ => Keeps.ite (keeps_pure _) (keeps_pure _)

theorem keeps_fatWriteChain (n cluster : ℕ) : Keeps (InWorld I) (fatWriteChain P fuel n cluster) := by
  induction n generalizing cluster with
  | zero => exact keeps_pure _
  | succ n ih => exact (keeps_fatWriteEntry hwrite _ _).bind fun _ => Keeps.ite (keeps_pure _) (ih _)

theorem keeps_fatWriteEntries (cluster : ℕ) (length : ℤ) :
    Keeps (InWorld I) (fatWriteEntries P fuel p cluster length) :=
  (keeps_fatWriteChain hwrite _ _).bind fun _ => Keeps.ite (keeps_pure _) (keeps_fatWriteEntry hwrite _ _)

theorem keeps_fatWrite : Keeps (InWorld I) (fatWrite P fuel p) := by
  have hentry := keeps_fatWriteEntry hwrite
  have hentries := keeps_fatWriteEntries hwrite p
  refine (hentry _ _).bind fun _ =>
    Keeps.ite (keeps_pure _) ((hentry _ _).bind fun _ => Keeps.ite (keeps_pure _) ?_)
  refine (hentries _ _).bind fun _ =>
    Keeps.ite (keeps_pure _) ((hentries _ _).bind fun _ => Keeps.ite (keeps_pure _) ?_)
  exact (hentries _ _).bind fun _ => keeps_pure _

variable (hmalloc : Keeps I (malloc P))
include hmalloc

theorem keeps_erase : Keeps (InWorld I) (erase P fuel p) :=
  (keeps_left hmalloc).bind fun _ => Keeps.ite (keeps_pure _) <|
    keeps_forObjects p (fun _ _ => keeps_eraseObject hwrite p _ _) _ _

theorem keeps_vbrWrite : Keeps (InWorld I) (vbrWrite P fuel p) :=
  (keeps_left hmalloc).bind fun _ => Keeps.ite (keeps_pure _) <|
    (keeps_writeAll hwrite _).bind fun _ => keeps_pure _

theorem keeps_writeObject (upcaseTable : Buf) (object : FsObject) :
    Keeps (InWorld I) (writeObject P fuel p upcaseTable object) := by
  cases object with
  | vbr => exact keeps_vbrWrite hwrite p hmalloc
  | fat => exact keeps_fatWrite hwrite p
  | cbm =>
    refine (keeps_left hmalloc).bind fun _ => Keeps.ite (keeps_pure _) ?_
    exact (keeps_exfatWrite hwrite _ _).bind fun _ => keeps_pure _
  | uct => exact (keeps_exfatWrite hwrite _ _).bind fun _ => keeps_pure _
  | rootdir => exact (keeps_writeAll hwrite _).bind fun _ => keeps_pure _

/-- One object of `create`. -/
theorem keeps_createObject (upcaseTable : Buf) (object : FsObject) (position : ℤ) :
    Keeps (InWorld I) (do
      let r ← exfatSeek p position seekSet
      if r = -1 then pure 1 else writeObject P fuel p upcaseTable object) :=
  (keeps_exfatSeek p _ _).bind fun _ => Keeps.ite (keeps_pure _) (keeps_writeObject hwrite p hmalloc _ _)

theorem keeps_mkfs (upcaseTable : Buf) : Keeps (InWorld I) (mkfs P fuel p upcaseTable) := by
  unfold mkfs
  refine Keeps.ite keeps_cut (Keeps.ite (keeps_pure _) ((keeps_erase hwrite p hmalloc).bind fun _ => ?_))
  refine Keeps.ite (keeps_pure _) (Keeps.bind ?_ fun _ => keeps_pure _)
  exact keeps_forObjects p (keeps_createObject hwrite p hmalloc upcaseTable) _ _

end Keeps

theorem i32_of_lt {x : ℕ} (h : x < 2147483648) : Int.bmod x (2 ^ 32) = x := by
  rw [Int.bmod_def]
  omega

theorem shiftOne_of_lt {bits : ℕ} (h : bits < 31) : shiftOne bits = (2 ^ bits : ℕ) := by
  have hpow : 2 ^ bits < 2 ^ 31 := Nat.pow_lt_pow_right Nat.one_lt_two h
  have hlt : 2 ^ bits < 2147483648 := by omega
  have hcast : ((2 ^ bits : ℕ) : ℤ) = (2 : ℤ) ^ bits := Int.natCast_pow 2 bits
  exact (congrArg (Int.bmod · (2 ^ 32)) hcast.symm).trans (i32_of_lt hlt)

section Size

variable {usable bits serial : ℕ} {label : List ℕ}

theorem getSectorSize_params : getSectorSize (params usable bits serial label) = 512 :=
  @shiftOne_of_lt 9 (by decide)

theorem getClusterSize_eq : getClusterSize (params usable bits serial label) =
    Int.bmod (u64 (512 * 2 ^ bits : ℕ)) (2 ^ 32) := by
  have hsector : u64 (getSectorSize (params usable bits serial label)) = 512 := by
    rw [getSectorSize_params]
    decide
  exact congrArg (fun x : ℕ => Int.bmod (u64 (x * 2 ^ bits : ℕ)) (2 ^ 32)) hsector

/-- An `int` holds the size up to 2^21 sectors. -/
theorem getClusterSize_params (h : bits ≤ 21) :
    getClusterSize (params usable bits serial label) = (512 * 2 ^ bits : ℕ) := by
  have hle : 2 ^ bits ≤ 2 ^ 21 := Nat.pow_le_pow_right Nat.two_pos h
  have hmul : u64 (512 * 2 ^ bits : ℕ) = 512 * 2 ^ bits := u64_of_lt (by omega)
  rw [getClusterSize_eq, hmul]
  exact i32_of_lt (by omega)

/-- The next size is negative. -/
theorem getClusterSize_params_22 : getClusterSize (params usable 22 serial label) = -2147483648 := by
  rw [getClusterSize_eq]
  decide

end Size

section Obliging

variable {δ : Type} {P : Platform δ} {fuel : ℕ}

/-- The device is open. -/
def Opened (s : Device δ) : Prop := Framed s.1 ∧ ∃ pos, s.2 = some pos

/-- What a step of `mkfs` returns when it went through. -/
abbrev Succeeds (m : Prog (Device δ) ℤ) : Prop := Attains Opened (· = 0) m

variable (hP : Obliging P)
include hP

theorem attains_malloc : Attains (Opened (δ := δ)) (· = true) (malloc P).left := fun s hs =>
  ⟨hP.malloc s.1.dev, ⟨hs.1.size, hs.1.offset⟩, hs.2⟩

variable (hfuel : 4294967296 ≤ fuel)
include hfuel

theorem attains_exfatWrite (buf : Buf) {size : ℤ} (hsize : 0 ≤ size ∧ size < 4294967296) :
    Attains Opened (· = size) (exfatWrite P fuel buf size) := by
  rintro ⟨w, pos⟩ ⟨hw, pos, rfl⟩
  rw [exfatWrite, atPosition, wp_bind, wp_read]
  dsimp only
  rw [wp_bind, transferred, wp_bind, wp_left]
  refine wp_mono (attains_write buf pos hsize (by omega) w hw) (fun x t ht => ?_) fun _ h => h
  have hx : x.1 = size := ht.1.resolve_left fun h => h.2 hP
  exact wp_ite (fun _ => ⟨hx, ht.2, pos + x.1, rfl⟩) fun _ => ⟨hx, ht.2, pos, rfl⟩

theorem attains_writeAll {ws : List (Buf × ℤ)} (hws : ∀ x ∈ ws, 0 ≤ x.2 ∧ x.2 < 4294967296) :
    Attains Opened (· = true) (writeAll P fuel ws) := by
  induction ws with
  | nil => exact attains_pure rfl
  | cons x ws ih =>
    have hx := hws x List.mem_cons_self
    refine (attains_exfatWrite hP hfuel x.1 hx).bind fun res hres => ?_
    rw [if_neg (by omega)]
    exact ih fun y hy => hws y (List.mem_cons_of_mem _ hy)

theorem succeeds_exfatWrite (buf : Buf) {size : ℤ} (hsize : 0 ≤ size ∧ size < 4294967296) :
    Succeeds (do
      let res ← exfatWrite P fuel buf size
      pure (if res < 0 then 1 else 0)) := by
  refine (attains_exfatWrite hP hfuel buf hsize).bind fun res hres => attains_pure ?_
  rw [if_neg (by omega)]

theorem succeeds_writeAll {ws : List (Buf × ℤ)} (hws : ∀ x ∈ ws, 0 ≤ x.2 ∧ x.2 < 4294967296) :
    Succeeds (do
      let written ← writeAll P fuel ws
      pure (if written then 0 else 1)) :=
  (attains_writeAll hP hfuel hws).bind fun _ h => attains_pure (if_pos h)

end Obliging

/-- Whatever is aligned begins at a sector. -/
structure Sectored (p : Params) : Prop where
  sector : getSectorSize p = 512
  cluster : 512 ∣ getClusterSize p

theorem sectored_params (usable bits serial : ℕ) (label : List ℕ) :
    Sectored (params usable bits serial label) := by
  refine ⟨getSectorSize_params, ?_⟩
  have hdvd : 512 ∣ u64 (512 * 2 ^ bits : ℕ) := by
    unfold u64
    omega
  rw [getClusterSize_eq, Int.bmod_def]
  omega

theorem Sectored.dvd_roundUp {p : Params} (h : Sectored p) (x : ℤ) (object : FsObject) :
    512 ∣ roundUp x (getAlignment p object) := by
  have hsector : (512 : ℤ) ∣ getSectorSize p := Int.dvd_of_emod_eq_zero (by rw [h.sector]; decide)
  have halign : 512 ∣ getAlignment p object := by
    cases object with
    | vbr => exact hsector
    | fat => exact Int.dvd_mul_of_dvd_right hsector
    | cbm | uct | rootdir => exact h.cluster
  exact Int.dvd_mul_of_dvd_right halign

section Steps

variable {δ : Type} {P : Platform δ} {fuel : ℕ} {p : Params}

theorem succeeds_forObjects (h : Sectored p) {f : FsObject → ℤ → Prog (Device δ) ℤ}
    (hf : ∀ object position, 512 ∣ position → Succeeds (f object position)) (objects : List FsObject)
    (position : ℤ) :
    Succeeds (forObjects p f objects position) := by
  induction objects generalizing position with
  | nil => exact attains_pure rfl
  | cons object rest ih =>
    refine (hf object _ (h.dvd_roundUp position object)).bind fun r hr => ?_
    rw [if_neg (by omega)]
    exact ih _

/-- A seek to where something begins succeeds, and what follows goes on there. -/
theorem Succeeds.after_seek {offset : ℤ} (hoffset : 512 ∣ offset) {m : Prog (Device δ) ℤ} (hm : Succeeds m) :
    Succeeds (do
      let r ← exfatSeek p offset seekSet
      if r = -1 then pure 1 else m) := by
  have hseek : Attains (Opened (δ := δ)) (· = offset) (exfatSeek p offset seekSet) := by
    rintro ⟨w, pos⟩ ⟨hw, pos, rfl⟩
    exact ⟨rfl, hw, offset, rfl⟩
  refine hseek.bind fun r hr => ?_
  rw [if_neg (by omega)]
  exact hm

/-- There are blocks to erase in a region of positive size only. -/
theorem mem_eraseBlocks (size : ℤ) : ∀ x ∈ eraseBlocks size, 0 ≤ x.2 ∧ x.2 < 4294967296 := by
  intro x hx
  obtain ⟨i, hi, rfl⟩ := List.mem_map.mp hx
  rw [List.mem_range, divRoundUp] at hi
  dsimp only
  by_cases hsize : 0 ≤ size + 1048576 - 1
  · rw [Int.tdiv_eq_ediv_of_nonneg hsize] at hi
    omega
  · have hneg : 0 ≤ Int.tdiv (-(size + 1048576 - 1)) 1048576 := Int.tdiv_nonneg (by omega) (by decide)
    rw [Int.neg_tdiv] at hneg
    omega

variable (hP : Obliging P) (hfuel : 4294967296 ≤ fuel)
include hP hfuel

theorem succeeds_eraseObject {start : ℤ} (hstart : 512 ∣ start) (size : ℤ) :
    Succeeds (eraseObject P fuel p start size) :=
  (succeeds_writeAll hP hfuel (mem_eraseBlocks size)).after_seek hstart

theorem succeeds_erase (h : Sectored p) : Succeeds (erase P fuel p) := by
  refine (attains_malloc hP).bind fun allocated hallocated => ?_
  rw [if_neg (by simp [hallocated])]
  exact succeeds_forObjects h
    (fun object position hposition => succeeds_eraseObject hP hfuel hposition _) objects 0

end Steps

end FormatStick.Exfat
