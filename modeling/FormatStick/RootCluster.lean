import FormatStick.Preserve

/-!
# The root directory of a FAT32 volume

The formatter does not write the root cluster: it is empty when the wiped head of the
partition covers it. The FATs that lie before it grow with the stick, the head does not.
-/
namespace FormatStick
open Splice WriteBack Fields

/-- The cluster sizes that the app offers. -/
def clusterSizes : List ℕ := [4096, 8192, 16384, 32768, 65536]

theorem mem_clusterSizes {clusterSize : ℕ} (h : clusterSize ∈ clusterSizes) :
    clusterSize = 4096 ∨ clusterSize = 8192 ∨ clusterSize = 16384 ∨ clusterSize = 32768 ∨
      clusterSize = 65536 := by
  simpa only [clusterSizes, List.mem_cons, List.not_mem_nil, or_false] using h

/-- The first sector of the root cluster in a FAT32 volume. -/
def rootSector (clusterSize usable : ℕ) : ℕ := fatReservedSectors 1 + 2 * fatSizeSectors 1 clusterSize usable

/-- The root cluster of a FAT32 volume is zero on a medium of `n` sectors. -/
def RootEmpty (clusterSize : ℕ) (partitionType : ℤ) (n : ℕ) (m : Buf) : Prop :=
  ∀ i < fatSectorsPerCluster 1 clusterSize * 512,
    m ((driveStart partitionType + rootSector clusterSize (sessionUsable n partitionType)) * 512 + i) = 0

section Geometry

variable {clusterSize usable : ℕ}

theorem fat32_sectorsPerCluster (hcs : clusterSize ∈ clusterSizes) :
    fatSectorsPerCluster 1 clusterSize = clusterSize / 512 := by
  rcases mem_clusterSizes hcs with rfl | rfl | rfl | rfl | rfl <;> rfl

/-- The geometry of a FAT32 volume with clusters of one of these sizes. -/
theorem fat32_geometry (hcs : clusterSize ∈ clusterSizes) (h : 40 ≤ usable) (hlt : usable ≤ 4294967296) :
    fatSectorsPerCluster 1 clusterSize = clusterSize / 512 ∧
      fatSizeSectors 1 clusterSize usable = ((usable - 32) * 4 + clusterSize + 7) / (clusterSize + 8) := by
  have hspc := fat32_sectorsPerCluster hcs
  refine ⟨hspc, ?_⟩
  rw [fatSizeSectors_fat32 clusterSize (show 32 ≤ usable by omega) hlt, hspc]
  rcases mem_clusterSizes hcs with rfl | rfl | rfl | rfl | rfl <;> omega

/-- The wiped head covers the root cluster up to a size of the volume. -/
theorem rootSector_le_iff (hcs : clusterSize ∈ clusterSizes) (h : 40 ≤ usable) (hlt : usable ≤ 4294967296) :
    rootSector clusterSize usable + fatSectorsPerCluster 1 clusterSize ≤ 65536 ↔
      4 * (usable - 32) ≤ (65504 - clusterSize / 512) / 2 * (clusterSize + 8) := by
  obtain ⟨hspc, hsize⟩ := fat32_geometry hcs h hlt
  rw [rootSector, hspc, hsize, show fatReservedSectors 1 = 32 from rfl]
  rcases mem_clusterSizes hcs with rfl | rfl | rfl | rfl | rfl <;> omega

/-- The FATs are small enough for the chunk loops to end. -/
theorem fat32_loopsEnd (hcs : clusterSize ∈ clusterSizes) (h : 40 ≤ usable) (hlt : usable ≤ 4294967296) :
    FatLoopsEnd (fatSizeSectors 1 clusterSize usable) := by
  obtain ⟨-, hsize⟩ := fat32_geometry hcs h hlt
  have hle : fatSizeSectors 1 clusterSize usable ≤ 4194304 := by
    rw [hsize]
    rcases mem_clusterSizes hcs with rfl | rfl | rfl | rfl | rfl <;> omega
  have hbytes := u32_le (fatSizeSectors 1 clusterSize usable * 512)
  rw [Int.natCast_mul] at hbytes
  exact Nat.le_trans hbytes (by omega)

end Geometry

section Requests

variable {fatSize : ℕ} {bs : Buf} {q : Request}

/-- The formatter writes nothing but zeros from the root cluster on. -/
theorem FatRequest.zero_of_root (h : FatRequest 1 fatSize bs q) (hpos : 1 ≤ fatSize) {i : ℕ}
    (hroot : (32 + 2 * fatSize) * 512 ≤ q.offset.toNat + i) (hi : i < q.count.toNat) : q.buf i = 0 := by
  cases h with
  | boot =>
    change _ ≤ 0 + i at hroot
    change i < 512 at hi
    omega
  | backup _ =>
    change _ ≤ 3072 + i at hroot
    change i < 512 at hi
    omega
  | fsInfo _ =>
    change _ ≤ 512 + i at hroot
    change i < 512 at hi
    omega
  | first f hf =>
    have hoff := fatOffset_le 1 fatSize f
    have hmul : f * fatSize ≤ 1 * fatSize := Nat.mul_le_mul_right _ (by omega)
    have hres : fatReservedSectors 1 = 32 := rfl
    change _ ≤ fatOffset 1 fatSize f + i at hroot
    change fatFirstChunk 1 i = 0
    rw [fatFirstChunk, if_pos rfl]
    exact put_of_ge (show 0 + 12 ≤ i by omega)
  | rest f _ _ hq =>
    obtain ⟨j, -, -, -, rfl⟩ := hq.chunk
    rfl
  | root _ hne _ => exact absurd rfl hne

/-- FATs of at least one chunk end where the root cluster starts. -/
theorem FatRequest.end_le_root (h : FatRequest 1 fatSize bs q) (hpos : 64 ≤ fatSize) :
    q.offset.toNat + q.count.toNat ≤ (32 + 2 * fatSize) * 512 := by
  have hres : fatReservedSectors 1 = 32 := rfl
  cases h with
  | boot =>
    change 0 + 512 ≤ _
    omega
  | backup _ =>
    change 3072 + 512 ≤ _
    omega
  | fsInfo _ =>
    change 512 + 512 ≤ _
    omega
  | first f hf =>
    have hoff := fatOffset_le 1 fatSize f
    have hmul : f * fatSize ≤ 1 * fatSize := Nat.mul_le_mul_right _ (by omega)
    change fatOffset 1 fatSize f + 32768 ≤ _
    omega
  | rest f _ hf hq =>
    have hoff := fatOffset_le 1 fatSize f
    have hend := hq.end_le
    have hmul : f * fatSize ≤ 1 * fatSize := Nat.mul_le_mul_right _ (by omega)
    have hsize := u32_le (fatSize * 512)
    rw [Int.natCast_mul] at hsize
    have : u32 ((fatSize : ℤ) * 512) ≤ fatSize * 512 := hsize
    omega
  | root _ hne _ => exact absurd rfl hne

end Requests

section Session

variable {clusterSize n part : ℕ} {partitionType : ℤ} {w w₁ w₂ w₃ w₄ : World Stick}

theorem u32_clusterSize (hcs : clusterSize ∈ clusterSizes) : u32 (clusterSize : ℤ) = clusterSize := by
  rcases mem_clusterSizes hcs with rfl | rfl | rfl | rfl | rfl <;> rfl

theorem sessionUsable_le (n : ℕ) (partitionType : ℤ) :
    driveStart partitionType + sessionUsable n partitionType ≤ n ∨ sessionUsable n partitionType = 0 := by
  unfold sessionUsable
  split_ifs <;> omega

/-- A root cluster inside the wiped head is zero when the formatter is done. -/
theorem Windowed.rootEmpty (h : Windowed (clusterSize : ℤ) partitionType 1 w part w₁ w₂ w₃) (hw : Resting w)
    (hf : Faultless w.dev.spec) (hcs : clusterSize ∈ clusterSizes)
    (hpos : 40 ≤ sessionUsable (sessionSectors w) partitionType)
    (hroot : rootSector clusterSize (sessionUsable (sessionSectors w) partitionType) +
      fatSectorsPerCluster 1 clusterSize ≤ 65536)
    (hfat : Wrote (FatWrite 1 clusterSize usbDisk w₃) w₃ w₄) :
    RootEmpty clusterSize partitionType (sessionSectors w) w₄.dev.medium := by
  have hlast : sessionSectors w ≤ 4294967296 := hw.count
  obtain ⟨-, hoff, -, -, hempty⟩ := h.globals
  obtain ⟨husable, -⟩ := h.usable hw
  have hspec : w₂.dev.spec = w.dev.spec := h.partitioned.wrote.spec.trans h.prepared.wrote.spec
  have hoff₂ : w₂.drv.gDriveOffsetSectors = driveStart partitionType := h.partitioned.offset
  have hle : sessionUsable (sessionSectors w) partitionType ≤ 4294967296 := by
    unfold sessionUsable
    omega
  obtain ⟨-, hsize⟩ := fat32_geometry hcs hpos hle
  have hone : 1 ≤ fatSizeSectors 1 clusterSize (sessionUsable (sessionSectors w) partitionType) := by
    rw [hsize]
    exact Nat.div_pos (by omega) (by omega)
  unfold RootEmpty
  rw [rootSector, show fatReservedSectors 1 = 32 from rfl] at hroot ⊢
  obtain ⟨fatSize, hfs⟩ : ∃ k, k =
      fatSizeSectors 1 clusterSize (sessionUsable (sessionSectors w) partitionType) :=
    ⟨_, rfl⟩
  rw [← hfs] at hroot hone ⊢
  have hsat := hfat.sat (fun (a : ℕ) (b : UInt8) => (driveStart partitionType + (32 + 2 * fatSize)) * 512 ≤
    a →
    a < (driveStart partitionType + 65536) * 512 → b = 0) ⟨?_, ?_⟩ ?_
  · intro i hi
    exact hsat.medium _ (by omega) (by omega)
  · intro a h₁ h₂
    have hzero := h.wiped.cleared (hspec ▸ hf) (a - driveStart partitionType * 512) (by
      rw [wipeSize, if_neg (by decide)]
      omega)
    have hle : driveStart partitionType * 512 ≤ a :=
      Nat.le_trans (Nat.mul_le_mul_right 512 (Nat.le_add_right _ _)) h₁
    rwa [hoff₂, Nat.add_sub_of_le hle] at hzero
  · intro i hi
    change i < w₃.drv.gCacheSectors * 512 at hi
    rw [hempty] at hi
    omega
  · intro v hv i hi h₁ _
    cases hv with
    | typed v _ hv =>
      rw [hv.addr] at h₁
      rw [hv.len] at hi
      omega
    | request q hq =>
      rw [fatSizeIn, husable, ← hfs] at hq
      change _ ≤ q.offset.toNat + _ * 512 + i at h₁
      rw [hoff] at h₁
      have hfrom : ¬q.offset.toNat + i < (32 + 2 * fatSize) * 512 := by omega
      exact hq.zero_of_root hone (Nat.le_of_not_lt hfrom) hi

/-- The last sector of a root cluster that the wiped head does not cover is as it was. -/
theorem Windowed.rootKept {b : Buf} (h : Windowed (clusterSize : ℤ) partitionType 1 w part w₁ w₂ w₃)
    (hw : Resting w)
    (hcs : clusterSize ∈ clusterSizes)
    (hvolume : rootSector clusterSize (sessionUsable (sessionSectors w) partitionType) +
      fatSectorsPerCluster 1 clusterSize ≤ sessionUsable (sessionSectors w) partitionType)
    (hroot : 65536 < rootSector clusterSize (sessionUsable (sessionSectors w) partitionType) +
      fatSectorsPerCluster 1 clusterSize)
    (hfat : Wrote (FatWrite 1 clusterSize usbDisk w₃) w₃ w₄) {s : ℕ}
    (hs : s + 1 = driveStart partitionType + rootSector clusterSize
      (sessionUsable (sessionSectors w) partitionType) +
      fatSectorsPerCluster 1 clusterSize)
    (hold : HoldsSector w.dev.medium (s, b)) : HoldsSector w₄.dev.medium (s, b) := by
  have hlast : sessionSectors w ≤ 4294967296 := hw.count
  obtain ⟨-, hoff, -, -, hempty⟩ := h.globals
  obtain ⟨husable, -⟩ := h.usable hw
  have hfit := sessionUsable_le (sessionSectors w) partitionType
  have hle : sessionUsable (sessionSectors w) partitionType ≤ 4294967296 := by omega
  have hfsle := fatSizeSectors_le 1 clusterSize
    (show 40 ≤ sessionUsable (sessionSectors w) partitionType by omega) hle
  have hspc : 8 ≤ fatSectorsPerCluster 1 clusterSize ∧ fatSectorsPerCluster 1 clusterSize ≤ 128 := by
    rw [fat32_sectorsPerCluster hcs]
    rcases mem_clusterSizes hcs with rfl | rfl | rfl | rfl | rfl <;> decide
  rw [rootSector, show fatReservedSectors 1 = 32 from rfl] at hvolume hroot hs
  obtain ⟨fatSize, hfs⟩ : ∃ k, k =
      fatSizeSectors 1 clusterSize (sessionUsable (sessionSectors w) partitionType) :=
    ⟨_, rfl⟩
  rw [← hfs] at hvolume hroot hs hfsle
  have h₁ : HoldsSector w₁.dev.medium (s, b) := by
    refine hold.wrote hw.empty h.prepared.wrote ?_
    rintro v (⟨i, hi, rfl⟩ | ⟨lba, hlo, -, rfl⟩)
    · change 128 * i * 512 + 128 * 512 ≤ s * 512 ∨ s * 512 + 512 ≤ 128 * i * 512
      omega
    · change lba * 512 + 1 * 512 ≤ s * 512 ∨ s * 512 + 512 ≤ lba * 512
      omega
  have h₂ : HoldsSector w₂.dev.medium (s, b) := by
    refine h₁.wrote h.prepared.empty h.partitioned.wrote fun v hv => ?_
    obtain ⟨x, hx, rfl⟩ := List.mem_map.mp hv
    have hbounds := partitionTable_bounds h.prepared hw (by omega) hx
    change x.1 * 512 + 1 * 512 ≤ s * 512 ∨ s * 512 + 512 ≤ x.1 * 512
    omega
  have h₃ : HoldsSector w₃.dev.medium (s, b) := by
    refine h₂.wrote (h.partitioned.empty h.prepared.empty) h.wiped.soFar.wrote fun v hv => ?_
    obtain ⟨q, ⟨i, hi, rfl⟩, rfl⟩ := hv
    rw [wipeSize, if_neg (by decide)] at hi
    rw [h.partitioned.offset]
    change i * 262144 + driveStart partitionType * 512 + 262144 ≤ s * 512 ∨ _
    omega
  refine h₃.wrote hempty hfat fun v hv => ?_
  cases hv with
  | typed v _ hv =>
    rw [hv.addr, hv.len]
    omega
  | request q hq =>
    rw [fatSizeIn, husable, ← hfs] at hq
    have hend := hq.end_le_root (by omega)
    left
    change q.offset.toNat + _ * 512 + q.count.toNat ≤ s * 512
    rw [hoff]
    omega

/-- The formatter of a FAT32 session. -/
theorem SessionRun.formatFat {fuel : ℕ} {engine : ℕ → Prog (World Stick) ℤ} {fd : ℤ} {t : World Stick}
    (h : SessionRun fuel engine fd (clusterSize : ℤ) partitionType 1 w part w₁ w₂ w₃ w₄ 0 t) (hw : Resting w)
    (hcs : clusterSize ∈ clusterSizes) : Wrote (FatWrite 1 clusterSize usbDisk w₃) w₃ w₄ := by
  have hformat := h.formatted
  rw [formatStage_fat stick fuel engine clusterSize (.inl rfl) part] at hformat
  have hfat : FatDone 1 (u32 (clusterSize : ℤ)) usbDisk w₃ 0 w₄ :=
    Prog.wp_run (a := 0) ((h.windowed hw).formatFat hw fuel) hformat
  rw [u32_clusterSize hcs] at hfat
  exact hfat.soFar.wrote

/-- A session on a stick of ones leaves a one in a root cluster that the head does not cover. -/
theorem onesSession_root {fuel : ℕ} {engine : ℕ → Prog (World Stick) ℤ} {fd : ℤ} {t : World Stick}
    (hn : sessionSectors (onesSession n) = n) (hlt : n ≤ 4294967296)
    (h : SessionRun fuel engine fd (clusterSize : ℤ) partitionType 1 (onesSession n) part w₁ w₂ w₃ w₄ 0 t)
    (hcs : clusterSize ∈ clusterSizes)
    (hvolume : rootSector clusterSize (sessionUsable n partitionType) + fatSectorsPerCluster 1 clusterSize ≤
      sessionUsable n partitionType)
    (hroot : 65536 < rootSector clusterSize (sessionUsable n partitionType) + fatSectorsPerCluster 1
      clusterSize) :
    ¬RootEmpty clusterSize partitionType n w₄.dev.medium := by
  have hw : Resting (onesSession n) := onesSession_resting hlt
  have hspc := (fatSectorsPerCluster_bounds 1 clusterSize).1
  obtain ⟨s, hs⟩ : ∃ s, s + 1 =
    driveStart partitionType + rootSector clusterSize (sessionUsable n partitionType) +
    fatSectorsPerCluster 1 clusterSize := ⟨_, Nat.sub_add_cancel (by omega)⟩
  have hkept := (h.windowed hw).rootKept (b := fun _ => 1) (s := s) hw hcs (by rwa [hn]) (by rwa [hn])
    (h.formatFat hw hcs) (by rwa [hn]) fun _ _ => rfl
  intro hempty
  have hzero := hempty ((fatSectorsPerCluster 1 clusterSize - 1) * 512) (by omega)
  have hone := hkept 0 (by decide)
  rw [← Nat.add_mul, show driveStart partitionType + rootSector clusterSize (sessionUsable n partitionType) +
    (fatSectorsPerCluster 1 clusterSize - 1) = s by omega] at hzero
  rw [Nat.add_zero, hzero] at hone
  exact absurd hone (show (0 : UInt8) ≠ 1 by decide)

end Session

section Run

variable {n clusterSize : ℕ} {partitionType : ℤ}

theorem fat32_usable (hcs : clusterSize ∈ clusterSizes)
    (hvolume : rootSector clusterSize (sessionUsable n partitionType) +
    fatSectorsPerCluster 1 clusterSize ≤ sessionUsable n partitionType) (hn : n ≤ 4294967296) :
    40 ≤ sessionUsable n partitionType ∧ sessionUsable n partitionType ≤ 4294967296 := by
  have hspc : 8 ≤ fatSectorsPerCluster 1 clusterSize := by
    rw [fat32_sectorsPerCluster hcs]
    rcases mem_clusterSizes hcs with rfl | rfl | rfl | rfl | rfl <;> decide
  have hfit := sessionUsable_le n partitionType
  rw [rootSector, show fatReservedSectors 1 = 32 from rfl] at hvolume
  omega

/-- A FAT32 session on a sound stick runs to its end. -/
theorem fat32_run {w : World Stick} (hw : Resting w) (hf : Faultless w.dev.spec) (ha : Attached w.dev.spec)
    (hcs : clusterSize ∈ clusterSizes)
    (haccept : alignedOffset partitionType + reservedEnd partitionType < sessionSectors w)
    (husable : 40 ≤ sessionUsable (sessionSectors w) partitionType) {fuel : ℕ} (hfuel : 4294967296 ≤ fuel)
    (engine : ℕ → Prog (World Stick) ℤ) (fd : ℤ) :
    ∃ part w₁ w₂ w₃ w₄ t,
      SessionRun fuel engine fd (clusterSize : ℤ) partitionType 1 w part w₁ w₂ w₃ w₄ 0 t := by
  have hlast : sessionSectors w ≤ 4294967296 := hw.count
  have hle : sessionUsable (sessionSectors w) partitionType ≤ 4294967296 := by
    unfold sessionUsable
    omega
  have hend := fat32_loopsEnd hcs husable hle
  rw [← u32_clusterSize hcs] at hend
  obtain ⟨part, w₁, w₂, w₃, w₄, t, h, -⟩ :=
    startStableFormat_returns hw hf ha (.inl rfl) haccept hend hfuel engine fd
  exact ⟨part, w₁, w₂, w₃, w₄, t, h⟩

/-- Formatting as FAT32 empties the root directory of every stick of `n` sectors, whatever it held,
if and only if the FATs of its volume leave room for the root cluster in the head that is wiped. -/
theorem startStableFormat_rootEmpty (hcs : clusterSize ∈ clusterSizes) (hn : n ≤ 4294967296)
    (haccept : alignedOffset partitionType + reservedEnd partitionType < n)
    (hvolume : rootSector clusterSize (sessionUsable n partitionType) + fatSectorsPerCluster 1 clusterSize ≤
      sessionUsable n partitionType) :
    (∀ w, Resting w → Faultless w.dev.spec → Attached w.dev.spec → w.dev.spec.sectors = n →
      ∀ fuel ≥ 4294967296, ∀ engine fd, ∃ part w₁ w₂ w₃ w₄ t,
        SessionRun fuel engine fd (clusterSize : ℤ) partitionType 1 w part w₁ w₂ w₃ w₄ 0 t ∧
        RootEmpty clusterSize partitionType n w₄.dev.medium) ↔
      4 * (sessionUsable n partitionType - 32) ≤ (65504 - clusterSize / 512) / 2 * (clusterSize + 8) := by
  obtain ⟨hpos, hle⟩ := fat32_usable hcs hvolume hn
  rw [← rootSector_le_iff hcs hpos hle]
  constructor
  · intro h
    by_contra hroot
    have hsectors : (onesSession n).dev.spec.sectors = n := by
      change n - 1 + 1 = n
      omega
    obtain ⟨part, w₁, w₂, w₃, w₄, t, hrun, hempty⟩ := h _ (onesSession_resting hn) (onesSession_faultless n)
      (onesSession_attached n) hsectors 4294967296 (Nat.le_refl _) (fun _ => pure 0) 0
    exact onesSession_root (onesSession_sectors (by omega) hn) hn hrun hcs hvolume (by omega) hempty
  · intro hroot w hw hf ha hsectors fuel hfuel engine fd
    obtain rfl : sessionSectors w = n := (sessionSectors_eq hw hf ha).trans hsectors
    obtain ⟨part, w₁, w₂, w₃, w₄, t, hrun⟩ := fat32_run hw hf ha hcs haccept hpos hfuel engine fd
    exact ⟨part, w₁, w₂, w₃, w₄, t, hrun,
      (hrun.windowed hw).rootEmpty hw hf hcs hpos hroot (hrun.formatFat hw hcs)⟩

/-- A stick of 8 GB with clusters of 4 KB. -/
theorem startStableFormat_rootEmpty_8GB :
    ∃ part w₁ w₂ w₃ w₄ t, SessionRun 4294967296
      (fun _ => pure 0) 0 ((4096 : ℕ) : ℤ) 1 1 (onesSession 15728640)
      part w₁ w₂ w₃ w₄ 0 t ∧ RootEmpty 4096 1 15728640 w₄.dev.medium :=
  (startStableFormat_rootEmpty (by decide) (by decide) (by decide) (by decide)).mpr (by decide) _
    (onesSession_resting (by decide)) (onesSession_faultless _) (onesSession_attached _) rfl 4294967296
    (Nat.le_refl _) (fun _ => pure 0) 0

/-- On a stick of 32 GB with clusters of 4 KB, old directory entries survive. -/
theorem startStableFormat_rootStale :
    ∃ part w₁ w₂ w₃ w₄ t, SessionRun 4294967296
      (fun _ => pure 0) 0 ((4096 : ℕ) : ℤ) 1 1 (onesSession 62914560)
      part w₁ w₂ w₃ w₄ 0 t ∧ ¬RootEmpty 4096 1 62914560 w₄.dev.medium := by
  have hn : (62914560 : ℕ) ≤ 4294967296 := by decide
  have hcs : 4096 ∈ clusterSizes := List.mem_cons_self
  have hsectors := onesSession_sectors (show 0 < 62914560 by decide) hn
  have hsize : alignedOffset 1 + reservedEnd 1 < sessionSectors (onesSession 62914560) := by
    rw [hsectors]
    decide
  obtain ⟨part, w₁, w₂, w₃, w₄, t, hrun⟩ := fat32_run (onesSession_resting hn) (onesSession_faultless _)
    (onesSession_attached _) hcs hsize (by rw [hsectors]; decide) (Nat.le_refl 4294967296) (fun _ => pure 0) 0
  exact ⟨part, w₁, w₂, w₃, w₄, t, hrun, onesSession_root hsectors hn hrun (by decide) (by decide) (by decide)⟩

end Run

end FormatStick
