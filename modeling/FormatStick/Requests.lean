import FormatStick.Writers
import FormatStick.Fat

/-!
# Runs of write requests

A writer above the cache is described by the list of its requests. `Asked` holds
of it whatever fails and wherever it is cut; `Landed` says that every request was
accepted, so that what is lost can only be lost by a flush.
-/
namespace FormatStick
open Splice WriteBack

/-- A write request of `count` bytes at byte `offset` of the partition. -/
def writeRequest (buf : Buf) (count offset : ℕ) : Request := ⟨buf, count, offset, true⟩

/-- The write of the flat medium that a request is for, `start` sectors into the disk. -/
def Request.write (start : ℕ) (q : Request) : Write UInt8 :=
  ⟨q.offset.toNat + start * 512, q.buf, q.count.toNat⟩

/-- The requests `rs` were made on the way from `w` to `t`, and nothing else was written. -/
structure Asked (w : World Stick) (rs : List Request) (t : World Stick) : Prop where
  frame : Frame w rs t
  wrote : Wrote (· ∈ rs.map (Request.write w.drv.gDriveOffsetSectors)) w t

/-- The requests `rs` were made and accepted. -/
structure Landed (w : World Stick) (rs : List Request) (t : World Stick) : Prop where
  asked : Asked w rs t
  cache : w.drv.gWriteCache.isSome → t.drv.gWriteCache.isSome
  view : Lossless w t →
    (store t).view = writeAll (store w).view (rs.map (Request.write w.drv.gDriveOffsetSectors))

section Runs

variable {w t u : World Stick} {rs rs' : List Request}

theorem Asked.refl (hw : Ready w) : Asked w [] w := ⟨Frame.refl w, Wrote.refl hw⟩

theorem Asked.trans (h : Asked w rs t) (h' : Asked t rs' u) : Asked w (rs ++ rs') u := by
  have hwrote := h'.wrote
  rw [h.frame.driveOffset] at hwrote
  refine ⟨h.frame.trans h'.frame, (h.wrote.mono fun v hv => ?_).trans (hwrote.mono fun v hv => ?_)⟩
  · rw [List.map_append]
    exact List.mem_append_left _ hv
  · rw [List.map_append]
    exact List.mem_append_right _ hv

theorem Landed.refl (hw : Ready w) : Landed w [] w := ⟨Asked.refl hw, id, fun _ => rfl⟩

theorem Landed.trans (h : Landed w rs t) (h' : Landed t rs' u) : Landed w (rs ++ rs') u := by
  refine ⟨h.asked.trans h'.asked, fun hs => h'.cache (h.cache hs), fun hl => ?_⟩
  rw [h'.view (hl.right h.asked.frame.trace), h.asked.frame.driveOffset,
    h.view (hl.left h.asked.frame.trace h'.asked.frame.trace), List.map_append, writeAll_append]

variable {P P' : Request → Prop}

/-- Requests of the kind `P` were made, and no others. -/
def AskedFor (P : Request → Prop) (w t : World Stick) : Prop := ∃ rs, Asked w rs t ∧ ∀ q ∈ rs, P q

/-- Requests of the kind `P` were made and accepted, and no others. -/
def LandedFor (P : Request → Prop) (w t : World Stick) : Prop := ∃ rs, Landed w rs t ∧ ∀ q ∈ rs, P q

theorem LandedFor.asked (h : LandedFor P w t) : AskedFor P w t := by
  obtain ⟨rs, h, hrs⟩ := h
  exact ⟨rs, h.asked, hrs⟩

theorem AskedFor.mono (h : AskedFor P w t) (hP : ∀ q, P q → P' q) : AskedFor P' w t := by
  obtain ⟨rs, h, hrs⟩ := h
  exact ⟨rs, h, fun q hq => hP q (hrs q hq)⟩

theorem LandedFor.mono (h : LandedFor P w t) (hP : ∀ q, P q → P' q) : LandedFor P' w t := by
  obtain ⟨rs, h, hrs⟩ := h
  exact ⟨rs, h, fun q hq => hP q (hrs q hq)⟩

theorem AskedFor.trans (h : AskedFor P w t) (h' : AskedFor P t u) : AskedFor P w u := by
  obtain ⟨rs, h, hrs⟩ := h
  obtain ⟨rs', h', hrs'⟩ := h'
  refine ⟨rs ++ rs', h.trans h', fun q hq => ?_⟩
  rcases List.mem_append.mp hq with hq | hq
  · exact hrs q hq
  · exact hrs' q hq

theorem LandedFor.trans (h : LandedFor P w t) (h' : LandedFor P t u) : LandedFor P w u := by
  obtain ⟨rs, h, hrs⟩ := h
  obtain ⟨rs', h', hrs'⟩ := h'
  refine ⟨rs ++ rs', h.trans h', fun q hq => ?_⟩
  rcases List.mem_append.mp hq with hq | hq
  · exact hrs q hq
  · exact hrs' q hq

theorem LandedFor.refl (hw : Ready w) : LandedFor P w w :=
  ⟨[], Landed.refl hw, fun _ hq => absurd hq List.not_mem_nil⟩

theorem Asked.for {q : Request} (h : Asked w [q] t) (hq : P q) : AskedFor P w t :=
  ⟨[q], h, fun x hx => by rw [List.mem_singleton.mp hx]; exact hq⟩

theorem Landed.for {q : Request} (h : Landed w [q] t) (hq : P q) : LandedFor P w t :=
  ⟨[q], h, fun x hx => by rw [List.mem_singleton.mp hx]; exact hq⟩

end Runs

/-- What one write request of whole sectors does. -/
structure RequestDone (w : World Stick) (q : Request) (r : ℤ) (t : World Stick) : Prop where
  asked : Asked w [q] t
  landed : r = q.count → Landed w [q] t
  cache : r = q.count → t.drv.gWriteCache.isSome
  accepted : w.drv.gWriteCache.isSome → r = q.count
  full : Faultless w.dev.spec → r = q.count

/-- A request as its parts, and the piece of the store it can have changed. -/
theorem WriteSoFar.asked {w t : World Stick} {buf : Buf} {count o k : ℕ}
    (h : WriteSoFar { w with requests := w.requests ++ [writeRequest buf count o] } (place w o)
      count buf k t) :
    Asked w [writeRequest buf count o] t := by
  refine ⟨h.frame.asked, Wrote.of_frame h.frame.asked h.ready (fun φ hs hv => ?_) fun n hn hv => ?_⟩
  · exact h.sat φ hs fun i hi => hv _ (List.mem_singleton_self _) i hi
  · exact h.below n ⟨hn.cached, hn.sent⟩ (hv _ (List.mem_singleton_self _))

theorem wp_writeRequest {w : World Stick} (hw : Ready w) (fuel : ℕ) (buf : Buf) (count o : ℕ)
    (hpos : 0 < count) (hc : 512 ∣ count) (ho : 512 ∣ o) (hlt : count < 4294967296)
    (hreach : o + w.drv.gDriveOffsetSectors * 512 + count ≤ 2199023255552) :
    Prog.wp (scsiIoInternal stick fuel buf count o true)
      (fun r t => RequestDone w (writeRequest buf count o) r.1 t)
      (fun t => Asked w [writeRequest buf count o] t ∧ fuel ≤ count) w := by
  have hp : 512 ∣ place w o := Nat.dvd_add ho (Nat.dvd_mul_left 512 _)
  refine Prog.wp_mono (wp_scsiIoInternal_write hw fuel buf (fun _ => hreach)) ?_ ?_
  · rintro r t ⟨k, h⟩
    have hk : r.1 = count → k = count := by
      intro hr
      rcases h.ret with ⟨-, hk⟩ | hr'
      · exact hk
      · omega
    refine ⟨h.soFar.asked, fun hr => ⟨h.soFar.asked, h.soFar.cache, fun hl => ?_⟩, fun hr => ?_,
      h.whole hp hc hlt, h.full⟩
    · have hview : (store t).view = _ := h.soFar.view hl
      rw [hview, hk hr]
      rfl
    · exact (h.soFar.whole hp hc hlt).2 (by rw [hk hr]; exact hpos)
  · rintro t ⟨hf, k, h⟩
    exact ⟨h.asked, hf hlt⟩

/-- A driver that accepts every request of whole sectors below byte 2^32 of its partition. -/
structure Writable (w : World Stick) : Prop where
  ready : Ready w
  cache : w.drv.gWriteCache.isSome
  offset : w.drv.gDriveOffsetSectors ≤ 4096

theorem LandedFor.writable {P : Request → Prop} {w t : World Stick} (h : LandedFor P w t)
    (hw : Writable w) : Writable t := by
  obtain ⟨rs, h, -⟩ := h
  exact ⟨h.asked.wrote.ready, h.cache hw.cache, h.asked.frame.driveOffset.symm ▸ hw.offset⟩

/-- Started on a writable driver, a program makes requests of the kind `P` only and has them
all accepted, unless it is cut; `C` is known where it is cut. -/
def Lands {α : Type} (P : Request → Prop) (C : Prop) (m : Prog (World Stick) α) : Prop :=
  ∀ w, Writable w →
    Prog.wp m (fun _ t => LandedFor P w t) (fun t => AskedFor P w t ∧ C) w

namespace Lands

variable {α β : Type} {P P' : Request → Prop} {C C' : Prop} {m : Prog (World Stick) α}
  {f : α → Prog (World Stick) β}

theorem bind (hm : Lands P C m) (hf : ∀ a, Lands P C (f a)) : Lands P C (m >>= f) := by
  intro w hw
  rw [Prog.wp_bind]
  refine Prog.wp_mono (hm w hw) ?_ (fun _ h => h)
  intro a t ht
  refine Prog.wp_mono (hf a t (ht.writable hw)) ?_ ?_
  · intro b u hu
    exact ht.trans hu
  · intro u hu
    exact ⟨ht.asked.trans hu.1, hu.2⟩

theorem mono (hm : Lands P C m) (hP : ∀ q, P q → P' q) (hC : C → C') : Lands P' C' m := fun w hw =>
  Prog.wp_mono (hm w hw) (fun _ _ h => h.mono hP) fun _ h => ⟨h.1.mono hP, hC h.2⟩

/-- One request below byte 2^32. -/
theorem request (fuel : ℕ) (buf : Buf) (count o : ℕ) (hpos : 0 < count) (hc : 512 ∣ count) (ho : 512 ∣ o)
    (hcount : count ≤ 4294967296 - 512) (hlt : o < 4294967296) (hP : P (writeRequest buf count o))
    (hC : fuel ≤ count → C) : Lands P C (scsiIoInternal stick fuel buf count o true) := by
  intro w hw
  have hoff := hw.offset
  refine Prog.wp_mono (wp_writeRequest hw.ready fuel buf count o hpos hc ho (by omega) (by omega)) ?_ ?_
  · intro r t h
    exact (h.landed (h.accepted hw.cache)).for hP
  · intro t h
    exact ⟨h.1.for hP, hC h.2⟩

end Lands

end FormatStick
