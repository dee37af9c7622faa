import Mathlib.Tactic.Common

/-!
# State programs with bounded loops

A program maps a state to a value and a state. Every loop carries a bound on
its passes; a run that exhausts the bound has no value but keeps the state it
was cut in, so a statement over all bounds speaks about every prefix of an
endless run. Weakest preconditions take one postcondition for returned values
and one for cut states.
-/
namespace FormatStick

/-- A program over states `σ` with values in `α`. -/
def Prog (σ α : Type) : Type := σ → Option α × σ

namespace Prog

variable {σ τ α β ι : Type}

instance : Monad (Prog σ) where
  pure a := fun s => (some a, s)
  bind m f := fun s =>
    match m s with
    | (some a, t) => f a t
    | (none, t) => (none, t)

/-- The current state. -/
def read : Prog σ σ := fun s => (some s, s)

/-- A change of the state. -/
def update (f : σ → σ) : Prog σ Unit := fun s => (some (), f s)

/-- A program on the left one of two states. -/
def left (m : Prog σ α) : Prog (σ × τ) α := fun s => ((m s.1).1, (m s.1).2, s.2)

/-- A call of a function that always returns, on the right one of two states. -/
def right (f : τ → α × τ) : Prog (σ × τ) α := fun s => (some (f s.2).1, s.1, (f s.2).2)

/-- A program that has a second state to itself, `t` at first. -/
def alongside (m : Prog (σ × τ) α) (t : τ) : Prog σ α := fun s => ((m (s, t)).1, (m (s, t)).2.1)

/-- The end of a run whose loop bound is exhausted. -/
def cut : Prog σ α := fun s => (none, s)

/-- At most `fuel` passes of a loop: a pass either leaves the loop with a value
or hands its loop variables to the next pass. -/
def loop (body : ι → Prog σ (ι ⊕ α)) : ℕ → ι → Prog σ α
  | 0, _ => cut
  | fuel + 1, i => do
    match ← body i with
    | .inl j => loop body fuel j
    | .inr a => pure a

/-- `Q` holds of every value the program returns from `s`, `D` of the state
where it is cut. -/
def wp (m : Prog σ α) (Q : α → σ → Prop) (D : σ → Prop) (s : σ) : Prop :=
  match m s with
  | (some a, t) => Q a t
  | (none, t) => D t

variable {Q Q' : α → σ → Prop} {D D' : σ → Prop} {s : σ}

@[simp] theorem wp_pure (a : α) : wp (pure a) Q D s ↔ Q a s := Iff.rfl

@[simp] theorem wp_read {Q : σ → σ → Prop} : wp read Q D s ↔ Q s s := Iff.rfl

@[simp] theorem wp_update {Q : Unit → σ → Prop} (f : σ → σ) :
    wp (update f) Q D s ↔ Q () (f s) := Iff.rfl

@[simp] theorem wp_left {Q : α → σ × τ → Prop} {D : σ × τ → Prop} {s : σ × τ} (m : Prog σ α) :
    wp m.left Q D s ↔ wp m (fun a t => Q a (t, s.2)) (fun t => D (t, s.2)) s.1 := by
  unfold wp left
  rcases m s.1 with ⟨_ | a, t⟩ <;> rfl

@[simp] theorem wp_right {Q : α → σ × τ → Prop} {D : σ × τ → Prop} {s : σ × τ} (f : τ → α × τ) :
    wp (right f) Q D s ↔ Q (f s.2).1 (s.1, (f s.2).2) := Iff.rfl

@[simp] theorem wp_alongside (m : Prog (σ × τ) α) (t : τ) :
    wp (m.alongside t) Q D s ↔ wp m (fun a u => Q a u.1) (fun u => D u.1) (s, t) := by
  unfold wp alongside
  rcases m (s, t) with ⟨_ | a, u⟩ <;> rfl

@[simp] theorem wp_cut : wp cut Q D s ↔ D s := Iff.rfl

@[simp] theorem wp_bind (m : Prog σ β) (f : β → Prog σ α) :
    wp (m >>= f) Q D s ↔ wp m (fun a t => wp (f a) Q D t) D s := by
  change (match (match m s with | (some a, t) => f a t | (none, t) => (none, t)) with
    | (some a, t) => Q a t
    | (none, t) => D t) ↔ _
  unfold wp
  rcases m s with ⟨_ | a, t⟩ <;> rfl

theorem wp_mono {m : Prog σ α} (h : wp m Q D s) (hQ : ∀ a t, Q a t → Q' a t)
    (hD : ∀ t, D t → D' t) : wp m Q' D' s := by
  unfold wp at h ⊢
  rcases hm : m s with ⟨_ | a, t⟩ <;> rw [hm] at h
  · exact hD t h
  · exact hQ a t h

/-- What else holds where a program that cannot be cut returns. -/
theorem wp_and {m : Prog σ α} (h : wp m Q D s) (h' : wp m Q' D' s) :
    wp m (fun a t => Q a t ∧ Q' a t) (fun t => D t ∧ D' t) s := by
  unfold wp at h h' ⊢
  rcases hm : m s with ⟨_ | a, t⟩ <;> rw [hm] at h h' <;> exact ⟨h, h'⟩

theorem wp_with {m : Prog σ α} (h : wp m Q (fun _ => False) s) (h' : wp m Q' (fun _ => True) s) :
    wp m (fun a t => Q a t ∧ Q' a t) (fun _ => False) s := by
  unfold wp at h h' ⊢
  rcases hm : m s with ⟨_ | a, t⟩ <;> rw [hm] at h h'
  · exact h
  · exact ⟨h, h'⟩

theorem wp_ite {c : Prop} [Decidable c] {m n : Prog σ α}
    (hm : c → wp m Q D s) (hn : ¬c → wp n Q D s) : wp (if c then m else n) Q D s := by
  split_ifs with h
  · exact hm h
  · exact hn h

/-- What the run of a program that satisfies a precondition returns. -/
theorem wp_run {m : Prog σ α} {a : α} {t : σ} (h : wp m Q D s) (hr : m s = (some a, t)) :
    Q a t := by
  unfold wp at h
  rwa [hr] at h

theorem wp_of_run {m : Prog σ α} (h : ∀ a t, m s = (some a, t) → Q a t) : wp m Q (fun _ => True) s := by
  unfold wp
  rcases hm : m s with ⟨_ | a, t⟩
  · trivial
  · exact h a t hm

theorem bind_of_returns {m : Prog σ β} {f : β → Prog σ α} {b : β} {u : σ} (h : m s = (some b, u)) :
    (m >>= f) s = f b u := by
  change (match m s with | (some b, u) => f b u | (none, u) => (none, u)) = _
  rw [h]

/-- The rest of a sequence whose first part is known to return. -/
theorem wp_bind_of_returns {m : Prog σ β} {f : β → Prog σ α} {b : β} {u : σ} (h : m s = (some b, u))
    (hf : wp (f b) Q D u) : wp (m >>= f) Q D s := by
  rw [wp, bind_of_returns h]
  exact hf

theorem bind_of_cut {m : Prog σ β} {f : β → Prog σ α} {u : σ} (h : m s = (none, u)) :
    (m >>= f) s = (none, u) := by
  change (match m s with | (some b, u) => f b u | (none, u) => (none, u)) = _
  rw [h]

theorem bind_bind (m : Prog σ α) (f : α → Prog σ β) (g : β → Prog σ ι) :
    (m >>= f) >>= g = m >>= fun a => f a >>= g := by
  funext s
  change (match (match m s with | (some a, t) => f a t | (none, t) => (none, t)) with
    | (some b, t) => g b t
    | (none, t) => (none, t)) = match m s with | (some a, t) => (f a >>= g) t | (none, t) => (none, t)
  rcases m s with ⟨_ | a, t⟩ <;> rfl

/-- A sequence that returns returned from its first part. -/
theorem bind_returns {m : Prog σ β} {f : β → Prog σ α} {a : α} {t : σ} (h : (m >>= f) s = (some a, t)) :
    ∃ b u, m s = (some b, u) ∧ f b u = (some a, t) := by
  change (match m s with | (some b, u) => f b u | (none, u) => (none, u)) = _ at h
  rcases hm : m s with ⟨_ | b, u⟩ <;> rw [hm] at h
  · cases h
  · exact ⟨b, u, rfl, h⟩

theorem eq_of_fst {m : Prog σ α} {a : α} (h : (m s).1 = some a) : m s = (some a, (m s).2) :=
  Prod.ext h rfl

/-- A program that cannot be cut returns. -/
theorem wp_returns {m : Prog σ α} (h : wp m Q (fun _ => False) s) :
    ∃ a t, m s = (some a, t) ∧ Q a t := by
  unfold wp at h
  rcases hm : m s with ⟨_ | a, t⟩
  · rw [hm] at h
    exact h.elim
  · rw [hm] at h
    exact ⟨a, t, rfl, h⟩

/-- A program that is only cut for a reason that is not given returns. -/
theorem wp_returns_of {m : Prog σ α} (h : wp m Q D s) (hD : ∀ t, ¬D t) : ∃ a t, m s = (some a, t) ∧ Q a t :=
  wp_returns (wp_mono h (fun _ _ h => h) hD)

/-- A property of the state that holds at the end of every run, cut or not. -/
theorem wp_state {m : Prog σ α} {I : σ → Prop} (h : wp m (fun _ t => I t) I s) : I (m s).2 := by
  unfold wp at h
  rcases hm : m s with ⟨_ | a, t⟩ <;> rw [hm] at h <;> exact h

theorem wp_of_state {m : Prog σ α} {I : σ → Prop} (h : I (m s).2) : wp m (fun _ t => I t) I s := by
  unfold wp
  rcases hm : m s with ⟨_ | a, t⟩ <;> rw [hm] at h <;> exact h

/-- The invariant rule. The measure bounds the passes still to come: a loop is cut only
where the bound does not exceed the measure it started with. -/
theorem wp_loop_cut {body : ι → Prog σ (ι ⊕ α)} (Inv : ι → σ → Prop) (μ : ι → ℕ)
    {fuel : ℕ} {i : ι}
    (hcut : ∀ j t, Inv j t → fuel ≤ μ i → D t)
    (hpass : ∀ j t, Inv j t →
      wp (body j) (fun r u => match r with | .inl k => Inv k u ∧ μ k < μ j | .inr a => Q a u) D t)
    (hs : Inv i s) : wp (loop body fuel i) Q D s := by
  -- after `n` passes `fuel - n` are left and the measure has dropped by at least `n`
  suffices h : ∀ m j t, Inv j t → μ j + fuel ≤ μ i + m → wp (loop body m j) Q D t from
    h fuel i s hs (Nat.le_refl _)
  intro m
  induction m with
  | zero =>
    intro j t hj hm
    exact hcut j t hj (by omega)
  | succ m ih =>
    intro j t hj hm
    rw [loop, wp_bind]
    refine wp_mono (hpass j t hj) ?_ (fun _ h => h)
    intro r u hr
    rcases r with k | a
    · exact ih k u hr.1 (by omega)
    · exact hr

/-- The invariant rule without a measure: what one pass preserves, every bounded run of
the loop does. -/
theorem wp_loop {body : ι → Prog σ (ι ⊕ α)} (Inv : ι → σ → Prop)
    (hcut : ∀ i t, Inv i t → D t)
    (hpass : ∀ i t, Inv i t →
      wp (body i) (fun r u => match r with | .inl j => Inv j u | .inr a => Q a u) D t)
    (fuel : ℕ) (i : ι) (hs : Inv i s) : wp (loop body fuel i) Q D s := by
  induction fuel generalizing i s with
  | zero => exact hcut i s hs
  | succ fuel ih =>
    rw [loop, wp_bind]
    refine wp_mono (hpass i s hs) ?_ (fun _ h => h)
    intro r t ht
    rcases r with j | a
    · exact ih j ht
    · exact ht

/-- The invariant rule for a loop whose passes make progress only under a condition `c`:
without it the invariant is all there is to say. -/
theorem wp_loop_progress {body : ι → Prog σ (ι ⊕ α)} {c : Prop} (Inv : ι → σ → Prop) (μ : ι → ℕ)
    {fuel : ℕ} {i : ι}
    (hcut : ∀ j t, Inv j t → (c → fuel ≤ μ i) → D t)
    (hpass : ∀ j t, Inv j t →
      wp (body j) (fun r u => match r with | .inl k => Inv k u ∧ (c → μ k < μ j) | .inr a => Q a u) D t)
    (hs : Inv i s) : wp (loop body fuel i) Q D s := by
  by_cases hc : c
  · refine wp_loop_cut Inv μ (fun j t hj hf => hcut j t hj fun _ => hf) ?_ hs
    intro j t hj
    refine wp_mono (hpass j t hj) ?_ (fun _ h => h)
    rintro (k | a) u hu
    · exact ⟨hu.1, hu.2 hc⟩
    · exact hu
  · refine wp_loop Inv (fun j t hj => hcut j t hj fun h => absurd h hc) ?_ fuel i hs
    intro j t hj
    refine wp_mono (hpass j t hj) ?_ (fun _ h => h)
    rintro (k | a) u hu
    · exact hu.1
    · exact hu

/-- `I` holds of the loop variables and the state at the start of every pass. -/
def Passes (body : ι → Prog σ (ι ⊕ α)) (I : ι → σ → Prop) : ℕ → ι → σ → Prop
  | 0, _, _ => True
  | fuel + 1, i, s =>
    I i s ∧ match body i s with
      | (some (.inl j), t) => Passes body I fuel j t
      | (_, _) => True

/-- What an invariant of the passes gives at the start of one, it gives at the start of all. -/
theorem passes_of_invariant {body : ι → Prog σ (ι ⊕ α)} {I J : ι → σ → Prop}
    (h : ∀ i s, I i s → J i s ∧
      wp (body i) (fun r t => match r with | .inl k => I k t | .inr _ => True) (fun _ => True) s)
    (fuel : ℕ) {i : ι} {s : σ} (hs : I i s) : Passes body J fuel i s := by
  induction fuel generalizing i s with
  | zero => trivial
  | succ fuel ih =>
    obtain ⟨hJ, hpass⟩ := h i s hs
    refine ⟨hJ, ?_⟩
    unfold wp at hpass
    rcases hrun : body i s with ⟨_ | k | a, t⟩
    · trivial
    · rw [hrun] at hpass
      exact ih hpass
    · trivial

/-- What holds at the start of a pass under a condition holds in the runs that meet the condition
at the start of every pass. -/
theorem Passes.congr {body : ι → Prog σ (ι ⊕ α)} {I J : ι → σ → Prop} (h : ∀ i s, I i s ↔ J i s) (fuel : ℕ)
    (i : ι) (s : σ) : Passes body I fuel i s ↔ Passes body J fuel i s := by
  induction fuel generalizing i s with
  | zero => exact Iff.rfl
  | succ fuel ih =>
    rw [Passes, Passes]
    refine and_congr (h i s) ?_
    rcases body i s with ⟨_ | j | a, t⟩
    · exact Iff.rfl
    · exact ih j t
    · exact Iff.rfl

end Prog

end FormatStick
