import FormatStick.Prog

/-!
# Two runs side by side

Weakest preconditions of two programs that run from two states, and programs that
keep a relation of their states while they return related values. The two runs go
through the same passes of every loop and are cut together.
-/
namespace FormatStick.Prog

variable {σ τ α β γ ε ι κ : Type}

/-- Both programs return, values and states satisfying `Q`, or both are cut, in states that
satisfy `D`. -/
def wpBoth (m : Prog σ α) (n : Prog τ β) (Q : α → β → σ → τ → Prop) (D : σ → τ → Prop) (s : σ) (t : τ) :
    Prop :=
  match m s, n t with
  | (some a, s'), (some b, t') => Q a b s' t'
  | (none, s'), (none, t') => D s' t'
  | _, _ => False

section WpBoth

variable {Q Q' : α → β → σ → τ → Prop} {D D' : σ → τ → Prop} {s : σ} {t : τ}

@[simp] theorem wpBoth_pure (a : α) (b : β) : wpBoth (pure a) (pure b) Q D s t ↔ Q a b s t := Iff.rfl

@[simp] theorem wpBoth_update {Q : Unit → Unit → σ → τ → Prop} (f : σ → σ) (g : τ → τ) :
    wpBoth (update f) (update g) Q D s t ↔ Q () () (f s) (g t) := Iff.rfl

theorem bind_run (m : Prog σ γ) (f : γ → Prog σ α) (s : σ) :
    (m >>= f) s = match m s with | (some a, t) => f a t | (none, t) => (none, t) := rfl

theorem wpBoth_bind {m : Prog σ γ} {n : Prog τ ε} {f : γ → Prog σ α} {g : ε → Prog τ β}
    (h : wpBoth m n (fun a b s' t' => wpBoth (f a) (g b) Q D s' t') D s t) :
    wpBoth (m >>= f) (n >>= g) Q D s t := by
  unfold wpBoth at h
  rw [wpBoth, bind_run, bind_run]
  rcases hm : m s with ⟨_ | a, s'⟩ <;> rcases hn : n t with ⟨_ | b, t'⟩ <;> rw [hm, hn] at h
  · exact h
  · exact h.elim
  · exact h.elim
  · exact h

/-- First parts that return the same value hand it on. -/
theorem wpBoth_returns {m : Prog σ γ} {n : Prog τ γ} {f : γ → Prog σ α} {g : γ → Prog τ β} {c : γ}
    {s' : σ} {t' : τ}
    (hm : m s = (some c, s')) (hn : n t = (some c, t')) (h : wpBoth (f c) (g c) Q D s' t') :
    wpBoth (m >>= f) (n >>= g) Q D s t := by
  rw [wpBoth, bind_of_returns hm, bind_of_returns hn]
  exact h

theorem wpBoth_mono {m : Prog σ α} {n : Prog τ β} (h : wpBoth m n Q D s t)
    (hQ : ∀ a b s t, Q a b s t → Q' a b s t) (hD : ∀ s t, D s t → D' s t) : wpBoth m n Q' D' s t := by
  unfold wpBoth at h ⊢
  rcases hm : m s with ⟨_ | a, s'⟩ <;> rcases hn : n t with ⟨_ | b, t'⟩ <;> rw [hm, hn] at h
  · exact hD s' t' h
  · exact h
  · exact h
  · exact hQ a b s' t' h

theorem wpBoth_ite {c c' : Prop} [Decidable c] [Decidable c'] {m m' : Prog σ α} {n n' : Prog τ β}
    (hc : c ↔ c')
    (hm : c → wpBoth m n Q D s t) (hn : ¬c → wpBoth m' n' Q D s t) :
    wpBoth (if c then m else m') (if c' then n else n') Q D s t := by
  by_cases h : c
  · rw [if_pos h, if_pos (hc.mp h)]
    exact hm h
  · rw [if_neg h, if_neg (mt hc.mpr h)]
    exact hn h

end WpBoth

/-- Run from related states, the two programs end in related states, with values related by `S`. -/
def Coupled (R : σ → τ → Prop) (S : α → β → Prop) (m : Prog σ α) (n : Prog τ β) : Prop :=
  ∀ s t, R s t → wpBoth m n (fun a b s' t' => S a b ∧ R s' t') R s t

namespace Coupled

variable {R : σ → τ → Prop} {S : α → β → Prop}

theorem pure {a : α} {b : β} (h : S a b) : Coupled R S (pure a) (pure b) := fun _ _ hR => ⟨h, hR⟩

theorem cut : Coupled R S (cut : Prog σ α) (cut : Prog τ β) := fun _ _ hR => hR

theorem mono {S' : α → β → Prop} {m : Prog σ α} {n : Prog τ β} (h : Coupled R S m n)
    (hS : ∀ a b, S a b → S' a b) :
    Coupled R S' m n :=
  fun s t hR => wpBoth_mono (h s t hR) (fun a b _ _ hab => ⟨hS a b hab.1, hab.2⟩) fun _ _ h => h

theorem bind {U : γ → ε → Prop} {m : Prog σ γ} {n : Prog τ ε} {f : γ → Prog σ α} {g : ε → Prog τ β}
    (h : Coupled R U m n) (hf : ∀ a b, U a b → Coupled R S (f a) (g b)) : Coupled R S (m >>= f) (n >>= g) :=
  fun s t hR =>
    wpBoth_bind (wpBoth_mono (h s t hR) (fun a b s' t' hab => hf a b hab.1 s' t' hab.2) fun _ _ h => h)

/-- Parts that return the same value hand it on. -/
theorem seq {m : Prog σ γ} {n : Prog τ γ} {f : γ → Prog σ α} {g : γ → Prog τ β} (h : Coupled R Eq m n)
    (hf : ∀ a, Coupled R S (f a) (g a)) : Coupled R S (m >>= f) (n >>= g) :=
  h.bind fun a _ hab => hab ▸ hf a

theorem ite {c c' : Prop} [Decidable c] [Decidable c'] {m m' : Prog σ α} {n n' : Prog τ β} (hc : c ↔ c')
    (hm : c → Coupled R S m n) (hn : ¬c → Coupled R S m' n') :
    Coupled R S (if c then m else m') (if c' then n else n') :=
  fun s t hR => wpBoth_ite hc (fun h => hm h s t hR) fun h => hn h s t hR

/-- The loop rule: passes from related loop variables end both loops or go on in both. -/
theorem loop {V : ι → κ → Prop} {body : ι → Prog σ (ι ⊕ α)} {body' : κ → Prog τ (κ ⊕ β)}
    (h : ∀ i j, V i j → Coupled R (Sum.LiftRel V S) (body i) (body' j)) (fuel : ℕ) :
    ∀ i j, V i j → Coupled R S (loop body fuel i) (loop body' fuel j) := by
  induction fuel with
  | zero => exact fun _ _ _ => cut
  | succ fuel ih =>
    intro i j hij
    refine (h i j hij).bind fun r r' hr => ?_
    cases hr with
    | inl hr => exact ih _ _ hr
    | inr hr => exact pure hr

/-- The outcomes of coupled runs. -/
theorem state {m : Prog σ α} {n : Prog τ β} (h : Coupled R S m n) {s : σ} {t : τ} (hR : R s t) :
    R (m s).2 (n t).2 := by
  have h := h s t hR
  unfold wpBoth at h
  rcases hm : m s with ⟨_ | a, s'⟩ <;> rcases hn : n t with ⟨_ | b, t'⟩ <;> rw [hm, hn] at h
  · exact h
  · exact h.elim
  · exact h.elim
  · exact h.2

end Coupled

end FormatStick.Prog
