import Mathlib.Tactic.Common

/-!
# Conditions along runs

A system is a step function and a run a list of inputs. A condition on steps
looks at an input and at the state it meets. An invariant that every step under
a condition preserves holds in every state of the runs that meet the condition.
-/
namespace FormatStick.Runs

variable {σ ε : Type*} (step : σ → ε → σ)

/-- Every step of the run `es` from `s` meets `p` in the state it is taken in. -/
def Along (p : σ → ε → Prop) : σ → List ε → Prop
  | _, [] => True
  | s, e :: es => p s e ∧ Along p (step s e) es

/-- `p` holds of every state of the run, the first and the last among them. -/
def Throughout (p : σ → Prop) : σ → List ε → Prop
  | s, [] => p s
  | s, e :: es => p s ∧ Throughout p (step s e) es

variable {step} {p q : σ → ε → Prop} {Inv : σ → Prop} {s : σ} {es : List ε}

theorem Along.congr (h : ∀ s e, p s e ↔ q s e) : Along step p s es ↔ Along step q s es := by
  induction es generalizing s with
  | nil => exact Iff.rfl
  | cons e es ih => exact and_congr (h s e) ih

theorem Along.append {fs : List ε} (h : Along step p s es) (h' : Along step p (es.foldl step s) fs) :
    Along step p s (es ++ fs) := by
  induction es generalizing s with
  | nil => exact h'
  | cons e es ih => exact ⟨h.1, ih h.2 h'⟩

theorem Along.left {fs : List ε} (h : Along step p s (es ++ fs)) : Along step p s es := by
  induction es generalizing s with
  | nil => trivial
  | cons e es ih => exact ⟨h.1, ih h.2⟩

theorem Along.right {fs : List ε} (h : Along step p s (es ++ fs)) : Along step p (es.foldl step s) fs := by
  induction es generalizing s with
  | nil => exact h
  | cons e es ih => exact ih h.2

theorem Throughout.head (h : Throughout step Inv s es) : Inv s := by
  cases es with
  | nil => exact h
  | cons e es => exact h.1

theorem Throughout.last (h : Throughout step Inv s es) : Inv (es.foldl step s) := by
  induction es generalizing s with
  | nil => exact h
  | cons e es ih => exact ih h.2

theorem Throughout.mono {Inv' : σ → Prop} (hle : ∀ s, Inv s → Inv' s) (h : Throughout step Inv s es) :
    Throughout step Inv' s es := by
  induction es generalizing s with
  | nil => exact hle s h
  | cons e es ih => exact ⟨hle s h.1, ih h.2⟩

/-- What steps under a condition preserve, runs under the condition do. -/
theorem Along.throughout (hstep : ∀ s e, Inv s → p s e → Inv (step s e)) (h : Along step p s es)
    (hs : Inv s) :
    Throughout step Inv s es := by
  induction es generalizing s with
  | nil => exact hs
  | cons e es ih => exact ⟨hs, ih h.2 (hstep s e hs h.1)⟩

/-- A condition that holds of every step under an invariant holds along the run. -/
theorem Throughout.along (hstep : ∀ s e, Inv s → p s e → q s e) (h : Throughout step Inv s es)
    (hp : Along step p s es) : Along step q s es := by
  induction es generalizing s with
  | nil => trivial
  | cons e es ih => exact ⟨hstep s e h.1 hp.1, ih h.2 hp.2⟩

/-- Where a condition is exactly what a step needs to preserve the invariant, the runs that
keep the invariant throughout are the runs that meet the condition. -/
theorem throughout_iff (hstep : ∀ s e, Inv s → p s e → (Inv (step s e) ↔ q s e)) (hp : Along step p s es)
    (hs : Inv s) : Throughout step Inv s es ↔ Along step q s es := by
  induction es generalizing s with
  | nil => exact ⟨fun _ => trivial, fun _ => hs⟩
  | cons e es ih =>
    constructor
    · intro h
      have hnext : Inv (step s e) := h.2.head
      exact ⟨(hstep s e hs hp.1).mp hnext, (ih hp.2 hnext).mp h.2⟩
    · intro h
      have hnext : Inv (step s e) := (hstep s e hs hp.1).mpr h.1
      exact ⟨hs, (ih hp.2 hnext).mpr h.2⟩

end FormatStick.Runs
