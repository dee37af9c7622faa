import FormatStick.Prog

/-!
# State properties that programs keep

A program keeps a property if every run from a state that has it, cut or not,
ends in one. The property is kept by a program whose parts keep it, whatever
values they hand on.
-/
namespace FormatStick.Prog

variable {σ α β ι : Type} {I : σ → Prop}

def Keeps (I : σ → Prop) (m : Prog σ α) : Prop := ∀ s, I s → I (m s).2

theorem Keeps.run {m : Prog σ α} (h : Keeps I m) {s t : σ} {r : Option α} (hs : I s) (hr : m s = (r, t)) :
    I t := by
  have := h s hs
  rwa [hr] at this

/-- A kept property as a pre- and postcondition. -/
theorem Keeps.wp {m : Prog σ α} (h : Keeps I m) {s : σ} (hs : I s) : wp m (fun _ t => I t) I s :=
  wp_of_state (h s hs)

theorem keeps_pure (a : α) : Keeps I (pure a : Prog σ α) := fun _ hs => hs

theorem keeps_read : Keeps I (read : Prog σ σ) := fun _ hs => hs

theorem keeps_cut : Keeps I (cut : Prog σ α) := fun _ hs => hs

theorem keeps_update {f : σ → σ} (h : ∀ s, I s → I (f s)) : Keeps I (update f) := h

theorem Keeps.bind {m : Prog σ β} {f : β → Prog σ α} (hm : Keeps I m) (hf : ∀ b, Keeps I (f b)) :
    Keeps I (m >>= f) := by
  intro s hs
  rcases hr : m s with ⟨_ | b, t⟩
  · rw [bind_of_cut hr]
    exact hm.run hs hr
  · rw [bind_of_returns hr]
    exact hf b t (hm.run hs hr)

theorem Keeps.and {J : σ → Prop} {m : Prog σ α} (hI : Keeps I m) (hJ : Keeps J m) :
    Keeps (fun s => I s ∧ J s) m :=
  fun s hs => ⟨hI s hs.1, hJ s hs.2⟩

/-- A program whose first part reaches a stronger property, which the rest keeps. -/
theorem Keeps.bind_into {J : σ → Prop} {m : Prog σ β} {f : β → Prog σ α}
    (hm : ∀ s, I s → Prog.wp m (fun _ t => J t) I s) (hf : ∀ b, Keeps J (f b)) (hJ : ∀ s, J s → I s) :
    Keeps I (m >>= f) := by
  intro s hs
  refine wp_state ?_
  rw [wp_bind]
  exact wp_mono (hm s hs) (fun b t ht => wp_mono ((hf b).wp ht) (fun _ u hu => hJ u hu) hJ) fun _ h => h

/-- What the first part reaches, the rest keeps. -/
theorem Keeps.after {m : Prog σ β} {f : β → Prog σ α} {s : σ} (hm : Prog.wp m (fun _ t => I t) I s)
    (hf : ∀ b, Keeps I (f b)) : Prog.wp (m >>= f) (fun _ t => I t) I s := by
  rw [wp_bind]
  exact wp_mono hm (fun b t ht => (hf b).wp ht) fun _ h => h

theorem Keeps.ite {c : Prop} [Decidable c] {m n : Prog σ α} (hm : Keeps I m) (hn : Keeps I n) :
    Keeps I (if c then m else n) := by
  split_ifs
  · exact hm
  · exact hn

theorem Keeps.loop {body : ι → Prog σ (ι ⊕ α)} (h : ∀ i, Keeps I (body i)) (fuel : ℕ) (i : ι) :
    Keeps I (loop body fuel i) := by
  induction fuel generalizing i with
  | zero => exact keeps_cut
  | succ fuel ih =>
    refine (h i).bind fun r => ?_
    cases r with
    | inl j => exact ih j
    | inr a => exact keeps_pure a

/-- Whatever the state, a value that the program returns satisfies `R`. -/
def Gives (R : α → Prop) (m : Prog σ α) : Prop := ∀ s, Prog.wp m (fun a _ => R a) (fun _ => True) s

variable {R : α → Prop}

theorem gives_pure {a : α} (h : R a) : Gives R (pure a : Prog σ α) := fun _ => h

theorem gives_true (m : Prog σ α) : Gives (fun _ => True) m := by
  intro s
  unfold Prog.wp
  rcases m s with ⟨_ | a, t⟩
  · trivial
  · trivial

theorem Gives.bind {m : Prog σ β} {f : β → Prog σ α} (hf : ∀ b, Gives R (f b)) : Gives R (m >>= f) := by
  intro s
  rw [wp_bind]
  exact wp_mono (gives_true m s) (fun b t _ => hf b t) fun _ h => h

theorem Gives.ite {c : Prop} [Decidable c] {m n : Prog σ α} (hm : Gives R m) (hn : Gives R n) :
    Gives R (if c then m else n) := by
  split_ifs
  · exact hm
  · exact hn

/-- From `I` a value that the program returns satisfies `R`, and `I` holds again. -/
def Yields (I : σ → Prop) (R : α → Prop) (m : Prog σ α) : Prop :=
  ∀ s, I s → Prog.wp m (fun a t => R a ∧ I t) (fun _ => True) s

theorem yields_pure {a : α} (h : R a) : Yields I R (pure a : Prog σ α) := fun _ hs => ⟨h, hs⟩

theorem yields_cut : Yields I R (cut : Prog σ α) := fun _ _ => trivial

/-- Nothing is known of either. -/
theorem yields_true (m : Prog σ α) : Yields (fun _ => True) (fun _ => True) m := by
  intro s _
  unfold Prog.wp
  rcases m s with ⟨_ | a, t⟩
  · trivial
  · exact ⟨trivial, trivial⟩

theorem Yields.bind {S : β → Prop} {m : Prog σ β} {f : β → Prog σ α} (hm : Yields I S m)
    (hf : ∀ b, S b → Yields I R (f b)) : Yields I R (m >>= f) := by
  intro s hs
  rw [wp_bind]
  exact wp_mono (hm s hs) (fun b t ht => hf b ht.1 t ht.2) fun _ h => h

theorem Yields.ite {c : Prop} [Decidable c] {m n : Prog σ α} (hm : c → Yields I R m)
    (hn : ¬c → Yields I R n) :
    Yields I R (if c then m else n) := by
  split_ifs with h
  · exact hm h
  · exact hn h

theorem Yields.mono {S : α → Prop} {m : Prog σ α} (h : Yields I S m) (hS : ∀ a, S a → R a) : Yields I R m :=
  fun s hs => wp_mono (h s hs) (fun a _ ha => ⟨hS a ha.1, ha.2⟩) fun _ h => h

/-- An invariant of the loop variables. -/
theorem Yields.loop {body : ι → Prog σ (ι ⊕ α)} {J : ι → Prop}
    (h : ∀ i, J i → Yields I (fun r => match r with | .inl j => J j | .inr a => R a) (body i)) (fuel : ℕ)
    {i : ι} (hi : J i) :
    Yields I R (loop body fuel i) := by
  intro s hs
  refine wp_loop (fun j t => J j ∧ I t) (fun _ _ _ => trivial)
    (fun j t hj => wp_mono (h j hj.1 t hj.2) (fun r u hr => ?_) fun _ h => h) fuel i ⟨hi, hs⟩
  rcases r with j | a
  · exact hr
  · exact hr

theorem Yields.run {m : Prog σ α} (h : Yields I R m) {s t : σ} (hs : I s) {a : α} (hr : m s = (some a, t)) :
    R a :=
  (wp_run (h s hs) hr).1

/-- From `I` the program returns, with a value that satisfies `R`, and `I` holds again. -/
def Attains (I : σ → Prop) (R : α → Prop) (m : Prog σ α) : Prop :=
  ∀ s, I s → Prog.wp m (fun a t => R a ∧ I t) (fun _ => False) s

theorem attains_pure {a : α} (h : R a) : Attains I R (pure a : Prog σ α) := fun _ hs => ⟨h, hs⟩

theorem Attains.bind {S : β → Prop} {m : Prog σ β} {f : β → Prog σ α} (hm : Attains I S m)
    (hf : ∀ b, S b → Attains I R (f b)) : Attains I R (m >>= f) := by
  intro s hs
  rw [wp_bind]
  exact wp_mono (hm s hs) (fun b t ht => hf b ht.1 t ht.2) fun _ h => h

end FormatStick.Prog
