import MarginRouter.Proofs.Step

/-!
# Steps that go alike

Two steps go alike when from states that are alike they come to the same error, or to answers that are alike, and leave states
that are alike. The rules below take a pair of steps apart as the steps are put together.
-/

namespace MarginRouter

namespace Step

variable {ε ε' σ α β : Type}

/-- Two outcomes agree: they are the same error or answers that are alike, and leave states that are alike. -/
inductive Agree (R : σ → σ → Prop) (Q : α → α → Prop) : Except ε α × σ → Except ε α × σ → Prop where
  | ok {a a' : α} {s s' : σ} (answer : Q a a') (state : R s s') : Agree R Q (.ok a, s) (.ok a', s')
  | error {e : ε} {s s' : σ} (state : R s s') : Agree R Q (.error e, s) (.error e, s')

namespace Agree

variable {R : σ → σ → Prop} {Q Q₁ : α → α → Prop} {o o' : Except ε α × σ}

theorem mono (h : Agree R Q o o') (hq : ∀ a a', Q a a' → Q₁ a a') : Agree R Q₁ o o' := by
  cases h with
  | ok answer state => exact .ok (hq _ _ answer) state
  | error state => exact .error state

theorem state (h : Agree R Q o o') : R o.2 o'.2 := by
  cases h with
  | ok _ state => exact state
  | error state => exact state

theorem answer_eq (h : Agree R Eq o o') : o'.1 = o.1 := by
  cases h with
  | ok answer _ => rw [answer]
  | error _ => rfl

theorem mapError (f : ε → ε') (h : Agree R Q o o') : Agree R Q (o.1.mapError f, o.2) (o'.1.mapError f, o'.2) := by
  cases h with
  | ok answer state => exact .ok answer state
  | error state => exact .error state

end Agree

/-- From states that are alike, the two steps come to outcomes that agree. -/
def Twin (R : σ → σ → Prop) (Q : α → α → Prop) (x y : Step ε σ α) : Prop :=
  ∀ ⦃s s' : σ⦄, R s s' → Agree R Q (x.outcome s) (y.outcome s')

namespace Twin

variable {R : σ → σ → Prop} {Q : α → α → Prop} {Q' : β → β → Prop}

theorem pure {a a' : α} (h : Q a a') : Twin R Q (Pure.pure a : Step ε σ α) (Pure.pure a') :=
  fun _ _ hs => .ok h hs

theorem throw (e : ε) : Twin R Q (throwThe ε e : Step ε σ α) (throwThe ε e) :=
  fun _ _ hs => .error hs

theorem get : Twin R R (MonadState.get : Step ε σ σ) MonadState.get :=
  fun _ _ hs => .ok hs hs

theorem bind {x y : Step ε σ α} {f g : α → Step ε σ β} (h : Twin R Q x y) (hf : ∀ a a', Q a a' → Twin R Q' (f a) (g a')) :
    Twin R Q' (x >>= f) (y >>= g) := by
  intro s s' hs
  rw [outcome_bind, outcome_bind]
  have ha := h hs
  generalize x.outcome s = o at ha ⊢
  generalize y.outcome s' = o' at ha ⊢
  cases ha with
  | ok answer state => exact hf _ _ answer state
  | error state => exact .error state

/-- A sequence whose first answers are the same. -/
theorem bind_eq {x y : Step ε σ α} {f g : α → Step ε σ β} (h : Twin R Eq x y) (hf : ∀ a, Twin R Q' (f a) (g a)) :
    Twin R Q' (x >>= f) (y >>= g) :=
  h.bind fun a _ ha => ha ▸ hf a

/-- A check refuses both, or neither. -/
theorem refuse {c : Prop} [Decidable c] (e : ε) {f g : β → Step ε σ α} {x y : Step ε σ α} (h : ¬c → Twin R Q x y) :
    Twin R Q (if c then MonadExcept.throw e >>= f else x) (if c then MonadExcept.throw e >>= g else y) := by
  split
  · exact fun _ _ hs => .error hs
  · exact h ‹_›

theorem mono {Q₁ : α → α → Prop} {x y : Step ε σ α} (h : Twin R Q x y) (hq : ∀ a a', Q a a' → Q₁ a a') : Twin R Q₁ x y :=
  fun _ _ hs => (h hs).mono hq

theorem lift (x : Except ε α) : Twin R Eq (Step.lift x : Step ε σ α) (Step.lift x) := by
  cases x with
  | ok a => exact pure rfl
  | error e => exact throw e

/-- What is known of an answer that does not depend on the state, both may use. -/
theorem lift_bind (x : Except ε α) {f g : α → Step ε σ β} (h : ∀ a, x = .ok a → Twin R Q' (f a) (g a)) :
    Twin R Q' (Step.lift x >>= f) (Step.lift x >>= g) := by
  cases x with
  | ok a => exact h a rfl
  | error e => exact fun _ _ hs => .error hs

/-- Writes that are both refused with the same error, or both made. -/
theorem write {f g : σ → Except ε σ}
    (h : ∀ s s', R s s' → (∃ e, f s = .error e ∧ g s' = .error e) ∨ ∃ t t', f s = .ok t ∧ g s' = .ok t' ∧ R t t') :
    Twin R Eq (Step.write f) (Step.write g) := by
  intro s s' hs
  unfold Step.outcome Step.write
  rcases h s s' hs with ⟨e, hf, hg⟩ | ⟨t, t', hf, hg, ht⟩
  · rw [hf, hg]
    exact .error hs
  · rw [hf, hg]
    exact .ok rfl ht

/-- Steps on parts of the states that are alike, if putting the parts back makes states that are alike. -/
theorem on {τ : Type} {T : τ → τ → Prop} {part : σ → τ} {put : τ → σ → σ} {x y : Step ε τ α} (h : Twin T Q x y)
    (hpart : ∀ s s', R s s' → T (part s) (part s')) (hput : ∀ s s' t t', R s s' → T t t' → R (put t s) (put t' s')) :
    Twin R Q (Step.on part put x) (Step.on part put y) := by
  intro s s' hs
  rw [outcome_on, outcome_on]
  have ha := h (hpart s s' hs)
  generalize x.outcome (part s) = o at ha ⊢
  generalize y.outcome (part s') = o' at ha ⊢
  cases ha with
  | ok answer state => exact .ok answer (hput s s' _ _ hs state)
  | error state => exact .error (hput s s' _ _ hs state)

/-- One step for each element of a list. -/
theorem forM {f g : β → Step ε σ PUnit} (h : ∀ b, Twin R Eq (f b) (g b)) (l : List β) :
    Twin R Eq (l.forM f) (l.forM g) := by
  induction l with
  | nil => exact .pure rfl
  | cons b l ih => exact (h b).bind_eq fun _ => ih

theorem withError {x y : Step ε σ α} (f : ε → ε') (h : Twin R Q x y) : Twin R Q (x.withError f) (y.withError f) := by
  intro s s' hs
  rw [outcome_withError, outcome_withError]
  exact (h hs).mapError f

end Twin

end Step

end MarginRouter
