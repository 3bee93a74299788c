import MarginRouter.Step

/-!
# Steps that succeed and steps that fail

What the success of a composed step says about its parts, and what its failure says, and relations between the state before a
step and the state after it that hold whenever the step succeeds. A call that fails leaves no trace in the committed ledger, so
nearly all that is said about executions is said about steps that succeed.
-/

namespace MarginRouter

namespace Attempt

variable {ε ε' α β : Type}

@[simp] theorem pure_eq_ok {a b : α} : (pure a : Except ε α) = .ok b ↔ a = b := by
  show Except.ok a = .ok b ↔ _
  rw [Except.ok.injEq]

/-- A sequence of computations succeeds exactly when its first part does and its second part does with the answer. -/
@[simp] theorem bind_eq_ok {x : Except ε α} {f : α → Except ε β} {b : β} :
    x >>= f = .ok b ↔ ∃ a, x = .ok a ∧ f a = .ok b := by
  cases x with
  | ok a => exact ⟨fun h => ⟨a, rfl, h⟩, fun ⟨_, ha, h⟩ => by cases ha; exact h⟩
  | error e => exact ⟨nofun, fun ⟨_, ha, _⟩ => nomatch ha⟩

@[simp] theorem throw_ne_ok {e : ε} {a : α} : (throw e : Except ε α) ≠ .ok a := nofun

/-- A computation behind a check succeeds exactly when the check passes and the computation succeeds. -/
@[simp] theorem refuse_eq_ok {c : Prop} [Decidable c] {e : ε} {f : α → Except ε β} {g : Except ε β} {b : β} :
    (if c then (throw e : Except ε α) >>= f else g) = .ok b ↔ ¬c ∧ g = .ok b := by
  by_cases h : c
  · rw [if_pos h, bind_eq_ok]
    exact ⟨fun ⟨_, hx, _⟩ => absurd hx throw_ne_ok, fun hg => absurd h hg.1⟩
  · rw [if_neg h]
    exact ⟨fun hg => ⟨h, hg⟩, fun hg => hg.2⟩

@[simp] theorem mapError_eq_ok {f : ε → ε'} {x : Except ε α} {a : α} : x.mapError f = .ok a ↔ x = .ok a := by
  cases x with
  | ok b =>
    show (Except.ok b : Except ε' α) = .ok a ↔ _
    rw [Except.ok.injEq, Except.ok.injEq]
  | error e => exact ⟨nofun, nofun⟩

/-- A sequence of computations fails with the error of its first part, or of its second part with the answer of the first. -/
theorem bind_eq_error {x : Except ε α} {f : α → Except ε β} {e : ε} :
    x >>= f = .error e ↔ x = .error e ∨ ∃ a, x = .ok a ∧ f a = .error e := by
  cases x with
  | ok a =>
    refine ⟨fun h => .inr ⟨a, rfl, h⟩, fun h => ?_⟩
    obtain ⟨_, ha, h⟩ := h.resolve_left nofun
    cases ha
    exact h
  | error e' =>
    show Except.error e' = .error e ↔ _
    simp

theorem pure_ne_error {a : α} {e : ε} : (pure a : Except ε α) ≠ .error e := nofun

theorem throw_eq_error {e e' : ε} : (throw e : Except ε α) = .error e' ↔ e = e' := by
  show Except.error e = .error e' ↔ _
  rw [Except.error.injEq]

/-- A check comes before whatever is made of the result. -/
theorem refuse_map {c : Prop} [Decidable c] (e : ε) {f : α → β} {γ : Type} {k : γ → Except ε α} {g : γ → Except ε β}
    {x : Except ε α} {y : Except ε β} (h : y = x.map f) :
    (if c then throw e >>= g else y) = (if c then throw e >>= k else x).map f := by
  subst h
  split
  · rfl
  · rfl

/-- A computation behind a check fails when the check does, or the computation. -/
theorem refuse_eq_error {c : Prop} [Decidable c] {e e' : ε} {f : α → Except ε β} {g : Except ε β} :
    (if c then (throw e : Except ε α) >>= f else g) = .error e' ↔ c ∧ e = e' ∨ ¬c ∧ g = .error e' := by
  by_cases h : c
  · rw [if_pos h]
    show Except.error e = .error e' ↔ _
    simp [h]
  · rw [if_neg h]
    simp [h]

theorem mapError_eq_error {f : ε → ε'} {x : Except ε α} {e' : ε'} :
    x.mapError f = .error e' ↔ ∃ e, x = .error e ∧ f e = e' := by
  cases x with
  | ok a => exact ⟨nofun, fun ⟨_, he, _⟩ => nomatch he⟩
  | error e =>
    show Except.error (f e) = .error e' ↔ _
    simp

theorem toOption_eq_some {x : Except ε α} {a : α} : x.toOption = some a ↔ x = .ok a := by
  cases x with
  | ok b =>
    show some b = some a ↔ _
    rw [Option.some.injEq, Except.ok.injEq]
  | error e => exact ⟨nofun, nofun⟩

theorem ok_of_toOption {x : Except ε α} {a : α} (h : x.toOption = some a) : x = .ok a :=
  toOption_eq_some.1 h

/-- What each computation of a run keeps, a run that succeeds keeps. -/
theorem foldlM_keeps {f : α → β → Except ε α} {P : α → Prop} :
    ∀ {xs : List β} {a b : α}, (∀ x ∈ xs, ∀ {a b}, P a → f a x = .ok b → P b) → P a → xs.foldlM f a = .ok b → P b
  | [], a, b, _, ha, h => by
    obtain rfl := pure_eq_ok.1 h
    exact ha
  | x :: xs, a, b, hf, ha, h => by
    obtain ⟨c, hc, h⟩ := bind_eq_ok.1 h
    exact foldlM_keeps (fun y hy => hf y (List.mem_cons_of_mem x hy)) (hf x List.mem_cons_self ha hc) h

/-- The course of a loop: from `s` on, `n` turns go on, each from the state the one before it has come to, and then a turn stops or
fails, which makes `result`. -/
inductive Loops (turn : α → Except ε (Option α)) : α → Nat → Except ε α → Prop where
  | stop {s : α} : turn s = .ok none → Loops turn s 0 (.ok s)
  | fail {s : α} {e : ε} : turn s = .error e → Loops turn s 0 (.error e)
  | again {s s' : α} {n : Nat} {result : Except ε α} : turn s = .ok (some s') → Loops turn s' n result →
    Loops turn s (n + 1) result

namespace Loops

variable {turn : α → Except ε (Option α)} {s : α} {n : Nat} {P : α → Prop}

/-- What every turn keeps holds where a loop has stopped, and there is nothing left to do there. -/
theorem of_ok {a : α} (h : Loops turn s n (.ok a)) (hP : ∀ s s', P s → turn s = .ok (some s') → P s') (hs : P s) :
    P a ∧ turn a = .ok none := by
  generalize hr : (Except.ok a : Except ε α) = result at h
  induction h with
  | stop ht =>
    cases hr
    exact ⟨hs, ht⟩
  | fail ht => cases hr
  | again ht _ ih => exact ih (hP _ _ hs ht) hr

/-- A loop whose turns do not fail while they keep a property does not fail. -/
theorem exists_ok {result : Except ε α} (h : Loops turn s n result) (hP : ∀ s s', P s → turn s = .ok (some s') → P s')
    (ht : ∀ s, P s → ∃ next, turn s = .ok next) (hs : P s) : ∃ a, result = .ok a := by
  induction h with
  | stop _ => exact ⟨_, rfl⟩
  | fail he =>
    obtain ⟨next, hnext⟩ := ht _ hs
    rw [hnext] at he
    cases he
  | again hnext _ ih => exact ih (hP _ _ hs hnext)

/-- A function that does what the turns say runs through the loop, and the loop ends, if every turn that goes on makes a measure
smaller. -/
theorem of_measure {f : α → Except ε α} (hf : ∀ s, f s = turn s >>= fun next => next.elim (pure s) f) (size : α → Nat)
    (hlt : ∀ s s', turn s = .ok (some s') → size s' < size s) (s : α) : ∃ n, Loops turn s n (f s) := by
  rw [hf s]
  cases ht : turn s with
  | error e => exact ⟨0, .fail ht⟩
  | ok next =>
    cases next with
    | none => exact ⟨0, .stop ht⟩
    | some s' =>
      have hsmaller := hlt s s' ht
      obtain ⟨n, hn⟩ := of_measure hf size hlt s'
      exact ⟨n + 1, .again ht hn⟩
termination_by size s

end Loops

/-- Whenever the computation fails, its error has the property. -/
def Fails (P : ε → Prop) (x : Except ε α) : Prop :=
  ∀ ⦃e : ε⦄, x = .error e → P e

namespace Fails

variable {P : ε → Prop}

theorem pure (a : α) : Fails P (Pure.pure a : Except ε α) :=
  fun _ h => absurd h pure_ne_error

theorem throw {e : ε} (he : P e) : Fails P (throwThe ε e : Except ε α) := by
  intro e' h
  rw [← throw_eq_error.1 h]
  exact he

/-- Of what follows, only what comes after an answer of the first part is looked at. -/
theorem bind_of_ok {x : Except ε α} {f : α → Except ε β} (hx : Fails P x) (hf : ∀ a, x = .ok a → Fails P (f a)) :
    Fails P (x >>= f) := by
  intro e h
  rcases bind_eq_error.1 h with h | ⟨a, ha, h⟩
  · exact hx h
  · exact hf a ha h

theorem bind {x : Except ε α} {f : α → Except ε β} (hx : Fails P x) (hf : ∀ a, Fails P (f a)) : Fails P (x >>= f) :=
  bind_of_ok hx fun a _ => hf a

theorem refuse {c : Prop} [Decidable c] {e : ε} {f : β → Except ε α} {x : Except ε α} (he : P e) (hx : Fails P x) :
    Fails P (if c then MonadExcept.throw e >>= f else x) := by
  intro e' h
  rcases refuse_eq_error.1 h with ⟨-, rfl⟩ | ⟨-, h⟩
  · exact he
  · exact hx h

theorem mapError {f : ε' → ε} (x : Except ε' α) (hf : ∀ e, P (f e)) : Fails P (x.mapError f) := by
  intro e h
  obtain ⟨e', -, rfl⟩ := mapError_eq_error.1 h
  exact hf e'

end Fails

end Attempt

namespace Step

variable {ε ε' σ τ α β : Type}

@[simp] theorem pure_eq_ok {a b : α} {s s' : σ} : (pure a : Step ε σ α) s = .ok b s' ↔ a = b ∧ s = s' := by
  show EStateM.Result.ok a s = .ok b s' ↔ _
  rw [EStateM.Result.ok.injEq]

/-- A sequence succeeds exactly when its first part does and its second part does from there. -/
@[simp] theorem bind_eq_ok {x : Step ε σ α} {f : α → Step ε σ β} {s s'' : σ} {b : β} :
    (x >>= f) s = .ok b s'' ↔ ∃ a s', x s = .ok a s' ∧ f a s' = .ok b s'' := by
  show EStateM.bind x f s = .ok b s'' ↔ _
  unfold EStateM.bind
  cases h : x s with
  | ok a s' =>
    refine ⟨fun hf => ⟨a, s', rfl, hf⟩, ?_⟩
    rintro ⟨a', t, hx, hf⟩
    cases hx
    exact hf
  | error e s' => exact ⟨nofun, fun ⟨_, _, hx, _⟩ => nomatch hx⟩

@[simp] theorem throw_ne_ok {e : ε} {s s' : σ} {a : α} : (throw e : Step ε σ α) s ≠ .ok a s' := nofun

/-- A step behind a check succeeds exactly when the check passes and the step succeeds. -/
@[simp] theorem refuse_eq_ok {c : Prop} [Decidable c] {e : ε} {f : α → Step ε σ β} {g : Step ε σ β} {s s' : σ} {b : β} :
    (if c then (throw e : Step ε σ α) >>= f else g) s = .ok b s' ↔ ¬c ∧ g s = .ok b s' := by
  by_cases h : c
  · rw [if_pos h, bind_eq_ok]
    exact ⟨fun ⟨_, _, hx, _⟩ => absurd hx throw_ne_ok, fun hg => absurd h hg.1⟩
  · rw [if_neg h]
    exact ⟨fun hg => ⟨h, hg⟩, fun hg => hg.2⟩

@[simp] theorem get_eq_ok {s s' a : σ} : (get : Step ε σ σ) s = .ok a s' ↔ s = a ∧ s = s' := by
  show EStateM.Result.ok s s = .ok a s' ↔ _
  rw [EStateM.Result.ok.injEq]

@[simp] theorem modify_eq_ok {f : σ → σ} {s s' : σ} {a : PUnit} :
    (modify f : Step ε σ PUnit) s = .ok a s' ↔ f s = s' := by
  show EStateM.Result.ok PUnit.unit (f s) = .ok a s' ↔ _
  rw [EStateM.Result.ok.injEq]
  exact ⟨fun h => h.2, fun h => ⟨rfl, h⟩⟩

@[simp] theorem write_eq_ok {f : σ → Except ε σ} {s s' : σ} {u : Unit} : write f s = .ok u s' ↔ f s = .ok s' := by
  unfold write
  cases h : f s with
  | ok t => exact ⟨fun ht => by cases ht; rfl, fun ht => by cases ht; rfl⟩
  | error e => exact ⟨nofun, nofun⟩

@[simp] theorem on_eq_ok {part : σ → τ} {put : τ → σ → σ} {step : Step ε τ α} {s s' : σ} {a : α} :
    on part put step s = .ok a s' ↔ ∃ t, step (part s) = .ok a t ∧ put t s = s' := by
  unfold on
  cases h : step (part s) with
  | ok b t =>
    constructor
    · intro he
      cases he
      exact ⟨t, rfl, rfl⟩
    · rintro ⟨t', ht, rfl⟩
      cases ht
      rfl
  | error e t => exact ⟨nofun, fun ⟨_, ht, _⟩ => nomatch ht⟩

@[simp] theorem lift_eq_ok {x : Except ε α} {s s' : σ} {a : α} :
    (lift x : Step ε σ α) s = .ok a s' ↔ x = .ok a ∧ s = s' := by
  cases x with
  | ok b => simp [lift]
  | error e => simp [lift]

@[simp] theorem withError_eq_ok {f : ε → ε'} {step : Step ε σ α} {s s' : σ} {a : α} :
    withError f step s = .ok a s' ↔ step s = .ok a s' := by
  unfold withError
  cases h : step s with
  | ok b t => simp
  | error e t => simp

/-! ## Steps that fail -/

theorem pure_ne_error {a : α} {e : ε} {s s' : σ} : (pure a : Step ε σ α) s ≠ .error e s' := nofun

/-- A sequence fails with the error of its first part, or of its second part from where the first has left off. -/
theorem bind_eq_error {x : Step ε σ α} {f : α → Step ε σ β} {s s'' : σ} {e : ε} :
    (x >>= f) s = .error e s'' ↔ x s = .error e s'' ∨ ∃ a s', x s = .ok a s' ∧ f a s' = .error e s'' := by
  show EStateM.bind x f s = .error e s'' ↔ _
  unfold EStateM.bind
  cases h : x s with
  | ok a s' =>
    refine ⟨fun hf => .inr ⟨a, s', rfl, hf⟩, fun hf => ?_⟩
    obtain ⟨_, _, hx, hf⟩ := hf.resolve_left nofun
    cases hx
    exact hf
  | error e' s' =>
    show EStateM.Result.error e' s' = .error e s'' ↔ _
    simp

/-- A step behind a check fails when the check does, or the step. -/
theorem refuse_eq_error {c : Prop} [Decidable c] {e e' : ε} {f : α → Step ε σ β} {g : Step ε σ β} {s s' : σ} :
    (if c then (throw e : Step ε σ α) >>= f else g) s = .error e' s' ↔ c ∧ e = e' ∧ s = s' ∨ ¬c ∧ g s = .error e' s' := by
  by_cases h : c
  · rw [if_pos h]
    show EStateM.Result.error e s = .error e' s' ↔ _
    simp [h]
  · rw [if_neg h]
    simp [h]

theorem get_ne_error {e : ε} {s s' : σ} : (get : Step ε σ σ) s ≠ .error e s' := nofun

theorem modify_ne_error {f : σ → σ} {e : ε} {s s' : σ} : (modify f : Step ε σ PUnit) s ≠ .error e s' := nofun

theorem write_eq_error {f : σ → Except ε σ} {e : ε} {s s' : σ} : write f s = .error e s' ↔ f s = .error e ∧ s = s' := by
  unfold write
  cases h : f s with
  | ok t => exact ⟨nofun, fun he => nomatch he.1⟩
  | error e' => simp

theorem on_eq_error {part : σ → τ} {put : τ → σ → σ} {step : Step ε τ α} {s s' : σ} {e : ε} :
    on part put step s = .error e s' ↔ ∃ t, step (part s) = .error e t ∧ put t s = s' := by
  unfold on
  cases h : step (part s) with
  | ok a t => exact ⟨nofun, fun ⟨_, ht, _⟩ => nomatch ht⟩
  | error e' t =>
    simp only [EStateM.Result.error.injEq]
    constructor
    · rintro ⟨rfl, rfl⟩
      exact ⟨t, ⟨rfl, rfl⟩, rfl⟩
    · rintro ⟨t', ⟨rfl, rfl⟩, rfl⟩
      exact ⟨rfl, rfl⟩

theorem lift_eq_error {x : Except ε α} {s s' : σ} {e : ε} :
    (lift x : Step ε σ α) s = .error e s' ↔ x = .error e ∧ s = s' := by
  cases x with
  | ok b => exact ⟨nofun, fun he => nomatch he.1⟩
  | error e' =>
    show EStateM.Result.error e' s = .error e s' ↔ _
    simp

theorem lift_bind_eq_error {x : Except ε α} {f : α → Step ε σ β} {s s' : σ} {e : ε} :
    (lift x >>= f) s = .error e s' ↔ x = .error e ∧ s = s' ∨ ∃ a, x = .ok a ∧ f a s = .error e s' := by
  simp only [bind_eq_error, lift_eq_error, lift_eq_ok]
  refine or_congr_right ⟨?_, fun ⟨a, ha, h⟩ => ⟨a, s, ⟨ha, rfl⟩, h⟩⟩
  rintro ⟨a, _, ⟨ha, rfl⟩, h⟩
  exact ⟨a, ha, h⟩

theorem get_bind_eq_error {f : σ → Step ε σ β} {s s' : σ} {e : ε} : (get >>= f) s = .error e s' ↔ f s s = .error e s' :=
  Iff.rfl

theorem withError_eq_error {f : ε → ε'} {step : Step ε σ α} {s s' : σ} {e' : ε'} :
    withError f step s = .error e' s' ↔ ∃ e, step s = .error e s' ∧ f e = e' := by
  unfold withError
  cases h : step s with
  | ok b t => exact ⟨nofun, fun ⟨_, he, _⟩ => nomatch he⟩
  | error e t =>
    simp only [EStateM.Result.error.injEq]
    constructor
    · rintro ⟨rfl, rfl⟩
      exact ⟨e, ⟨rfl, rfl⟩, rfl⟩
    · rintro ⟨e₁, ⟨rfl, rfl⟩, rfl⟩
      exact ⟨rfl, rfl⟩

/-! ## Outcomes -/

/-- What a step leaves and answers, once it is known to succeed. -/
theorem outcome_of_ok {step : Step ε σ α} {s s' : σ} {a : α} (h : step s = .ok a s') : step.outcome s = (.ok a, s') := by
  rw [outcome, h]

theorem outcome_fst_eq_ok {step : Step ε σ α} {s : σ} {a : α} : (step.outcome s).1 = .ok a ↔ ∃ s', step s = .ok a s' := by
  unfold outcome
  cases step s with
  | ok b t => simp
  | error e t => simp

theorem outcome_eq_error {step : Step ε σ α} {s s' : σ} {e : ε} : step.outcome s = (.error e, s') ↔ step s = .error e s' := by
  unfold outcome
  cases step s with
  | ok b t => simp
  | error e t => simp

theorem outcome_fst_eq_error {step : Step ε σ α} {s : σ} {e : ε} :
    (step.outcome s).1 = .error e ↔ ∃ s', step s = .error e s' := by
  unfold outcome
  cases step s with
  | ok b t => simp
  | error e t => simp

/-- A sequence goes on with what its first part leaves, or ends where that has failed. -/
theorem outcome_bind (x : Step ε σ α) (f : α → Step ε σ β) (s : σ) :
    (x >>= f).outcome s =
      match x.outcome s with
      | (.ok a, s') => (f a).outcome s'
      | (.error e, s') => (.error e, s') := by
  have hb : (x >>= f) s = EStateM.bind x f s := rfl
  unfold outcome
  rw [hb, EStateM.bind]
  cases x s with
  | ok a s' => rfl
  | error e s' => rfl

theorem outcome_withError (f : ε → ε') (step : Step ε σ α) (s : σ) :
    (step.withError f).outcome s = ((step.outcome s).1.mapError f, (step.outcome s).2) := by
  unfold outcome withError
  cases step s with
  | ok a t => rfl
  | error e t => rfl

theorem outcome_on (part : σ → τ) (put : τ → σ → σ) (step : Step ε τ α) (s : σ) :
    (on part put step).outcome s = ((step.outcome (part s)).1, put (step.outcome (part s)).2 s) := by
  unfold outcome on
  cases step (part s) with
  | ok a t => rfl
  | error e t => rfl

theorem write_congr {f g : σ → Except ε σ} {s : σ} (h : f s = g s) : write f s = write g s := by
  unfold write
  rw [h]

theorem modify_bind (f : σ → σ) (k : PUnit → Step ε σ β) (s : σ) : (modify f >>= k) s = k ⟨⟩ (f s) := rfl

theorem get_bind (k : σ → Step ε σ β) (s : σ) : (get >>= k) s = k s s := rfl

/-- Two sequences whose parts do the same, each from where it starts, do the same. -/
theorem bind_congr {x x' : Step ε σ α} {f f' : α → Step ε σ β} {s : σ} (hx : x s = x' s)
    (hf : ∀ a s', x' s = .ok a s' → f a s' = f' a s') : (x >>= f) s = (x' >>= f') s := by
  show EStateM.bind x f s = EStateM.bind x' f' s
  unfold EStateM.bind
  rw [hx]
  cases h : x' s with
  | ok a s' => exact hf a s' h
  | error e s' => rfl

/-- Whether a step succeeds with an answer and a state that pass a test; to be evaluated. -/
def yields (step : Step ε σ α) (s : σ) (test : α → σ → Bool) : Bool :=
  match step s with
  | .ok a s' => test a s'
  | .error .. => false

theorem exists_ok_of_yields {step : Step ε σ α} {s : σ} {test : α → σ → Bool} (h : step.yields s test = true) :
    ∃ a s', step s = .ok a s' ∧ test a s' = true := by
  unfold yields at h
  split at h
  · rename_i a s' hs
    exact ⟨a, s', hs, h⟩
  · cases h

/-! ## Properties that steps leave, whether they succeed or fail -/

/-- From a state with the property the step leaves one, whether it succeeds or fails. -/
def Maintains (P : σ → Prop) (step : Step ε σ α) : Prop :=
  ∀ ⦃s : σ⦄, P s → P (step.outcome s).2

namespace Maintains

variable {P : σ → Prop}

theorem write {f : σ → Except ε σ} (hf : ∀ s s', P s → f s = .ok s' → P s') : Maintains P (Step.write f) := by
  intro s hs
  unfold outcome Step.write
  cases h : f s with
  | ok s' => exact hf s s' hs h
  | error e => exact hs

theorem modify {f : σ → σ} (hf : ∀ s, P s → P (f s)) : Maintains P (modify f : Step ε σ PUnit) :=
  fun s hs => hf s hs

theorem bind {x : Step ε σ α} {f : α → Step ε σ β} (hx : Maintains P x) (hf : ∀ a, Maintains P (f a)) :
    Maintains P (x >>= f) := by
  intro s hs
  have hs' := hx hs
  rw [outcome_bind]
  cases h : x.outcome s with
  | mk a s' =>
    rw [h] at hs'
    cases a with
    | ok a => exact hf a hs'
    | error e => exact hs'

/-- A step on one part of the state maintains what it maintains of that part. -/
theorem on {part : σ → τ} {put : τ → σ → σ} {Q : τ → Prop} (hput : ∀ t s, part (put t s) = t) {step : Step ε τ α}
    (h : Maintains Q step) : Maintains (fun s => Q (part s)) (Step.on part put step) := by
  intro s hs
  rw [outcome_on]
  show Q (part (put _ s))
  rw [hput]
  exact h hs

end Maintains

/-! ## Runs -/

/-- The state after steps have been made in order, each from the state that the one before it has left, whether that succeeded or
failed. -/
def after (make : β → Step ε σ α) (s : σ) (ms : List β) : σ :=
  ms.foldl (fun s m => ((make m).outcome s).2) s

theorem Maintains.after {make : β → Step ε σ α} {P : σ → Prop} (hmake : ∀ m, Maintains P (make m)) :
    ∀ (ms : List β) {s : σ}, P s → P (after make s ms)
  | [], _, hs => hs
  | m :: ms, _, hs => Maintains.after hmake ms (hmake m hs)

/-- Steps that do the same from all states with a property that they maintain run to the same state. -/
theorem after_congr {make make' : β → Step ε σ α} {P : σ → Prop} (hmake : ∀ m, Maintains P (make m))
    (heq : ∀ m s, P s → make' m s = make m s) : ∀ (ms : List β) {s : σ}, P s → after make' s ms = after make s ms
  | [], _, _ => rfl
  | m :: ms, s, hs => by
    have hm : (make' m).outcome s = (make m).outcome s := by rw [outcome, outcome, heq m s hs]
    show after make' ((make' m).outcome s).2 ms = after make ((make m).outcome s).2 ms
    rw [hm]
    exact after_congr hmake heq ms (hmake m hs)

/-! ## Properties of errors -/

/-- Whenever the step fails, its error has the property. -/
def Fails (P : ε → Prop) (step : Step ε σ α) : Prop :=
  ∀ ⦃s : σ⦄ ⦃x : ε⦄ ⦃s' : σ⦄, step s = .error x s' → P x

namespace Fails

variable {P : ε → Prop}

theorem pure (a : α) : Fails P (Pure.pure a : Step ε σ α) :=
  fun _ _ _ h => absurd h pure_ne_error

theorem get : Fails P (MonadState.get : Step ε σ σ) :=
  fun _ _ _ h => absurd h get_ne_error

theorem bind {x : Step ε σ α} {f : α → Step ε σ β} (hx : Fails P x) (hf : ∀ a, Fails P (f a)) : Fails P (x >>= f) := by
  intro s e s' h
  rcases bind_eq_error.1 h with h | ⟨a, s₁, -, h⟩
  · exact hx h
  · exact hf a h

theorem refuse {c : Prop} [Decidable c] {e : ε} {f : β → Step ε σ α} {x : Step ε σ α} (he : P e) (hx : Fails P x) :
    Fails P (if c then throw e >>= f else x) := by
  intro s e' s' h
  rcases refuse_eq_error.1 h with ⟨-, rfl, -⟩ | ⟨-, h⟩
  · exact he
  · exact hx h

theorem withError {f : ε' → ε} (step : Step ε' σ α) (hf : ∀ e, P (f e)) : Fails P (step.withError f) := by
  intro s e s' h
  obtain ⟨x, -, rfl⟩ := withError_eq_error.1 h
  exact hf x

theorem on {part : σ → τ} {put : τ → σ → σ} {step : Step ε τ α} (h : Fails P step) : Fails P (Step.on part put step) := by
  intro s e s' hs
  obtain ⟨t, ht, -⟩ := on_eq_error.1 hs
  exact h ht

theorem lift {x : Except ε α} (h : Attempt.Fails P x) : Fails P (Step.lift x : Step ε σ α) :=
  fun _ _ _ hs => h (lift_eq_error.1 hs).1

end Fails

/-! ## Relations that steps keep -/

/-- Whenever the step succeeds, the state before and the state after are related. -/
def Keeps (R : σ → σ → Prop) (step : Step ε σ α) : Prop :=
  ∀ ⦃s : σ⦄ ⦃a : α⦄ ⦃s' : σ⦄, step s = .ok a s' → R s s'

/-- A relation that holds of a state and itself and can be chained. -/
structure Chains (R : σ → σ → Prop) : Prop where
  refl : ∀ s, R s s
  trans : ∀ {s s' s''}, R s s' → R s' s'' → R s s''

/-- A relation that chains does so between the states that are read off others. -/
theorem Chains.on {τ : Type} {R : σ → σ → Prop} (h : Chains R) (part : τ → σ) : Chains fun t t' => R (part t) (part t') :=
  ⟨fun t => h.refl (part t), h.trans⟩

namespace Keeps

variable {R : σ → σ → Prop}

theorem pure (h : Chains R) (a : α) : Keeps R (Pure.pure a : Step ε σ α) := by
  intro s b s' hs
  obtain ⟨-, rfl⟩ := pure_eq_ok.1 hs
  exact h.refl s

end Keeps

end Step

end MarginRouter
