import MarginRouter.Loan.Rogue
import MarginRouter.Proofs.LoanSequence
import MarginRouter.Proofs.Twin

/-!
# Lenders that do not look at the nonce

The number of a loan is given to the lender and comes back in the call back, where the desk compares it with the number of the
loan it is borrowing. When the lender makes nothing else depend on it, and the work does not look at it, two desks with different
numbers answer alike: the numbers on both sides of the comparison differ in the same way.
-/

namespace MarginRouter

open Step (Twin)

/-! ## Lenders -/

/-- Two courses of action that are the same, but that the one speaks of loan `n'` in its calls back where the other speaks of
loan `n`. -/
inductive Conduct.Renumbered {α : Type} (n n' : Nat) : Conduct α → Conduct α → Prop where
  | done (a : α) : Renumbered n n' (.done a) (.done a)
  | write (f : Ledger → Ledger) {next next' : Ledger → Conduct α} (h : ∀ l, Renumbered n n' (next l) (next' l)) :
      Renumbered n n' (.write f next) (.write f next')
  | callBack (caller : Address) (callback : LoanCallback) {m : Nat} (hnonce : callback.nonce = n ↔ m = n')
      {next next' : Except LoanError Unit → Conduct α} (h : ∀ r, Renumbered n n' (next r) (next' r)) :
      Renumbered n n' (.callBack caller callback next) (.callBack caller { callback with nonce := m } next')

theorem Conduct.Renumbered.bind {α β : Type} {n n' : Nat} {x y : Conduct α} {f g : α → Conduct β} (h : Renumbered n n' x y)
    (hf : ∀ a, Renumbered n n' (f a) (g a)) : Renumbered n n' (x.bind f) (y.bind g) := by
  induction h with
  | done a => exact hf a
  | write w h ih => exact .write w ih
  | callBack caller callback hnonce h ih => exact .callBack caller callback hnonce ih

namespace Dealing

variable {α β : Type} {n n' : Nat}

/-- The same of courses of action that stop at their first error. -/
def Renumbered (n n' : Nat) (x y : Dealing α) : Prop :=
  Conduct.Renumbered n n' x.run y.run

namespace Renumbered

theorem pure (a : α) : Renumbered n n' (Pure.pure a : Dealing α) (Pure.pure a) :=
  Conduct.Renumbered.done (Except.ok a)

theorem throw (e : LoanError) : Renumbered n n' (MonadExcept.throw e : Dealing α) (MonadExcept.throw e) :=
  Conduct.Renumbered.done (Except.error e)

theorem bind {x y : Dealing α} {f g : α → Dealing β} (h : Renumbered n n' x y) (hf : ∀ a, Renumbered n n' (f a) (g a)) :
    Renumbered n n' (x >>= f) (y >>= g) := by
  refine Conduct.Renumbered.bind h fun a => ?_
  cases a with
  | ok a => exact hf a
  | error e => exact .done (Except.error e)

theorem refuse {c : Prop} [Decidable c] (e : LoanError) {f g : β → Dealing α} {x y : Dealing α} (h : Renumbered n n' x y) :
    Renumbered n n' (if c then MonadExcept.throw e >>= f else x) (if c then MonadExcept.throw e >>= g else y) := by
  split
  · exact Conduct.Renumbered.done (Except.error e)
  · exact h

theorem read : Renumbered n n' Dealing.read Dealing.read :=
  Conduct.Renumbered.write id fun l => .done (Except.ok l)

theorem step (s : Step LedgerError Ledger α) (blame : LedgerError → LoanError) :
    Renumbered n n' (Dealing.step s blame) (Dealing.step s blame) :=
  Conduct.Renumbered.write _ fun _ => .done _

theorem callBack (caller : Address) (callback : LoanCallback) {m : Nat} (hnonce : callback.nonce = n ↔ m = n') :
    Renumbered n n' (Dealing.callBack caller callback) (Dealing.callBack caller { callback with nonce := m }) :=
  Conduct.Renumbered.callBack caller callback hnonce .done

/-- A lender that breaks the rules names another number only by adding to the number it has been given. -/
theorem callBacks (m : Misconduct) (address : Address) (callback : LoanCallback) (n' : Nat) :
    Renumbered callback.nonce n' (m.callBacks address callback) (m.callBacks address { callback with nonce := n' }) := by
  have hcall (caller : Address) : Renumbered callback.nonce n' (Dealing.callBack caller (m.distort callback))
      (Dealing.callBack caller (m.distort { callback with nonce := n' })) := by
    cases m
    case wrongNonce =>
      have hnonce : callback.nonce + 1 = callback.nonce ↔ n' + 1 = n' :=
        iff_of_false (Nat.succ_ne_self _) (Nat.succ_ne_self _)
      exact .callBack caller { callback with nonce := callback.nonce + 1 } hnonce
    all_goals exact .callBack caller _ (iff_of_true rfl rfl)
  unfold Misconduct.callBacks
  cases m
  case skipsCallback => exact .pure ()
  case callsTwice => exact .bind (hcall address) fun _ => hcall address
  all_goals exact hcall _

theorem offer (rate : FeeRate) (mode : FeeMode) (amount : Amount) :
    Renumbered n n' (FlashLender.offer rate mode amount) (FlashLender.offer rate mode amount) := by
  unfold FlashLender.offer
  split
  · exact .pure _
  · exact .throw _

end Renumbered

end Dealing

open Dealing (Renumbered)

namespace FlashLender

/-- The lender does the same whatever the nonce of the loan, but that it speaks of the loan it has been asked for. -/
def Oblivious (lender : FlashLender) : Prop :=
  ∀ (request : LoanRequest) (n' : Nat),
    Renumbered request.nonce n' (lender.conduct request) (lender.conduct { request with nonce := n' })

theorem oblivious_reserve (address : Address) (rate : FeeRate) (mode : FeeMode) : (reserve address rate mode).Oblivious := by
  intro request n'
  refine .bind (.offer rate mode request.amount) fun terms => .bind .read fun _ => .refuse _ <| .bind (.step _ _) fun _ => ?_
  have hnonce : (callbackFor request terms).nonce = request.nonce ↔ n' = n' := iff_of_true rfl rfl
  refine .bind (.callBack address (callbackFor request terms) hnonce) fun _ => .bind (.step _ _) fun _ => .bind .read fun _ => ?_
  exact .refuse _ (.pure terms)

theorem oblivious_rogue (address : Address) (rate : FeeRate) (mode : FeeMode) (m : Misconduct) :
    (rogue address rate mode m).Oblivious := by
  intro request n'
  refine .bind (.offer rate mode request.amount) fun terms => .bind (.step _ _) fun _ => ?_
  refine .bind (.callBacks m address (callbackFor request terms) n') fun _ => .bind (.step _ _) fun _ => ?_
  exact .pure _

end FlashLender

/-! ## Loans -/

/-- Two sessions that are alike but for the nonces of their desks. -/
def Session.Alike {τ : Type} (engine : Address) (phase : LoanPhase) (s s' : Session τ) : Prop :=
  ∃ w n n', s = ⟨w, ⟨engine, phase, n⟩⟩ ∧ s' = ⟨w, ⟨engine, phase, n'⟩⟩

/-- Two deals that are alike but for the number of the loan, which both desks are borrowing or both repaying. -/
def Deal.Alike {ε τ : Type} (context : LoanContext) (n' : Nat) (d d' : Deal ε τ) : Prop :=
  ∃ stage w failure, (stage = LoanPhase.borrowing ∨ stage = LoanPhase.repaying) ∧
    d = ⟨⟨w, ⟨context.engine, stage context, context.nonce⟩⟩, failure⟩ ∧
    d' = ⟨⟨w, ⟨context.engine, stage { context with nonce := n' }, n'⟩⟩, failure⟩

namespace LoanDesk

variable {ε τ : Type} {work : LoanContext → Step ε (Workspace τ) Unit} {embed : LoanError → ε} {context : LoanContext} {n' : Nat}

theorem twin_books {α : Type} (step : Step LoanError Books α) :
    Twin (Deal.Alike (ε := ε) (τ := τ) context n') Eq (onBooks step) (onBooks step) := by
  rintro _ _ ⟨stage, w, failure, hstage, rfl, rfl⟩
  rw [outcome_onBooks, outcome_onBooks]
  rcases step.outcome w.books with ⟨_ | a, b⟩
  · exact .error ⟨stage, { w with books := b }, failure, hstage, rfl, rfl⟩
  · exact .ok rfl ⟨stage, { w with books := b }, failure, hstage, rfl, rfl⟩

theorem twin_carryOut (hwork : ∀ context n, work { context with nonce := n } = work context) :
    Twin (Deal.Alike context n') Eq (carryOut work context) (carryOut work { context with nonce := n' }) := by
  rintro _ _ ⟨stage, w, failure, hstage, rfl, rfl⟩
  unfold Step.outcome carryOut
  rw [hwork context n']
  cases work context w with
  | ok u w' => exact .ok rfl ⟨stage, w', failure, hstage, rfl, rfl⟩
  | error e w' => exact .error ⟨stage, w', some e, hstage, rfl, rfl⟩

/-- A desk that borrows loan `n'` accepts a call back for loan `n'` when a desk that borrows another loan accepts it for that. -/
theorem accept_borrowing (provider engine caller : Address) {callback : LoanCallback} {m : Nat}
    (hnonce : callback.nonce = context.nonce ↔ m = n') :
    accept provider engine (.borrowing { context with nonce := n' }) caller { callback with nonce := m } =
      (accept provider engine (.borrowing context) caller callback).map fun context => { context with nonce := n' } := by
  unfold accept
  refine Attempt.refuse_map _ (Attempt.refuse_map _ ?_)
  simp only [ne_eq, ← hnonce]
  exact Attempt.refuse_map _ (Attempt.refuse_map _ (Attempt.refuse_map _ rfl))

theorem accept_repaying (provider engine caller : Address) (callback : LoanCallback) (context : LoanContext) (n' m : Nat) :
    accept provider engine (.repaying { context with nonce := n' }) caller { callback with nonce := m } =
      accept provider engine (.repaying context) caller callback :=
  rfl

/-- A call back that speaks of loan `n'` is answered at the desk with loan `n'` as it is at the other desk when it speaks of
the loan there. -/
theorem twin_answer (hwork : ∀ context n, work { context with nonce := n } = work context) (lender : FlashLender)
    (caller : Address) {callback : LoanCallback} {m : Nat} (hnonce : callback.nonce = context.nonce ↔ m = n') :
    Twin (Deal.Alike context n') Eq (answer lender.address work caller callback)
      (answer lender.address work caller { callback with nonce := m }) := by
  rintro _ _ ⟨stage, w, failure, rfl | rfl, rfl, rfl⟩
  · have haccept := accept_borrowing lender.address context.engine caller hnonce
    unfold Step.outcome
    cases ha : accept lender.address context.engine (.borrowing context) caller callback with
    | error e =>
      rw [ha] at haccept
      rw [answer_of_refused work ha, answer_of_refused work haccept]
      exact .error ⟨_, w, failure, .inl rfl, rfl, rfl⟩
    | ok found =>
      obtain rfl : context = found := by
        cases (accept_eq_ok ha).2
        rfl
      rw [ha] at haccept
      rw [answer_of_accepted work ha, answer_of_accepted work haccept]
      exact (twin_books _).bind_eq (fun _ => (twin_carryOut hwork).bind_eq fun _ => twin_books _)
        ⟨_, w, failure, .inr rfl, rfl, rfl⟩
  · have haccept := accept_repaying lender.address context.engine caller callback context n' m
    unfold Step.outcome
    cases ha : accept lender.address context.engine (.repaying context) caller callback with
    | error e =>
      rw [answer_of_refused work ha, answer_of_refused work (haccept.trans ha)]
      exact .error ⟨_, w, failure, .inr rfl, rfl, rfl⟩
    | ok found => cases (accept_eq_ok ha).2

/-- From deals that are alike, renumbered courses of action come to the same end and leave deals that are alike. The induction
is on the two courses of action. -/
theorem run_renumbered (hwork : ∀ context n, work { context with nonce := n } = work context) (lender : FlashLender)
    {α : Type} {x y : Conduct α} (hxy : Conduct.Renumbered context.nonce n' x y) :
    ∀ {d d' : Deal ε τ}, Deal.Alike context n' d d' → ∃ a e e', Deal.Alike context n' e e' ∧
      x.run (fun d => d.books.ledger) (fun l d => { d with books := { d.books with ledger := l } })
        (answer lender.address work) d = (a, e) ∧
      y.run (fun d => d.books.ledger) (fun l d => { d with books := { d.books with ledger := l } })
        (answer lender.address work) d' = (a, e') := by
  induction hxy with
  | done a => exact fun hd => ⟨a, _, _, hd, rfl, rfl⟩
  | write f h ih =>
    rintro _ _ ⟨stage, w, failure, hstage, rfl, rfl⟩
    exact ih w.books.ledger
      ⟨stage, { w with books := { w.books with ledger := f w.books.ledger } }, failure, hstage, rfl, rfl⟩
  | callBack caller callback hnonce h ih =>
    intro d d' hd
    have ha := twin_answer hwork lender caller hnonce hd
    unfold Conduct.run
    generalize (answer lender.address work caller callback).outcome d = o at ha ⊢
    generalize (answer lender.address work caller _).outcome d' = o' at ha ⊢
    cases ha with
    | ok answer state =>
      subst answer
      exact ih _ state
    | error state => exact ih _ state

/-- A loan that the lender has come to the end of is answered alike whatever the nonce, but for the number on its receipt. -/
theorem closing_alike (result : Except LoanError LoanTerms) {d d' : Deal ε τ} (hd : Deal.Alike context n' d d') :
    Step.Agree (Session.Alike context.engine .idle) (fun _ _ => True) (closing embed context result d)
      (closing embed { context with nonce := n' } result d') := by
  obtain ⟨stage, w, failure, rfl | rfl, rfl, rfl⟩ := hd
  · cases result with
    | error e => exact .error ⟨w, _, _, rfl, rfl⟩
    | ok charged => exact .error ⟨w, _, _, rfl, rfl⟩
  · cases result with
    | error e => exact .error ⟨w, _, _, rfl, rfl⟩
    | ok charged =>
      unfold closing
      by_cases hc : charged = context.terms
      · simp only [hc, if_true]
        exact .ok trivial ⟨w, _, _, rfl, rfl⟩
      · simp only [hc, if_false]
        exact .error ⟨w, _, _, rfl, rfl⟩

/-- A lender that does not look at the nonce is followed to the same end whatever the nonce, where the loan is closed alike. -/
theorem conducted_alike {lender : FlashLender} (hlender : lender.Oblivious)
    (hwork : ∀ context n, work { context with nonce := n } = work context) (context : LoanContext) (w : Workspace τ)
    (phase : LoanPhase) (k k' n' : Nat) :
    Step.Agree (Session.Alike context.engine .idle) (fun _ _ => True)
      (closing embed context (conducted lender work context ⟨w, ⟨context.engine, phase, k⟩⟩).1
        (conducted lender work context ⟨w, ⟨context.engine, phase, k⟩⟩).2)
      (closing embed { context with nonce := n' }
        (conducted lender work { context with nonce := n' } ⟨w, ⟨context.engine, phase, k'⟩⟩).1
        (conducted lender work { context with nonce := n' } ⟨w, ⟨context.engine, phase, k'⟩⟩).2) := by
  obtain ⟨result, d, d', hd, hrun, hrun'⟩ :=
    run_renumbered hwork lender (hlender (requestFor context) n') ⟨_, w, none, .inl rfl, rfl, rfl⟩
  have hc : conducted lender work context ⟨w, ⟨context.engine, phase, k⟩⟩ = (result, d) := hrun
  have hc' : conducted lender work { context with nonce := n' } ⟨w, ⟨context.engine, phase, k'⟩⟩ = (result, d') := hrun'
  rw [hc, hc']
  exact closing_alike result hd

theorem borrow_busy {lender : FlashLender} {plan : LoanPlan} {s : Session τ} (h : s.desk.phase ≠ .idle) :
    (borrow lender plan work embed).outcome s = (.error (embed .reentrancy), s) := by
  unfold Step.outcome borrow
  rw [if_pos h]

/-- A loan of a lender that does not look at the nonce, for work that does not look at it, is answered alike and leaves the same
whatever the nonce, but for the number on its receipt. -/
theorem twin_borrow {lender : FlashLender} (hlender : lender.Oblivious) (plan : LoanPlan) (engine : Address) (phase : LoanPhase)
    (hwork : ∀ context n, work { context with nonce := n } = work context) :
    Twin (Session.Alike engine phase) (fun _ _ => True) (borrow lender plan work embed) (borrow lender plan work embed) := by
  rintro _ _ ⟨w, n, n', rfl, rfl⟩
  by_cases hidle : phase = .idle
  · subst hidle
    cases hterms : lender.terms plan.gross with
    | error e =>
      rw [borrow_without_terms rfl hterms, borrow_without_terms rfl hterms]
      exact .error ⟨w, n, n', rfl, rfl⟩
    | ok terms =>
      rw [borrow_outcome rfl hterms, borrow_outcome rfl hterms]
      exact conducted_alike hlender hwork (contextFor ⟨engine, .idle, n⟩ lender plan terms) w .idle n n' (n' + 1)
  · rw [borrow_busy hidle, borrow_busy hidle]
    exact .error ⟨w, n, n', rfl, rfl⟩

end LoanDesk

end MarginRouter
