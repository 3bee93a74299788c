import MarginRouter.Loan.Desk
import MarginRouter.Proofs.Clearing
import MarginRouter.Proofs.FeeRate

/-!
# Loans that succeed

What a dealing does when it comes to its end without an error, what an accepted call back does, and what is known of a loan
that the desk has answered with a receipt. Of the reserve lender all is known: it hands over what it delivers, the work is
done once, and it takes in what it is owed.
-/

namespace MarginRouter

open Ledger Clearing Books

namespace Conduct

variable {α β σ : Type} {ledger : σ → Ledger} {put : Ledger → σ → σ} {answer : Address → LoanCallback → Step LoanError σ Unit}

theorem run_bind (c : Conduct α) (k : α → Conduct β) (s : σ) :
    (c.bind k).run ledger put answer s =
      (k (c.run ledger put answer s).1).run ledger put answer (c.run ledger put answer s).2 := by
  induction c generalizing s with
  | done a => rfl
  | write f next ih => exact ih _ _
  | callBack caller callback next ih => exact ih _ _

/-- A course of action goes the same way on states that are seen through a map, if a call back does the same to them. -/
theorem run_map {σ' : Type} {ledger' : σ' → Ledger} {put' : Ledger → σ' → σ'}
    {answer' : Address → LoanCallback → Step LoanError σ' Unit} (f : σ → σ') (hledger : ∀ s, ledger' (f s) = ledger s)
    (hput : ∀ l s, put' l (f s) = f (put l s))
    (hanswer : ∀ caller callback s, (answer' caller callback).outcome (f s) =
      (((answer caller callback).outcome s).1, f ((answer caller callback).outcome s).2)) (c : Conduct α) :
    ∀ s, c.run ledger' put' answer' (f s) = ((c.run ledger put answer s).1, f (c.run ledger put answer s).2) := by
  induction c with
  | done a => exact fun s => rfl
  | write g next ih =>
    intro s
    simp only [run, hledger, hput]
    exact ih _ _
  | callBack caller callback next ih =>
    intro s
    simp only [run, hanswer]
    exact ih _ _

end Conduct

namespace Dealing

variable {α β σ : Type} {ledger : σ → Ledger} {put : Ledger → σ → σ} {answer : Address → LoanCallback → Step LoanError σ Unit}
variable {s s' : σ}

/-- The dealing comes to its end with an answer. -/
def Ends (ledger : σ → Ledger) (put : Ledger → σ → σ) (answer : Address → LoanCallback → Step LoanError σ Unit)
    (x : Dealing α) (s : σ) (a : α) (s' : σ) : Prop :=
  x.run.run ledger put answer s = (.ok a, s')

theorem ends_pure {a b : α} : Ends ledger put answer (pure a) s b s' ↔ a = b ∧ s = s' := by
  show ((Except.ok a : Except LoanError α), s) = (.ok b, s') ↔ _
  rw [Prod.mk.injEq, Except.ok.injEq]

theorem not_ends_throw {e : LoanError} {a : α} : ¬Ends ledger put answer (throw e) s a s' := by
  show ((Except.error e : Except LoanError α), s) ≠ (.ok a, s')
  simp

theorem ends_bind {x : Dealing α} {f : α → Dealing β} {b : β} :
    Ends ledger put answer (x >>= f) s b s' ↔
      ∃ a s₁, Ends ledger put answer x s a s₁ ∧ Ends ledger put answer (f a) s₁ b s' := by
  unfold Ends
  show (Conduct.bind x.run (ExceptT.bindCont fun a => f a)).run ledger put answer s = _ ↔ _
  rw [Conduct.run_bind]
  rcases hx : x.run.run ledger put answer s with ⟨_ | a, s₁⟩
  · refine ⟨nofun, ?_⟩
    rintro ⟨a, s₂, h, -⟩
    cases h
  · refine ⟨fun h => ⟨a, s₁, rfl, h⟩, ?_⟩
    rintro ⟨a', s₂, h, hf⟩
    cases h
    exact hf

/-- A dealing behind a check comes to its end exactly when the check passes and the dealing does. -/
theorem ends_refuse {c : Prop} [Decidable c] {e : LoanError} {f : α → Dealing β} {g : Dealing β} {b : β} :
    Ends ledger put answer (if c then (throw e : Dealing α) >>= f else g) s b s' ↔
      ¬c ∧ Ends ledger put answer g s b s' := by
  by_cases h : c
  · rw [if_pos h, ends_bind]
    exact ⟨fun ⟨_, _, hx, _⟩ => absurd hx not_ends_throw, fun hg => absurd h hg.1⟩
  · rw [if_neg h]
    exact ⟨fun hg => ⟨h, hg⟩, fun hg => hg.2⟩

theorem ends_read {l : Ledger} : Ends ledger put answer read s l s' ↔ ledger s = l ∧ put (ledger s) s = s' := by
  show ((Except.ok (ledger s) : Except LoanError Ledger), put (ledger s) s) = (.ok l, s') ↔ _
  rw [Prod.mk.injEq, Except.ok.injEq]

theorem ends_step {step : Step LedgerError Ledger α} {blame : LedgerError → LoanError} {a : α} :
    Ends ledger put answer (Dealing.step step blame) s a s' ↔ ∃ l, step (ledger s) = .ok a l ∧ put l s = s' := by
  show (((step.withError blame).outcome (ledger s)).1, put ((step.withError blame).outcome (ledger s)).2 s) = _ ↔ _
  rw [Prod.mk.injEq]
  unfold Step.outcome Step.withError
  cases h : step (ledger s) with
  | ok b l =>
    simp only [Except.ok.injEq, EStateM.Result.ok.injEq]
    exact ⟨fun ⟨hb, hl⟩ => ⟨l, ⟨hb, rfl⟩, hl⟩, fun ⟨_, ⟨hb, hl⟩, hp⟩ => ⟨hb, hl ▸ hp⟩⟩
  | error e l => simp

theorem ends_callBack {caller : Address} {callback : LoanCallback} {u : Unit} :
    Ends ledger put answer (callBack caller callback) s u s' ↔ answer caller callback s = .ok u s' := by
  show (((answer caller callback).outcome s).1, ((answer caller callback).outcome s).2) = (Except.ok u, s') ↔ _
  rw [Prod.mk.injEq]
  unfold Step.outcome
  cases answer caller callback s with
  | ok v t => simp
  | error e t => simp

theorem ends_offer {rate : FeeRate} {mode : FeeMode} {amount : Amount} {terms : LoanTerms} :
    Ends ledger put answer (FlashLender.offer rate mode amount) s terms s' ↔ rate.terms amount mode = .ok terms ∧ s = s' := by
  unfold FlashLender.offer
  cases h : rate.terms amount mode with
  | ok t =>
    simp only [Except.ok.injEq]
    exact ends_pure
  | error e => simp [not_ends_throw]

/-- The reserve lender transfers what it delivers, calls back, and transfers what it is owed. -/
theorem ends_reserve {address : Address} {rate : FeeRate} {mode : FeeMode} {request : LoanRequest} {terms : LoanTerms}
    (hput : ∀ s, put (ledger s) s = s)
    (h : Ends ledger put answer ((FlashLender.reserve address rate mode).conduct request) s terms s') :
    rate.terms request.amount mode = .ok terms ∧ ∃ l₁ s₁ l₂,
      transfer request.asset address request.receiver terms.delivered (ledger s) = .ok () l₁ ∧
      answer address (FlashLender.callbackFor request terms) (put l₁ s) = .ok () s₁ ∧
      transfer request.asset request.receiver address terms.owed (ledger s₁) = .ok () l₂ ∧ put l₂ s₁ = s' := by
  simp only [FlashLender.reserve, ends_bind, ends_refuse, ends_offer, ends_read, ends_step, ends_callBack, ends_pure,
    hput] at h
  obtain ⟨t, _, ⟨ht, rfl⟩, _, _, ⟨rfl, rfl⟩, -, _, _, ⟨l₁, h₁, rfl⟩, _, s₁, ha, _, _, ⟨l₂, h₂, rfl⟩, _, _, ⟨rfl, rfl⟩, -,
    rfl, rfl⟩ := h
  exact ⟨ht, l₁, s₁, l₂, h₁, ha, h₂, rfl⟩

end Dealing

namespace LoanDesk

variable {ε τ : Type} {provider engine : Address} {work : LoanContext → Step ε (Workspace τ) Unit} {caller : Address}
variable {callback : LoanCallback} {context : LoanContext} {u : Unit}

/-- A call back that is accepted comes from the provider while its loan is being borrowed. -/
theorem accept_eq_ok {phase : LoanPhase} (h : accept provider engine phase caller callback = .ok context) :
    caller = provider ∧ phase = .borrowing context := by
  simp only [accept, Attempt.refuse_eq_ok, not_not] at h
  obtain ⟨rfl, -, h⟩ := h
  refine ⟨rfl, ?_⟩
  cases phase with
  | idle => exact absurd h Attempt.throw_ne_ok
  | borrowing c =>
    simp only [Attempt.refuse_eq_ok, Attempt.pure_eq_ok] at h
    rw [h.2.2.2]
  | repaying c => exact absurd h Attempt.throw_ne_ok

/-- A call back that is accepted says what its loan is. -/
theorem callback_of_accept {phase : LoanPhase} (h : accept provider engine phase caller callback = .ok context) :
    callback = ⟨engine, context.asset, context.terms.gross, context.terms.fee, context.nonce⟩ := by
  obtain ⟨-, rfl⟩ := accept_eq_ok h
  simp only [accept, Attempt.refuse_eq_ok, Attempt.pure_eq_ok, not_not, not_or] at h
  obtain ⟨-, hinitiator, hnonce, hasset, ⟨hamount, hfee⟩, -⟩ := h
  rw [← hinitiator, ← hnonce, ← hasset, ← hamount, ← hfee]

/-- What a lender delivers is moved on to the clearing account. -/
theorem moved_takeIn {b b' : Books} (h : takeIn context b = .ok u b') :
    Moved b b' (payment context.asset context.engine (-context.terms.delivered.toNat))
      (receipt context.asset context.terms.delivered.toNat) := by
  simp only [takeIn, Step.bind_eq_ok, Step.withError_eq_ok] at h
  obtain ⟨_, b₁, h₁, h₂⟩ := h
  refine ((moved_debit h₁).trans (moved_clear_credit h₂)).congr (fun t k => ?_) fun t => ?_
  · simp
  · simp

/-- What a lender is owed is held by the clearing account, and spent, and nothing else is. -/
theorem moved_setAside {b b' : Books} (h : setAside context b = .ok u b') :
    context.terms.owed ≤ b.clearing.held context.asset ∧
      Moved b b' (payment context.asset context.engine context.terms.owed.toNat)
        (receipt context.asset (-context.terms.owed.toNat)) := by
  simp only [setAside, Step.bind_eq_ok, Step.withError_eq_ok, Step.get_eq_ok, Step.refuse_eq_ok] at h
  obtain ⟨_, _, ⟨rfl, rfl⟩, hle, _, b₁, h₁, h₂⟩ := h
  refine ⟨Nat.le_of_not_lt hle, ((moved_clear_spendHeld h₁).trans (moved_credit h₂)).congr (fun t k => ?_) fun t => ?_⟩
  · simp
  · simp

/-- A lender's transfer and the desk's taking in are one movement, from the lender to the clearing account. -/
theorem moved_lent {b b' : Books} {l : Ledger}
    (h : transfer context.asset context.provider context.engine context.terms.delivered b.ledger = .ok () l)
    (hin : takeIn context ⟨l, b.clearing⟩ = .ok u b') :
    Moved b b' (payment context.asset context.provider (-context.terms.delivered.toNat))
      (receipt context.asset context.terms.delivered.toNat) := by
  have ht : Moved b ⟨l, b.clearing⟩ _ 0 := moved_of_paid (paid_transfer h)
  refine (ht.trans (moved_takeIn hin)).congr (fun t k => ?_) fun t => ?_
  · simp only [payment, Pi.add_apply]
    split_ifs <;> omega
  · simp

/-- The desk's setting aside and the lender's transfer are one movement, from the clearing account to the lender. -/
theorem moved_repaid {b b' : Books} {l : Ledger} (hout : setAside context b = .ok u b')
    (h : transfer context.asset context.engine context.provider context.terms.owed b'.ledger = .ok () l) :
    Moved b ⟨l, b'.clearing⟩ (payment context.asset context.provider context.terms.owed.toNat)
      (receipt context.asset (-context.terms.owed.toNat)) := by
  have ht : Moved b' ⟨l, b'.clearing⟩ _ 0 := moved_of_paid (paid_transfer h)
  refine ((moved_setAside hout).2.trans ht).congr (fun t k => ?_) fun t => ?_
  · simp only [payment, Pi.add_apply]
    split_ifs <;> omega
  · simp

theorem carryOut_eq_ok {d d' : Deal ε τ} :
    carryOut work context d = .ok u d' ↔ ∃ w, work context d.toWorkspace = .ok () w ∧ d' = { d with toWorkspace := w } := by
  unfold carryOut
  cases hw : work context d.toWorkspace with
  | ok v w =>
    refine ⟨fun h => ?_, ?_⟩
    · cases h
      exact ⟨w, rfl, rfl⟩
    · rintro ⟨w', hw', rfl⟩
      cases hw'
      rfl
  | error e w => exact ⟨nofun, fun ⟨_, hw', _⟩ => nomatch hw'⟩

/-- A call back that is answered without an error: the money is taken in, the work is done, and what is owed is set aside. -/
theorem answer_eq_ok {d d' : Deal ε τ} (h : answer provider work caller callback d = .ok u d') :
    ∃ context b w b', accept provider d.desk.engine d.desk.phase caller callback = .ok context ∧
      takeIn context d.books = .ok () b ∧ work context ⟨b, d.notes⟩ = .ok () w ∧ setAside context w.books = .ok () b' ∧
      d' = { d with books := b', notes := w.notes, desk := { d.desk with phase := .repaying context } } := by
  simp only [answer, Step.bind_eq_ok, Step.get_eq_ok, Step.lift_eq_ok, Step.modify_eq_ok, onBooks, Step.on_eq_ok] at h
  obtain ⟨_, _, ⟨rfl, rfl⟩, context, _, ⟨hc, rfl⟩, _, _, rfl, _, _, ⟨b, hb, rfl⟩, _, _, hcarry, b', hb', rfl⟩ := h
  obtain ⟨w, hw, rfl⟩ := carryOut_eq_ok.1 hcarry
  exact ⟨context, b, w, b', hc, hb, hw, hb', rfl⟩

section Borrow

variable {s s' : Session τ} {lender : FlashLender} {plan : LoanPlan} {embed : LoanError → ε} {r : LoanReceipt}

/-- The state in which the lender is asked for the loan. -/
def opening (ε : Type) (s : Session τ) (context : LoanContext) : Deal ε τ :=
  { s with desk := { s.desk with phase := .borrowing context, nonce := context.nonce }, failure := none }

/-- A dealing of a lender with a desk comes to its end. -/
def Ends {α : Type} (lender : FlashLender) (work : LoanContext → Step ε (Workspace τ) Unit) (x : Dealing α)
    (d : Deal ε τ) (a : α) (d' : Deal ε τ) : Prop :=
  Dealing.Ends (fun d => d.books.ledger) (fun l d => { d with books := { d.books with ledger := l } })
    (answer lender.address work) x d a d'

/-- A loan that is answered with a receipt was asked for at an idle desk, the lender has come to its end with the terms that it
should charge, and a call back has been accepted. -/
theorem borrow_eq_ok (h : borrow lender plan work embed s = .ok r s') :
    s.desk.phase = .idle ∧ ∃ terms d, lender.terms plan.gross = .ok terms ∧
      Ends lender work (lender.conduct (requestFor (contextFor s.desk lender plan terms)))
        (opening ε s (contextFor s.desk lender plan terms)) terms d ∧
      (∃ context, d.desk.phase = .repaying context) ∧
      r = ⟨lender.address, plan.asset, terms, s.desk.nonce + 1⟩ ∧
      s' = { d.toSession with desk := { d.desk with phase := .idle } } := by
  unfold borrow at h
  split at h
  · cases h
  rename_i hidle
  refine ⟨not_not.1 hidle, ?_⟩
  split at h
  · cases h
  rename_i terms hterms
  simp only at h
  generalize hrun : Conduct.run _ _ _ _ _ = run at h
  obtain ⟨result, d⟩ := run
  cases result with
  | error e => cases h
  | ok charged =>
    simp only at h
    split at h
    · cases h
    · rename_i hr hphase
      cases hr
      split at h
      · rename_i hcharged
        cases h
        subst hcharged
        exact ⟨_, d, hterms, hrun, ⟨_, hphase⟩, rfl, rfl⟩
      · cases h
    · cases h

/-- A loan of the reserve lender: the lender's address pays what it delivers, the work is done, the clearing account then holds
what is owed, and that is paid to the lender's address. -/
theorem borrow_reserve_eq_ok {address : Address} {rate : FeeRate} {mode : FeeMode}
    (h : borrow (.reserve address rate mode) plan work embed s = .ok r s') :
    ∃ terms b w, rate.terms plan.gross mode = .ok terms ∧ r = ⟨address, plan.asset, terms, s.desk.nonce + 1⟩ ∧
      Moved s.books b (payment plan.asset address (-terms.delivered.toNat)) (receipt plan.asset terms.delivered.toNat) ∧
      work (contextFor s.desk (.reserve address rate mode) plan terms) ⟨b, s.notes⟩ = .ok () w ∧
      terms.owed ≤ w.books.clearing.held plan.asset ∧
      Moved w.books s'.books (payment plan.asset address terms.owed.toNat) (receipt plan.asset (-terms.owed.toNat)) ∧
      s'.notes = w.notes := by
  obtain ⟨-, terms, d, hterms, hends, -, rfl, rfl⟩ := borrow_eq_ok h
  obtain ⟨-, l₁, d₁, l₂, h₁, ha, h₂, rfl⟩ := Dealing.ends_reserve (fun _ => rfl) hends
  obtain ⟨context, b₁, w, b₂, hc, hin, hw, hout, rfl⟩ := answer_eq_ok ha
  obtain ⟨-, hphase⟩ := accept_eq_ok hc
  cases hphase
  exact ⟨terms, b₁, w, hterms, rfl, moved_lent h₁ hin, hw, (moved_setAside hout).1, moved_repaid hout h₂, rfl⟩

end Borrow

end LoanDesk

end MarginRouter
