import MarginRouter.Proofs.LoanSequence

/-!
# Loans of the reserve lender

Lender and desk taken together. A dealing is followed as a step on the state that holds the ledger; followed in this way, a loan
of the reserve lender is one step on the books: the lender hands over, the desk takes in, the work is done, the desk sets aside,
the lender takes back. What passes between lender and desk besides, the call back and its checks, cannot fail and leaves no
trace but the nonce that is counted up.
-/

namespace MarginRouter

open Ledger Clearing Books

namespace Dealing

variable {α β σ : Type} {ledger : σ → Ledger} {put : Ledger → σ → σ} {answer : Address → LoanCallback → Step LoanError σ Unit}

/-- A dealing as a step on states that hold a ledger. -/
def follow (ledger : σ → Ledger) (put : Ledger → σ → σ) (answer : Address → LoanCallback → Step LoanError σ Unit)
    (x : Dealing α) : Step LoanError σ α := fun s =>
  match x.run.run ledger put answer s with
  | (.ok a, s') => .ok a s'
  | (.error e, s') => .error e s'

theorem outcome_follow (x : Dealing α) (s : σ) :
    (follow ledger put answer x).outcome s = x.run.run ledger put answer s := by
  unfold Step.outcome follow
  rcases x.run.run ledger put answer s with ⟨_ | a, s'⟩ <;> rfl

theorem follow_pure (a : α) : follow ledger put answer (pure a) = pure a := rfl

theorem follow_throw (e : LoanError) : follow ledger put answer (throw e : Dealing α) = throw e := rfl

theorem follow_bind (x : Dealing α) (f : α → Dealing β) :
    follow ledger put answer (x >>= f) = follow ledger put answer x >>= fun a => follow ledger put answer (f a) := by
  funext s
  show _ = EStateM.bind _ _ s
  unfold EStateM.bind
  have hrun : (x >>= f).run.run ledger put answer s =
      ((ExceptT.bindCont (fun a => f a) (x.run.run ledger put answer s).1 : Conduct (Except LoanError β)).run ledger put answer
        (x.run.run ledger put answer s).2) := Conduct.run_bind x.run _ s
  unfold follow
  rw [hrun]
  rcases x.run.run ledger put answer s with ⟨_ | a, s'⟩ <;> rfl

theorem follow_ite {c : Prop} [Decidable c] (x y : Dealing α) :
    follow ledger put answer (if c then x else y) = if c then follow ledger put answer x else follow ledger put answer y := by
  split <;> rfl

theorem follow_read : follow ledger put answer read = Step.on ledger put get := rfl

theorem follow_step (step : Step LedgerError Ledger α) (blame : LedgerError → LoanError) :
    follow ledger put answer (Dealing.step step blame) = Step.on ledger put (step.withError blame) := by
  funext s
  have hrun : (Dealing.step step blame).run.run ledger put answer s =
      (((step.withError blame).outcome (ledger s)).1, put ((step.withError blame).outcome (ledger s)).2 s) := rfl
  unfold follow
  rw [hrun]
  unfold Step.on Step.outcome
  cases step.withError blame (ledger s) with
  | ok a l => rfl
  | error e l => rfl

theorem follow_callBack (caller : Address) (callback : LoanCallback) :
    follow ledger put answer (callBack caller callback) = answer caller callback := by
  funext s
  have hrun : (callBack caller callback).run.run ledger put answer s = (answer caller callback).outcome s := rfl
  unfold follow
  rw [hrun]
  unfold Step.outcome
  cases answer caller callback s with
  | ok a s' => rfl
  | error e s' => rfl

end Dealing

namespace LoanDesk

variable {ε τ α β : Type}

/-! ## The loan as one step -/

/-- The reserve lender's word for a repayment that it cannot take: what is missing on the account of the engine has not been
repaid. -/
def blame (provider asset : Address) (owed : Amount) : LedgerError → LoanError
  | .insufficientBalance .. => .notRepaid provider asset owed
  | e => .ledger e

/-- What an accepted call back does: the money is taken in, the work is done, and what is owed is set aside. -/
def attend (work : LoanContext → Step ε (Workspace τ) Unit) (embed : LoanError → ε) (context : LoanContext) :
    Step ε (Workspace τ) Unit := do
  Workspace.onBooks ((takeIn context).withError embed)
  work context
  Workspace.onBooks ((setAside context).withError embed)

/-- A loan of the reserve lender as a step on the books: the reserve is checked and handed over, the call back is attended to,
and what is owed is taken back and checked. -/
def serve (work : LoanContext → Step ε (Workspace τ) Unit) (embed : LoanError → ε) (context : LoanContext) :
    Step ε (Workspace τ) LoanTerms := do
  let before := (← Workspace.onBooks (Books.onLedger get)).balance context.asset context.provider
  if before < context.terms.delivered then
    throw (embed (.insufficientReserve context.provider context.asset before context.terms.delivered))
  Workspace.onBooks ((Books.onLedger
    ((Ledger.transfer context.asset context.provider context.engine context.terms.delivered).withError .ledger)).withError embed)
  attend work embed context
  Workspace.onBooks ((Books.onLedger
    ((Ledger.transfer context.asset context.engine context.provider context.terms.owed).withError
      (blame context.provider context.asset context.terms.owed))).withError embed)
  let after := (← Workspace.onBooks (Books.onLedger get)).balance context.asset context.provider
  if after < .saturate (before.toNat + context.terms.fee.toNat) then
    throw (embed (.notRepaid context.provider context.asset context.terms.owed))
  return context.terms

/-- A deal at this desk in this phase. -/
def deal (desk : LoanDesk) (phase : LoanPhase) (w : Workspace τ) (failure : Option ε) : Deal ε τ :=
  ⟨⟨w, { desk with phase := phase }⟩, failure⟩

/-- The step of a deal does to the workspace what the other step does, and takes the desk from one phase to another. When it
fails, the error that comes out in the end, that of the work or its own, is the error of the other step. -/
def Tracks (embed : LoanError → ε) (desk : LoanDesk) (phase phase' : LoanPhase) (x : Step LoanError (Deal ε τ) α)
    (y : Step ε (Workspace τ) α) : Prop :=
  ∀ w, match y w with
    | .ok a w' => x (deal desk phase w none) = .ok a (deal desk phase' w' none)
    | .error e w' => ∃ error phase'' failure, x (deal desk phase w none) = .error error (deal desk phase'' w' failure) ∧
        failure.getD (embed error) = e

namespace Tracks

variable {embed : LoanError → ε} {desk : LoanDesk} {phase phase₁ phase' : LoanPhase} {context : LoanContext}

theorem pure (a : α) : Tracks embed desk phase phase (Pure.pure a : Step LoanError (Deal ε τ) α) (Pure.pure a) :=
  fun _ => rfl

theorem bind {x : Step LoanError (Deal ε τ) α} {y : Step ε (Workspace τ) α} {f : α → Step LoanError (Deal ε τ) β}
    {g : α → Step ε (Workspace τ) β} (h : Tracks embed desk phase phase₁ x y)
    (h' : ∀ a, Tracks embed desk phase₁ phase' (f a) (g a)) : Tracks embed desk phase phase' (x >>= f) (y >>= g) := by
  intro w
  have hw := h w
  have hx : (x >>= f) (deal desk phase w none) = EStateM.bind x f (deal desk phase w none) := rfl
  have hy : (y >>= g) w = EStateM.bind y g w := rfl
  rw [hx, hy]
  unfold EStateM.bind
  cases hyw : y w with
  | ok a w' =>
    rw [hyw] at hw
    simp only at hw ⊢
    rw [hw]
    exact h' a w'
  | error e w' =>
    rw [hyw] at hw
    obtain ⟨error, phase'', failure, hxw, he⟩ := hw
    simp only [hxw]
    exact ⟨error, phase'', failure, rfl, he⟩

/-- A check refuses on both sides, with one error. -/
theorem refuse {c : Prop} [Decidable c] {error : LoanError} {f : β → Step LoanError (Deal ε τ) α}
    {g : β → Step ε (Workspace τ) α} {x : Step LoanError (Deal ε τ) α} {y : Step ε (Workspace τ) α}
    (h : Tracks embed desk phase phase' x y) :
    Tracks embed desk phase phase' (if c then throw error >>= f else x) (if c then throw (embed error) >>= g else y) := by
  by_cases hc : c
  · rw [if_pos hc, if_pos hc]
    exact fun _ => ⟨error, phase, none, rfl, rfl⟩
  · rw [if_neg hc, if_neg hc]
    exact h

theorem onBooks (step : Step LoanError Books α) :
    Tracks embed desk phase phase (LoanDesk.onBooks step) (Workspace.onBooks (step.withError embed) : Step ε (Workspace τ) α) := by
  intro w
  cases hs : (Workspace.onBooks (step.withError embed) : Step ε (Workspace τ) α) w with
  | ok a w' =>
    obtain ⟨b, hb, rfl⟩ := Step.on_eq_ok.1 hs
    exact Step.on_eq_ok.2 ⟨b, Step.withError_eq_ok.1 hb, rfl⟩
  | error e w' =>
    obtain ⟨b, hb, rfl⟩ := Step.on_eq_error.1 hs
    obtain ⟨error, he, rfl⟩ := Step.withError_eq_error.1 hb
    exact ⟨error, phase, none, Step.on_eq_error.2 ⟨b, he, rfl⟩, rfl⟩

/-- The error of the work is kept aside, and comes out in the end. -/
theorem carryOut (work : LoanContext → Step ε (Workspace τ) Unit) (context : LoanContext) :
    Tracks embed desk phase phase (LoanDesk.carryOut work context) (work context) := by
  intro w
  have hspace : (deal desk phase w none : Deal ε τ).toWorkspace = w := rfl
  cases hw : work context w with
  | ok u w' =>
    unfold LoanDesk.carryOut
    rw [hspace, hw]
    rfl
  | error e w' =>
    refine ⟨.continuationFailed, phase, some e, ?_, rfl⟩
    unfold LoanDesk.carryOut
    rw [hspace, hw]
    rfl

/-- The ledger is read alike. -/
theorem readLedger : Tracks embed desk phase phase
    (Step.on (fun d => d.books.ledger) (fun l d => { d with books := { d.books with ledger := l } }) get :
      Step LoanError (Deal ε τ) Ledger)
    (Workspace.onBooks (Books.onLedger get)) :=
  fun _ => rfl

/-- A step of the lender on the ledger is one on the ledger of the books. -/
theorem onLedger (step : Step LoanError Ledger α) : Tracks embed desk phase phase
    (Step.on (fun d => d.books.ledger) (fun l d => { d with books := { d.books with ledger := l } }) step :
      Step LoanError (Deal ε τ) α)
    (Workspace.onBooks ((Books.onLedger step).withError embed)) := by
  intro w
  cases hs : (Workspace.onBooks ((Books.onLedger step).withError embed) : Step ε (Workspace τ) α) w with
  | ok a w' =>
    obtain ⟨b, hb, rfl⟩ := Step.on_eq_ok.1 hs
    obtain ⟨l, hl, rfl⟩ := Step.on_eq_ok.1 (Step.withError_eq_ok.1 hb)
    exact Step.on_eq_ok.2 ⟨l, hl, rfl⟩
  | error e w' =>
    obtain ⟨b, hb, rfl⟩ := Step.on_eq_error.1 hs
    obtain ⟨error, he, rfl⟩ := Step.withError_eq_error.1 hb
    obtain ⟨l, hl, rfl⟩ := Step.on_eq_error.1 he
    exact ⟨error, phase, none, Step.on_eq_error.2 ⟨l, hl, rfl⟩, rfl⟩

/-- The call back that a lender makes who keeps to the terms is accepted, and attended to. -/
theorem answer (lender : FlashLender) (work : LoanContext → Step ε (Workspace τ) Unit) (hengine : context.engine = desk.engine) :
    Tracks embed desk (.borrowing context) (.repaying context)
      (LoanDesk.answer lender.address work lender.address (FlashLender.callbackFor (requestFor context) context.terms))
      (attend work embed context) := by
  intro w
  have hattend : Tracks embed desk (.repaying context) (.repaying context)
      (do LoanDesk.onBooks (takeIn context); LoanDesk.carryOut work context; LoanDesk.onBooks (setAside context))
      (attend work embed context) :=
    (onBooks _).bind fun _ => (carryOut work context).bind fun _ => onBooks _
  have haccept : accept lender.address desk.engine (.borrowing context) lender.address
      (FlashLender.callbackFor (requestFor context) context.terms) = .ok context := by
    simp [accept, FlashLender.callbackFor, requestFor, hengine]
  have hanswer := answer_of_accepted (d := deal desk (.borrowing context) w none) work haccept
  rw [hanswer]
  exact hattend w

end Tracks

/-- The reserve lender followed on the books of a deal. -/
theorem follow_reserve {address : Address} {rate : FeeRate} {mode : FeeMode} {request : LoanRequest} {terms : LoanTerms}
    {σ : Type} {ledger : σ → Ledger} {put : Ledger → σ → σ} {answer : Address → LoanCallback → Step LoanError σ Unit}
    (hterms : rate.terms request.amount mode = .ok terms) :
    Dealing.follow ledger put answer ((FlashLender.reserve address rate mode).conduct request) = (do
      let before := (← Step.on ledger put get).balance request.asset address
      if before < terms.delivered then throw (.insufficientReserve address request.asset before terms.delivered)
      Step.on ledger put ((Ledger.transfer request.asset address request.receiver terms.delivered).withError .ledger)
      answer address (FlashLender.callbackFor request terms)
      Step.on ledger put
        ((Ledger.transfer request.asset request.receiver address terms.owed).withError (blame address request.asset terms.owed))
      let after := (← Step.on ledger put get).balance request.asset address
      if after < .saturate (before.toNat + terms.fee.toNat) then throw (.notRepaid address request.asset terms.owed)
      return terms) := by
  simp only [FlashLender.reserve, FlashLender.offer, hterms, pure_bind, Dealing.follow_bind, Dealing.follow_ite,
    Dealing.follow_throw, Dealing.follow_read, Dealing.follow_step, Dealing.follow_callBack, Dealing.follow_pure]
  rfl

/-- The reserve lender and the desk together do what `serve` does. -/
theorem tracks_serve {embed : LoanError → ε} {desk : LoanDesk} {context : LoanContext} (address : Address) (rate : FeeRate)
    (mode : FeeMode) (work : LoanContext → Step ε (Workspace τ) Unit) (hengine : context.engine = desk.engine)
    (hprovider : context.provider = address) (hterms : rate.terms context.terms.gross mode = .ok context.terms) :
    Tracks embed desk (.borrowing context) (.repaying context)
      (Dealing.follow (fun d => d.books.ledger) (fun l d => { d with books := { d.books with ledger := l } })
        (answer address work) ((FlashLender.reserve address rate mode).conduct (requestFor context)))
      (serve work embed context) := by
  subst hprovider
  have hoffer : rate.terms (requestFor context).amount mode = .ok context.terms := hterms
  rw [follow_reserve hoffer]
  have hanswer : Tracks embed desk (.borrowing context) (.repaying context)
      (answer context.provider work context.provider (FlashLender.callbackFor (requestFor context) context.terms))
      (attend work embed context) := Tracks.answer (.reserve context.provider rate mode) work hengine
  refine Tracks.readLedger.bind fun before => .refuse ?_
  refine (Tracks.onLedger _).bind fun _ => hanswer.bind fun _ => ?_
  exact (Tracks.onLedger _).bind fun _ => Tracks.readLedger.bind fun after => .refuse (.pure _)

/-- What the lender charges in the end are the terms of the loan. -/
theorem terms_of_serve {work : LoanContext → Step ε (Workspace τ) Unit} {embed : LoanError → ε} {context : LoanContext}
    {w w' : Workspace τ} {charged : LoanTerms} (h : serve work embed context w = .ok charged w') : charged = context.terms := by
  simp only [serve, Step.bind_eq_ok, Step.refuse_eq_ok, Step.pure_eq_ok] at h
  obtain ⟨_, _, -, -, _, _, -, _, _, -, _, _, -, _, _, -, -, rfl, -⟩ := h
  rfl

/-- A loan of the reserve lender that is asked for at an idle desk is the step `serve`: it is answered with a receipt or with the
error of that step, the books are left as the step has left them, and the desk is idle again with the nonce counted up. -/
theorem borrow_reserve_outcome {address : Address} {rate : FeeRate} {mode : FeeMode} {plan : LoanPlan} {embed : LoanError → ε}
    {work : LoanContext → Step ε (Workspace τ) Unit} {s : Session τ} {terms : LoanTerms} (hidle : s.desk.phase = .idle)
    (hterms : rate.terms plan.gross mode = .ok terms) :
    (borrow (.reserve address rate mode) plan work embed).outcome s =
      (((serve work embed (contextFor s.desk (.reserve address rate mode) plan terms)).outcome s.toWorkspace).1.map fun terms =>
          ⟨address, plan.asset, terms, s.desk.nonce + 1⟩,
        ⟨((serve work embed (contextFor s.desk (.reserve address rate mode) plan terms)).outcome s.toWorkspace).2,
          ⟨s.desk.engine, .idle, s.desk.nonce + 1⟩⟩) := by
  have hlender : (FlashLender.reserve address rate mode).terms plan.gross = .ok terms := hterms
  rw [borrow_outcome hidle hlender]
  obtain ⟨context, hc⟩ : ∃ context, contextFor s.desk (.reserve address rate mode) plan terms = context := ⟨_, rfl⟩
  have hengine : context.engine = s.desk.engine := by rw [← hc]; rfl
  have hprovider : context.provider = address := by rw [← hc]; rfl
  have hcontext : rate.terms context.terms.gross mode = .ok context.terms := by
    rw [← hc]
    show rate.terms terms.gross mode = .ok terms
    rw [(FeeRate.terms_exact hterms).1, hterms]
  have hconducted : conducted (.reserve address rate mode) work context s =
      (Dealing.follow (fun d => d.books.ledger) (fun l d => { d with books := { d.books with ledger := l } })
        (answer address work) ((FlashLender.reserve address rate mode).conduct (requestFor context))).outcome
          (deal ⟨s.desk.engine, .idle, s.desk.nonce + 1⟩ (.borrowing context) s.toWorkspace none) := by
    rw [Dealing.outcome_follow, ← hc]
    rfl
  have htracks : Tracks embed ⟨s.desk.engine, .idle, s.desk.nonce + 1⟩ (.borrowing context) (.repaying context) _
      (serve work embed context) := tracks_serve address rate mode work hengine hprovider hcontext
  have hw := htracks s.toWorkspace
  rw [hc, hconducted]
  cases hs : serve work embed context s.toWorkspace with
  | ok charged w =>
    rw [hs] at hw
    obtain rfl := terms_of_serve hs
    rw [Step.outcome_of_ok hw, Step.outcome_of_ok hs]
    show (if context.terms = context.terms then _ else _, _) = _
    rw [if_pos rfl, ← hc]
    rfl
  | error e w =>
    rw [hs] at hw
    obtain ⟨error, phase, failure, hx, rfl⟩ := hw
    rw [Step.outcome_eq_error.2 hx, Step.outcome_eq_error.2 hs]
    rfl

/-- Such a loan fails exactly when the step `serve` does, and with its error. -/
theorem borrow_reserve_eq_error {address : Address} {rate : FeeRate} {mode : FeeMode} {plan : LoanPlan} {embed : LoanError → ε}
    {work : LoanContext → Step ε (Workspace τ) Unit} {s s' : Session τ} {terms : LoanTerms} {e : ε}
    (hidle : s.desk.phase = .idle) (hterms : rate.terms plan.gross mode = .ok terms) :
    borrow (.reserve address rate mode) plan work embed s = .error e s' ↔
      ∃ w, serve work embed (contextFor s.desk (.reserve address rate mode) plan terms) s.toWorkspace = .error e w ∧
        s' = ⟨w, ⟨s.desk.engine, .idle, s.desk.nonce + 1⟩⟩ := by
  rw [← Step.outcome_eq_error, borrow_reserve_outcome hidle hterms]
  cases hs : serve work embed (contextFor s.desk (.reserve address rate mode) plan terms) s.toWorkspace with
  | ok charged w =>
    rw [Step.outcome_of_ok hs]
    refine ⟨fun h => ?_, fun ⟨_, h, _⟩ => by cases h⟩
    have hfst := congrArg Prod.fst h
    cases hfst
  | error e' w =>
    rw [Step.outcome_eq_error.2 hs]
    constructor
    · rintro h
      cases h
      exact ⟨w, rfl, rfl⟩
    · rintro ⟨w', h, rfl⟩
      cases h
      rfl

end LoanDesk

end MarginRouter
