import MarginRouter.Clearing
import MarginRouter.Loan.Lender
import MarginRouter.Path.Basic

/-!
# The loan desk

The desk asks a lender for a loan, accepts one call back for it, runs what the loan is for, and sees to it that the money is
there to be paid back. It is idle, borrowing or repaying; after every loan it is idle again.
-/

namespace MarginRouter

/-- What a loan is asked for. -/
structure LoanPlan where
  user : Address
  asset : Address
  gross : Amount
  path : Path
  direction : Direction

/-- All there is to know about a loan while it runs. Its nonce is the number that the desk has given it. -/
structure LoanContext where
  user : Address
  engine : Address
  provider : Address
  asset : Address
  terms : LoanTerms
  path : Path
  direction : Direction
  nonce : Nat
  deriving DecidableEq

/-- Where the desk is with its loan. -/
inductive LoanPhase where
  | idle
  | borrowing (context : LoanContext)
  | repaying (context : LoanContext)
  deriving DecidableEq

def LoanPhase.name : LoanPhase → String
  | idle => "idle"
  | borrowing _ => "borrowing"
  | repaying _ => "repaying"

/-- A loan that has been paid back, with its nonce. -/
structure LoanReceipt where
  provider : Address
  asset : Address
  terms : LoanTerms
  nonce : Nat
  deriving DecidableEq

/-- The desk of an engine account, with the number of loans it has asked for. That number, and the nonces taken from it, have no
bound here; a 64-bit counter has the same value as long as fewer than 2^64 loans have been asked for. -/
structure LoanDesk where
  engine : Address
  phase : LoanPhase
  nonce : Nat

/-- An idle desk that has never asked for a loan. -/
def LoanDesk.new (engine : Address) : LoanDesk := ⟨engine, .idle, 0⟩

/-- The books, and notes of whoever works on them. -/
structure Workspace (τ : Type) where
  books : Books
  notes : τ

namespace Workspace

variable {ε τ α : Type}

/-- A step on the books alone. -/
def onBooks (step : Step ε Books α) : Step ε (Workspace τ) α :=
  Step.on Workspace.books (fun b w => { w with books := b }) step

end Workspace

/-- A workspace with the desk beside it. -/
structure Session (τ : Type) extends Workspace τ where
  desk : LoanDesk

/-- A session while a loan runs: with the error of what the loan was for, once it has failed. -/
structure Deal (ε τ : Type) extends Session τ where
  failure : Option ε

namespace LoanDesk

variable {ε τ : Type}

/-- Checks that a call back is the one a desk in this phase waits for, and answers the loan it is for. The order of the
checks is the order in which faults are reported. -/
def accept (provider engine : Address) (phase : LoanPhase) (caller : Address) (c : LoanCallback) :
    Except LoanError LoanContext := do
  if caller ≠ provider then throw (.unauthorizedCallback provider caller)
  if c.initiator ≠ engine then throw (.unauthorizedInitiator engine c.initiator)
  match phase with
  | .borrowing context =>
    if c.nonce ≠ context.nonce then throw (.contextMismatch .nonce)
    if c.asset ≠ context.asset then throw (.contextMismatch .asset)
    if c.amount ≠ context.terms.gross ∨ c.fee ≠ context.terms.fee then throw (.contextMismatch .amount)
    return context
  | _ => throw .reentrancy

/-- Runs what the loan is for; its error is kept aside and the lender hears only that it failed. -/
def carryOut (work : LoanContext → Step ε (Workspace τ) Unit) (context : LoanContext) : Step LoanError (Deal ε τ) Unit := fun d =>
  match work context d.toWorkspace with
  | .ok () w => .ok () { d with toWorkspace := w }
  | .error e w => .error .continuationFailed { d with toWorkspace := w, failure := some e }

/-- Moves the money a lender has handed over to the clearing account. -/
def takeIn (context : LoanContext) : Step LoanError Books Unit := do
  (Books.debit context.asset context.engine context.terms.delivered).withError .ledger
  (Books.clear fun c => c.credit context.asset context.terms.delivered).withError .ledger

/-- Moves what the lender is owed from the clearing account to where the lender takes it. -/
def setAside (context : LoanContext) : Step LoanError Books Unit := do
  let held := (← get).clearing.held context.asset
  if held < context.terms.owed then throw (.repaymentShortfall context.asset held context.terms.owed)
  (Books.clear fun c => c.spendHeld context.asset context.terms.owed).withError .ledger
  (Books.credit context.asset context.engine context.terms.owed).withError .ledger

/-- A step on the books of a deal. -/
def onBooks {α : Type} (step : Step LoanError Books α) : Step LoanError (Deal ε τ) α :=
  Step.on (fun d => d.books) (fun b d => { d with books := b }) step

/-- Answers a call back. -/
def answer (provider : Address) (work : LoanContext → Step ε (Workspace τ) Unit) (caller : Address) (c : LoanCallback) :
    Step LoanError (Deal ε τ) Unit := do
  let d ← get
  let context ← Step.lift (accept provider d.desk.engine d.desk.phase caller c)
  modify fun d => { d with desk := { d.desk with phase := .repaying context } }
  onBooks (takeIn context)
  carryOut work context
  onBooks (setAside context)

/-- The loan that a plan becomes at this desk. -/
def contextFor (desk : LoanDesk) (lender : FlashLender) (plan : LoanPlan) (terms : LoanTerms) : LoanContext :=
  ⟨plan.user, desk.engine, lender.address, plan.asset, terms, plan.path, plan.direction, desk.nonce + 1⟩

/-- What the lender is asked for. -/
def requestFor (context : LoanContext) : LoanRequest :=
  ⟨context.engine, context.engine, context.asset, context.terms.gross, context.nonce⟩

/-- Takes a loan, runs `work` with it, and pays it back. An error of `work` comes back as it is, other errors through `embed`;
whatever happens, the desk is idle afterwards. -/
def borrow (lender : FlashLender) (plan : LoanPlan) (work : LoanContext → Step ε (Workspace τ) Unit) (embed : LoanError → ε) :
    Step ε (Session τ) LoanReceipt := fun s =>
  if s.desk.phase ≠ .idle then .error (embed .reentrancy) s
  else match lender.terms plan.gross with
    | .error e => .error (embed (.fee e)) s
    | .ok terms =>
      let context := contextFor s.desk lender plan terms
      let start : Deal ε τ :=
        { s with desk := { s.desk with phase := .borrowing context, nonce := context.nonce }, failure := none }
      let (result, d) := (lender.conduct (requestFor context)).run.run (fun d => d.books.ledger)
        (fun l d => { d with books := { d.books with ledger := l } }) (answer lender.address work) start
      let done : Session τ := { d.toSession with desk := { d.desk with phase := .idle } }
      match result, d.desk.phase with
      | .error e, _ => .error (d.failure.getD (embed e)) done
      | .ok charged, .repaying _ =>
        if charged = terms then .ok ⟨lender.address, context.asset, terms, context.nonce⟩ done
        else .error (embed (.contextMismatch .terms)) done
      | .ok _, _ => .error (embed .callbackMissing) done

end LoanDesk

end MarginRouter
