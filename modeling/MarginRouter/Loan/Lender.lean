import MarginRouter.Ledger.Basic
import MarginRouter.Loan.Error

/-!
# Flash lenders

A flash lender hands over an amount, calls back, and takes the amount and its fee in again. What a lender really does is its
own affair: its conduct is any finite course of ledger writes and calls back, which may depend on all it sees. The reserve
lender is the honest one.
-/

namespace MarginRouter

/-- What is asked of a lender. The nonce, a number without a bound, comes back in the call back. -/
structure LoanRequest where
  initiator : Address
  receiver : Address
  asset : Address
  amount : Amount
  nonce : Nat
  deriving DecidableEq

/-- What a lender says in a call back. -/
structure LoanCallback where
  initiator : Address
  asset : Address
  amount : Amount
  fee : Amount
  nonce : Nat
  deriving DecidableEq

/-- A finite course of action that ends with an `α`. After a write it goes on with the ledger it wrote on, and after a call
back with the answer. -/
inductive Conduct (α : Type) where
  | done (a : α)
  | write (f : Ledger → Ledger) (next : Ledger → Conduct α)
  | callBack (caller : Address) (callback : LoanCallback) (next : Except LoanError Unit → Conduct α)

namespace Conduct

variable {α β σ ε : Type}

protected def bind : Conduct α → (α → Conduct β) → Conduct β
  | done a, k => k a
  | write f next, k => write f fun l => (next l).bind k
  | callBack caller callback next, k => callBack caller callback fun r => (next r).bind k

instance : Monad Conduct where
  pure := done
  bind := Conduct.bind

/-- Follows a course of action on a state that holds a ledger; `answer` says what a call back does. -/
def run (ledger : σ → Ledger) (put : Ledger → σ → σ) (answer : Address → LoanCallback → Step LoanError σ Unit) :
    Conduct α → σ → α × σ
  | done a, s => (a, s)
  | write f next, s => (next (ledger s)).run ledger put answer (put (f (ledger s)) s)
  | callBack caller callback next, s =>
    let (r, s') := (answer caller callback).outcome s
    (next r).run ledger put answer s'

/-- Makes a step on the ledger and goes on with its answer. -/
def step (s : Step ε Ledger α) : Conduct (Except ε α) :=
  write (fun l => (s.outcome l).2) fun l => done (s.outcome l).1

end Conduct

/-- A course of action that stops at its first error. -/
abbrev Dealing := ExceptT LoanError Conduct

namespace Dealing

/-- Reads the ledger. -/
def read : Dealing Ledger :=
  ExceptT.lift (Conduct.write id Conduct.done)

/-- Makes a step on the ledger; `blame` says which error of the lender its error is. -/
def step {α : Type} (s : Step LedgerError Ledger α) (blame : LedgerError → LoanError) : Dealing α :=
  ExceptT.mk (Conduct.step (s.withError blame))

/-- Calls back. -/
def callBack (caller : Address) (callback : LoanCallback) : Dealing Unit :=
  ExceptT.mk (Conduct.callBack caller callback Conduct.done)

end Dealing

/-- A flash lender: its address, its terms, and its conduct. A lender that says nothing else has the terms of its rate. -/
structure FlashLender where
  address : Address
  rate : FeeRate
  mode : FeeMode
  terms : Amount → Except FeeError LoanTerms := fun gross => rate.terms gross mode
  conduct : LoanRequest → Dealing LoanTerms

namespace FlashLender

/-- What a lender that keeps to its terms says in its call back. -/
def callbackFor (request : LoanRequest) (terms : LoanTerms) : LoanCallback :=
  ⟨request.initiator, request.asset, terms.gross, terms.fee, request.nonce⟩

/-- The terms of a loan as a step of a dealing. -/
def offer (rate : FeeRate) (mode : FeeMode) (amount : Amount) : Dealing LoanTerms :=
  match rate.terms amount mode with
  | .ok terms => pure terms
  | .error e => throw (.fee e)

/-- The lender that lends what its address holds, and checks that it has the fee in the end. -/
def reserve (address : Address) (rate : FeeRate) (mode : FeeMode) : FlashLender where
  address := address
  rate := rate
  mode := mode
  conduct request := do
    let terms ← offer rate mode request.amount
    let before := (← Dealing.read).balance request.asset address
    if before < terms.delivered then
      throw (.insufficientReserve address request.asset before terms.delivered)
    Dealing.step (Ledger.transfer request.asset address request.receiver terms.delivered) .ledger
    Dealing.callBack address (callbackFor request terms)
    Dealing.step (Ledger.transfer request.asset request.receiver address terms.owed) fun
      | .insufficientBalance .. => .notRepaid address request.asset terms.owed
      | e => .ledger e
    let after := (← Dealing.read).balance request.asset address
    if after < .saturate (before.toNat + terms.fee.toNat) then throw (.notRepaid address request.asset terms.owed)
    return terms

end FlashLender

end MarginRouter
