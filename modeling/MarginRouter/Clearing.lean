import MarginRouter.Ledger.Basic

/-!
# The clearing account

During one execution the engine's account stands between pools, markets and the caller. The clearing account notes, token by
token, what it holds for the caller and what it owes; at the end the two are settled with the caller in one go.
-/

namespace MarginRouter

/-- What the clearing account holds and owes in one token. -/
@[ext] structure Exposure where
  held : Amount
  owed : Amount
  deriving DecidableEq

namespace Exposure

def flat : Exposure := ⟨0, 0⟩

/-- Money comes in: first against what is owed, the rest is held. -/
def receive (e : Exposure) (amount : Amount) : Option Exposure :=
  if amount ≤ e.owed then some { e with owed := e.owed - amount }
  else (e.held.add? (amount - e.owed)).map fun held => ⟨held, 0⟩

/-- Money goes out: first from what is held, the rest is owed. -/
def pay (e : Exposure) (amount : Amount) : Option Exposure :=
  if amount ≤ e.held then some { e with held := e.held - amount }
  else (e.owed.add? (amount - e.held)).map fun owed => ⟨0, owed⟩

end Exposure

/-- The account that clears, and its exposure in each token in which it is not flat. -/
structure Clearing where
  account : Address
  exposures : Std.ExtTreeMap Address Exposure

/-- What a settlement has paid to the caller and pulled from the caller, by token. -/
structure SettlementReport where
  paidOut : List (Address × Amount)
  pulledIn : List (Address × Amount)
  deriving DecidableEq

namespace Clearing

/-- A clearing account that is flat in every token. -/
def new (account : Address) : Clearing := ⟨account, ∅⟩

def exposure (c : Clearing) (token : Address) : Exposure :=
  c.exposures[token]?.getD .flat

def held (c : Clearing) (token : Address) : Amount :=
  (c.exposure token).held

def owed (c : Clearing) (token : Address) : Amount :=
  (c.exposure token).owed

/-- Writes the exposure in one token; being flat leaves no entry. -/
def setExposure (c : Clearing) (token : Address) (e : Exposure) : Clearing :=
  if e.held = 0 ∧ e.owed = 0 then { c with exposures := c.exposures.erase token }
  else { c with exposures := c.exposures.insert token e }

/-- The account receives an amount. -/
def credit (c : Clearing) (token : Address) (amount : Amount) : Except LedgerError Clearing :=
  match (c.exposure token).receive amount with
  | none => .error (.overflow token c.account)
  | some e => .ok (c.setExposure token e)

/-- The account pays an amount; what it does not hold it owes. -/
def debit (c : Clearing) (token : Address) (amount : Amount) : Except LedgerError Clearing :=
  match (c.exposure token).pay amount with
  | none => .error (.overflow token c.account)
  | some e => .ok (c.setExposure token e)

/-- The account pays an amount out of what it holds. -/
def spendHeld (c : Clearing) (token : Address) (amount : Amount) : Except LedgerError Clearing :=
  let held := c.held token
  if held < amount then .error (.insufficientHeld token held amount) else c.debit token amount

def isFlat (c : Clearing) : Bool :=
  c.exposures.isEmpty

/-- What is owed, by token. -/
def debts (c : Clearing) : List (Address × Amount) :=
  (c.exposures.toList.filter fun e => e.2.owed ≠ 0).map fun e => (e.1, e.2.owed)

/-- What is held, by token. -/
def holdings (c : Clearing) : List (Address × Amount) :=
  (c.exposures.toList.filter fun e => e.2.held ≠ 0).map fun e => (e.1, e.2.held)

/-- Settles with the counterparty: first all that is owed is pulled in, then all that is held is paid out. -/
def settle (c : Clearing) (counterparty : Address) : Step LedgerError Ledger SettlementReport := do
  c.debts.forM fun (token, amount) => Step.write fun l => l.debit token counterparty amount
  c.holdings.forM fun (token, amount) => Step.write fun l => l.credit token counterparty amount
  return ⟨c.holdings, c.debts⟩

end Clearing

/-- The ledger together with the clearing account of an execution. -/
structure Books where
  ledger : Ledger
  clearing : Clearing

namespace Books

variable {ε α : Type}

/-- A step on the ledger. -/
def onLedger (step : Step ε Ledger α) : Step ε Books α :=
  Step.on Books.ledger (fun l b => { b with ledger := l }) step

/-- Takes from a balance in the ledger. -/
def debit (token holder : Address) (amount : Amount) : Step LedgerError Books Unit :=
  onLedger (Step.write fun l => l.debit token holder amount)

/-- Adds to a balance in the ledger. -/
def credit (token holder : Address) (amount : Amount) : Step LedgerError Books Unit :=
  onLedger (Step.write fun l => l.credit token holder amount)

/-- Makes a movement on the clearing account. -/
def clear (f : Clearing → Except LedgerError Clearing) : Step LedgerError Books Unit :=
  Step.on Books.clearing (fun c b => { b with clearing := c }) (Step.write f)

/-- One movement in the books: a ledger entry, or a movement on the clearing account. -/
inductive Movement where
  | entry (e : Ledger.Entry)
  | credit (token : Address) (amount : Amount)
  | debit (token : Address) (amount : Amount)
  | spendHeld (token : Address) (amount : Amount)

/-- Makes one movement. -/
def move : Movement → Step LedgerError Books Unit
  | .entry e => onLedger (Ledger.post e)
  | .credit token amount => clear fun c => c.credit token amount
  | .debit token amount => clear fun c => c.debit token amount
  | .spendHeld token amount => clear fun c => c.spendHeld token amount

end Books

end MarginRouter
