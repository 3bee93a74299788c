import Std.Data.ExtTreeMap
import MarginRouter.Ledger.Error
import MarginRouter.Step

/-!
# The ledger

Who holds how much of which token, and which positions users have in lending markets. Every change is one write of one
balance or one position, and a balance of zero or an empty position leaves no entry.
-/

namespace MarginRouter

/-- What a balance belongs to. Balances are ordered by token, then by holder. -/
@[ext] structure Holding where
  token : Address
  holder : Address
  deriving DecidableEq

namespace Holding

instance : Ord Holding := ⟨compareLex (compareOn token) (compareOn holder)⟩

instance : Std.TransOrd Holding :=
  inferInstanceAs (Std.TransCmp (compareLex (compareOn token) (compareOn holder)))

instance : Std.LawfulEqOrd Holding where
  eq_of_compare {a b} h := by
    obtain ⟨h1, h2⟩ := compareLex_eq_eq.mp h
    exact Holding.ext (Std.LawfulEqOrd.eq_of_compare h1) (Std.LawfulEqOrd.eq_of_compare h2)

end Holding

/-- What a position belongs to. Positions are ordered by market, then by user, then by asset. -/
@[ext] structure PositionKey where
  market : Address
  user : Address
  asset : Address
  deriving DecidableEq

namespace PositionKey

instance : Ord PositionKey := ⟨compareLex (compareOn market) (compareLex (compareOn user) (compareOn asset))⟩

instance : Std.TransOrd PositionKey :=
  inferInstanceAs (Std.TransCmp (compareLex (compareOn market) (compareLex (compareOn user) (compareOn asset))))

instance : Std.LawfulEqOrd PositionKey where
  eq_of_compare {a b} h := by
    obtain ⟨h1, h23⟩ := compareLex_eq_eq.mp h
    obtain ⟨h2, h3⟩ := compareLex_eq_eq.mp h23
    exact PositionKey.ext (Std.LawfulEqOrd.eq_of_compare h1) (Std.LawfulEqOrd.eq_of_compare h2)
      (Std.LawfulEqOrd.eq_of_compare h3)

end PositionKey

/-- What a user has given to and taken from a market in one asset. -/
@[ext] structure Position where
  collateral : Amount
  debt : Amount
  deriving DecidableEq

namespace Position

def empty : Position := ⟨0, 0⟩

instance : Inhabited Position := ⟨empty⟩

def isEmpty (p : Position) : Bool :=
  p.collateral = 0 ∧ p.debt = 0

end Position

/-- The balances of all holders and the positions of all users. -/
structure Ledger where
  balances : Std.ExtTreeMap Holding Amount
  positions : Std.ExtTreeMap PositionKey Position

namespace Ledger

def empty : Ledger := ⟨∅, ∅⟩

instance : EmptyCollection Ledger := ⟨empty⟩

/-- What a holder has of a token. -/
def balance (l : Ledger) (token holder : Address) : Amount :=
  l.balances[(⟨token, holder⟩ : Holding)]?.getD 0

/-- Writes one balance. -/
def setBalance (l : Ledger) (token holder : Address) (amount : Amount) : Ledger :=
  if amount = 0 then { l with balances := l.balances.erase ⟨token, holder⟩ }
  else { l with balances := l.balances.insert ⟨token, holder⟩ amount }

/-- What a user has in a market in one asset. -/
def position (l : Ledger) (market user asset : Address) : Position :=
  l.positions[(⟨market, user, asset⟩ : PositionKey)]?.getD .empty

/-- Writes one position. -/
def setPosition (l : Ledger) (market user asset : Address) (p : Position) : Ledger :=
  if p.isEmpty then { l with positions := l.positions.erase ⟨market, user, asset⟩ }
  else { l with positions := l.positions.insert ⟨market, user, asset⟩ p }

/-- The positions of a user in a market, by asset. -/
def positionsOf (l : Ledger) (market user : Address) : List (Address × Position) :=
  (l.positions.toList.filter fun e => e.1.market = market ∧ e.1.user = user).map fun e => (e.1.asset, e.2)

/-- Adds to a balance, if the sum fits. -/
def credit (l : Ledger) (token holder : Address) (amount : Amount) : Except LedgerError Ledger :=
  if amount = 0 then .ok l
  else match (l.balance token holder).add? amount with
    | none => .error (.overflow token holder)
    | some sum => .ok (l.setBalance token holder sum)

/-- Takes from a balance, if there is enough. -/
def debit (l : Ledger) (token holder : Address) (amount : Amount) : Except LedgerError Ledger :=
  let available := l.balance token holder
  if available < amount then .error (.insufficientBalance token holder available amount)
  else .ok (l.setBalance token holder (available - amount))

/-- Moves an amount from one holder to another. When the receiver's balance overflows, the sender has already paid. -/
def transfer (token source target : Address) (amount : Amount) : Step LedgerError Ledger Unit := do
  Step.write fun l => l.debit token source amount
  Step.write fun l => l.credit token target amount

/-- The sum of a token over all holders. -/
def total (l : Ledger) (token : Address) : Nat :=
  ((l.balances.toList.filter fun e => e.1.token = token).map fun e => e.2.toNat).foldr (· + ·) 0

/-- The sum of a token over all holders, cut to the largest amount. -/
def totalSupply (l : Ledger) (token : Address) : Amount :=
  .saturate (l.total token)

/-- One write to the ledger. -/
inductive Entry where
  | credit (token holder : Address) (amount : Amount)
  | debit (token holder : Address) (amount : Amount)
  | transfer (token source target : Address) (amount : Amount)
  | setPosition (market user asset : Address) (position : Position)

/-- Makes one write. -/
def post : Entry → Step LedgerError Ledger Unit
  | .credit token holder amount => Step.write fun l => l.credit token holder amount
  | .debit token holder amount => Step.write fun l => l.debit token holder amount
  | .transfer token source target amount => transfer token source target amount
  | .setPosition market user asset p => modify fun l => l.setPosition market user asset p

/-- Makes writes in order, up to the first that fails. -/
def postAll (entries : List Entry) : Step LedgerError Ledger Unit :=
  entries.forM post

end Ledger

end MarginRouter
