import MarginRouter.Clearing
import MarginRouter.Market.Error

/-!
# Lending markets

A market lends what its address holds. It takes no interest and sells nobody out: after every withdrawal and every loan it
checks that the user's collateral, weighted asset by asset, is still worth the debt.
-/

namespace MarginRouter

/-- How a market values an asset: its price, and how much of collateral counts, in ten-thousandths. -/
structure AssetTerms where
  price : Amount
  ltv : Nat
  ltv_le : ltv ≤ 10000

/-- A lending market. -/
structure Market where
  id : UInt8
  address : Address
  assets : Std.ExtTreeMap Address AssetTerms

namespace Market

def new (id : UInt8) (address : Address) : Market := ⟨id, address, ∅⟩

/-- Lists an asset; terms listed before are replaced. -/
def list (m : Market) (asset : Address) (price : Amount) (ltv : Nat) : Except MarketError Market :=
  if h : ltv ≤ 10000 then .ok { m with assets := m.assets.insert asset ⟨price, ltv, h⟩ }
  else .error (.invalidLtv asset ltv)

/-- The terms of an asset. -/
def terms (m : Market) (asset : Address) : Except MarketError AssetTerms :=
  match m.assets[asset]? with
  | some t => .ok t
  | none => .error (.unsupportedAsset m.address asset)

/-- What a user has in the market in one asset. -/
def position (m : Market) (l : Ledger) (user asset : Address) : Position :=
  l.position m.address user asset

def collateralOf (m : Market) (l : Ledger) (user asset : Address) : Amount :=
  (m.position l user asset).collateral

def debtOf (m : Market) (l : Ledger) (user asset : Address) : Amount :=
  (m.position l user asset).debt

/-- Adds one position to the sums of collateral value and debt value. -/
def addValue (m : Market) (sums : Amount × Amount) (entry : Address × Position) : Except MarketError (Amount × Amount) := do
  let terms ← m.terms entry.1
  let value ← MarketError.checked (entry.2.collateral.toNat * terms.price.toNat)
  let scaled ← MarketError.checked (value.toNat * terms.ltv)
  let collateral ← MarketError.checked (sums.1.toNat + scaled.toNat / 10000)
  let owed ← MarketError.checked (entry.2.debt.toNat * terms.price.toNat)
  let debt ← MarketError.checked (sums.2.toNat + owed.toNat)
  return (collateral, debt)

/-- Fails unless the user's collateral is worth the debt. -/
def checkHealth (m : Market) (l : Ledger) (user : Address) : Except MarketError Unit := do
  let (collateral, debt) ← (l.positionsOf m.address user).foldlM m.addValue (0, 0)
  if collateral < debt then throw (.unhealthy user collateral debt)

/-- Writes a position of a user in the market. -/
def setPosition (m : Market) (user asset : Address) (p : Position) : Step MarketError Books Unit :=
  modify fun b => { b with ledger := b.ledger.setPosition m.address user asset p }

/-- Takes an amount from the clearing account into the market. -/
def absorb (m : Market) (asset : Address) (amount : Amount) : Step MarketError Books Unit := do
  (Books.clear fun c => c.debit asset amount).withError .ledger
  (Books.credit asset m.address amount).withError .ledger

/-- Hands an amount from the market to the clearing account. -/
def release (m : Market) (asset : Address) (amount : Amount) : Step MarketError Books Unit := do
  let available := (← get).ledger.balance asset m.address
  if available < amount then throw (.insufficientLiquidity m.address asset available amount)
  (Books.debit asset m.address amount).withError .ledger
  (Books.clear fun c => c.credit asset amount).withError .ledger

/-- Gives collateral to the market. -/
def supply (m : Market) (user asset : Address) (amount : Amount) : Step MarketError Books Unit := do
  let _ ← Step.lift (m.terms asset)
  m.absorb asset amount
  let p := m.position (← get).ledger user asset
  let collateral ← Step.lift (MarketError.checked (p.collateral.toNat + amount.toNat))
  m.setPosition user asset { p with collateral }

/-- Takes collateral back. -/
def withdraw (m : Market) (user asset : Address) (amount : Amount) : Step MarketError Books Unit := do
  let _ ← Step.lift (m.terms asset)
  let p := m.position (← get).ledger user asset
  if p.collateral < amount then throw (.insufficientCollateral asset p.collateral amount)
  m.setPosition user asset { p with collateral := p.collateral - amount }
  Step.lift (m.checkHealth (← get).ledger user)
  m.release asset amount

/-- Takes a loan. -/
def borrow (m : Market) (user asset : Address) (amount : Amount) : Step MarketError Books Unit := do
  let _ ← Step.lift (m.terms asset)
  let p := m.position (← get).ledger user asset
  let debt ← Step.lift (MarketError.checked (p.debt.toNat + amount.toNat))
  m.setPosition user asset { p with debt }
  Step.lift (m.checkHealth (← get).ledger user)
  m.release asset amount

/-- Pays debt back, at most as much as there is; answers what has been paid. -/
def repay (m : Market) (user asset : Address) (amount : Amount) : Step MarketError Books Amount := do
  let _ ← Step.lift (m.terms asset)
  let p := m.position (← get).ledger user asset
  let repaid := min amount p.debt
  m.absorb asset repaid
  m.setPosition user asset { p with debt := p.debt - repaid }
  return repaid

end Market

/-- The market of each lender. -/
abbrev MarketBook := Std.ExtTreeMap UInt8 Market

namespace MarketBook

/-- Adds a market under its own number, which must be free. -/
def register (b : MarketBook) (m : Market) : Except MarketError MarketBook :=
  if m.id ∈ b then .error (.duplicateLender m.id) else .ok (b.insert m.id m)

/-- The market of a lender. -/
def find (b : MarketBook) (lender : UInt8) : Except MarketError Market :=
  match b[lender]? with
  | some m => .ok m
  | none => .error (.unknownLender lender)

end MarketBook

end MarginRouter
