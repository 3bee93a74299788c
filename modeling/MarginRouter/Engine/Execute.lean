import MarginRouter.Engine.Classify
import MarginRouter.Loan.Desk
import MarginRouter.Market.Basic
import MarginRouter.Venue.Book

/-!
# Executions

A spot path is swapped hop by hop and settled with the caller. A leveraged one is swapped with the money of a flash loan: the
proceeds go to the lending market, the market hands out what is missing to pay the loan back, and what is left over is settled.
-/

namespace MarginRouter

/-- What an engine works with: its account, the venues, the markets, and the flash lender. -/
structure Engine where
  address : Address
  venues : VenueBook
  markets : MarketBook
  lender : FlashLender

/-- What a caller wants executed. -/
structure Request where
  caller : Address
  path : Path
  amount : Amount
  limit : Amount
  direction : Direction

/-- What has been executed. The amount is the output of exact-in executions and the input of exact-out ones. -/
structure Settled where
  amount : Amount
  composition : Composition
  direction : Direction
  fills : List Fill
  loan : Option LoanReceipt
  report : SettlementReport

/-- What the money of a flash loan has been used for: the swaps, what they came to, and what the market handed out. -/
structure Proceedings where
  fills : List Fill
  swapped : Amount
  funded : Amount

/-- What lasts from one execution to the next. -/
structure World where
  ledger : Ledger
  desk : LoanDesk

/-- The swap that a leg asks for. -/
def Leg.swap (l : Leg) (d : Direction) : Swap :=
  ⟨l.hop.provider, (l.oriented d).1, (l.oriented d).2, l.hop.fee⟩

/-- What the next hop starts from. -/
def Fill.cursor (f : Fill) : Direction → Amount
  | .exactIn => f.amountOut
  | .exactOut => f.amountIn

namespace Engine

/-- Swaps leg by leg, each with what the one before it came to. -/
def walk (venues : VenueBook) (d : Direction) : List Leg → Amount → Step EngineError Books (List Fill × Amount)
  | [], cursor => return ([], cursor)
  | leg :: legs, cursor => do
    let fill ← (venues.swap (leg.swap d) d cursor).withError .venue
    let (fills, last) ← walk venues d legs (fill.cursor d)
    return (fill :: fills, last)

/-- The swaps a path would make, and what they would come to. A pool that occurs twice is met the second time as the first
swap left it. -/
def quote (e : Engine) (l : Ledger) (p : Path) (d : Direction) (amount : Amount) : Except EngineError (List Fill × Amount) :=
  ((walk e.venues d p.legs amount).outcome ⟨l, .new e.address⟩).1

/-- How much a leveraged execution starts from: the budget of an exact-in one, what is to be produced by an exact-out one. In
max mode it is all of the caller's collateral or debt, if the composition has that leg. -/
def startAmount (l : Ledger) (r : Request) (c : Composition) (m : Mode) (market : Market) (funding : Funding)
    (proceeds : Proceeds) : Except EngineError Amount := do
  let amount ←
    if m.isMax then
      match r.direction, funding, proceeds with
      | .exactIn, .withdraw, _ => pure (market.collateralOf l r.caller (r.path.endpoints r.direction).1)
      | .exactOut, _, .repay => pure (market.debtOf l r.caller (r.path.endpoints r.direction).2)
      | _, _, _ => throw (.amountModeUnsupported c r.direction)
    else pure r.amount
  if amount = 0 then throw .zeroAmount
  return amount

/-- The terms of the loan for a leveraged execution that starts from this amount. An exact-in loan is all that the budget can
pay back; an exact-out loan delivers what the swaps are quoted to need. -/
def loanTerms (e : Engine) (l : Ledger) (r : Request) (start : Amount) : Except EngineError LoanTerms := do
  let terms ←
    match r.direction with
    | .exactIn => (e.lender.rate.sizeForBudget start e.lender.mode).mapError .fee
    | .exactOut =>
      let (_, required) ← e.quote l r.path r.direction start
      (e.lender.rate.sizeForInput required e.lender.mode).mapError .fee
  if terms.gross = 0 then throw .zeroAmount
  return terms

/-- Brings the proceeds to the market. -/
def bring (market : Market) (proceeds : Proceeds) (user asset : Address) (amount : Amount) : Step MarketError Books Unit :=
  match proceeds with
  | .supply => market.supply user asset amount
  | .repay => do
    let _ ← market.repay user asset amount

/-- Gets the missing money from the market. -/
def fund (market : Market) (funding : Funding) (user asset : Address) (amount : Amount) : Step MarketError Books Unit :=
  match funding with
  | .borrow => market.borrow user asset amount
  | .withdraw => market.withdraw user asset amount

/-- What is done with the money of the loan: swap, bring the proceeds to the market, get from it what is missing to pay the
loan back. `start` is what an exact-out execution has to produce. -/
def proceed (e : Engine) (market : Market) (funding : Funding) (proceeds : Proceeds) (outToken : Address) (start : Amount)
    (context : LoanContext) : Step EngineError Books Proceedings := do
  let cursor := match context.direction with
    | .exactIn => context.terms.delivered
    | .exactOut => start
  let (fills, swapped) ← walk e.venues context.direction context.path.legs cursor
  let produced := match context.direction with
    | .exactIn => swapped
    | .exactOut => start
  (bring market proceeds context.user outToken produced).withError .market
  let held := (← get).clearing.held context.asset
  let funded := context.terms.owed - held
  if funded ≠ 0 then (fund market funding context.user context.asset funded).withError .market
  return ⟨fills, swapped, funded⟩

/-- Notes what has been done. -/
def noting {τ : Type} (step : Step EngineError Books τ) : Step EngineError (Workspace τ) Unit := do
  let result ← Workspace.onBooks step
  modify fun w => { w with notes := result }

/-- Executes a leveraged path up to the settlement. -/
def leverage (e : Engine) (r : Request) (c : Composition) (m : Mode) (funding : Funding) (proceeds : Proceeds) :
    Step EngineError (Session Proceedings) (Amount × List Fill × Option LoanReceipt) := do
  let market ← Step.lift ((e.markets.find m.lender).mapError .market)
  let ledger := (← get).books.ledger
  let (asset, outToken) := r.path.endpoints r.direction
  let start ← Step.lift (startAmount ledger r c m market funding proceeds)
  let terms ← Step.lift (e.loanTerms ledger r start)
  let receipt ← LoanDesk.borrow e.lender ⟨r.caller, asset, terms.gross, r.path, r.direction⟩
    (fun context => noting (e.proceed market funding proceeds outToken start context)) .loan
  let done := (← get).notes
  let amount := match r.direction with
    | .exactIn => done.swapped
    | .exactOut => done.funded
  return (amount, done.fills, some receipt)

/-- Executes a spot path up to the settlement. -/
def spot (e : Engine) (r : Request) (m : Mode) : Step EngineError Books (Amount × List Fill × Option LoanReceipt) := do
  if m.isMax then throw (.amountModeUnsupported .spot r.direction)
  if r.amount = 0 then throw .zeroAmount
  let (fills, last) ← walk e.venues r.direction r.path.legs r.amount
  return (last, fills, none)

/-- An output below the limit, or an input above it, is refused. -/
def checkSlippage (d : Direction) (settled limit : Amount) : Except EngineError Unit :=
  match d with
  | .exactIn => if settled < limit then .error (.slippageExceeded d settled limit) else .ok ()
  | .exactOut => if limit < settled then .error (.slippageExceeded d settled limit) else .ok ()

/-- A step on the books of a session. -/
def onBooks {τ α : Type} (step : Step EngineError Books α) : Step EngineError (Session τ) α :=
  Step.on (fun s => s.books) (fun b s => { s with books := b }) step

/-- Executes a path that has been classified, in a session whose clearing account is flat. -/
def settle (e : Engine) (r : Request) (c : Composition) : Step EngineError (Session Proceedings) Settled := do
  let mode ← Step.lift (r.path.mode.mapError .path)
  let (amount, fills, loan) ←
    match c.lending? with
    | some (funding, proceeds) => e.leverage r c mode funding proceeds
    | none => onBooks (e.spot r mode)
  Step.lift (checkSlippage r.direction amount r.limit)
  let clearing := (← get).books.clearing
  let report ← onBooks (Books.onLedger ((clearing.settle r.caller).withError .ledger))
  return ⟨amount, c, r.direction, fills, loan, report⟩

/-- A session of its own for one execution. -/
def inSession {α : Type} (e : Engine) (step : Step EngineError (Session Proceedings) α) : Step EngineError World α :=
  Step.on (fun w => ⟨⟨⟨w.ledger, .new e.address⟩, ⟨[], 0, 0⟩⟩, w.desk⟩) (fun s _ => ⟨s.books.ledger, s.desk⟩) step

/-- Executes a path. -/
def execute (e : Engine) (r : Request) : Step EngineError World Settled := do
  let c ← Step.lift (r.path.classify r.direction)
  e.inSession (e.settle r c)

/-- Executes a path that must be of the composition expected. -/
def executeAs (e : Engine) (r : Request) (expected : Composition) : Step EngineError World Settled := do
  let found ← Step.lift (r.path.classify r.direction)
  if found ≠ expected then throw (.actionMismatch expected found)
  e.inSession (e.settle r found)

end Engine

end MarginRouter
