import MarginRouter.Registry.Basic
import MarginRouter.Registry.Calldata

/-!
# The lens

The module that answers queries: balances, and what users have given to and taken from lending markets. It changes nothing.
-/

namespace MarginRouter

/-- What can be asked. -/
inductive Query where
  | balanceOf
  | collateralOf
  | debtOf
  deriving DecidableEq, Repr

namespace Query

def all : List Query :=
  [balanceOf, collateralOf, debtOf]

def name : Query → String
  | balanceOf => "balanceOf"
  | collateralOf => "collateralOf"
  | debtOf => "debtOf"

/-- Whether a query names a lender. -/
def hasLender : Query → Bool
  | balanceOf => false
  | collateralOf | debtOf => true

def signature (q : Query) : String :=
  q.name ++ (if q.hasLender then "(address,address,uint8)" else "(address,address)")

def operation (q : Query) : OperationId :=
  .ofSignature q.signature

def ofOperation? (operation : OperationId) : Option Query :=
  all.find? fun q => q.operation = operation

/-- The answer to a query. -/
def answer (q : Query) (e : Engine) (l : Ledger) (args : QueryArgs) : Except CallError Amount :=
  match q with
  | balanceOf => .ok (l.balance args.token args.holder)
  | collateralOf => do
    let market ← (e.markets.find (args.lender.getD 0)).mapError .market
    return market.collateralOf l args.holder args.token
  | debtOf => do
    let market ← (e.markets.find (args.lender.getD 0)).mapError .market
    return market.debtOf l args.holder args.token

end Query

/-- Answers a query. -/
def Engine.look (e : Engine) (call : Call) : Step CallError World (List UInt8) := do
  let some query := Query.ofOperation? call.operation
    | throw (.unrecognizedOperation (some call.operation))
  let args ← Step.lift (QueryArgs.decode call.operation query.hasLender call.args)
  let amount ← Step.lift (query.answer e (← get).ledger args)
  return amount.toBytes

/-- The module that answers queries. -/
def Module.lens (address : Address) : Module where
  address := address
  name := "lens"
  operations := Query.all.map Query.operation
  invoke := Engine.look

end MarginRouter
