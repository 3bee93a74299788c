import MarginRouter.Registry.Basic
import MarginRouter.Registry.Calldata

/-!
# The trader

The module that executes paths. It has one entry for each composition in each direction.
-/

namespace MarginRouter

/-- A way to trade: what the path must be, and the direction. -/
structure TradeEntry where
  composition : Composition
  direction : Direction
  deriving DecidableEq

namespace TradeEntry

/-- All entries, in their order. -/
def all : List TradeEntry :=
  [.spot, .marginOpen, .marginClose, .collateralSwap, .debtSwap].flatMap fun c => [⟨c, .exactIn⟩, ⟨c, .exactOut⟩]

/-- The name of an entry: what is done, then the direction. -/
def name (e : TradeEntry) : String :=
  let verb := match e.composition with
    | .spot => "swap"
    | .marginOpen => "openMarginPosition"
    | .marginClose => "closeMarginPosition"
    | .collateralSwap => "swapCollateral"
    | .debtSwap => "swapDebt"
  let ending := match e.direction with
    | .exactIn => "ExactIn"
    | .exactOut => "ExactOut"
  verb ++ ending

/-- Every entry takes an amount, a limit and a path. -/
def signature (e : TradeEntry) : String :=
  e.name ++ "(uint256,uint256,bytes)"

def operation (e : TradeEntry) : OperationId :=
  .ofSignature e.signature

def ofOperation? (operation : OperationId) : Option TradeEntry :=
  all.find? fun e => e.operation = operation

def ofName? (name : String) : Option TradeEntry :=
  all.find? fun e => e.name = name

end TradeEntry

/-- Executes the path of a trade; answers the amount settled. -/
def Engine.trade (e : Engine) (call : Call) : Step CallError World (List UInt8) := do
  let some entry := TradeEntry.ofOperation? call.operation
    | throw (.unrecognizedOperation (some call.operation))
  let args ← Step.lift (TradeArgs.decode call.operation call.args)
  let request : Request := ⟨call.caller, args.path, args.amount, args.limit, entry.direction⟩
  let settled ← (e.executeAs request entry.composition).withError .engine
  return settled.amount.toBytes

/-- The module that executes paths. -/
def Module.trader (address : Address) : Module where
  address := address
  name := "trader"
  operations := TradeEntry.all.map TradeEntry.operation
  invoke := Engine.trade

end MarginRouter
