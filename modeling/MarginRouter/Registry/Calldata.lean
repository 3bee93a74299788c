import MarginRouter.Path.Codec
import MarginRouter.Registry.Error

/-!
# The data of a call

A call is an operation identifier followed by the arguments. A trade carries an amount, a limit and a path; a query carries a
token, a holder and, for positions, the number of a lender.
-/

namespace MarginRouter

/-- The arguments of a trade. -/
structure TradeArgs where
  amount : Amount
  limit : Amount
  path : Path
  deriving DecidableEq

namespace TradeArgs

/-- The call of an operation with these arguments. -/
def encode (args : TradeArgs) (operation : OperationId) : List UInt8 :=
  operation.toBytes ++ (args.amount.toBytes ++ (args.limit.toBytes ++ args.path.encode))

/-- Reads what follows the identifier. -/
def decode (operation : OperationId) (bytes : List UInt8) : Except CallError TradeArgs :=
  if bytes.length < 64 then .error (.malformedArguments operation .missingNumbers)
  else match Path.decode (bytes.drop 64) with
    | .error e => .error (.engine (.path e))
    | .ok path => .ok ⟨.ofBytes bytes, .ofBytes (bytes.drop 32), path⟩

end TradeArgs

/-- The arguments of a query. -/
structure QueryArgs where
  token : Address
  holder : Address
  lender : Option UInt8
  deriving DecidableEq

namespace QueryArgs

/-- The call of an operation with these arguments. -/
def encode (args : QueryArgs) (operation : OperationId) : List UInt8 :=
  operation.toBytes ++ (args.token.toBytes ++ (args.holder.toBytes ++ args.lender.toList))

/-- Reads what follows the identifier; the length is fixed. -/
def decode (operation : OperationId) (withLender : Bool) (bytes : List UInt8) : Except CallError QueryArgs :=
  if bytes.length = (if withLender then 41 else 40) then
    .ok ⟨.ofBytes bytes, .ofBytes (bytes.drop 20), bytes[40]?⟩
  else .error (.malformedArguments operation .queryLength)

end QueryArgs

/-- An amount from exactly thirty-two bytes. -/
def Amount.ofWord? (bytes : List UInt8) : Option Amount :=
  if bytes.length = 32 then some (.ofBytes bytes) else none

end MarginRouter
