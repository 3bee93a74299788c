import MarginRouter.Path.Error

/-!
# The mode byte

The optional last byte of a path: bits 0 and 1 say how the amount is chosen, bits 2 and 3 are reserved and must be clear,
bits 4 to 7 name the lending market.
-/

namespace MarginRouter

/-- How the amount of an execution is chosen. -/
inductive AmountMode where
  /-- As the caller says. -/
  | exact
  /-- All of the caller's collateral or debt. -/
  | max
  deriving DecidableEq, Repr

/-- The contents of a mode byte. -/
structure Mode where
  amount : AmountMode
  lender : UInt8
  lender_lt : lender < 16
  deriving DecidableEq

namespace Mode

/-- The mode of a path without a mode byte: the caller's amount, the market number zero. -/
def default : Mode := ⟨.exact, 0, by decide⟩

/-- The mode with this market, which must be below sixteen. -/
def of (amount : AmountMode) (lender : UInt8) : Except PathError Mode :=
  if h : lender < 16 then .ok ⟨amount, lender, h⟩ else .error (.invalidMode lender)

/-- Reads a mode byte. -/
def ofByte (byte : UInt8) : Except PathError Mode :=
  if byte &&& 0b1100 ≠ 0 then .error (.invalidMode byte)
  else match byte &&& 0b0011 with
    | 0 => of .exact (byte >>> 4)
    | 1 => of .max (byte >>> 4)
    | _ => .error (.invalidMode byte)

def toByte (m : Mode) : UInt8 :=
  (m.lender <<< 4) ||| (match m.amount with | .exact => 0 | .max => 1)

def isMax (m : Mode) : Bool :=
  m.amount = .max

end Mode

end MarginRouter
