/-!
# Actions and directions

What a hop does, as one byte of an encoded path, and the direction in which a path is executed.
-/

namespace MarginRouter

/-- What a hop does. The first two are plain swaps; the others change a position in a lending market as well. -/
inductive Action where
  | swapExactIn
  | swapExactOut
  | marginOpen
  | marginClose
  | collateralSwap
  | debtSwap
  deriving DecidableEq, Repr

/-- The direction of an execution: the amount given is the input of the whole path or its output. Exact-out paths are
written from the output token to the input token. -/
inductive Direction where
  | exactIn
  | exactOut
  deriving DecidableEq, Repr

namespace Direction

def name : Direction → String
  | exactIn => "exact-in"
  | exactOut => "exact-out"

instance : ToString Direction := ⟨name⟩

def flip : Direction → Direction
  | exactIn => exactOut
  | exactOut => exactIn

/-- The action that plain swaps carry in this direction. -/
def spotAction : Direction → Action
  | exactIn => .swapExactIn
  | exactOut => .swapExactOut

end Direction

namespace Action

def name : Action → String
  | swapExactIn => "swap-exact-in"
  | swapExactOut => "swap-exact-out"
  | marginOpen => "margin-open"
  | marginClose => "margin-close"
  | collateralSwap => "collateral-swap"
  | debtSwap => "debt-swap"

instance : ToString Action := ⟨name⟩

/-- All actions, in the order of their codes. -/
def all : List Action :=
  [swapExactIn, swapExactOut, marginOpen, marginClose, collateralSwap, debtSwap]

def code : Action → UInt8
  | swapExactIn => 0
  | swapExactOut => 1
  | marginOpen => 2
  | marginClose => 3
  | collateralSwap => 4
  | debtSwap => 5

/-- The action with this code, if there is one. -/
def ofCode? : UInt8 → Option Action
  | 0 => some swapExactIn
  | 1 => some swapExactOut
  | 2 => some marginOpen
  | 3 => some marginClose
  | 4 => some collateralSwap
  | 5 => some debtSwap
  | _ => none

theorem ofCode?_code (a : Action) : ofCode? a.code = some a := by
  cases a <;> rfl

/-- Plain swaps. -/
def isSpot : Action → Bool
  | swapExactIn | swapExactOut => true
  | _ => false

/-- A plain swap seen from the other end of the path; other actions stay. -/
def flip : Action → Action
  | swapExactIn => swapExactOut
  | swapExactOut => swapExactIn
  | a => a

theorem flip_flip (a : Action) : a.flip.flip = a := by
  cases a <;> rfl

end Action

end MarginRouter
