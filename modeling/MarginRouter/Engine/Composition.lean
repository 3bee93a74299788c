import MarginRouter.Path.Basic

/-!
# Compositions

What a path as a whole does, and where a leveraged one takes and leaves money in the lending market.
-/

namespace MarginRouter

/-- What a path as a whole does. -/
inductive Composition where
  | spot
  | marginOpen
  | marginClose
  | collateralSwap
  | debtSwap
  deriving DecidableEq, Repr

/-- How the flash loan is paid back in the end. -/
inductive Funding where
  | borrow
  | withdraw
  deriving DecidableEq, Repr

/-- Where the proceeds of the swaps go. -/
inductive Proceeds where
  | supply
  | repay
  deriving DecidableEq, Repr

namespace Composition

def name : Composition → String
  | spot => "spot"
  | marginOpen => "margin-open"
  | marginClose => "margin-close"
  | collateralSwap => "collateral-swap"
  | debtSwap => "debt-swap"

instance : ToString Composition := ⟨name⟩

def ofAction : Action → Composition
  | .swapExactIn | .swapExactOut => spot
  | .marginOpen => marginOpen
  | .marginClose => marginClose
  | .collateralSwap => collateralSwap
  | .debtSwap => debtSwap

/-- The two lending steps of a leveraged composition. -/
def lending? : Composition → Option (Funding × Proceeds)
  | spot => none
  | marginOpen => some (.borrow, .supply)
  | marginClose => some (.withdraw, .repay)
  | collateralSwap => some (.withdraw, .supply)
  | debtSwap => some (.borrow, .repay)

def isLeveraged (c : Composition) : Bool :=
  c.lending?.isSome

/-- Opening a position and swapping debt borrow, the other two withdraw; opening a position and swapping collateral supply, the
other two repay. -/
theorem exists_lending {c : Composition} (h : c ≠ spot) : ∃ funding proceeds, c.lending? = some (funding, proceeds) ∧
    (c = marginOpen ∨ c = debtSwap ↔ funding = .borrow) ∧ (c = marginClose ∨ c = collateralSwap ↔ funding = .withdraw) ∧
    (c = marginOpen ∨ c = collateralSwap ↔ proceeds = .supply) ∧ (c = marginClose ∨ c = debtSwap ↔ proceeds = .repay) := by
  cases c with
  | spot => exact absurd rfl h
  | marginOpen | marginClose | collateralSwap | debtSwap => exact ⟨_, _, rfl, by decide⟩

end Composition

end MarginRouter
