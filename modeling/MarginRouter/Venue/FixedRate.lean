import MarginRouter.Venue.Pool

/-!
# Fixed-rate pools

A pool between pegged tokens: one unit of the first token is worth `numerator / denominator` units of the second, whatever the
reserves. The fee comes off the input; outputs are rounded down and inputs up.
-/

namespace MarginRouter

/-- A pool with its rate. -/
structure RatePool where
  address : Address
  numerator : UInt64
  denominator : UInt64
  numerator_pos : 0 < numerator
  denominator_pos : 0 < denominator

namespace RatePool

/-- The pool with this rate, in which neither part may be zero. -/
def of (address : Address) (numerator denominator : UInt64) : Except VenueError RatePool :=
  if h : 0 < numerator ∧ 0 < denominator then .ok ⟨address, numerator, denominator, h.1, h.2⟩
  else .error (.invalidRate address)

/-- The same pool with the two tokens in the other order. -/
def swapped (p : RatePool) : RatePool :=
  ⟨p.address, p.denominator, p.numerator, p.denominator_pos, p.numerator_pos⟩

/-- The rate from the token that comes in to the token that goes out: what numerator and denominator multiply. -/
def oriented (p : RatePool) (s : Swap) : Amount × Amount :=
  if s.key.token0 = s.tokenIn then (.ofWord p.numerator, .ofWord p.denominator)
  else (.ofWord p.denominator, .ofWord p.numerator)

end RatePool

namespace FixedRate

/-- What is left of each million of input after the fee. -/
def afterFee (pool : Address) (fee : Nat) : Except VenueError Amount :=
  if fee < feeUnit then .ok (.wrap (feeUnit - fee)) else .error (.invalidFee pool fee)

/-- The output for a given input. -/
def amountOut (find : Except VenueError RatePool) (pool : Address) (r : Reserves) (s : Swap) (amountIn : Amount) :
    Except VenueError Amount := do
  if amountIn = 0 then throw .zeroAmount
  let kept ← afterFee pool s.fee
  let (num, den) := (← find).oriented s
  let input ← VenueError.checked (amountIn.toNat * kept.toNat)
  let numerator ← VenueError.checked (input.toNat * num.toNat)
  let out := numerator.div (.wrap (feeUnit * den.toNat))
  if out = 0 ∨ r.reserveOut < out then throw (r.insufficient pool amountIn)
  return out

/-- The input for a given output. -/
def amountIn (find : Except VenueError RatePool) (pool : Address) (r : Reserves) (s : Swap) (amountOut : Amount) :
    Except VenueError Amount := do
  if amountOut = 0 then throw .zeroAmount
  let kept ← afterFee pool s.fee
  if r.reserveOut < amountOut then throw (r.insufficient pool amountOut)
  let (num, den) := (← find).oriented s
  let scaled ← VenueError.checked (amountOut.toNat * feeUnit)
  let numerator ← VenueError.checked (scaled.toNat * den.toNat)
  return numerator.divCeil (.wrap (kept.toNat * num.toNat))

end FixedRate

end MarginRouter
