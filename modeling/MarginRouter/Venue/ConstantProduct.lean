import MarginRouter.Venue.Pool

/-!
# Constant-product pools

The product of the two reserves never falls: the output is what keeps it, after the fee has been taken from the input. Outputs
are rounded down and inputs up.
-/

namespace MarginRouter.ConstantProduct

/-- What is left of each million of input after the fee. -/
def afterFee (pool : Address) (fee : Nat) : Except VenueError Nat :=
  if fee < feeUnit then .ok (feeUnit - fee) else .error (.invalidFee pool fee)

/-- The output for a given input. -/
def amountOut (pool : Address) (r : Reserves) (fee : Nat) (amountIn : Amount) : Except VenueError Amount := do
  if amountIn = 0 then throw .zeroAmount
  if r.reserveIn = 0 ∨ r.reserveOut = 0 then throw (r.insufficient pool amountIn)
  let kept ← afterFee pool fee
  let input ← VenueError.checked (amountIn.toNat * kept)
  let numerator ← VenueError.checked (input.toNat * r.reserveOut.toNat)
  let scaled ← VenueError.checked (r.reserveIn.toNat * feeUnit)
  let denominator ← VenueError.checked (scaled.toNat + input.toNat)
  let out := numerator.div denominator
  if out = 0 then throw (r.insufficient pool amountIn)
  return out

/-- The input for a given output, one unit more than the quotient so that it suffices. -/
def amountIn (pool : Address) (r : Reserves) (fee : Nat) (amountOut : Amount) : Except VenueError Amount := do
  if amountOut = 0 then throw .zeroAmount
  if r.reserveIn = 0 ∨ r.reserveOut ≤ amountOut then throw (r.insufficient pool amountOut)
  let product ← VenueError.checked (r.reserveIn.toNat * amountOut.toNat)
  let numerator ← VenueError.checked (product.toNat * feeUnit)
  let kept ← afterFee pool fee
  let denominator ← VenueError.checked ((r.reserveOut - amountOut).toNat * kept)
  return .wrap ((numerator.div denominator).toNat + 1)

end MarginRouter.ConstantProduct
