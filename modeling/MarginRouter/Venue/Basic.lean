import MarginRouter.Venue.ConstantProduct
import MarginRouter.Venue.FixedRate

/-!
# Venues

A venue is a set of pools of one kind. It knows where its pools are and how they price, and holds no reserves itself.
-/

namespace MarginRouter

/-- The kinds of venue. -/
inductive VenueKind where
  | constantProduct
  | fixedRate
  deriving DecidableEq, Repr

/-- A set of pools of one kind, by the pair and fee each serves. -/
inductive Venue where
  | constantProduct (pools : Std.ExtTreeMap PoolKey Address)
  | fixedRate (pools : Std.ExtTreeMap PoolKey RatePool)

/-- A pool as it is listed: its pair in a given order, its fee, its address, and the rate in that order. -/
structure PoolListing where
  token0 : Address
  token1 : Address
  fee : Nat
  address : Address
  rateNumerator : UInt64
  rateDenominator : UInt64

namespace Venue

/-- A venue without pools. -/
def empty : VenueKind → Venue
  | .constantProduct => .constantProduct ∅
  | .fixedRate => .fixedRate ∅

/-- Lists a pool; a pool listed before for the same pair and fee is replaced. A constant-product pool has no rate, so none is
looked at. -/
def list (v : Venue) (p : PoolListing) : Except VenueError Venue :=
  let key := PoolKey.of p.token0 p.token1 p.fee
  match v with
  | .constantProduct pools => .ok (.constantProduct (pools.insert key p.address))
  | .fixedRate pools => do
    let pool ← RatePool.of p.address p.rateNumerator p.rateDenominator
    return .fixedRate (pools.insert key (if key.token0 = p.token0 then pool else pool.swapped))

/-- Lists pools in order. -/
def listAll (v : Venue) (ps : List PoolListing) : Except VenueError Venue :=
  ps.foldlM list v

/-- A value, or the error of a pool that is not there. -/
def found {α : Type} (s : Swap) : Option α → Except VenueError α
  | some a => .ok a
  | none => .error (.poolNotFound s)

/-- The address of the pool that serves a swap. -/
def pool (v : Venue) (s : Swap) : Except VenueError Address :=
  match v with
  | .constantProduct pools => found s pools[s.key]?
  | .fixedRate pools => (found s pools[s.key]?).map RatePool.address

/-- What comes out of a pool with these reserves. -/
def amountOut (v : Venue) (pool : Address) (r : Reserves) (s : Swap) (amountIn : Amount) : Except VenueError Amount :=
  match v with
  | .constantProduct _ => ConstantProduct.amountOut pool r s.fee amountIn
  | .fixedRate pools => FixedRate.amountOut (found s pools[s.key]?) pool r s amountIn

/-- What has to go into a pool with these reserves. -/
def amountIn (v : Venue) (pool : Address) (r : Reserves) (s : Swap) (amountOut : Amount) : Except VenueError Amount :=
  match v with
  | .constantProduct _ => ConstantProduct.amountIn pool r s.fee amountOut
  | .fixedRate pools => FixedRate.amountIn (found s pools[s.key]?) pool r s amountOut

end Venue

end MarginRouter
