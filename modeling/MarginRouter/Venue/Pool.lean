import Std.Data.ExtTreeMap
import MarginRouter.Venue.Error

/-!
# Pools

A pool serves an unordered pair of tokens at one fee. Its reserves are the balances of its address in the ledger.
-/

namespace MarginRouter

/-- Fees of pools are in millionths. -/
def feeUnit : Nat := 1000000

/-- The pair and fee a pool serves, with the lower token first. -/
@[ext] structure PoolKey where
  token0 : Address
  token1 : Address
  fee : Nat
  deriving DecidableEq

namespace PoolKey

instance : Ord PoolKey := ⟨compareLex (compareOn token0) (compareLex (compareOn token1) (compareOn fee))⟩

instance : Std.TransOrd PoolKey :=
  inferInstanceAs (Std.TransCmp (compareLex (compareOn token0) (compareLex (compareOn token1) (compareOn fee))))

instance : Std.LawfulEqOrd PoolKey where
  eq_of_compare {a b} h := by
    obtain ⟨h1, h23⟩ := compareLex_eq_eq.mp h
    obtain ⟨h2, h3⟩ := compareLex_eq_eq.mp h23
    exact PoolKey.ext (Std.LawfulEqOrd.eq_of_compare h1) (Std.LawfulEqOrd.eq_of_compare h2)
      (Std.LawfulEqOrd.eq_of_compare h3)

/-- The key of a pair given in either order. -/
def of (a b : Address) (fee : Nat) : PoolKey :=
  if a ≤ b then ⟨a, b, fee⟩ else ⟨b, a, fee⟩

end PoolKey

/-- The pool a swap needs. -/
def Swap.key (s : Swap) : PoolKey :=
  .of s.tokenIn s.tokenOut s.fee

/-- What a pool holds of the token that comes in and of the token that goes out. -/
structure Reserves where
  reserveIn : Amount
  reserveOut : Amount
  deriving DecidableEq

/-- The error of a pool that cannot serve what is requested. -/
def Reserves.insufficient (r : Reserves) (pool : Address) (requested : Amount) : VenueError :=
  .insufficientLiquidity pool r.reserveIn r.reserveOut requested

/-- A swap made or quoted: the pool and what goes in and out. -/
structure Fill where
  pool : Address
  amountIn : Amount
  amountOut : Amount
  deriving DecidableEq

end MarginRouter
