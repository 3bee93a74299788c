import MarginRouter.Clearing
import MarginRouter.Path.Action
import MarginRouter.Venue.Basic

/-!
# The venue book

Which venue each provider runs, and how a swap is quoted and made: the pool pays first, and what goes in is owed by the
clearing account.
-/

namespace MarginRouter

/-- The venue of each provider. -/
abbrev VenueBook := Std.ExtTreeMap UInt8 Venue

namespace VenueBook

/-- Adds a venue for a provider that has none yet. -/
def register (b : VenueBook) (provider : UInt8) (v : Venue) : Except VenueError VenueBook :=
  if provider ∈ b then .error (.duplicateProvider provider) else .ok (b.insert provider v)

/-- The venue, the pool and the pool's reserves for a swap. -/
def resolve (b : VenueBook) (l : Ledger) (s : Swap) : Except VenueError (Venue × Address × Reserves) :=
  match b[s.provider]? with
  | none => .error (.unknownProvider s.provider)
  | some v => do
    let pool ← v.pool s
    return (v, pool, ⟨l.balance s.tokenIn pool, l.balance s.tokenOut pool⟩)

/-- What a swap would do: the amount is what goes in, or what comes out, by direction. -/
def quote (b : VenueBook) (l : Ledger) (s : Swap) (d : Direction) (amount : Amount) : Except VenueError Fill := do
  let (v, pool, reserves) ← b.resolve l s
  match d with
  | .exactIn => return ⟨pool, amount, ← v.amountOut pool reserves s amount⟩
  | .exactOut => return ⟨pool, ← v.amountIn pool reserves s amount, amount⟩

/-- Moves the tokens of a fill between the pool and the clearing account. -/
def apply (s : Swap) (fill : Fill) : Step VenueError Books Unit := do
  let reserveIn := (← get).ledger.balance s.tokenIn fill.pool
  (Books.debit s.tokenOut fill.pool fill.amountOut).withError fun
    | .insufficientBalance _ _ available _ => .insufficientLiquidity fill.pool reserveIn available fill.amountOut
    | e => .ledger e
  (Books.clear fun c => c.credit s.tokenOut fill.amountOut).withError .ledger
  (Books.clear fun c => c.debit s.tokenIn fill.amountIn).withError .ledger
  (Books.credit s.tokenIn fill.pool fill.amountIn).withError .ledger

/-- Quotes a swap and makes it. -/
def swap (b : VenueBook) (s : Swap) (d : Direction) (amount : Amount) : Step VenueError Books Fill := do
  let fill ← Step.lift (b.quote (← get).ledger s d amount)
  apply s fill
  return fill

end VenueBook

end MarginRouter
