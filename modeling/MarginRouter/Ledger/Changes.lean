import MarginRouter.Ledger.Basic

/-!
# Changes between ledgers

The entries in which two ledgers differ, with the values of the later one.
-/

namespace MarginRouter.Ledger

/-- The balances that differ, by token and holder, with what they are afterwards. -/
def changedBalances (before after : Ledger) : List (Holding × Amount) :=
  let keys := after.balances.foldl (fun keys k _ => keys.insert k 0) before.balances
  keys.toList.filterMap fun (k, _) =>
    let new := after.balance k.token k.holder
    if new = before.balance k.token k.holder then none else some (k, new)

/-- The positions that differ, by market, user and asset, with what they are afterwards. -/
def changedPositions (before after : Ledger) : List (PositionKey × Position) :=
  let keys := after.positions.foldl (fun keys k _ => keys.insert k .empty) before.positions
  keys.toList.filterMap fun (k, _) =>
    let new := after.position k.market k.user k.asset
    if new = before.position k.market k.user k.asset then none else some (k, new)

/-- The tokens of which somebody has something, in order. -/
def tokens (l : Ledger) : List Address :=
  (l.balances.foldl (fun (tokens : Std.ExtTreeMap Address Unit) k _ => tokens.insert k.token ()) ∅).keys

end MarginRouter.Ledger
