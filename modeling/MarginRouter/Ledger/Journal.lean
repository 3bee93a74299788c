import MarginRouter.Ledger.Basic

/-!
# Committed ledgers

A journal holds the ledger of the last step that succeeded and counts how many have. A step that fails leaves no trace in it.
-/

namespace MarginRouter

/-- The committed ledger and the number of steps committed. The number has no bound here; a 64-bit counter has the same value as
long as fewer than 2^64 steps have been committed. -/
structure Journal where
  ledger : Ledger
  committed : Nat

namespace Journal

def ofLedger (l : Ledger) : Journal := ⟨l, 0⟩

/-- Commits a new ledger. -/
def commit (j : Journal) (l : Ledger) : Journal := ⟨l, j.committed + 1⟩

/-- Runs a step on the committed ledger and commits what it leaves if it succeeds. -/
def transact {ε α : Type} (step : Step ε Ledger α) : Step ε Journal α := fun j =>
  match step j.ledger with
  | .ok a l => .ok a (j.commit l)
  | .error e _ => .error e j

end Journal

end MarginRouter
