import MarginRouter.Ledger.Journal
import MarginRouter.Registry.Basic

/-!
# The router

The one way in: a call is routed to the module that owns its operation and runs on the committed ledger. If it fails, the
ledger stays as it was; the count of loans asked for does not go back.
-/

namespace MarginRouter

/-- An engine, the modules that may be called, and the committed state. -/
structure Router where
  engine : Engine
  registry : Registry
  journal : Journal
  desk : LoanDesk

namespace Router

/-- A router without modules on this ledger. -/
def new (engine : Engine) (admin : Address) (l : Ledger) : Router :=
  ⟨engine, .new admin, .ofLedger l, .new engine.address⟩

def ledger (r : Router) : Ledger :=
  r.journal.ledger

/-- Makes a batch of changes to the registry. -/
def configure (caller : Address) (cuts : List Cut) : Step RegistryError Router Unit :=
  Step.write fun r => do
    let registry ← r.registry.configure caller cuts
    return { r with registry }

/-- Makes another account the administrator. -/
def transferAdmin (caller admin : Address) : Step RegistryError Router Unit :=
  Step.write fun r => do
    let registry ← r.registry.transferAdmin caller admin
    return { r with registry }

/-- Routes a call. -/
def call (caller : Address) (calldata : List UInt8) : Step CallError Router (List UInt8) := fun r =>
  match OperationId.ofCalldata? calldata with
  | none => .error (.unrecognizedOperation none) r
  | some operation =>
    match r.registry.resolve operation with
    | none => .error (.unrecognizedOperation (some operation)) r
    | some m =>
      match m.invoke r.engine ⟨caller, operation, calldata.drop 4⟩ ⟨r.ledger, r.desk⟩ with
      | .ok output w => .ok output { r with journal := r.journal.commit w.ledger, desk := w.desk }
      | .error e w => .error e { r with desk := w.desk }

end Router

end MarginRouter
