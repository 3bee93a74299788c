import MarginRouter.Router.Basic

/-!
# Scripted modules

A module that makes a fixed list of ledger entries whenever it is called and then answers or fails, so that routing and
undoing can be observed apart from trading. `call_scripted` says what a call that is routed to it comes to.
-/

namespace MarginRouter

/-- Makes the entries, then fails or answers the caller and the arguments. -/
def Module.scripted (address : Address) (operations : List OperationId) (entries : List Ledger.Entry) (fails : Bool) :
    Module where
  address := address
  name := "script"
  operations := operations
  invoke _ call := do
    Step.on World.ledger (fun l w => { w with ledger := l }) ((Ledger.postAll entries).withError .ledger)
    if fails then throw (.engine .zeroAmount)
    return call.caller.toBytes ++ call.args

namespace Router

variable {r : Router} {caller : Address} {calldata : List UInt8} {operation : OperationId}
variable {address : Address} {operations : List OperationId} {entries : List Ledger.Entry} {fails : Bool}

/-- The entries are committed, all of them, if they can be made and the module does not fail; otherwise the router is as it was before
the call, even where some of the entries had been made. -/
theorem call_scripted (hcalldata : OperationId.ofCalldata? calldata = some operation)
    (hresolve : r.registry.resolve operation = some (.scripted address operations entries fails)) :
    call caller calldata r =
      match Ledger.postAll entries r.ledger with
      | .error e _ => .error (.ledger e) r
      | .ok () l =>
        if fails then .error (.engine .zeroAmount) r
        else .ok (caller.toBytes ++ calldata.drop 4) { r with journal := r.journal.commit l } := by
  have hinvoke : (Module.scripted address operations entries fails).invoke r.engine ⟨caller, operation, calldata.drop 4⟩
      ⟨r.ledger, r.desk⟩ =
        match Ledger.postAll entries r.ledger with
        | .error e l => .error (.ledger e) ⟨l, r.desk⟩
        | .ok () l =>
          if fails then .error (.engine .zeroAmount) ⟨l, r.desk⟩
          else .ok (caller.toBytes ++ calldata.drop 4) ⟨l, r.desk⟩ := by
    show EStateM.bind _ _ _ = _
    unfold EStateM.bind Step.on Step.withError
    cases Ledger.postAll entries r.ledger with
    | error e l => rfl
    | ok u l => cases fails <;> rfl
  simp only [call, hcalldata, hresolve, hinvoke]
  cases Ledger.postAll entries r.ledger with
  | error e l => rfl
  | ok u l => cases fails <;> rfl

end Router

end MarginRouter
