import MarginRouter.Proofs.Nonce

/-!
# Failed calls cannot be observed

A call that fails leaves the router as it was but for the number on its desk, and that number shows nowhere. So a call that has
failed can be left out of whatever is done to a router: all else is answered as before, and the router comes to the same ledger,
the same count of commits, the same registry and the same phase of the desk.
-/

namespace MarginRouter

open Step (Agree)

namespace Router

/-- What can be done to a router. -/
inductive Operation where
  | configure (caller : Address) (cuts : List Cut)
  | transferAdmin (caller admin : Address)
  | call (caller : Address) (calldata : List UInt8)

/-- What comes of it: whether the registry was changed, or the output or error of a call. -/
inductive Answer where
  | changed (result : Except RegistryError Unit)
  | called (result : Except CallError (List UInt8))

/-- The answer of a call that has failed. -/
def Answer.failed : Answer → Bool
  | .called (.error _) => true
  | _ => false

/-- Does one thing. -/
def perform (r : Router) : Operation → Answer × Router
  | .configure caller cuts => ((Router.configure caller cuts).outcome r).map .changed id
  | .transferAdmin caller admin => ((Router.transferAdmin caller admin).outcome r).map .changed id
  | .call caller calldata => ((Router.call caller calldata).outcome r).map .called id

/-- Does one thing after the other; what comes of each, and the router in the end. -/
def trace (r : Router) : List Operation → List (Operation × Answer) × Router
  | [] => ([], r)
  | op :: ops => (((op, (r.perform op).1) :: ((r.perform op).2.trace ops).1), ((r.perform op).2.trace ops).2)

/-- Calls that have failed are left out of a trace, as many as one likes. -/
inductive Thinned : List (Operation × Answer) → List (Operation × Answer) → Prop where
  | nil : Thinned [] []
  | keep (x : Operation × Answer) {t t' : List (Operation × Answer)} (h : Thinned t t') : Thinned (x :: t) (x :: t')
  | drop {x : Operation × Answer} {t t' : List (Operation × Answer)} (hfailed : x.2.failed) (h : Thinned t t') :
      Thinned (x :: t) t'

/-- The operation puts no other modules in place than traders and lenses. -/
def Operation.BuiltIn : Operation → Prop
  | .configure _ cuts => ∀ c ∈ cuts, ∀ m ∈ c.module, m.BuiltIn
  | _ => True

/-- Two routers that are the same but for the nonce of the desk. -/
def Alike (r r' : Router) : Prop :=
  ∃ nonce, r' = { r with desk := { r.desk with nonce } }

variable {r r' r'' : Router}

theorem Alike.refl (r : Router) : Alike r r :=
  ⟨r.desk.nonce, rfl⟩

theorem Alike.symm (h : Alike r r') : Alike r' r := by
  obtain ⟨n, rfl⟩ := h
  exact ⟨r.desk.nonce, rfl⟩

theorem Alike.trans (h : Alike r r') (h' : Alike r' r'') : Alike r r'' := by
  obtain ⟨n, rfl⟩ := h
  obtain ⟨n', rfl⟩ := h'
  exact ⟨n', rfl⟩

/-! ## One operation -/

/-- A change of the registry alone. -/
def onRegistry (f : Registry → Except RegistryError Registry) : Step RegistryError Router Unit :=
  Step.write fun r => do
    let registry ← f r.registry
    return { r with registry }

theorem outcome_onRegistry (f : Registry → Except RegistryError Registry) (r : Router) :
    (onRegistry f).outcome r = match f r.registry with
      | .ok registry => (.ok (), { r with registry })
      | .error e => (.error e, r) := by
  unfold Step.outcome onRegistry Step.write
  dsimp only
  cases f r.registry with
  | ok registry => rfl
  | error e => rfl

/-- A change of the registry does not look at the nonce. -/
theorem onRegistry_alike (f : Registry → Except RegistryError Registry) (ha : Alike r r') :
    Agree Alike Eq ((onRegistry f).outcome r) ((onRegistry f).outcome r') := by
  obtain ⟨n, rfl⟩ := ha
  rw [outcome_onRegistry, outcome_onRegistry]
  cases f r.registry with
  | ok registry => exact .ok rfl ⟨n, rfl⟩
  | error e => exact .error ⟨n, rfl⟩

/-- What becomes of a router when a module has come to this outcome. -/
def adopt (r : Router) : Except CallError (List UInt8) × World → Except CallError (List UInt8) × Router
  | (.ok output, w) => (.ok output, { r with journal := r.journal.commit w.ledger, desk := w.desk })
  | (.error e, w) => (.error e, { r with desk := w.desk })

/-- A call is answered by the module that owns its operation, if there is one. -/
theorem call_outcome {caller : Address} {calldata : List UInt8} {operation : OperationId} {m : Module}
    (ho : OperationId.ofCalldata? calldata = some operation) (hm : r.registry.resolve operation = some m) :
    (call caller calldata).outcome r =
      r.adopt ((m.invoke r.engine ⟨caller, operation, calldata.drop 4⟩).outcome ⟨r.ledger, r.desk⟩) := by
  unfold Step.outcome call
  simp only [ho, hm]
  cases m.invoke r.engine ⟨caller, operation, calldata.drop 4⟩ ⟨r.ledger, r.desk⟩ with
  | ok output w => rfl
  | error e w => rfl

theorem call_unrouted {caller : Address} {calldata : List UInt8}
    (h : ∀ operation, OperationId.ofCalldata? calldata = some operation → r.registry.resolve operation = none) :
    (call caller calldata).outcome r = (.error (.unrecognizedOperation (OperationId.ofCalldata? calldata)), r) := by
  unfold Step.outcome call
  cases ho : OperationId.ofCalldata? calldata with
  | none => rfl
  | some operation => simp only [h operation ho]

/-- Where a call goes: to no module, or to the module that owns its operation. -/
theorem routed (r : Router) (calldata : List UInt8) :
    (∀ operation, OperationId.ofCalldata? calldata = some operation → r.registry.resolve operation = none) ∨
      ∃ operation m, OperationId.ofCalldata? calldata = some operation ∧ r.registry.resolve operation = some m := by
  cases ho : OperationId.ofCalldata? calldata with
  | none => exact .inl nofun
  | some operation =>
    cases hm : r.registry.resolve operation with
    | none =>
      refine .inl fun _ h => ?_
      cases h
      exact hm
    | some m => exact .inr ⟨operation, m, rfl, hm⟩

section Adopt

variable {o o' : Except CallError (List UInt8) × World}

theorem adopt_alike (n : Nat) (h : Agree (World.Alike r.desk.engine r.desk.phase) Eq o o') :
    Agree Alike Eq (r.adopt o) (Router.adopt { r with desk := { r.desk with nonce := n } } o') := by
  cases h with
  | ok answer state =>
    obtain ⟨l, k, k', rfl, rfl⟩ := state
    exact .ok answer ⟨k', rfl⟩
  | error state =>
    obtain ⟨l, k, k', rfl, rfl⟩ := state
    exact .error ⟨k', rfl⟩

theorem alike_of_adopt {e : CallError} (h : Agree (World.Alike r.desk.engine r.desk.phase) Eq o o')
    (hfailed : r.adopt o = (.error e, r')) : Alike r r' := by
  cases h with
  | ok answer state => cases hfailed
  | error state =>
    obtain ⟨l, k, k', rfl, -⟩ := state
    cases hfailed
    exact ⟨k, rfl⟩

end Adopt

/-- Outcomes that agree are one answer, and leave routers that are alike. -/
theorem answered {ε α : Type} {o o' : Except ε α × Router} (h : Agree Alike Eq o o') (f : Except ε α → Answer) :
    (o'.map f id).1 = (o.map f id).1 ∧ Alike (o.map f id).2 (o'.map f id).2 :=
  ⟨congrArg f h.answer_eq, h.state⟩

/-- Nothing in the router looks at the nonce: its lender does not, and its modules are traders and lenses. -/
structure Oblivious (r : Router) : Prop where
  lender : r.engine.lender.Oblivious
  registry : r.registry.BuiltIn

theorem BuiltIn.oblivious (h : r.BuiltIn) : r.Oblivious := by
  obtain ⟨address, rate, mode, hl⟩ := h.lender
  exact ⟨hl ▸ FlashLender.oblivious_reserve address rate mode, h.registry⟩

namespace Oblivious

variable {caller : Address} {calldata : List UInt8}

/-- The module that a call goes to answers alike whatever the nonce. -/
theorem invoke_alike (h : r.Oblivious) (n : Nat) {operation : OperationId} {m : Module}
    (hm : r.registry.resolve operation = some m) (c : Call) :
    Agree (World.Alike r.desk.engine r.desk.phase) Eq ((m.invoke r.engine c).outcome ⟨r.ledger, r.desk⟩)
      ((m.invoke r.engine c).outcome ⟨r.ledger, { r.desk with nonce := n }⟩) :=
  (h.registry.resolve hm).twin_invoke h.lender c ⟨r.ledger, r.desk.nonce, n, rfl, rfl⟩

/-- A call is answered alike whatever the nonce. -/
theorem call_alike (h : r.Oblivious) (ha : Alike r r') (caller : Address) (calldata : List UInt8) :
    Agree Alike Eq ((call caller calldata).outcome r) ((call caller calldata).outcome r') := by
  obtain ⟨n, hr'⟩ := ha
  have hregistry : r'.registry = r.registry := by rw [hr']
  rcases routed r calldata with hnone | ⟨operation, m, ho, hm⟩
  · rw [call_unrouted hnone, call_unrouted (hregistry ▸ hnone)]
    exact .error ⟨n, hr'⟩
  · rw [call_outcome ho hm, call_outcome ho (hregistry ▸ hm), hr']
    exact adopt_alike n (h.invoke_alike n hm _)

/-- A call that fails leaves the router as it was but for the nonce. -/
theorem alike_of_failed (h : r.Oblivious) {e : CallError} (hfailed : (call caller calldata).outcome r = (.error e, r')) :
    Alike r r' := by
  rcases routed r calldata with hnone | ⟨operation, m, ho, hm⟩
  · rw [call_unrouted hnone] at hfailed
    cases hfailed
    exact .refl r
  · rw [call_outcome ho hm] at hfailed
    exact alike_of_adopt (h.invoke_alike r.desk.nonce hm _) hfailed

/-- One thing that is done is answered alike whatever the nonce, and leaves routers that are alike. -/
theorem perform_alike (h : r.Oblivious) (ha : Alike r r') (op : Operation) :
    (r'.perform op).1 = (r.perform op).1 ∧ Alike (r.perform op).2 (r'.perform op).2 := by
  cases op with
  | configure caller cuts => exact answered (onRegistry_alike (fun registry => registry.configure caller cuts) ha) .changed
  | transferAdmin caller admin =>
    exact answered (onRegistry_alike (fun registry => registry.transferAdmin caller admin) ha) .changed
  | call caller calldata => exact answered (h.call_alike ha caller calldata) .called

/-- Whatever is done, nothing in the router comes to look at the nonce. -/
theorem perform (h : r.Oblivious) {op : Operation} (hop : op.BuiltIn) : (r.perform op).2.Oblivious := by
  cases op with
  | configure caller cuts =>
    show ((onRegistry fun registry => registry.configure caller cuts).outcome r).2.Oblivious
    rw [outcome_onRegistry]
    cases hf : r.registry.configure caller cuts with
    | ok registry => exact ⟨h.lender, h.registry.configure hop hf⟩
    | error e => exact h
  | transferAdmin caller admin =>
    show ((onRegistry fun registry => registry.transferAdmin caller admin).outcome r).2.Oblivious
    rw [outcome_onRegistry]
    cases hf : r.registry.transferAdmin caller admin with
    | ok registry =>
      obtain ⟨-, -, he⟩ := Attempt.bind_eq_ok.1 hf
      obtain rfl := Attempt.pure_eq_ok.1 he
      exact ⟨h.lender, h.registry⟩
    | error e => exact h
  | call caller calldata =>
    obtain ⟨he, hr⟩ := afterCall_frame r caller calldata
    show (r.afterCall caller calldata).Oblivious
    exact ⟨he ▸ h.lender, hr ▸ h.registry⟩

theorem alike_perform (h : r.Oblivious) {op : Operation} (hfailed : (r.perform op).1.failed) : Alike r (r.perform op).2 := by
  cases op with
  | configure caller cuts => cases hfailed
  | transferAdmin caller admin => cases hfailed
  | call caller calldata =>
    simp only [Router.perform] at hfailed ⊢
    rcases ho : (Router.call caller calldata).outcome r with ⟨e | output, r'⟩
    · exact h.alike_of_failed ho
    · rw [ho] at hfailed
      cases hfailed

end Oblivious

/-! ## Failed calls left out -/

/-- A trace with failed calls left out is the trace of what is left, also from a router with another nonce. The induction is on
what is done: a failed call leaves a router that is alike, and from routers that are alike all else goes alike. -/
theorem Oblivious.trace_thinned :
    ∀ {ops : List Operation} {t : List (Operation × Answer)} {r r' : Router}, r.Oblivious → Alike r r' →
      (∀ op ∈ ops, op.BuiltIn) → Thinned (r.trace ops).1 t →
      (r'.trace (t.map Prod.fst)).1 = t ∧ Alike (r.trace ops).2 (r'.trace (t.map Prod.fst)).2
  | [], t, r, r', _, ha, _, ht => by
    cases ht
    exact ⟨rfl, ha⟩
  | op :: ops, t, r, r', h, ha, hops, ht => by
    have hnext := h.perform (hops op List.mem_cons_self)
    have hrest : ∀ op' ∈ ops, op'.BuiltIn := fun op' hop => hops op' (List.mem_cons_of_mem op hop)
    cases ht with
    | keep x ht =>
      obtain ⟨hanswer, hstate⟩ := h.perform_alike ha op
      obtain ⟨htrace, hend⟩ := trace_thinned hnext hstate hrest ht
      refine ⟨?_, hend⟩
      show (op, (r'.perform op).1) :: _ = _
      rw [hanswer, htrace]
    | drop hfailed ht =>
      have hsame := (h.alike_perform hfailed).symm.trans ha
      obtain ⟨htrace, hend⟩ := trace_thinned hnext hsame hrest ht
      exact ⟨htrace, hend⟩

/-- Failed calls are unobservable. Take a router whose modules are traders and lenses, whatever is done to it, and a lender that
does not look at the nonce. When any calls that have failed are left out, all else is answered as it was, and the router comes
to the same registry, ledger and count of commits, and to the same phase of the desk: but for the nonce, it is the same in the
end. -/
theorem failed_calls_unobservable {ops : List Operation} {t : List (Operation × Answer)} (hmodules : r.registry.BuiltIn)
    (hlender : r.engine.lender.Oblivious) (hops : ∀ op ∈ ops, op.BuiltIn) (ht : Thinned (r.trace ops).1 t) :
    (r.trace (t.map Prod.fst)).1 = t ∧ Alike (r.trace ops).2 (r.trace (t.map Prod.fst)).2 :=
  Oblivious.trace_thinned ⟨hlender, hmodules⟩ (.refl r) hops ht

end Router

namespace Sample

/-- Closing the debt with fifty of the collateral, for no less than sixty. -/
def tightCalldata : List UInt8 :=
  TradeArgs.encode ⟨.ofWord 50, .ofWord 60, path⟩ entry.operation

/-- A call that fails at its limit, another administrator, and a call that closes the debt. -/
def operations : List Router.Operation :=
  [.call (.ofNat 7) tightCalldata, .transferAdmin (.ofNat 8) (.ofNat 12), .call (.ofNat 7) calldata]

end Sample

/-- `Router.failed_calls_unobservable` at a call that takes a loan and fails at its limit, and is left out. -/
theorem Router.failed_calls_unobservable_close :
    ((Sample.router.perform (.call (.ofNat 7) Sample.tightCalldata)).1.failed = true ∧
      (Sample.router.perform (.call (.ofNat 7) Sample.tightCalldata)).2.desk.nonce = 1) ∧
    (∀ op ∈ Sample.operations, op.BuiltIn) ∧
    (Sample.router.trace Sample.operations).1.tail = (Sample.router.trace Sample.operations.tail).1 ∧
      Alike (Sample.router.trace Sample.operations).2 (Sample.router.trace Sample.operations.tail).2 := by
  have hfailed : (Sample.router.perform (.call (.ofNat 7) Sample.tightCalldata)).1.failed = true ∧
      (Sample.router.perform (.call (.ofNat 7) Sample.tightCalldata)).2.desk.nonce = 1 := by decide +kernel
  have hops : ∀ op ∈ Sample.operations, op.BuiltIn := by
    intro op hop
    simp only [Sample.operations, List.mem_cons, List.not_mem_nil, or_false] at hop
    rcases hop with rfl | rfl | rfl <;> trivial
  have ht : Thinned (Sample.router.trace Sample.operations).1 (Sample.router.trace Sample.operations).1.tail :=
    .drop hfailed.1 (.keep _ (.keep _ .nil))
  have hb := Sample.builtIn_router
  obtain ⟨htrace, halike⟩ := failed_calls_unobservable hb.registry hb.oblivious.lender hops ht
  exact ⟨hfailed, hops, htrace.symm, halike⟩

end MarginRouter
