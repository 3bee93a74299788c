import MarginRouter.Config.Launch
import MarginRouter.Proofs.Execution

/-!
# Calls to a router of the built-in parts

A router that settings launch has the reserve lender, and its modules are traders and lenses; it stays so whatever is called
and whichever of these modules are configured later. A call to such a router either leaves the committed ledger as it is or
replaces it by the ledger that one execution for the caller has settled.
-/

namespace MarginRouter

/-- The module is a trader or a lens. -/
def Module.BuiltIn (m : Module) : Prop :=
  ∃ address, m = .trader address ∨ m = .lens address

namespace Registry

variable {r r' : Registry} {operation : OperationId} {m : Module}

/-- All modules on record are traders and lenses. -/
def BuiltIn (r : Registry) : Prop :=
  ∀ (address : Address) record, r.records[address]? = some record → record.module.BuiltIn

theorem builtIn_new (admin : Address) : (new admin).BuiltIn := by
  intro address record h
  simp [new] at h

theorem BuiltIn.resolve (h : r.BuiltIn) (hr : r.resolve operation = some m) : m.BuiltIn := by
  unfold Registry.resolve at hr
  split at hr
  · cases hr
  · obtain ⟨record, hrec, rfl⟩ := Option.map_eq_some_iff.1 hr
    exact h _ _ hrec

theorem BuiltIn.assign (h : r.BuiltIn) (hm : m.BuiltIn) : (r.assign operation m).BuiltIn := by
  intro address record hr
  simp only [Registry.assign, Std.ExtTreeMap.getElem?_insert] at hr
  split at hr
  · cases hr
    show (r.records[m.address]?.getD ⟨m, ∅⟩).module.BuiltIn
    cases hk : r.records[m.address]? with
    | none => exact hm
    | some known => exact h _ _ hk
  · exact h _ _ hr

/-- In a registry with one module, the operation it has been given leads to it. -/
theorem resolve_assign_new (admin : Address) (operation : OperationId) (m : Module) :
    ((new admin).assign operation m).resolve operation = some m := by
  simp [Registry.resolve, Registry.assign, new]

theorem BuiltIn.release (h : r.BuiltIn) : (r.release operation).BuiltIn := by
  unfold Registry.release
  split
  · exact h
  · rename_i owner _
    simp only
    split
    · exact h
    · rename_i known hk
      intro address record hr
      split at hr
      · simp only [Std.ExtTreeMap.getElem?_erase] at hr
        split at hr
        · cases hr
        · exact h _ _ hr
      · simp only [Std.ExtTreeMap.getElem?_insert] at hr
        split at hr
        · cases hr
          exact h owner known hk
        · exact h _ _ hr

/-- A change that names no other module keeps the registry built in. -/
theorem BuiltIn.apply {c : Cut} (h : r.BuiltIn) (hc : ∀ m ∈ c.module, m.BuiltIn) (ha : r.apply c = .ok r') : r'.BuiltIn := by
  unfold Registry.apply at ha
  split at ha
  · cases ha
  split at ha
  · rename_i m _ hm
    refine Attempt.foldlM_keeps (fun operation _ r r' hr ho => ?_) h ha
    unfold addOne at ho
    split at ho
    · cases ho
    · cases ho
      exact hr.assign (hc m hm)
  · rename_i m _ hm
    refine Attempt.foldlM_keeps (fun operation _ r r' hr ho => ?_) h ha
    unfold replaceOne at ho
    split at ho
    · cases ho
    split at ho
    · cases ho
    · cases ho
      exact hr.release.assign (hc m hm)
  · cases ha
    exact List.foldlRecOn _ _ h fun _ hr _ _ => hr.release
  · cases ha
  · cases ha

theorem BuiltIn.configure {caller : Address} {cuts : List Cut} (h : r.BuiltIn) (hc : ∀ c ∈ cuts, ∀ m ∈ c.module, m.BuiltIn)
    (hr : r.configure caller cuts = .ok r') : r'.BuiltIn := by
  obtain ⟨-, -, hr⟩ := Attempt.bind_eq_ok.1 hr
  exact Attempt.foldlM_keeps (fun c hm r r' hr ha => hr.apply (hc c hm) ha) h hr

end Registry

-- `rfl` would go on to compute the identifiers of all operations.
theorem Module.invoke_trader (address : Address) : (Module.trader address).invoke = Engine.trade := by
  dsimp only [Module.trader]

theorem Module.invoke_lens (address : Address) : (Module.lens address).invoke = Engine.look := by
  dsimp only [Module.lens]

/-- What a caller asks for with the arguments of a trade in this direction. -/
def TradeArgs.request (a : TradeArgs) (caller : Address) (d : Direction) : Request :=
  ⟨caller, a.path, a.amount, a.limit, d⟩

/-- What a trade that succeeds comes to: one execution for the caller, of the composition and in the direction of its entry. -/
theorem Engine.trade_eq_ok {e : Engine} {call : Call} {w w' : World} {output : List UInt8}
    (h : e.trade call w = .ok output w') :
    ∃ entry args settled s, TradeEntry.ofOperation? call.operation = some entry ∧
      TradeArgs.decode call.operation call.args = .ok args ∧
      e.settle (args.request call.caller entry.direction) entry.composition (e.session w) = .ok settled s ∧
      w' = ⟨s.books.ledger, s.desk⟩ := by
  unfold trade at h
  generalize TradeEntry.ofOperation? call.operation = found at h ⊢
  cases found with
  | none => exact absurd h Step.throw_ne_ok
  | some entry =>
    simp only [Step.bind_eq_ok, Step.lift_eq_ok, Step.withError_eq_ok, Step.pure_eq_ok] at h
    obtain ⟨args, _, ⟨ha, rfl⟩, settled, _, he, -, rfl⟩ := h
    obtain ⟨s, hs, rfl⟩ := executeAs_eq_ok he
    exact ⟨entry, args, settled, s, rfl, ha, hs, rfl⟩

/-- A query changes nothing. -/
theorem Engine.look_eq_ok {e : Engine} {call : Call} {w w' : World} {output : List UInt8}
    (h : e.look call w = .ok output w') : w' = w := by
  unfold look at h
  generalize Query.ofOperation? call.operation = found at h
  cases found with
  | none => exact absurd h Step.throw_ne_ok
  | some query =>
    simp only [Step.bind_eq_ok, Step.lift_eq_ok, Step.get_eq_ok, Step.pure_eq_ok] at h
    obtain ⟨_, _, ⟨-, rfl⟩, _, _, ⟨rfl, rfl⟩, _, _, ⟨-, rfl⟩, -, rfl⟩ := h
    rfl

namespace Config.Settings

/-- A launch succeeds exactly when all its parts do, and then it has made them into a router. -/
theorem launch_eq_ok {s : Settings} {r : Router} : s.launch = .ok r ↔ ∃ venues markets balances ledger rate registry,
    s.venueBook = .ok venues ∧ s.marketBook = .ok markets ∧ seedBalances s.balances = .ok balances ∧
      seedPositions markets s.positions balances = .ok ledger ∧ FeeRate.of s.flash.fee s.flash.denominator = .ok rate ∧
      (Registry.new s.accounts.admin).configure s.accounts.admin
        [(Module.trader s.accounts.trader).addAll, (Module.lens s.accounts.lens).addAll] = .ok registry ∧
      { Router.new ⟨s.accounts.engine, venues, markets, .reserve s.flash.provider rate s.flash.mode⟩ s.accounts.admin ledger with
        registry } = r := by
  simp only [launch, Attempt.bind_eq_ok, Attempt.pure_eq_ok, Attempt.mapError_eq_ok]
  constructor
  · rintro ⟨venues, hv, markets, hm, balances, hb, ledger, hl, rate, hr, registry, hc, rfl⟩
    exact ⟨venues, markets, balances, ledger, rate, registry, hv, hm, hb, hl, hr, hc, rfl⟩
  · rintro ⟨venues, markets, balances, ledger, rate, registry, hv, hm, hb, hl, hr, hc, rfl⟩
    exact ⟨venues, hv, markets, hm, balances, hb, ledger, hl, rate, hr, registry, hc, rfl⟩

end Config.Settings

namespace Router

variable {r r' : Router} {caller : Address} {calldata : List UInt8}

/-- The lender is the reserve lender, and the modules are traders and lenses. -/
structure BuiltIn (r : Router) : Prop where
  lender : ∃ address rate mode, r.engine.lender = .reserve address rate mode
  registry : r.registry.BuiltIn

/-- A router that settings launch is made of the built-in parts. -/
theorem builtIn_launch {s : Config.Settings} (h : s.launch = .ok r) : r.BuiltIn := by
  obtain ⟨venues, markets, balances, ledger, rate, registry, -, -, -, -, -, hr, rfl⟩ := Config.Settings.launch_eq_ok.1 h
  refine ⟨⟨_, _, _, rfl⟩, (Registry.builtIn_new _).configure ?_ hr⟩
  intro c hc m hm
  simp only [List.mem_cons, List.not_mem_nil, or_false] at hc
  rcases hc with rfl | rfl
  · cases hm
    exact ⟨_, .inl rfl⟩
  · cases hm
    exact ⟨_, .inr rfl⟩

/-- The router after a call, whether it has succeeded or not. -/
def afterCall (r : Router) (caller : Address) (calldata : List UInt8) : Router :=
  ((call caller calldata).outcome r).2

/-- The router after a run of calls. -/
def after (r : Router) (calls : List (Address × List UInt8)) : Router :=
  calls.foldl (fun r c => r.afterCall c.1 c.2) r

/-- All that a call can do: it names no operation that a module owns, or the module fails, or the module succeeds and what it
leaves is committed. -/
theorem call_cases (r : Router) (caller : Address) (calldata : List UInt8) :
    (∃ error, call caller calldata r = .error error r) ∨
    ∃ operation m, OperationId.ofCalldata? calldata = some operation ∧ r.registry.resolve operation = some m ∧
      ((∃ error w, m.invoke r.engine ⟨caller, operation, calldata.drop 4⟩ ⟨r.ledger, r.desk⟩ = .error error w ∧
          call caller calldata r = .error error { r with desk := w.desk }) ∨
        ∃ output w, m.invoke r.engine ⟨caller, operation, calldata.drop 4⟩ ⟨r.ledger, r.desk⟩ = .ok output w ∧
          call caller calldata r = .ok output { r with journal := r.journal.commit w.ledger, desk := w.desk }) := by
  unfold call
  cases ho : OperationId.ofCalldata? calldata with
  | none => exact .inl ⟨_, rfl⟩
  | some operation =>
    cases hm : r.registry.resolve operation with
    | none => exact .inl ⟨.unrecognizedOperation (some operation), by simp only [hm]⟩
    | some m =>
      refine .inr ⟨operation, m, rfl, hm, ?_⟩
      cases hi : m.invoke r.engine ⟨caller, operation, calldata.drop 4⟩ ⟨r.ledger, r.desk⟩ with
      | error error w => exact .inl ⟨error, w, rfl, by simp only [hm, hi]⟩
      | ok output w => exact .inr ⟨output, w, rfl, by simp only [hm, hi]⟩

/-- A call changes the committed ledger and the desk alone. -/
theorem afterCall_frame (r : Router) (caller : Address) (calldata : List UInt8) :
    (r.afterCall caller calldata).engine = r.engine ∧ (r.afterCall caller calldata).registry = r.registry := by
  unfold afterCall Step.outcome
  rcases call_cases r caller calldata with ⟨_, hc⟩ | ⟨_, _, -, -, ⟨_, _, -, hc⟩ | ⟨_, _, -, hc⟩⟩
  · rw [hc]
    exact ⟨rfl, rfl⟩
  · rw [hc]
    exact ⟨rfl, rfl⟩
  · rw [hc]
    exact ⟨rfl, rfl⟩

theorem BuiltIn.afterCall (h : r.BuiltIn) (caller : Address) (calldata : List UInt8) :
    (r.afterCall caller calldata).BuiltIn := by
  obtain ⟨he, hr⟩ := afterCall_frame r caller calldata
  exact ⟨he ▸ h.lender, hr ▸ h.registry⟩

/-- A call that succeeds has been carried out by the module that owns its operation. -/
theorem call_eq_ok {output : List UInt8} (h : call caller calldata r = .ok output r') :
    ∃ operation m w, OperationId.ofCalldata? calldata = some operation ∧ r.registry.resolve operation = some m ∧
      m.invoke r.engine ⟨caller, operation, calldata.drop 4⟩ ⟨r.ledger, r.desk⟩ = .ok output w ∧
      r'.ledger = w.ledger := by
  rcases call_cases r caller calldata with ⟨_, hc⟩ | ⟨operation, m, ho, hm, ⟨_, _, -, hc⟩ | ⟨_, w, hi, hc⟩⟩
  · cases h.symm.trans hc
  · cases h.symm.trans hc
  · cases h.symm.trans hc
    exact ⟨operation, m, w, ho, hm, hi, rfl⟩

/-- A call that fails leaves the committed ledger as it is. -/
theorem ledger_of_call_error {error : CallError} (h : call caller calldata r = .error error r') : r'.ledger = r.ledger := by
  rcases call_cases r caller calldata with ⟨_, hc⟩ | ⟨_, _, -, -, ⟨_, _, -, hc⟩ | ⟨_, _, -, hc⟩⟩
  · cases h.symm.trans hc
    rfl
  · cases h.symm.trans hc
    rfl
  · cases h.symm.trans hc

/-- The call is led to a trader, by an entry that it has, with arguments that can be read. -/
def Trades (r : Router) (calldata : List UInt8) (entry : TradeEntry) (args : TradeArgs) : Prop :=
  ∃ operation trader, OperationId.ofCalldata? calldata = some operation ∧
    r.registry.resolve operation = some (.trader trader) ∧ TradeEntry.ofOperation? operation = some entry ∧
    TradeArgs.decode operation (calldata.drop 4) = .ok args

/-- The call is led to a lens. -/
def Asks (r : Router) (calldata : List UInt8) : Prop :=
  ∃ operation lens, OperationId.ofCalldata? calldata = some operation ∧ r.registry.resolve operation = some (.lens lens)

/-- A call is one trade at most. -/
theorem Trades.unique {entry entry' : TradeEntry} {args args' : TradeArgs} (h : r.Trades calldata entry args)
    (h' : r.Trades calldata entry' args') : entry = entry' ∧ args = args' := by
  obtain ⟨operation, _, ho, -, he, ha⟩ := h
  obtain ⟨operation', _, ho', -, he', ha'⟩ := h'
  obtain rfl := Option.some.inj (ho.symm.trans ho')
  exact ⟨Option.some.inj (he.symm.trans he'), Except.ok.inj (ha.symm.trans ha')⟩

/-- A call leaves the committed ledger as it is, or replaces it by the one that the module which owns its operation has left. -/
theorem ledger_afterCall_cases (r : Router) (caller : Address) (calldata : List UInt8) :
    (r.afterCall caller calldata).ledger = r.ledger ∨
      ∃ operation m output w, OperationId.ofCalldata? calldata = some operation ∧
        r.registry.resolve operation = some m ∧
        m.invoke r.engine ⟨caller, operation, calldata.drop 4⟩ ⟨r.ledger, r.desk⟩ = .ok output w ∧
        (r.afterCall caller calldata).ledger = w.ledger := by
  unfold Router.afterCall Step.outcome
  cases hc : call caller calldata r with
  | error error r' => exact .inl (ledger_of_call_error hc)
  | ok output r' =>
    obtain ⟨operation, m, w, ho, hm, hi, hl⟩ := call_eq_ok hc
    exact .inr ⟨operation, m, output, w, ho, hm, hi, hl⟩

/-- A call to a router of the built-in parts leaves the committed ledger as it is, or it is a trade and replaces the ledger by
the one that its execution for the caller has settled. -/
theorem BuiltIn.ledger_afterCall (h : r.BuiltIn) (caller : Address) (calldata : List UInt8) :
    (r.afterCall caller calldata).ledger = r.ledger ∨
      ∃ entry args settled s, r.Trades calldata entry args ∧
        r.engine.settle (args.request caller entry.direction) entry.composition (r.engine.session ⟨r.ledger, r.desk⟩) =
          .ok settled s ∧
        (r.afterCall caller calldata).ledger = s.books.ledger := by
  rcases ledger_afterCall_cases r caller calldata with he | ⟨operation, m, output, w, ho, hm, hi, hl⟩
  · exact .inl he
  · obtain ⟨address, rfl | rfl⟩ := h.registry.resolve hm
    · rw [Module.invoke_trader] at hi
      obtain ⟨entry, args, settled, s, he, ha, hs, rfl⟩ := Engine.trade_eq_ok hi
      exact .inr ⟨entry, args, settled, s, ⟨operation, address, ho, hm, he, ha⟩, hs, hl⟩
    · rw [Module.invoke_lens] at hi
      obtain rfl := Engine.look_eq_ok hi
      exact .inl hl

/-- A call to a lens leaves the committed ledger as it is. -/
theorem Asks.ledger_afterCall (h : r.Asks calldata) (caller : Address) :
    (r.afterCall caller calldata).ledger = r.ledger := by
  obtain ⟨operation, lens, ho, hm⟩ := h
  rcases ledger_afterCall_cases r caller calldata with he | ⟨operation', m, output, w, ho', hm', hi, hl⟩
  · exact he
  · obtain rfl := Option.some.inj (ho.symm.trans ho')
    obtain rfl := Option.some.inj (hm.symm.trans hm')
    rw [Module.invoke_lens] at hi
    obtain rfl := Engine.look_eq_ok hi
    exact hl

/-- What is true of every execution for the caller is true of a call. -/
theorem BuiltIn.related_afterCall {R : Ledger → Ledger → Prop} (h : r.BuiltIn) (hR : Step.Chains R)
    (hs : r.engine.Relates caller R) (calldata : List UInt8) : R r.ledger (r.afterCall caller calldata).ledger := by
  rcases h.ledger_afterCall caller calldata with he | ⟨entry, args, settled, s, -, hsettle, he⟩
  · rw [he]
    exact hR.refl _
  · rw [he]
    exact hs rfl hsettle

/-- A relation that every call of a run keeps holds between the beginning and the end of the run; the router is made of the same
parts all along. -/
theorem BuiltIn.chained_after {R : Ledger → Ledger → Prop} (hR : Step.Chains R) :
    ∀ (calls : List (Address × List UInt8)) {r : Router}, r.BuiltIn →
      (∀ r' : Router, r'.BuiltIn → r'.engine = r.engine → r'.registry = r.registry →
        ∀ call ∈ calls, R r'.ledger (r'.afterCall call.1 call.2).ledger) → R r.ledger (r.after calls).ledger
  | [], _, _, _ => hR.refl _
  | (caller, calldata) :: calls, r, hb, h => by
    obtain ⟨he, hr⟩ := afterCall_frame r caller calldata
    have hfirst := h r hb rfl rfl _ List.mem_cons_self
    have hrest := chained_after hR calls (hb.afterCall caller calldata) fun r' hb' he' hr' call hcall =>
      h r' hb' (he'.trans he) (hr'.trans hr) call (List.mem_cons_of_mem _ hcall)
    exact hR.trans hfirst hrest

/-- What is true of every execution for any caller of some kind is true of a call of such a caller, and of a run of such calls. -/
theorem BuiltIn.related {R : Ledger → Ledger → Prop} {P : Address → Prop} (h : r.BuiltIn) (hR : Step.Chains R)
    (hs : ∀ caller, P caller → r.engine.Relates caller R) :
    (∀ caller calldata, P caller → R r.ledger (r.afterCall caller calldata).ledger) ∧
    (∀ calls : List (Address × List UInt8), (∀ call ∈ calls, P call.1) → R r.ledger (r.after calls).ledger) := by
  refine ⟨?_, ?_⟩
  · intro caller calldata hcaller
    exact h.related_afterCall hR (hs caller hcaller) calldata
  · intro calls hcalls
    refine chained_after hR calls h fun r' hb he _ call hcall => ?_
    exact hb.related_afterCall hR (he ▸ hs call.1 (hcalls call hcall)) call.2

/-- What each call keeps, a run of calls keeps. -/
theorem after_keeps {P : Router → Prop} (hP : ∀ r caller calldata, P r → P (r.afterCall caller calldata)) :
    ∀ (calls : List (Address × List UInt8)) {r : Router}, P r → P (r.after calls)
  | [], _, h => h
  | (caller, calldata) :: calls, _, h => after_keeps hP calls (hP _ caller calldata h)

end Router

/-! ## A small router -/

namespace Sample

/-- A market that lists tokens 10 and 11. -/
def market : Market :=
  ⟨0, .ofNat 6, ((∅ : Std.ExtTreeMap Address AssetTerms).insert (.ofNat 10) ⟨.ofWord 1, 8000, by decide⟩).insert (.ofNat 11)
    ⟨.ofWord 1, 8000, by decide⟩⟩

/-- The market, a pool that swaps the two tokens one for one, and a lender without a fee. -/
def engine : Engine where
  address := .ofNat 1
  venues := (∅ : VenueBook).insert 0 (.fixedRate
    ((∅ : Std.ExtTreeMap PoolKey RatePool).insert (.of (.ofNat 10) (.ofNat 11) 0) ⟨.ofNat 5, 1, 1, by decide, by decide⟩))
  markets := (∅ : MarketBook).insert 0 market
  lender := .reserve (.ofNat 2) ⟨0, 1, by decide⟩ .deducted

/-- Account 7 has given the market a hundred of token 10 and owes it thirty of token 11. -/
def ledger : Ledger :=
  ((((Ledger.empty.setBalance (.ofNat 10) (.ofNat 2) (.ofWord 1000)).setBalance (.ofNat 11) (.ofNat 5) (.ofWord 1000)).setBalance
    (.ofNat 10) (.ofNat 6) (.ofWord 100)).setPosition (.ofNat 6) (.ofNat 7) (.ofNat 10) ⟨.ofWord 100, 0⟩).setPosition
    (.ofNat 6) (.ofNat 7) (.ofNat 11) ⟨0, .ofWord 30⟩

/-- Closing the debt with fifty of the collateral. -/
def entry : TradeEntry := ⟨.marginClose, .exactIn⟩

def path : Path := ⟨[⟨.ofNat 10, 0, 0, 3, by decide⟩], .ofNat 11, none⟩

/-- A hop from this token over the pool. -/
def hop (token : Address) (action : Action) : Hop := ⟨token, 0, 0, action.code, by decide⟩

def calldata : List UInt8 :=
  TradeArgs.encode ⟨.ofWord 50, 0, path⟩ entry.operation

def router : Router :=
  { Router.new engine (.ofNat 8) ledger with
    registry := (Registry.new (.ofNat 8)).assign entry.operation (.trader (.ofNat 9)) }

theorem builtIn_router : router.BuiltIn :=
  ⟨⟨_, _, _, rfl⟩, (Registry.builtIn_new _).assign ⟨_, .inl rfl⟩⟩

theorem getElem?_markets (id : UInt8) : router.engine.markets[id]? = if id = 0 then some market else none := by
  show ((∅ : MarketBook).insert 0 market)[id]? = _
  rw [Std.ExtTreeMap.getElem?_insert]
  simp [eq_comm (a := id)]

/-- There is one market. -/
theorem eq_market_of_find {lender : UInt8} {m : Market} (h : engine.markets.find lender = .ok m) : m = market := by
  have hm : router.engine.markets[lender]? = some m := MarketBook.find_eq_ok.1 h
  rw [getElem?_markets] at hm
  split at hm
  · cases hm
    rfl
  · cases hm

/-- Fifty of token 10 are spent on token 11, for what the action says. -/
def fifty (a : Action) : Request :=
  ⟨.ofNat 7, ⟨[hop (.ofNat 10) a], .ofNat 11, none⟩, .ofWord 50, 0, .exactIn⟩

/-- The call closes the debt and is answered with what the swap has produced. -/
theorem exists_call : ∃ output r', Router.call (.ofNat 7) calldata router = .ok output r' := by
  have hc : Step.yields (Router.call (.ofNat 7) calldata) router
      (fun output _ => Amount.ofWord? output = some (.ofWord 50)) = true := by decide +kernel
  obtain ⟨output, r', hr, -⟩ := Step.exists_ok_of_yields hc
  exact ⟨output, r', hr⟩

end Sample

end MarginRouter
