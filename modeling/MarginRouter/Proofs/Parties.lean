import MarginRouter.Proofs.Router

/-!
# Whom a call may touch

An execution has parties: the caller, the pools on the path and, when it is leveraged, the lender and the selected market.
Nobody else's balances change, and no position but the caller's in that market, in the two tokens at the ends of the path. The
engine's own account is no party: what it takes in during an execution it gives away again. What holds of every call holds of
every run of calls.
-/

namespace MarginRouter

open Ledger Clearing Books

namespace Engine

variable {e : Engine} {r : Request} {c : Composition} {w : World} {settled : Settled} {s : Session Proceedings}
variable {address : Address} {rate : FeeRate} {feeMode : FeeMode}

/-- The accounts whose balances an execution may change. -/
inductive Party (e : Engine) (r : Request) (c : Composition) : Address → Prop where
  | caller : Party e r c r.caller
  | pool {k : Address} (h : e.venues.OnPath r.path r.direction k) : Party e r c k
  | lender (h : c.isLeveraged) : Party e r c e.lender.address
  | market {mode : Mode} {m : Market} (h : c.isLeveraged) (hmode : r.path.mode = .ok mode)
      (hm : e.markets[mode.lender]? = some m) : Party e r c m.address

/-- The positions that an execution may change, by market, user and asset. -/
inductive Writes (e : Engine) (r : Request) (c : Composition) : Address → Address → Address → Prop where
  | endpoint {mode : Mode} {m : Market} {asset : Address} (h : c.isLeveraged) (hmode : r.path.mode = .ok mode)
      (hm : e.markets[mode.lender]? = some m)
      (hasset : asset = (r.path.endpoints r.direction).1 ∨ asset = (r.path.endpoints r.direction).2) :
      Writes e r c m.address r.caller asset

theorem isLeveraged_of_writes {m u a : Address} (h : e.Writes r c m u a) : c.isLeveraged := by
  cases h with
  | endpoint h => exact h

/-- Whoever is no party to an execution that succeeds has the balances that they had. -/
theorem balance_of_settle (hl : e.lender = .reserve address rate feeMode)
    (h : e.settle r c (e.session w) = .ok settled s) {k : Address} (hk : ¬e.Party r c k) (t : Address) :
    s.books.ledger.balance t k = w.ledger.balance t k := by
  have hcaller : k ≠ r.caller := by
    rintro rfl
    exact hk .caller
  have hpool : ¬e.venues.OnPath r.path r.direction k := fun ho => hk (.pool ho)
  refine balance_eq_of_holds ?_
  cases hc : c.lending? with
  | none =>
    obtain ⟨fills, amount, b', hw, -, -, hpaid, -⟩ := settle_spot hc h
    rw [hpaid.holds, if_neg hcaller, Int.add_zero]
    exact walk_holds hw hpool t
  | some legs =>
    obtain ⟨funding, proceeds⟩ := legs
    have hlev : c.isLeveraged := by rw [Composition.isLeveraged, hc]; rfl
    obtain ⟨mode, market, start, terms, done, b₁, b₂, b₃, b₄, b', hmode, hm, -, -, hst, hpaid, -⟩ :=
      settle_leveraged hl hc h
    rw [hpaid.holds, if_neg hcaller, Int.add_zero]
    have hlender : k ≠ e.lender.address := by
      rintro rfl
      exact hk (.lender hlev)
    have hmarket : k ≠ market.address := by
      rintro rfl
      exact hk (.market hlev hmode hm)
    exact hst.holds hlender hmarket hpool t

/-- A position that an execution does not write is as it was. -/
theorem position_of_settle (hl : e.lender = .reserve address rate feeMode)
    (h : e.settle r c (e.session w) = .ok settled s) {m u a : Address} (hk : ¬e.Writes r c m u a) :
    s.books.ledger.position m u a = w.ledger.position m u a := by
  cases hc : c.lending? with
  | none =>
    obtain ⟨fills, amount, b', hw, -, -, hpaid, -⟩ := settle_spot hc h
    obtain ⟨paid, hm, -⟩ := walk_moved r.path.finalToken r.path.hops 0 hw
    rw [hpaid.position, hm.position]
  | some legs =>
    obtain ⟨funding, proceeds⟩ := legs
    have hlev : c.isLeveraged := by rw [Composition.isLeveraged, hc]; rfl
    obtain ⟨mode, market, start, terms, done, b₁, b₂, b₃, b₄, b', hmode, hm, -, -, hst, hpaid, -⟩ :=
      settle_leveraged hl hc h
    rw [hpaid.position]
    refine hst.position_frame ?_
    rintro ⟨rfl, rfl, ha⟩
    exact hk (.endpoint hlev hmode hm ha)

end Engine

namespace Router

variable {r : Router} {caller : Address} {calldata : List UInt8}

/-- The account is party to the call: the call is a trade, and the account is party to its execution. -/
def PartyTo (r : Router) (caller : Address) (calldata : List UInt8) (k : Address) : Prop :=
  ∃ entry args, r.Trades calldata entry args ∧ r.engine.Party (args.request caller entry.direction) entry.composition k

/-- The call may write the position: it is a trade whose execution may. -/
def MayWrite (r : Router) (caller : Address) (calldata : List UInt8) (m u a : Address) : Prop :=
  ∃ entry args, r.Trades calldata entry args ∧
    r.engine.Writes (args.request caller entry.direction) entry.composition m u a

theorem BuiltIn.balance_afterCall (hr : r.BuiltIn) {k : Address} (hk : ¬r.PartyTo caller calldata k) (t : Address) :
    (r.afterCall caller calldata).ledger.balance t k = r.ledger.balance t k := by
  obtain ⟨address, rate, feeMode, hl⟩ := hr.lender
  rcases hr.ledger_afterCall caller calldata with he | ⟨entry, args, settled, s, ht, hs, he⟩
  · rw [he]
  · rw [he]
    exact Engine.balance_of_settle hl hs (fun hp => hk ⟨entry, args, ht, hp⟩) t

theorem BuiltIn.position_afterCall (hr : r.BuiltIn) {m u a : Address} (hk : ¬r.MayWrite caller calldata m u a) :
    (r.afterCall caller calldata).ledger.position m u a = r.ledger.position m u a := by
  obtain ⟨address, rate, feeMode, hl⟩ := hr.lender
  rcases hr.ledger_afterCall caller calldata with he | ⟨entry, args, settled, s, ht, hs, he⟩
  · rw [he]
  · rw [he]
    exact Engine.position_of_settle hl hs fun hp => hk ⟨entry, args, ht, hp⟩

/-- Who is party to a call, and what it may write, does not depend on the committed ledger. -/
theorem partyTo_congr {r' : Router} (he : r'.engine = r.engine) (hr : r'.registry = r.registry) {k : Address} :
    r'.PartyTo caller calldata k ↔ r.PartyTo caller calldata k := by
  simp only [PartyTo, Trades, he, hr]

theorem mayWrite_congr {r' : Router} (he : r'.engine = r.engine) (hr : r'.registry = r.registry) {m u a : Address} :
    r'.MayWrite caller calldata m u a ↔ r.MayWrite caller calldata m u a := by
  simp only [MayWrite, Trades, he, hr]

/-- What no call of a run changes, the run does not change. -/
theorem BuiltIn.after_eq {α : Type} (f : Ledger → α) (calls : List (Address × List UInt8)) (hb : r.BuiltIn)
    (h : ∀ r' : Router, r'.BuiltIn → r'.engine = r.engine → r'.registry = r.registry →
      ∀ call ∈ calls, f (r'.afterCall call.1 call.2).ledger = f r'.ledger) : f (r.after calls).ledger = f r.ledger :=
  chained_after (R := fun l l' => f l' = f l) ⟨fun _ => rfl, fun h h' => h'.trans h⟩ calls hb h

/-- A call touches only what it may touch, whether it succeeds or fails: no balance but those of its parties, and no position
but those that it may write; a spot trade writes no position, and a query changes nothing. So whoever is party to no call of a
run keeps what they had, and a position that no call of a run may write stays as it was. -/
theorem touches_only (hr : r.BuiltIn) :
    (∀ caller calldata k, ¬r.PartyTo caller calldata k →
      ∀ t, (r.afterCall caller calldata).ledger.balance t k = r.ledger.balance t k) ∧
    (∀ caller calldata m u a, ¬r.MayWrite caller calldata m u a →
      (r.afterCall caller calldata).ledger.position m u a = r.ledger.position m u a) ∧
    (∀ caller calldata entry args, r.Trades calldata entry args → entry.composition = .spot →
      ∀ m u a, (r.afterCall caller calldata).ledger.position m u a = r.ledger.position m u a) ∧
    (∀ caller calldata, r.Asks calldata → (r.afterCall caller calldata).ledger = r.ledger) ∧
    (∀ calls k, (∀ call ∈ calls, ¬r.PartyTo call.1 call.2 k) →
      ∀ t, (r.after calls).ledger.balance t k = r.ledger.balance t k) ∧
    (∀ calls m u a, (∀ call ∈ calls, ¬r.MayWrite call.1 call.2 m u a) →
      (r.after calls).ledger.position m u a = r.ledger.position m u a) := by
  refine ⟨?_, ?_, ?_, ?_, ?_, ?_⟩
  · intro caller calldata k hk t
    exact hr.balance_afterCall hk t
  · intro caller calldata m u a hk
    exact hr.position_afterCall hk
  · intro caller calldata entry args ht hspot m u a
    refine hr.position_afterCall ?_
    rintro ⟨entry', args', ht', hw⟩
    obtain ⟨rfl, rfl⟩ := ht.unique ht'
    have hlev := Engine.isLeveraged_of_writes hw
    rw [hspot] at hlev
    cases hlev
  · intro caller calldata ha
    exact ha.ledger_afterCall caller
  · intro calls k hk t
    refine BuiltIn.after_eq (fun l => l.balance t k) calls hr fun r' hb he hreg call hcall => ?_
    exact hb.balance_afterCall (mt (partyTo_congr he hreg).1 (hk call hcall)) t
  · intro calls m u a hk
    refine BuiltIn.after_eq (fun l => l.position m u a) calls hr fun r' hb he hreg call hcall => ?_
    exact hb.position_afterCall (mt (mayWrite_congr he hreg).1 (hk call hcall))

end Router

namespace Sample

/-- A router with one operation. -/
def single (operation : OperationId) (m : Module) : Router :=
  { Router.new engine (.ofNat 8) ledger with registry := (Registry.new (.ofNat 8)).assign operation m }

theorem builtIn_single (operation : OperationId) {m : Module} (hm : m.BuiltIn) : (single operation m).BuiltIn :=
  ⟨⟨_, _, _, rfl⟩, (Registry.builtIn_new _).assign hm⟩

/-- A spot trade of fifty of token 10. -/
def spotArgs : TradeArgs :=
  ⟨.ofWord 50, 0, ⟨[hop (.ofNat 10) .swapExactIn], .ofNat 11, none⟩⟩

theorem trades_close : router.Trades calldata entry ⟨.ofWord 50, 0, path⟩ := by
  refine ⟨entry.operation, .ofNat 9, ?_, Registry.resolve_assign_new _ _ _, ?_, ?_⟩
  · decide +kernel
  · decide +kernel
  · exact Attempt.ok_of_toOption (by decide +kernel)

theorem trades_spot : (single (TradeEntry.operation ⟨.spot, .exactIn⟩) (.trader (.ofNat 9))).Trades
    (spotArgs.encode (TradeEntry.operation ⟨.spot, .exactIn⟩)) ⟨.spot, .exactIn⟩ spotArgs := by
  refine ⟨TradeEntry.operation ⟨.spot, .exactIn⟩, .ofNat 9, ?_, Registry.resolve_assign_new _ _ _, ?_, ?_⟩
  · decide +kernel
  · decide +kernel
  · exact Attempt.ok_of_toOption (by decide +kernel)

theorem asks_balance : (single Query.balanceOf.operation (.lens (.ofNat 9))).Asks
    (QueryArgs.encode ⟨.ofNat 10, .ofNat 5, none⟩ Query.balanceOf.operation) := by
  refine ⟨Query.balanceOf.operation, .ofNat 9, ?_, Registry.resolve_assign_new _ _ _⟩
  decide +kernel

/-- Account 12 has nothing to do with the closing of the position. -/
theorem not_partyTo_close : ¬router.PartyTo (.ofNat 7) calldata (.ofNat 12) := by
  rintro ⟨entry', args', ht, hp⟩
  obtain ⟨rfl, rfl⟩ := trades_close.unique ht
  generalize hk : Address.ofNat 12 = k at hp
  cases hp with
  | caller => exact absurd hk (by decide)
  | pool ho =>
    subst hk
    exact absurd ho (by decide +kernel)
  | lender _ => exact absurd hk (by decide)
  | market _ hmode hm =>
    cases hmode
    rw [getElem?_markets] at hm
    cases hm
    exact absurd hk (by decide)

theorem not_mayWrite_close (m a : Address) : ¬router.MayWrite (.ofNat 7) calldata m (.ofNat 12) a := by
  rintro ⟨entry', args', ht, hw⟩
  generalize hu : Address.ofNat 12 = u at hw
  cases hw with
  | endpoint => exact absurd (show Address.ofNat 12 = .ofNat 7 from hu) (by decide)

end Sample

/-- `touches_only` at the closing of a position, at a spot trade, at a query and at closing again and again: account 12 has
nothing to do with the closing, and the pool, whose balance it changes, is party to it. -/
theorem Router.touches_only_close :
    (¬Sample.router.PartyTo (.ofNat 7) Sample.calldata (.ofNat 12) ∧
      ∀ t, (Sample.router.afterCall (.ofNat 7) Sample.calldata).ledger.balance t (.ofNat 12) =
        Sample.router.ledger.balance t (.ofNat 12)) ∧
    Sample.router.PartyTo (.ofNat 7) Sample.calldata (.ofNat 5) ∧
    (∀ m a, (Sample.router.afterCall (.ofNat 7) Sample.calldata).ledger.position m (.ofNat 12) a =
      Sample.router.ledger.position m (.ofNat 12) a) ∧
    (∀ m u a, ((Sample.single (TradeEntry.operation ⟨.spot, .exactIn⟩) (.trader (.ofNat 9))).afterCall (.ofNat 2)
      (Sample.spotArgs.encode (TradeEntry.operation ⟨.spot, .exactIn⟩))).ledger.position m u a =
        Sample.ledger.position m u a) ∧
    ((Sample.single Query.balanceOf.operation (.lens (.ofNat 9))).afterCall (.ofNat 7)
      (QueryArgs.encode ⟨.ofNat 10, .ofNat 5, none⟩ Query.balanceOf.operation)).ledger = Sample.ledger ∧
    ∀ n t, (Sample.router.after (List.replicate n (.ofNat 7, Sample.calldata))).ledger.balance t (.ofNat 12) =
      Sample.router.ledger.balance t (.ofNat 12) := by
  obtain ⟨hbalance, hposition, -, -, hrun, -⟩ := Router.touches_only Sample.builtIn_router
  refine ⟨⟨Sample.not_partyTo_close, hbalance _ _ _ Sample.not_partyTo_close⟩, ?_, ?_, ?_, ?_, ?_⟩
  · by_contra hk
    have hchanged : (Sample.router.afterCall (.ofNat 7) Sample.calldata).ledger.balance (.ofNat 11) (.ofNat 5) ≠
        Sample.router.ledger.balance (.ofNat 11) (.ofNat 5) := by decide +kernel
    exact hchanged (hbalance _ _ _ hk _)
  · intro m a
    exact hposition _ _ _ _ _ (Sample.not_mayWrite_close m a)
  · exact (Router.touches_only (Sample.builtIn_single _ ⟨_, .inl rfl⟩)).2.2.1 _ _ _ _ Sample.trades_spot rfl
  · exact (Router.touches_only (Sample.builtIn_single _ ⟨_, .inr rfl⟩)).2.2.2.1 _ _ Sample.asks_balance
  · intro n t
    refine hrun _ _ (fun call hcall => ?_) t
    rw [List.eq_of_mem_replicate hcall]
    exact Sample.not_partyTo_close

end MarginRouter
