import MarginRouter.Proofs.Calldata
import MarginRouter.Proofs.FailedCalls
import MarginRouter.Proofs.Footprint
import MarginRouter.Proofs.PathQuotes
import MarginRouter.Proofs.Routing

/-!
# Spot calls that do not meet

Two spot calls of different callers, over different pools, have nothing to do with each other, even if they trade the same tokens.
In either order each is answered the same, and in the end the router is the same; so it is when one of them fails, or both.
-/

namespace MarginRouter

open Step (Agree)

/-- Writes for different accounts may be made in either order. -/
theorem Ledger.Alongside.eq {accounts others : Address → Prop} {m l l' k k' : Ledger} (hd : ∀ a, accounts a → ¬others a)
    (h : Alongside accounts m l' l k) (h' : Alongside others m l l' k') : k' = k := by
  have hbalances : k'.balances = k.balances := by
    refine Std.ExtTreeMap.ext_getElem? ?_
    rintro ⟨t, a⟩
    -- in either order an entry is written by the one step whose account it is, and from what it was at the start
    by_cases ha : accounts a
    · rw [h.same t a ha, h'.others' t a (hd a ha)]
    · rw [h.others' t a ha]
      by_cases ho : others a
      · exact h'.same t a ho
      · rw [h'.others' t a ho, h.others t a ha, h'.others t a ho]
  have hpositions : k'.positions = k.positions := by
    rw [h'.positions', h.positions, h.positions', h'.positions]
  exact eq_of_parts hbalances hpositions

/-- The entries for spot trades are found by their operations. -/
theorem TradeEntry.ofOperation?_spot (d : Direction) : ofOperation? (operation ⟨.spot, d⟩) = some ⟨.spot, d⟩ := by
  cases d <;> decide +kernel

namespace Router

variable {r : Router} {caller caller' : Address} {calldata calldata' : List UInt8}

/-- From two journals of the router, the same has been written to both, for these accounts alone, and as often committed. -/
def Alongside (r : Router) (accounts : Address → Prop) (j j' : Journal) (s s' : Router) : Prop :=
  ∃ k k' : Journal, s = { r with journal := k } ∧ s' = { r with journal := k' } ∧
    Ledger.Alongside accounts j.ledger j'.ledger k.ledger k'.ledger ∧
    ∃ n, k.committed = j.committed + n ∧ k'.committed = j'.committed + n

/-- The step reads and writes nothing but the balances of these accounts. -/
def Within {ε α : Type} (r : Router) (accounts : Address → Prop) (x : Step ε Router α) : Prop :=
  ∀ ⦃j j' : Journal⦄, Ledger.SameFor accounts j.ledger j'.ledger →
    Agree (r.Alongside accounts j j') Eq (x.outcome { r with journal := j }) (x.outcome { r with journal := j' })

namespace Within

variable {ε ε' α β : Type} {accounts others : Address → Prop} {x : Step ε Router α} {y : Step ε' Router β}

/-- What the step leaves of the router: another journal, with the entries of all other accounts as they were. -/
theorem leaves (hx : r.Within accounts x) :
    ∃ k : Journal, (x.outcome r).2 = { r with journal := k } ∧ Ledger.SameFor (fun a => ¬accounts a) r.ledger k.ledger := by
  obtain ⟨k, _, hk, -, hledger, -⟩ := (@hx r.journal r.journal fun _ _ _ => rfl).state
  exact ⟨k, hk, hledger.others⟩

/-- After a step for other accounts, the step is answered as without it. -/
theorem after (hx : r.Within accounts x) (hy : r.Within others y) (hd : ∀ a, accounts a → ¬others a) :
    ∃ k : Journal, (y.outcome r).2 = { r with journal := k } ∧
      Agree (r.Alongside accounts r.journal k) Eq (x.outcome r) (x.outcome (y.outcome r).2) := by
  obtain ⟨k, hk, hothers⟩ := hy.leaves
  refine ⟨k, hk, ?_⟩
  rw [hk]
  exact hx fun t a ha => hothers t a (hd a ha)

/-- Steps for different accounts may be made in either order. -/
theorem commute (hx : r.Within accounts x) (hy : r.Within others y) (hd : ∀ a, accounts a → ¬others a) :
    (x.outcome (y.outcome r).2).1 = (x.outcome r).1 ∧ (y.outcome (x.outcome r).2).1 = (y.outcome r).1 ∧
      (y.outcome (x.outcome r).2).2 = (x.outcome (y.outcome r).2).2 := by
  obtain ⟨ky, hky, hxy⟩ := hx.after hy hd
  obtain ⟨kx, hkx, hyx⟩ := hy.after hx fun a ho ha => hd a ha ho
  refine ⟨hxy.answer_eq, hyx.answer_eq, ?_⟩
  obtain ⟨k₁, k₂, hk₁, hk₂, hledger, n, hn₁, hn₂⟩ := hxy.state
  obtain ⟨k₃, k₄, hk₃, hk₄, hledger', n', hn₃, hn₄⟩ := hyx.state
  -- what each step leaves when it comes first is what the other one finds when it comes second
  obtain rfl : kx = k₁ := congrArg Router.journal (hkx.symm.trans hk₁)
  obtain rfl : ky = k₃ := congrArg Router.journal (hky.symm.trans hk₃)
  have hsame : k₄ = k₂ := by
    have hledgers : k₄.ledger = k₂.ledger := hledger.eq hd hledger'
    have hcommitted : k₄.committed = k₂.committed := by omega
    cases k₂
    cases k₄
    simp only at hledgers hcommitted
    rw [hledgers, hcommitted]
  rw [hk₂, hk₄, hsame]

end Within

/-- A pool at which a leg of the call's path is swapped, if the call is led to a trader and its arguments can be read. -/
def PoolOf (r : Router) (calldata : List UInt8) (k : Address) : Prop :=
  ∃ entry args, r.Trades calldata entry args ∧ r.engine.venues.OnPath args.path entry.direction k

/-- What becomes of the router is alongside when what becomes of the worlds is. -/
theorem adopt_alongside {accounts : Address → Prop} {j j' : Journal} {o o' : Except CallError (List UInt8) × World}
    (hj : Ledger.SameFor accounts j.ledger j'.ledger)
    (h : Agree (Engine.WorldAlongside accounts j.ledger j'.ledger r.desk) Eq o o') :
    Agree (r.Alongside accounts j j') Eq (Router.adopt { r with journal := j } o) (Router.adopt { r with journal := j' } o') := by
  cases h with
  | @ok _ _ w w' answer state =>
    refine .ok answer ⟨j.commit w.ledger, j'.commit w'.ledger, ?_, ?_, state.ledger, 1, rfl, rfl⟩
    · rw [state.desks.1]
    · rw [state.desks.2]
  | error state =>
    refine .error ⟨j, j', ?_, ?_, hj.alongside, 0, rfl, rfl⟩
    · rw [state.desks.1]
    · rw [state.desks.2]

/-- A spot call reads and writes nothing but the balances of its parties. -/
theorem call_within {d : Direction} (hmodules : r.registry.BuiltIn)
    (hspot : OperationId.ofCalldata? calldata = some (TradeEntry.operation ⟨.spot, d⟩)) (caller : Address) :
    r.Within (r.PartyTo caller calldata) (call caller calldata) := by
  intro j j' hj
  rcases routed r calldata with hnone | ⟨operation, m, ho, hm⟩
  · have hcall : ∀ j, (call caller calldata).outcome { r with journal := j } =
        (.error (.unrecognizedOperation (OperationId.ofCalldata? calldata)), { r with journal := j }) :=
      fun _ => call_unrouted hnone
    rw [hcall, hcall]
    exact .error ⟨j, j', rfl, rfl, hj.alongside, 0, rfl, rfl⟩
  · have hcall : ∀ j, (call caller calldata).outcome { r with journal := j } = Router.adopt { r with journal := j }
        ((m.invoke r.engine ⟨caller, operation, calldata.drop 4⟩).outcome ⟨j.ledger, r.desk⟩) :=
      fun _ => call_outcome ho hm
    rw [hcall, hcall]
    refine adopt_alongside hj ?_
    obtain rfl := Option.some.inj (ho.symm.trans hspot)
    obtain ⟨address, rfl | rfl⟩ := hmodules.resolve hm
    · rw [Module.invoke_trader]
      refine Engine.twin_trade_spot ⟨caller, _, calldata.drop 4⟩ (TradeEntry.ofOperation?_spot d) ?_ ⟨hj.alongside, rfl, rfl⟩
      intro args hargs k hk
      exact ⟨⟨.spot, d⟩, args, ⟨_, address, ho, hm, TradeEntry.ofOperation?_spot d, hargs⟩, hk⟩
    · rw [Module.invoke_lens]
      have hquery : Query.ofOperation? (TradeEntry.operation ⟨.spot, d⟩) = none := by
        refine List.find?_eq_none.2 ?_
        intro query _ he
        refine Config.Settings.operation_notMem_lens ⟨.spot, d⟩ address ?_
        rw [← of_decide_eq_true he]
        exact Config.Settings.operation_mem_lens query address
      unfold Engine.look
      simp only [hquery]
      exact .error ⟨hj.alongside, rfl, rfl⟩

/-- The parties to a spot call are the caller and the pools on its path. -/
theorem PartyTo.of_spot {d : Direction} {k : Address} (h : r.PartyTo caller calldata k)
    (hspot : OperationId.ofCalldata? calldata = some (TradeEntry.operation ⟨.spot, d⟩)) : k = caller ∨ r.PoolOf calldata k := by
  obtain ⟨entry, args, ht, hp⟩ := h
  have hread := ht
  obtain ⟨operation, trader, ho, -, hentry, -⟩ := hread
  obtain rfl := Option.some.inj (ho.symm.trans hspot)
  obtain rfl := Option.some.inj ((TradeEntry.ofOperation?_spot d).symm.trans hentry)
  cases hp with
  | caller => exact .inl rfl
  | pool hpool => exact .inr ⟨⟨.spot, d⟩, args, ht, hpool⟩
  | lender hlev => cases hlev
  | market hlev => cases hlev

/-- Independent spot calls commute. Two spot calls of different callers, on whose paths no pool is used by both and neither caller
is a pool of the other's path: in either order each of them gets the same output or error, and the router is left the same, with
its ledger, its count of commits and the nonce of its desk, whether they succeed or fail. -/
theorem spot_calls_commute {d d' : Direction} (hmodules : r.registry.BuiltIn)
    (hspot : OperationId.ofCalldata? calldata = some (TradeEntry.operation ⟨.spot, d⟩))
    (hspot' : OperationId.ofCalldata? calldata' = some (TradeEntry.operation ⟨.spot, d'⟩)) (hne : caller ≠ caller')
    (hpools : ∀ k, r.PoolOf calldata k → ¬r.PoolOf calldata' k) (hcaller : ¬r.PoolOf calldata' caller)
    (hcaller' : ¬r.PoolOf calldata caller') :
    ((call caller calldata).outcome (r.afterCall caller' calldata')).1 = ((call caller calldata).outcome r).1 ∧
    ((call caller' calldata').outcome (r.afterCall caller calldata)).1 = ((call caller' calldata').outcome r).1 ∧
    (r.afterCall caller calldata).afterCall caller' calldata' = (r.afterCall caller' calldata').afterCall caller calldata := by
  refine (call_within hmodules hspot caller).commute (call_within hmodules hspot' caller') ?_
  intro k hk hk'
  rcases hk.of_spot hspot with rfl | hk
  · rcases hk'.of_spot hspot' with rfl | hk'
    · exact hne rfl
    · exact hcaller hk'
  · rcases hk'.of_spot hspot' with rfl | hk'
    · exact hcaller' hk
    · exact hpools k hk hk'

end Router

namespace Sample

/-- The engine with two pools, with the trader for spot trades. Account 7 has a hundred of token 10, account 12 of token 11. -/
def twoPoolsRouter : Router :=
  { Router.new twoPools (.ofNat 8) ((twoPoolsLedger.setBalance (.ofNat 10) (.ofNat 7) (.ofWord 100)).setBalance
      (.ofNat 11) (.ofNat 12) (.ofWord 100)) with
    registry := (Registry.new (.ofNat 8)).assign (TradeEntry.operation ⟨.spot, .exactIn⟩) (.trader (.ofNat 9)) }

/-- A spot trade of fifty of token 11 at the second pool. -/
def secondArgs : TradeArgs :=
  ⟨.ofWord 50, 0, ⟨[secondHop], .ofNat 12, none⟩⟩

/-- The call data of a spot trade. -/
def spotCalldata (args : TradeArgs) : List UInt8 :=
  args.encode (TradeEntry.operation ⟨.spot, .exactIn⟩)

theorem trades_spotCalldata (args : TradeArgs) : twoPoolsRouter.Trades (spotCalldata args) ⟨.spot, .exactIn⟩ args :=
  ⟨_, .ofNat 9, args.ofCalldata?_encode _, Registry.resolve_assign_new _ _ _, TradeEntry.ofOperation?_spot .exactIn,
    args.decode_encode _⟩

/-- On a path of one leg there is one pool. -/
theorem pool_of_spotCalldata {args : TradeArgs} {leg : Leg} {pool k : Address} (hlegs : args.path.legs = [leg])
    (hpool : twoPools.venues.poolFor (leg.swap .exactIn) = some pool) (h : twoPoolsRouter.PoolOf (spotCalldata args) k) :
    k = pool := by
  obtain ⟨entry, args', ht, leg', hleg, hserves⟩ := h
  obtain ⟨rfl, rfl⟩ := (trades_spotCalldata args).unique ht
  rw [hlegs, List.mem_singleton] at hleg
  subst hleg
  exact Option.some.inj ((VenueBook.serves_iff.1 hserves).symm.trans hpool)

end Sample

/-- `spot_calls_commute` at two swaps of fifty, of token 10 into token 11 at one pool and of token 11 into token 12 at the other:
both succeed. Account 13 has no token 11, and its call fails in either order. -/
theorem Router.spot_calls_commute_two_pools :
    (Sample.twoPoolsRouter.afterCall (.ofNat 7) (Sample.spotCalldata Sample.spotArgs)).afterCall (.ofNat 12)
        (Sample.spotCalldata Sample.secondArgs) =
      (Sample.twoPoolsRouter.afterCall (.ofNat 12) (Sample.spotCalldata Sample.secondArgs)).afterCall (.ofNat 7)
        (Sample.spotCalldata Sample.spotArgs) ∧
    ((Sample.twoPoolsRouter.afterCall (.ofNat 7) (Sample.spotCalldata Sample.spotArgs)).afterCall (.ofNat 12)
      (Sample.spotCalldata Sample.secondArgs)).journal.committed = 2 ∧
    (Sample.twoPoolsRouter.afterCall (.ofNat 7) (Sample.spotCalldata Sample.spotArgs)).afterCall (.ofNat 13)
        (Sample.spotCalldata Sample.secondArgs) =
      (Sample.twoPoolsRouter.afterCall (.ofNat 13) (Sample.spotCalldata Sample.secondArgs)).afterCall (.ofNat 7)
        (Sample.spotCalldata Sample.spotArgs) ∧
    ((Sample.twoPoolsRouter.afterCall (.ofNat 7) (Sample.spotCalldata Sample.spotArgs)).afterCall (.ofNat 13)
      (Sample.spotCalldata Sample.secondArgs)).journal.committed = 1 := by
  have hmodules : Sample.twoPoolsRouter.registry.BuiltIn := (Registry.builtIn_new _).assign ⟨_, .inl rfl⟩
  have hfirst : ∀ k, Sample.twoPoolsRouter.PoolOf (Sample.spotCalldata Sample.spotArgs) k → k = .ofNat 5 := by
    intro k
    exact Sample.pool_of_spotCalldata rfl (by decide +kernel)
  have hsecond : ∀ k, Sample.twoPoolsRouter.PoolOf (Sample.spotCalldata Sample.secondArgs) k → k = .ofNat 4 := by
    intro k
    exact Sample.pool_of_spotCalldata rfl (by decide +kernel)
  have hcommute : ∀ caller : Address, .ofNat 7 ≠ caller → caller ≠ .ofNat 5 →
      (Sample.twoPoolsRouter.afterCall (.ofNat 7) (Sample.spotCalldata Sample.spotArgs)).afterCall caller
          (Sample.spotCalldata Sample.secondArgs) =
        (Sample.twoPoolsRouter.afterCall caller (Sample.spotCalldata Sample.secondArgs)).afterCall (.ofNat 7)
          (Sample.spotCalldata Sample.spotArgs) := by
    intro caller hne hpool
    refine (Router.spot_calls_commute hmodules (TradeArgs.ofCalldata?_encode _ _) (TradeArgs.ofCalldata?_encode _ _) hne
      ?_ ?_ ?_).2.2
    · intro k hk hk'
      exact absurd ((hfirst k hk).symm.trans (hsecond k hk')) (by decide)
    · intro hk
      exact absurd (hsecond _ hk) (by decide)
    · intro hk
      exact hpool (hfirst caller hk)
  exact ⟨hcommute _ (by decide) (by decide), by decide +kernel, hcommute _ (by decide) (by decide), by decide +kernel⟩

end MarginRouter
