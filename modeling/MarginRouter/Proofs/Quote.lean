import MarginRouter.Proofs.Accounting

/-!
# Quotes are kept

Before an exact-out loan is taken, its size is found by a quote: the swaps are run on books of their own. When the loan has been
handed over they are run again, on the real books. All that a swap looks at is what the pool holds that serves it, so both runs
make the same fills as long as the lender is not itself a pool on the path; and what is then missing to pay the loan back is
what the swaps have taken and the fee.
-/

namespace MarginRouter

open Ledger Clearing Books

/-- A quote looks at nothing but what the pool holds that serves the swap. -/
theorem VenueBook.quote_congr {v : VenueBook} {l l' : Ledger} {s : Swap} (d : Direction) (amount : Amount)
    (h : ∀ pool, v.Serves s pool → ∀ t, l'.balance t pool = l.balance t pool) :
    v.quote l' s d amount = v.quote l s d amount := by
  have hr : v.resolve l' s = v.resolve l s := by
    unfold resolve
    cases hv : v[s.provider]? with
    | none => rfl
    | some venue =>
      dsimp only
      cases hp : venue.pool s with
      | error error => rfl
      | ok pool =>
        have hpool := h pool ⟨venue, hv, hp⟩
        show Except.ok (venue, pool, Reserves.mk (l'.balance s.tokenIn pool) (l'.balance s.tokenOut pool)) = _
        rw [hpool, hpool]
        rfl
  unfold quote
  rw [hr]

namespace Engine

variable {v : VenueBook} {d : Direction}

/-- Two walks along the same legs from the same amount make the same fills, if the pools that serve these legs hold the same in
both books. The induction is on the legs: the same fill pays the same to every pool, so the pools hold the same after it. -/
theorem walk_congr :
    ∀ {legs : List Leg} {cursor last last' : Amount} {fills fills' : List Fill} {b b' c c' : Books},
      (∀ leg ∈ legs, ∀ pool, v.Serves (leg.swap d) pool → ∀ t, c.ledger.holds t pool = b.ledger.holds t pool) →
      walk v d legs cursor b = .ok (fills, last) b' → walk v d legs cursor c = .ok (fills', last') c' →
      fills' = fills ∧ last' = last
  | [], cursor, last, last', fills, fills', b, b', c, c', _, hb, hc => by
    obtain ⟨eb, -⟩ := Step.pure_eq_ok.1 hb
    obtain ⟨ec, -⟩ := Step.pure_eq_ok.1 hc
    cases eb
    cases ec
    exact ⟨rfl, rfl⟩
  | leg :: legs, cursor, last, last', fills, fills', b, b', c, c', h, hb, hc => by
    obtain ⟨f, rest, b₁, hf, hrest, rfl⟩ := walk_cons_eq_ok hb
    obtain ⟨f', rest', c₁, hf', hrest', rfl⟩ := walk_cons_eq_ok hc
    obtain ⟨hq, hm⟩ := VenueBook.swap_eq_ok hf
    obtain ⟨hq', hm'⟩ := VenueBook.swap_eq_ok hf'
    rw [VenueBook.quote_congr d cursor fun pool hs t => balance_eq_of_holds (h leg List.mem_cons_self pool hs t)] at hq'
    obtain rfl := Except.ok.inj (hq.symm.trans hq')
    have hnext : ∀ leg' ∈ legs, ∀ pool, v.Serves (leg'.swap d) pool →
        ∀ t, c₁.ledger.holds t pool = b₁.ledger.holds t pool := by
      intro leg' hleg pool hs t
      rw [hm.holds, hm'.holds, h leg' (List.mem_cons_of_mem _ hleg) pool hs t]
    obtain ⟨rfl, rfl⟩ := walk_congr hnext hrest hrest'
    exact ⟨rfl, rfl⟩

variable {e : Engine} {r : Request} {funding : Funding} {proceeds : Proceeds}

/-- A quote is a walk on books of its own. -/
theorem quote_eq_ok {l : Ledger} {p : Path} {amount last : Amount} {fills : List Fill} :
    e.quote l p d amount = .ok (fills, last) ↔
      ∃ b, walk e.venues d p.legs amount ⟨l, .new e.address⟩ = .ok (fills, last) b :=
  Step.outcome_fst_eq_ok

/-- An exact-out loan is sized for the input that the swaps are quoted to need. -/
theorem loanTerms_exactOut {l : Ledger} {start : Amount} {terms : LoanTerms} (hd : r.direction = .exactOut)
    (h : e.loanTerms l r start = .ok terms) :
    ∃ fills required, e.quote l r.path .exactOut start = .ok (fills, required) ∧
      e.lender.rate.sizeForInput required e.lender.mode = .ok terms := by
  obtain ⟨-, ⟨hin, -⟩ | ⟨-, hquoted⟩⟩ := loanTerms_cases h
  · rw [hd] at hin
    cases hin
  · exact hquoted

/-- The swaps made with the loan are those that were quoted, unless the lender is itself a pool on the path. -/
theorem Underway.as_quoted {market : Market} {terms : LoanTerms} {start last : Amount} {done : Proceedings} {fills : List Fill}
    {b b₁ b₂ b₃ b₄ : Books} (h : e.Underway r market funding proceeds terms start done b b₁ b₂ b₃ b₄)
    (hd : r.direction = .exactOut) (hpool : ¬e.venues.OnPath r.path .exactOut e.lender.address)
    (hq : e.quote b.ledger r.path .exactOut start = .ok (fills, last)) : done.fills = fills ∧ done.swapped = last := by
  obtain ⟨b₀, hq⟩ := quote_eq_ok.1 hq
  have hw := h.walked
  rw [hd] at hw
  refine walk_congr (fun leg hleg pool hs t => ?_) hq hw
  have hne : pool ≠ e.lender.address := by
    rintro rfl
    exact hpool ⟨leg, hleg, hs⟩
  rw [h.lent.holds, payment_of_ne hne, Int.add_zero]

/-- A quote before the loan is what really happens. A leveraged exact-out execution that succeeds, of a path whose ends differ
and on which the lender is no pool, has been quoted for its target on the state before it: the swaps are exactly those quoted,
the loan is sized for the input quoted and delivers at least that, and what is settled, as debt or out of the collateral, is
exactly the input quoted and the fee. -/
theorem exactOut_as_quoted {address : Address} {rate : FeeRate} {feeMode : FeeMode} {w w' : World} {settled : Settled}
    (hl : e.lender = .reserve address rate feeMode) (h : e.execute r w = .ok settled w')
    (hlend : settled.composition.lending? = some (funding, proceeds)) (hd : r.direction = .exactOut)
    (hne : (r.path.endpoints .exactOut).1 ≠ (r.path.endpoints .exactOut).2)
    (hpool : ¬e.venues.OnPath r.path .exactOut address) :
    ∃ mode market loan required, r.path.mode = .ok mode ∧ e.markets.find mode.lender = .ok market ∧
      settled.loan = some loan ∧
      e.quote w.ledger r.path .exactOut (target r mode market w.ledger) = .ok (settled.fills, required) ∧
      rate.sizeForInput required feeMode = .ok loan.terms ∧ required ≤ loan.terms.delivered ∧
      settled.amount.toNat = required.toNat + loan.terms.fee.toNat ∧
      funding.Takes settled.amount (market.position w.ledger r.caller (r.path.endpoints .exactOut).1)
        (market.position w'.ledger r.caller (r.path.endpoints .exactOut).1) := by
  obtain ⟨c, s, -, hs, rfl⟩ := execute_eq_ok h
  rw [composition_of_settle hs] at hlend
  obtain ⟨mode, market, start, terms, done, b₁, b₂, b₃, b₄, b', hmode, hm, hstart, hterms, hst, hpaid, rfl⟩ :=
    settle_leveraged hl hlend hs
  obtain rfl := startAmount_eq_ok hd hstart
  obtain ⟨fills, required, hq, hsize⟩ := loanTerms_exactOut hd hterms
  have hpool' : ¬e.venues.OnPath r.path .exactOut e.lender.address := by
    rw [hl]
    exact hpool
  obtain ⟨rfl, rfl⟩ := hst.toUnderway.as_quoted hd hpool' hq
  rw [hl] at hsize
  have hsize : rate.sizeForInput done.swapped feeMode = .ok terms := hsize
  obtain ⟨hexact, hinput⟩ := FeeRate.sizeForInput_eq_ok hsize
  have howed := (FeeRate.terms_exact hexact).2
  obtain ⟨hdelivered, hgross⟩ := FeeRate.terms_eq_ok hexact
  have hpos : terms.owed ≠ 0 := FeeRate.owed_ne_zero hexact (loanTerms_eq_ok hterms).2
  have hne' : (r.path.endpoints r.direction).1 ≠ (r.path.endpoints r.direction).2 := by
    rw [hd]
    exact hne
  obtain ⟨hfunded, -⟩ := hst.flat_but_surplus (fun t => net_new e.address t) (proper_new e.address) hne'
    (Nat.le_trans hdelivered hgross) hpos
  obtain ⟨-, htakes, -⟩ := hst.positions hne'
  simp only [spent, hd, Direction.pick] at hfunded htakes ⊢
  refine ⟨mode, market, _, done.swapped, hmode, MarketBook.find_eq_ok.2 hm, rfl, hq, hsize, hinput, ?_, ?_⟩
  · show done.funded.toNat = done.swapped.toNat + terms.fee.toNat
    have hle := Amount.le_def.1 hinput
    omega
  · simp only [Market.position, hpaid.position]
    exact htakes

end Engine

namespace Sample

/-- The small engine with a lender that keeps a tenth of each loan. -/
def chargingEngine : Engine :=
  { engine with lender := .reserve (.ofNat 2) ⟨1, 10, by decide⟩ .deducted }

theorem address_of_find {lender : UInt8} {m : Market} (h : chargingEngine.markets.find lender = .ok m) :
    m.address = .ofNat 6 := by
  rw [eq_market_of_find h]
  rfl

/-- An execution that is seen to settle what the action names uses the market as this composition does. -/
theorem exists_settled {r : Request} {w : World} {a : Action} {funding : Funding} {proceeds : Proceeds}
    (hlending : (Composition.ofAction a).lending? = some (funding, proceeds))
    (hruns : Step.yields (chargingEngine.execute r) w (fun settled _ => settled.composition = .ofAction a) = true) :
    ∃ settled w', chargingEngine.execute r w = .ok settled w' ∧ settled.composition.lending? = some (funding, proceeds) := by
  obtain ⟨settled, w', hs, hcomp⟩ := Step.exists_ok_of_yields hruns
  refine ⟨settled, w', hs, ?_⟩
  rw [of_decide_eq_true hcomp, hlending]

/-- Thirty of token 11 for fifty of token 10 at most, for what the action says; the path is written from token 11. -/
def thirtyOut (a : Action) : Request :=
  ⟨.ofNat 7, ⟨[hop (.ofNat 11) a], .ofNat 10, none⟩, .ofWord 30, .ofWord 50, .exactOut⟩

/-- Closing the whole debt of thirty, with fifty of the collateral at most. -/
def closeExactOut : Request :=
  thirtyOut .marginClose

/-- Thirty of token 11 are had as they were quoted, with a loan on which a fee is charged, and funded in this way. -/
def AsQuoted (a : Action) (funding : Funding) (proceeds : Proceeds) : Prop :=
  ∃ settled w' loan required,
    chargingEngine.execute (thirtyOut a) ⟨ledger, .new (.ofNat 1)⟩ = .ok settled w' ∧
      settled.composition.lending? = some (funding, proceeds) ∧
      ((thirtyOut a).path.endpoints .exactOut).1 ≠ ((thirtyOut a).path.endpoints .exactOut).2 ∧
      ¬chargingEngine.venues.OnPath (thirtyOut a).path .exactOut (.ofNat 2) ∧
      settled.loan = some loan ∧ required ≤ loan.terms.delivered ∧
      settled.amount.toNat = required.toNat + loan.terms.fee.toNat ∧
      funding.Takes settled.amount (market.position ledger (.ofNat 7) (.ofNat 10)) (market.position w'.ledger (.ofNat 7) (.ofNat 10))

end Sample

/-- `Engine.exactOut_as_quoted` where a debt of thirty is closed out of the collateral, and where a position of thirty is opened with
borrowed money. -/
theorem Engine.exactOut_as_quoted_thirty :
    Sample.AsQuoted .marginClose .withdraw .repay ∧ Sample.AsQuoted .marginOpen .borrow .supply := by
  have hquoted {a : Action} {funding : Funding} {proceeds : Proceeds}
      (hlending : (Composition.ofAction a).lending? = some (funding, proceeds)) : Sample.AsQuoted a funding proceeds := by
    have hruns : Step.yields (Sample.chargingEngine.execute (Sample.thirtyOut a)) ⟨Sample.ledger, .new (.ofNat 1)⟩
        (fun settled _ => settled.composition = .ofAction a) = true := by
      cases a with
      | swapExactIn | swapExactOut => cases hlending
      | marginOpen | marginClose | collateralSwap | debtSwap => decide +kernel
    obtain ⟨settled, w', hs, hlend⟩ := Sample.exists_settled hlending hruns
    have hne : ((Sample.thirtyOut a).path.endpoints .exactOut).1 ≠ ((Sample.thirtyOut a).path.endpoints .exactOut).2 :=
      (by decide : Address.ofNat 10 ≠ .ofNat 11)
    have hpool : ¬Sample.chargingEngine.venues.OnPath (Sample.thirtyOut a).path .exactOut (.ofNat 2) := by
      cases a <;> decide +kernel
    obtain ⟨mode, market, loan, required, hmode, hm, hloan, -, -, hdelivered, hamount, htakes⟩ :=
      Engine.exactOut_as_quoted rfl hs hlend rfl hne hpool
    obtain rfl := Sample.eq_market_of_find hm
    exact ⟨settled, w', loan, required, hs, hlend, hne, hpool, hloan, hdelivered, hamount, htakes⟩
  exact ⟨hquoted rfl, hquoted rfl⟩

end MarginRouter
