import MarginRouter.Proofs.Quote

/-!
# Funding within the budget

The loan of an exact-in execution is the largest that its budget pays back, and the swaps spend all of it. When the ends of the
path differ, nothing of the token of the loan is then held any more, so the market hands out exactly what is owed. This is within
the budget, and of the budget it leaves nothing when the lender keeps its fee back, and one unit at most when it adds the fee.
-/

namespace MarginRouter

open Ledger Clearing Books

namespace Engine

variable {e : Engine} {r : Request} {market : Market} {funding : Funding} {proceeds : Proceeds}

/-- What an exact-in execution may spend: the amount of the request, or all of the caller's collateral in max mode. -/
def budget (r : Request) (mode : Mode) (market : Market) (l : Ledger) : Amount :=
  if mode.isMax then market.collateralOf l r.caller (r.path.endpoints r.direction).1 else r.amount

/-- An exact-in execution starts from its budget; in max mode its funding is out of the collateral. -/
theorem startAmount_exactIn {l : Ledger} {c : Composition} {mode : Mode} {start : Amount} (hd : r.direction = .exactIn)
    (h : startAmount l r c mode market funding proceeds = .ok start) :
    start = budget r mode market l ∧ (mode.isMax → funding = .withdraw) := by
  unfold budget
  rw [hd]
  obtain ⟨-, ⟨hm, hs⟩ | ⟨hm, ⟨-, hfunding, hs⟩ | ⟨hout, -⟩⟩⟩ := startAmount_cases h
  · refine ⟨?_, fun hmax => ?_⟩
    · rw [hm, hs]
      rfl
    · rw [hm] at hmax
      cases hmax
  · rw [if_pos hm]
    exact ⟨hs, fun _ => hfunding⟩
  · rw [hd] at hout
    cases hout

/-- An exact-in loan is sized for the amount that the execution starts from. -/
theorem loanTerms_exactIn {l : Ledger} {start : Amount} {terms : LoanTerms} (hd : r.direction = .exactIn)
    (h : e.loanTerms l r start = .ok terms) : e.lender.rate.sizeForBudget start e.lender.mode = .ok terms := by
  obtain ⟨-, ⟨-, hs⟩ | ⟨hout, -⟩⟩ := loanTerms_cases h
  · exact hs
  · rw [hd] at hout
    cases hout

/-- Funding fits the budget, and wastes one unit of it at most. A leveraged exact-in execution that succeeds, of a path whose ends
differ, has taken a loan that is sized for its budget, and the market has handed out, as debt or out of the collateral, exactly
what is owed for it. This is all of the budget if the lender keeps its fee back, and lacks one unit at most if the fee is added.
So in max mode, where the budget is all of the collateral, no more than that unit of the collateral is left. -/
theorem exactIn_funds_within_budget {address : Address} {rate : FeeRate} {feeMode : FeeMode} {w w' : World} {settled : Settled}
    (hl : e.lender = .reserve address rate feeMode) (h : e.execute r w = .ok settled w')
    (hlend : settled.composition.lending? = some (funding, proceeds)) (hd : r.direction = .exactIn)
    (hne : (r.path.endpoints .exactIn).1 ≠ (r.path.endpoints .exactIn).2) :
    ∃ mode market loan, r.path.mode = .ok mode ∧ e.markets.find mode.lender = .ok market ∧ settled.loan = some loan ∧
      rate.sizeForBudget (budget r mode market w.ledger) feeMode = .ok loan.terms ∧
      funding.Takes loan.terms.owed (market.position w.ledger r.caller (r.path.endpoints .exactIn).1)
        (market.position w'.ledger r.caller (r.path.endpoints .exactIn).1) ∧
      loan.terms.owed ≤ budget r mode market w.ledger ∧
      (feeMode = .deducted → loan.terms.owed = budget r mode market w.ledger) ∧
      (feeMode = .surcharge → (budget r mode market w.ledger).toNat - 1 ≤ loan.terms.owed.toNat) ∧
      (mode.isMax → funding = .withdraw ∧
        (market.collateralOf w'.ledger r.caller (r.path.endpoints .exactIn).1).toNat ≤ FeeRate.slack feeMode) := by
  obtain ⟨c, s, -, hs, rfl⟩ := execute_eq_ok h
  rw [composition_of_settle hs] at hlend
  obtain ⟨mode, market, start, terms, done, b₁, b₂, b₃, b₄, b', hmode, hm, hstart, hterms, hst, hpaid, rfl⟩ :=
    settle_leveraged hl hlend hs
  obtain ⟨rfl, hwithdraw⟩ := startAmount_exactIn hd hstart
  have hsize := loanTerms_exactIn hd hterms
  rw [hl] at hsize
  obtain ⟨hdelivered, hpos⟩ := owed_of_loanTerms hterms
  have hne' : (r.path.endpoints r.direction).1 ≠ (r.path.endpoints r.direction).2 := by
    rw [hd]
    exact hne
  obtain ⟨hfunded, -⟩ := hst.flat_but_surplus (fun t => net_new e.address t) (proper_new e.address) hne'
    hdelivered hpos
  obtain ⟨-, htakes, -⟩ := hst.positions hne'
  rw [funded_eq_pick hfunded] at htakes
  have hwithin : terms.owed ≤ budget r mode market w.ledger := FeeRate.owed_le_of_sizeForBudget hsize
  have hleft : (budget r mode market w.ledger).toNat ≤ terms.owed.toNat + FeeRate.slack feeMode :=
    FeeRate.budget_le_of_sizeForBudget hsize
  have htakes' : funding.Takes terms.owed (market.position w.ledger r.caller (r.path.endpoints .exactIn).1)
      (market.position s.books.ledger r.caller (r.path.endpoints .exactIn).1) := by
    simp only [hd, Direction.pick] at htakes
    simp only [Market.position, hpaid.position]
    exact htakes
  refine ⟨mode, market, _, hmode, MarketBook.find_eq_ok.2 hm, rfl, hsize, htakes', hwithin, ?_, ?_, fun hmax => ?_⟩
  · rintro rfl
    exact Amount.ext (Nat.le_antisymm (Amount.le_def.1 hwithin) hleft)
  · rintro rfl
    exact Nat.sub_le_iff_le_add.2 hleft
  · obtain rfl := hwithdraw hmax
    refine ⟨rfl, ?_⟩
    -- the collateral was the budget
    rw [budget, if_pos hmax, hd] at hleft
    have hcollateral := htakes'.1
    simp only [Market.collateralOf] at hleft ⊢
    omega

end Engine

namespace Sample

/-- The small engine with a lender that adds three quarters to each loan. -/
def dearEngine : Engine :=
  { engine with lender := .reserve (.ofNat 2) ⟨3, 4, by decide⟩ .surcharge }

/-- Closing the debt with all of the collateral. -/
def closeAll : Request :=
  ⟨.ofNat 7, ⟨[hop (.ofNat 10) .marginClose], .ofNat 11, some 1⟩, 0, 0, .exactIn⟩

end Sample

/-- `Engine.exactIn_funds_within_budget` at a hundred of collateral that is to be spent whole: no loan is paid back with a hundred at
this rate, but one is with ninety-nine. And at a position that is opened with a budget of fifty, all of which is borrowed. -/
theorem Engine.exactIn_funds_within_budget_all :
    (∃ settled w' market loan,
      Sample.dearEngine.execute Sample.closeAll ⟨Sample.ledger, .new (.ofNat 1)⟩ = .ok settled w' ∧
        settled.composition.lending? = some (.withdraw, .repay) ∧
        (Sample.closeAll.path.endpoints .exactIn).1 ≠ (Sample.closeAll.path.endpoints .exactIn).2 ∧
        Sample.dearEngine.markets.find 0 = .ok market ∧ settled.loan = some loan ∧ loan.terms.owed = .ofWord 99 ∧
        Funding.withdraw.Takes loan.terms.owed (market.position Sample.ledger (.ofNat 7) (.ofNat 10))
          (market.position w'.ledger (.ofNat 7) (.ofNat 10)) ∧
        (market.collateralOf w'.ledger (.ofNat 7) (.ofNat 10)).toNat ≤ 1) ∧
    ∃ settled w' market loan,
      Sample.dearEngine.execute (Sample.fifty .marginOpen) ⟨Sample.ledger, .new (.ofNat 1)⟩ = .ok settled w' ∧
        settled.composition.lending? = some (.borrow, .supply) ∧
        ((Sample.fifty .marginOpen).path.endpoints .exactIn).1 ≠ ((Sample.fifty .marginOpen).path.endpoints .exactIn).2 ∧
        Sample.dearEngine.markets.find 0 = .ok market ∧ settled.loan = some loan ∧ loan.terms.owed = .ofWord 50 ∧
        Funding.borrow.Takes loan.terms.owed (market.position Sample.ledger (.ofNat 7) (.ofNat 10))
          (market.position w'.ledger (.ofNat 7) (.ofNat 10)) := by
  constructor
  · have hc : Step.yields (Sample.dearEngine.execute Sample.closeAll) ⟨Sample.ledger, .new (.ofNat 1)⟩
        (fun settled _ => settled.composition = .marginClose ∧ settled.loan.all fun loan => loan.terms.owed = .ofWord 99) =
          true := by decide +kernel
    obtain ⟨settled, w', hs, hyields⟩ := Step.exists_ok_of_yields hc
    obtain ⟨hcomp, hall⟩ := of_decide_eq_true hyields
    have hlend : settled.composition.lending? = some (.withdraw, .repay) := by
      rw [hcomp]
      rfl
    have hne : (Sample.closeAll.path.endpoints .exactIn).1 ≠ (Sample.closeAll.path.endpoints .exactIn).2 := by decide
    obtain ⟨mode, market, loan, hmode, hm, hloan, -, htakes, -, -, -, hmax⟩ :=
      Engine.exactIn_funds_within_budget rfl hs hlend rfl hne
    cases hmode
    rw [hloan] at hall
    exact ⟨settled, w', market, loan, hs, hlend, hne, hm, hloan, of_decide_eq_true hall, htakes, (hmax rfl).2⟩
  · have hc : Step.yields (Sample.dearEngine.execute (Sample.fifty .marginOpen)) ⟨Sample.ledger, .new (.ofNat 1)⟩
        (fun settled _ => settled.composition = .marginOpen ∧ settled.loan.all fun loan => loan.terms.owed = .ofWord 50) =
          true := by decide +kernel
    obtain ⟨settled, w', hs, hyields⟩ := Step.exists_ok_of_yields hc
    obtain ⟨hcomp, hall⟩ := of_decide_eq_true hyields
    have hlend : settled.composition.lending? = some (.borrow, .supply) := by
      rw [hcomp]
      rfl
    have hne : ((Sample.fifty .marginOpen).path.endpoints .exactIn).1 ≠
        ((Sample.fifty .marginOpen).path.endpoints .exactIn).2 := by decide
    obtain ⟨mode, market, loan, hmode, hm, hloan, -, htakes, -⟩ :=
      Engine.exactIn_funds_within_budget rfl hs hlend rfl hne
    cases hmode
    rw [hloan] at hall
    exact ⟨settled, w', market, loan, hs, hlend, hne, hm, hloan, of_decide_eq_true hall, htakes⟩

end MarginRouter
