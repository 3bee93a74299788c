import MarginRouter.Proofs.Parties
import MarginRouter.Proofs.Quote

/-!
# What the lender earns

The money of a loan goes from the lender over the engine's account to the clearing account, is spent by the swaps, and comes
back out of what the market hands over. Followed through all stages, the lender's balance has gone down by what was delivered
and up by what was owed, and the account of the engine has kept nothing.
-/

namespace MarginRouter

open Ledger Clearing Books

namespace Engine

variable {e : Engine} {r : Request} {w w' : World} {settled : Settled}

/-- The lender pays what it delivers and is paid what it is owed, if it is no pool on the path and not the market. -/
theorem Stages.holds_lender {market : Market} {funding : Funding} {proceeds : Proceeds} {terms : LoanTerms} {start : Amount}
    {done : Proceedings} {b b₁ b₂ b₃ b₄ b' : Books}
    (h : e.Stages r market funding proceeds terms start done b b₁ b₂ b₃ b₄ b') (hmarket : e.lender.address ≠ market.address)
    (hpool : ¬e.venues.OnPath r.path r.direction e.lender.address) (t : Address) :
    b'.ledger.holds t e.lender.address = b.ledger.holds t e.lender.address +
      if t = (r.path.endpoints r.direction).1 then (terms.owed.toNat : Int) - terms.delivered.toNat else 0 := by
  have h₁ := h.lent.holds t e.lender.address
  have h₄ := h.toUnderway.holds hmarket hpool t
  have h₅ := h.repaid.holds t e.lender.address
  rw [h₅, h₄, h₁]
  by_cases ht : t = (r.path.endpoints r.direction).1
  · simp only [payment, ht, and_self, if_true]
    omega
  · simp [payment, ht]

/-- Whoever is neither the caller nor a pool on the path has after a spot execution what they had. -/
theorem balance_of_spot {c : Composition} {s : Session Proceedings} (hc : c.lending? = none)
    (h : e.settle r c (e.session w) = .ok settled s) {k : Address} (hcaller : k ≠ r.caller)
    (hpool : ¬e.venues.OnPath r.path r.direction k) (t : Address) : s.books.ledger.balance t k = w.ledger.balance t k := by
  obtain ⟨fills, amount, b', hw, -, -, hpaid, -⟩ := settle_spot hc h
  refine balance_eq_of_holds ?_
  rw [hpaid.holds, if_neg hcaller, Int.add_zero]
  exact walk_holds hw hpool t

/-- The lender earns its fee and the engine keeps nothing. A leveraged execution that succeeds has taken a loan of the reserve
lender on its terms, in the token that goes into the path; the lender's balance in that token has grown by exactly the fee, and
in no other token has it changed, if the lender is neither the caller, nor the market, nor a pool on the path. Whoever is none of
these and not the lender, the engine's account among them, has in every token what it had; and so has, in a spot execution,
whoever is neither the caller nor a pool on the path. -/
theorem lender_earns_fee (h : e.execute r w = .ok settled w') :
    (∀ {address : Address} {rate : FeeRate} {feeMode : FeeMode}, e.lender = .reserve address rate feeMode →
      settled.composition.isLeveraged → ∃ mode market loan, r.path.mode = .ok mode ∧
        e.markets.find mode.lender = .ok market ∧ settled.loan = some loan ∧ loan.provider = address ∧
        loan.asset = (r.path.endpoints r.direction).1 ∧ rate.terms loan.terms.gross feeMode = .ok loan.terms ∧
        (address ≠ r.caller → address ≠ market.address → ¬e.venues.OnPath r.path r.direction address →
          ∀ t, (w'.ledger.balance t address).toNat =
            (w.ledger.balance t address).toNat + if t = loan.asset then loan.terms.fee.toNat else 0) ∧
        ∀ k, k ≠ address → k ≠ r.caller → k ≠ market.address → ¬e.venues.OnPath r.path r.direction k →
          ∀ t, w'.ledger.balance t k = w.ledger.balance t k) ∧
    (¬settled.composition.isLeveraged → ∀ k, k ≠ r.caller → ¬e.venues.OnPath r.path r.direction k →
      ∀ t, w'.ledger.balance t k = w.ledger.balance t k) := by
  obtain ⟨c, s, -, hs, rfl⟩ := execute_eq_ok h
  have hcomp := composition_of_settle hs
  rw [hcomp]
  refine ⟨fun {address rate feeMode} hl hlev => ?_, fun hspot k hcaller hpool t => ?_⟩
  · obtain ⟨⟨funding, proceeds⟩, hlend⟩ := Option.isSome_iff_exists.1 hlev
    obtain ⟨mode, market, start, terms, done, b₁, b₂, b₃, b₄, b', hmode, hm, -, hterms, hst, hpaid, rfl⟩ :=
      settle_leveraged hl hlend hs
    have hexact : rate.terms terms.gross feeMode = .ok terms := loanTerms_reserve hl hterms
    have hfee := (FeeRate.terms_exact hexact).2
    refine ⟨mode, market, _, hmode, MarketBook.find_eq_ok.2 hm, rfl, rfl, rfl, hexact, ?_, ?_⟩
    · intro hcaller hmarket hpool t
      have haddress : e.lender.address = address := by rw [hl]; rfl
      rw [← haddress] at hcaller hmarket hpool ⊢
      have hearned := hst.holds_lender hmarket hpool t
      have hsettled := hpaid.holds t e.lender.address
      rw [if_neg hcaller, Int.add_zero, hearned] at hsettled
      simp only [Ledger.holds] at hsettled
      show (s.books.ledger.balance t e.lender.address).toNat =
        (w.ledger.balance t e.lender.address).toNat + if t = (r.path.endpoints r.direction).1 then terms.fee.toNat else 0
      split_ifs at hsettled ⊢ <;> omega
    · intro k hlender hcaller hmarket hpool t
      refine balance_of_settle hl hs (fun hp => ?_) t
      cases hp with
      | caller => exact hcaller rfl
      | pool ho => exact hpool ho
      | lender _ => exact hlender (by rw [hl]; rfl)
      | market _ hmode' hm' =>
        obtain rfl := Except.ok.inj (hmode.symm.trans hmode')
        obtain rfl := Option.some.inj (hm.symm.trans hm')
        exact hmarket rfl
  · have hnone : c.lending? = none := Option.not_isSome_iff_eq_none.1 hspot
    exact balance_of_spot hnone hs hcaller hpool t

end Engine

namespace Sample

/-- Account 6 swaps fifty of token 10. -/
def spotRequest : Request :=
  ⟨.ofNat 6, spotArgs.path, .ofWord 50, 0, .exactIn⟩

end Sample

/-- `Engine.lender_earns_fee` at a debt that is closed with a loan on which a fee is charged, of lender 2 to engine 1, and at a
spot swap of account 6. -/
theorem Engine.lender_earns_fee_close :
    (∃ settled w' loan, Sample.chargingEngine.execute Sample.closeExactOut ⟨Sample.ledger, .new (.ofNat 1)⟩ = .ok settled w' ∧
      settled.composition.isLeveraged ∧ settled.loan = some loan ∧ loan.terms.fee ≠ 0 ∧
      (∀ t, (w'.ledger.balance t (.ofNat 2)).toNat =
        (Sample.ledger.balance t (.ofNat 2)).toNat + if t = loan.asset then loan.terms.fee.toNat else 0) ∧
      ∀ t, w'.ledger.balance t (.ofNat 1) = Sample.ledger.balance t (.ofNat 1)) ∧
    ∃ settled w', Sample.chargingEngine.execute Sample.spotRequest ⟨Sample.ledger, .new (.ofNat 1)⟩ = .ok settled w' ∧
      ¬settled.composition.isLeveraged ∧
      ∀ t, w'.ledger.balance t (.ofNat 2) = Sample.ledger.balance t (.ofNat 2) ∧
        w'.ledger.balance t (.ofNat 1) = Sample.ledger.balance t (.ofNat 1) := by
  constructor
  · have hc : Step.yields (Sample.chargingEngine.execute Sample.closeExactOut) ⟨Sample.ledger, .new (.ofNat 1)⟩
        (fun settled _ => settled.composition.isLeveraged ∧ settled.loan.any fun loan => loan.terms.fee ≠ 0) = true := by
      decide +kernel
    obtain ⟨settled, w', hs, htest⟩ := Step.exists_ok_of_yields hc
    obtain ⟨hlev, hfee⟩ := of_decide_eq_true htest
    obtain ⟨mode, market, loan, -, hm, hloan, -, -, -, hearned, hothers⟩ := (Engine.lender_earns_fee hs).1 rfl hlev
    have hmarket := Sample.address_of_find hm
    rw [hloan] at hfee
    refine ⟨settled, w', loan, hs, hlev, hloan, of_decide_eq_true hfee, ?_, ?_⟩
    · refine hearned (by decide) (by rw [hmarket]; decide) ?_
      decide +kernel
    · refine hothers _ (by decide) (by decide) (by rw [hmarket]; decide) ?_
      decide +kernel
  · have hc : Step.yields (Sample.chargingEngine.execute Sample.spotRequest) ⟨Sample.ledger, .new (.ofNat 1)⟩
        (fun settled _ => ¬settled.composition.isLeveraged) = true := by decide +kernel
    obtain ⟨settled, w', hs, htest⟩ := Step.exists_ok_of_yields hc
    have hspot := of_decide_eq_true htest
    have hothers := (Engine.lender_earns_fee hs).2 hspot
    refine ⟨settled, w', hs, hspot, fun t => ⟨hothers _ (by decide) ?_ t, hothers _ (by decide) ?_ t⟩⟩
    · decide +kernel
    · decide +kernel

end MarginRouter
