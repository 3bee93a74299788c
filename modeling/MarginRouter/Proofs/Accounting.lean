import MarginRouter.Proofs.Router

/-!
# What a leveraged execution comes to

The net positions of the clearing account are followed through the stages of a leveraged execution. Between the two ends of the
path every token cancels, the loan and what is drawn from the market for it cancel, and what is left is the surplus of a
repayment, which is paid out. So the caller's position changes by exactly what the loan is paid back with and what the swaps
produce.
-/

namespace MarginRouter

open Ledger Clearing Books

namespace Engine

variable {e : Engine} {r : Request} {market : Market} {funding : Funding} {proceeds : Proceeds} {terms : LoanTerms}
variable {start : Amount} {done : Proceedings} {b b₁ b₂ b₃ b₄ b' : Books}

/-- What a walk of a path gains and spends, by the ends of the path in its direction. -/
theorem crossing_endpoints (p : Path) (d : Direction) (cursor last : Amount) (t : Address) :
    crossing d (Path.firstOf p.hops p.finalToken) p.finalToken cursor last t =
      receipt (p.endpoints d).2 (d.pick last cursor).toNat t + receipt (p.endpoints d).1 (-(d.pick cursor last).toNat) t := by
  cases d with
  | exactIn => rfl
  | exactOut => rfl

/-- What the swaps of a leveraged execution take of the money of the loan. -/
def spent (r : Request) (terms : LoanTerms) (done : Proceedings) : Amount :=
  r.direction.pick terms.delivered done.swapped

/-- What the swaps of a leveraged execution produce for the market. -/
def produced (r : Request) (start : Amount) (done : Proceedings) : Amount :=
  r.direction.pick done.swapped start

/-- What is drawn from a market is gained. -/
theorem gained_of_drawn {user asset : Address} {amount : Amount}
    (h : amount = 0 ∧ b' = b ∨ amount ≠ 0 ∧ fund market funding user asset amount b = .ok () b') :
    Gained b.clearing b'.clearing (receipt asset amount.toNat) := by
  rcases h with ⟨rfl, rfl⟩ | ⟨-, hf⟩
  · refine ⟨fun t => ?_, id⟩
    simp [receipt]
  · obtain ⟨-, hf, -⟩ := fund_eq_ok hf
    exact hf.clearing

namespace Underway

/-- The loan and the swaps write no position and leave the clearing account with what is not spent and what is produced. -/
theorem moved_swapped (h : e.Underway r market funding proceeds terms start done b b₁ b₂ b₃ b₄) :
    ∃ paid, Moved b b₂ paid (receipt (r.path.endpoints r.direction).1 (terms.delivered.toNat - (spent r terms done).toNat) +
      receipt (r.path.endpoints r.direction).2 (produced r start done).toNat) := by
  obtain ⟨paid, hw, -⟩ := walk_moved r.path.finalToken r.path.hops 0 h.walked
  refine ⟨_, (h.lent.trans hw).congr (fun _ _ => rfl) fun t => ?_⟩
  have hs : r.direction.pick (r.direction.pick terms.delivered start) done.swapped = spent r terms done := by
    unfold spent
    cases r.direction <;> rfl
  have hp : r.direction.pick done.swapped (r.direction.pick terms.delivered start) = produced r start done := by
    unfold produced
    cases r.direction <;> rfl
  simp only [Pi.add_apply, crossing_endpoints, hs, hp, receipt]
  split_ifs <;> omega

/-- What the clearing account has gained when the proceeds have been brought to the market. -/
theorem gained_brought (h : e.Underway r market funding proceeds terms start done b b₁ b₂ b₃ b₄) :
    Gained b.clearing b₃.clearing
      (receipt (r.path.endpoints r.direction).1 (terms.delivered.toNat - (spent r terms done).toNat) +
        receipt (r.path.endpoints r.direction).2 ((produced r start done).toNat -
          proceeds.taken (produced r start done)
            (market.position b.ledger r.caller (r.path.endpoints r.direction).2))) := by
  obtain ⟨paid, hm⟩ := h.moved_swapped
  obtain ⟨-, hf, -⟩ := bring_eq_ok h.brought
  have hpos : market.position b₂.ledger r.caller (r.path.endpoints r.direction).2 =
      market.position b.ledger r.caller (r.path.endpoints r.direction).2 := hm.position _ _ _
  rw [hpos] at hf
  have hg := hm.clearing.trans hf.clearing
  refine ⟨fun t => ?_, hg.proper⟩
  rw [hg.net]
  simp only [Pi.add_apply, receipt, produced]
  split_ifs <;> omega

/-- What is drawn from the market is gained in the token of the loan. -/
theorem gained_drawn (h : e.Underway r market funding proceeds terms start done b b₁ b₂ b₃ b₄) :
    Gained b₃.clearing b₄.clearing (receipt (r.path.endpoints r.direction).1 done.funded.toNat) :=
  gained_of_drawn h.drawn

end Underway

namespace Stages

/-- From a flat clearing account on, when the ends of the path differ: no more is spent than the loan has delivered, exactly
what is then missing is drawn, and what is left in the end is the part of the proceeds that the market has not taken. -/
theorem flat_but_surplus (h : e.Stages r market funding proceeds terms start done b b₁ b₂ b₃ b₄ b')
    (hflat : ∀ t, b.clearing.net t = 0) (hproper : b.clearing.Proper)
    (hne : (r.path.endpoints r.direction).1 ≠ (r.path.endpoints r.direction).2)
    (hdelivered : terms.delivered ≤ terms.owed) (howed : terms.owed ≠ 0) :
    done.funded.toNat + (terms.delivered.toNat - (spent r terms done).toNat) = terms.owed.toNat ∧
      b'.clearing.Proper ∧
      ∀ t, b'.clearing.net t = receipt (r.path.endpoints r.direction).2 ((produced r start done).toNat -
        proceeds.taken (produced r start done) (market.position b.ledger r.caller (r.path.endpoints r.direction).2)) t := by
  have g₃ := h.toUnderway.gained_brought
  have g₄ := h.toUnderway.gained_drawn
  have g₅ := h.repaid.clearing
  have hproper₃ := g₃.proper hproper
  have hproper₄ := g₄.proper hproper₃
  -- the net positions in the token of the loan
  have hnet₃ : b₃.clearing.net (r.path.endpoints r.direction).1 =
      terms.delivered.toNat - (spent r terms done).toNat := by
    rw [g₃.net, hflat]
    simp [receipt, hne]
  have hnet₄ : b₄.clearing.net (r.path.endpoints r.direction).1 =
      terms.delivered.toNat - (spent r terms done).toNat + done.funded.toNat := by
    rw [g₄.net, hnet₃]
    simp [receipt]
  have hheld₃ := (hproper₃ (r.path.endpoints r.direction).1).held_eq
  have hheld₄ := (hproper₄ (r.path.endpoints r.direction).1).held_eq
  have henough := Amount.le_def.1 h.enough
  have hfunded : done.funded.toNat = terms.owed.toNat - (b₃.clearing.held (r.path.endpoints r.direction).1).toNat := by
    rw [h.funded, Amount.toNat_sub]
  have hle := Amount.le_def.1 hdelivered
  have hpos : terms.owed.toNat ≠ 0 := mt Amount.eq_zero_iff.2 howed
  simp only [Clearing.net] at hnet₃ hnet₄
  simp only [Clearing.held] at henough hfunded
  rw [hnet₃] at hheld₃
  rw [hnet₄] at hheld₄
  -- if more were spent than delivered, all that is owed would be drawn and would not be enough
  have hspent : (spent r terms done).toNat ≤ terms.delivered.toNat := by omega
  refine ⟨by omega, g₅.proper hproper₄, fun t => ?_⟩
  rw [g₅.net, g₄.net, g₃.net, hflat]
  simp only [Pi.add_apply, receipt]
  split_ifs <;> omega

/-- The positions a leveraged execution writes: the caller's in the market, in the two end tokens of the path. -/
theorem positions (h : e.Stages r market funding proceeds terms start done b b₁ b₂ b₃ b₄ b')
    (hne : (r.path.endpoints r.direction).1 ≠ (r.path.endpoints r.direction).2) :
    proceeds.Brings (produced r start done) (market.position b.ledger r.caller (r.path.endpoints r.direction).2)
        (market.position b'.ledger r.caller (r.path.endpoints r.direction).2) ∧
      funding.Takes done.funded (market.position b.ledger r.caller (r.path.endpoints r.direction).1)
        (market.position b'.ledger r.caller (r.path.endpoints r.direction).1) ∧
      ∀ k u a, ¬(k = market.address ∧ u = r.caller ∧
        (a = (r.path.endpoints r.direction).1 ∨ a = (r.path.endpoints r.direction).2)) →
        b'.ledger.position k u a = b.ledger.position k u a := by
  obtain ⟨paid, hm⟩ := h.toUnderway.moved_swapped
  obtain ⟨-, -, q, hbrings, hw⟩ := bring_eq_ok h.brought
  have h₂ := fun k u a => hm.position k u a
  have h₅ := fun k u a => h.repaid.position k u a
  simp only [Market.position, h₂] at hbrings
  refine ⟨?_, ?_, fun k u a hk => h.position_frame hk⟩
  · rcases h.drawn with ⟨-, rfl⟩ | ⟨-, hf⟩
    · simp only [Market.position, h₅, hw.position, and_self, if_true]
      exact hbrings
    · obtain ⟨-, -, ⟨q', -, hw'⟩, -⟩ := fund_eq_ok hf
      simp only [Market.position, h₅, hw'.position, hw.position, Ne.symm hne, and_self, and_false, if_true, if_false]
      exact hbrings
  · rcases h.drawn with ⟨hz, rfl⟩ | ⟨-, hf⟩
    · simp only [Market.position, h₅, hw.position, h₂, hne, and_false, if_false]
      rw [hz]
      cases funding with
      | borrow => exact ⟨rfl, rfl⟩
      | withdraw => exact ⟨rfl, rfl⟩
    · obtain ⟨-, -, ⟨q', htakes, hw'⟩, -⟩ := fund_eq_ok hf
      simp only [Market.position, hw.position, h₂, hne, and_false, if_false] at htakes
      simp only [Market.position, h₅, hw'.position, and_self, if_true]
      exact htakes

end Stages

/-- What an exact-out execution is to produce: the amount of the request, or the caller's whole debt in max mode. -/
def target (r : Request) (mode : Mode) (market : Market) (l : Ledger) : Amount :=
  if mode.isMax then market.debtOf l r.caller (r.path.endpoints r.direction).2 else r.amount

theorem startAmount_eq_ok {l : Ledger} {c : Composition} {mode : Mode} (hd : r.direction = .exactOut)
    (h : startAmount l r c mode market funding proceeds = .ok start) : start = target r mode market l := by
  unfold target
  rw [hd]
  obtain ⟨-, ⟨hm, hs⟩ | ⟨hm, ⟨hin, -⟩ | ⟨-, -, hs⟩⟩⟩ := startAmount_cases h
  · rw [hm, hs]
    rfl
  · rw [hd] at hin
    cases hin
  · rw [if_pos hm, hs]

/-- An exact-in loan is paid back with money of the market alone, since the swaps have taken all of it; the amount settled by an
exact-out execution is what was drawn. -/
theorem funded_eq_pick
    (h : done.funded.toNat + (terms.delivered.toNat - (spent r terms done).toNat) = terms.owed.toNat) :
    done.funded = r.direction.pick terms.owed (r.direction.pick done.swapped done.funded) := by
  cases hd : r.direction with
  | exactIn =>
    rw [spent, hd] at h
    simp only [Direction.pick] at h ⊢
    exact Amount.ext (by omega)
  | exactOut => rfl

/-- The market is brought the amount settled by an exact-in execution, and the target of an exact-out one. -/
theorem produced_eq_pick {l : Ledger} {c : Composition} {mode : Mode}
    (h : startAmount l r c mode market funding proceeds = .ok start) :
    produced r start done = r.direction.pick (r.direction.pick done.swapped done.funded) (target r mode market l) := by
  unfold produced
  cases hd : r.direction with
  | exactIn => rfl
  | exactOut => exact startAmount_eq_ok hd h

end Engine

/-- What a market leaves of proceeds that are brought to it: nothing of a supply, and of a repayment what exceeds the debt. -/
def Proceeds.surplus (proceeds : Proceeds) (amount : Amount) (p : Position) : Amount :=
  match proceeds with
  | .supply => 0
  | .repay => amount - min amount p.debt

theorem Proceeds.toNat_surplus (proceeds : Proceeds) (amount : Amount) (p : Position) :
    ((proceeds.surplus amount p).toNat : Int) = amount.toNat - proceeds.taken amount p := by
  cases proceeds with
  | supply => simp [surplus, taken]
  | repay =>
    simp only [surplus, taken, Amount.toNat_sub, Market.toNat_min]
    omega

/-- Nothing exceeds the debt as long as no more is brought. -/
theorem Proceeds.surplus_repay_eq_zero {amount : Amount} {p : Position} : repay.surplus amount p = 0 ↔ amount ≤ p.debt := by
  rw [Amount.eq_zero_iff, surplus, Amount.toNat_sub, Market.toNat_min, Amount.le_def]
  omega

/-- When a clearing account holds and owes in one token at most, and owes nothing there, its settlement pays out what is held
there and pulls nothing in. -/
theorem Clearing.report_of_net {c : Clearing} {token : Address} {amount : Amount} (hc : c.Proper)
    (hn : ∀ t, c.net t = receipt token amount.toNat t) :
    c.holdings = (if amount = 0 then [] else [(token, amount)]) ∧ c.debts = [] := by
  refine ⟨holdings_of_net hc token amount fun t => ?_, ?_⟩
  · rw [hn, receipt]
    split_ifs <;> omega
  · refine (debts_of_net hc token 0 fun t => ?_).trans (if_pos rfl)
    rw [hn, receipt, receipt, Amount.toNat_zero]
    split_ifs <;> omega

namespace Engine

variable {e : Engine} {r : Request} {funding : Funding} {proceeds : Proceeds}

/-- A leveraged execution that succeeds, of a path whose ends differ, has taken from the caller's account in the selected market
exactly what the loan was paid back with, or the amount settled, and has brought to it exactly the amount settled, or the target;
no other position has changed, what exceeds the debt has been paid out, and nothing has been pulled in. -/
theorem lending_accounting {address : Address} {rate : FeeRate} {feeMode : FeeMode} {w w' : World} {settled : Settled}
    (hl : e.lender = .reserve address rate feeMode) (h : e.execute r w = .ok settled w')
    (hlend : settled.composition.lending? = some (funding, proceeds))
    (hne : (r.path.endpoints r.direction).1 ≠ (r.path.endpoints r.direction).2) :
    ∃ mode market loan funded brought, r.path.mode = .ok mode ∧ e.markets.find mode.lender = .ok market ∧
      settled.loan = some loan ∧ funded = r.direction.pick loan.terms.owed settled.amount ∧
      brought = r.direction.pick settled.amount (target r mode market w.ledger) ∧
      funding.Takes funded (market.position w.ledger r.caller (r.path.endpoints r.direction).1)
        (market.position w'.ledger r.caller (r.path.endpoints r.direction).1) ∧
      proceeds.Brings brought (market.position w.ledger r.caller (r.path.endpoints r.direction).2)
        (market.position w'.ledger r.caller (r.path.endpoints r.direction).2) ∧
      (∀ k u a, ¬(k = market.address ∧ u = r.caller ∧
        (a = (r.path.endpoints r.direction).1 ∨ a = (r.path.endpoints r.direction).2)) →
        w'.ledger.position k u a = w.ledger.position k u a) ∧
      settled.report.paidOut =
        (let surplus := proceeds.surplus brought (market.position w.ledger r.caller (r.path.endpoints r.direction).2)
         if surplus = 0 then [] else [((r.path.endpoints r.direction).2, surplus)]) ∧
      settled.report.pulledIn = [] := by
  obtain ⟨c, s, -, hs, rfl⟩ := execute_eq_ok h
  obtain ⟨mode, a, s₁, hmode, hp, hc⟩ := settle_eq_ok hs
  obtain ⟨hpaid, rfl, -⟩ := conclude_eq_ok hc
  simp only at hlend
  simp only [prepare, hlend] at hp
  obtain ⟨market, start, gross, terms, b₁, b₂, b₃, b₄, hm, hgross, hterms, hstart, hst, hamount, -, hloan⟩ :=
    leverage_eq_ok hl hp
  obtain ⟨hdelivered, howed⟩ := FeeRate.terms_eq_ok hterms
  have hpos : terms.owed ≠ 0 := by
    intro hz
    refine hgross (Amount.eq_zero_iff.2 ?_)
    have hle := Amount.le_def.1 howed
    rw [hz] at hle
    exact Nat.le_zero.1 hle
  obtain ⟨hfunded, hproper, hnet⟩ := hst.flat_but_surplus (fun t => net_new e.address t) (proper_new e.address) hne
    (Nat.le_trans hdelivered howed) hpos
  obtain ⟨hbrings, htakes, hframe⟩ := hst.positions hne
  have hfinal : ∀ k u a, s.books.ledger.position k u a = s₁.books.ledger.position k u a := fun k u a =>
    hpaid.position k u a
  have hnet' : ∀ t, s₁.books.clearing.net t = receipt (r.path.endpoints r.direction).2
      (proceeds.surplus (produced r start s₁.notes)
        (market.position w.ledger r.caller (r.path.endpoints r.direction).2)).toNat t := by
    intro t
    rw [hnet, Proceeds.toNat_surplus]
    rfl
  obtain ⟨hholdings, hdebts⟩ := Clearing.report_of_net hproper hnet'
  have hamount : a.1 = r.direction.pick s₁.notes.swapped s₁.notes.funded := hamount
  have hf : s₁.notes.funded = r.direction.pick terms.owed a.1 := by
    rw [hamount]
    exact funded_eq_pick hfunded
  have hb : produced r start s₁.notes = r.direction.pick a.1 (target r mode market w.ledger) := by
    rw [hamount]
    exact produced_eq_pick hstart
  refine ⟨mode, market, _, _, _, hmode, MarketBook.find_eq_ok.2 hm, hloan, rfl, rfl, ?_, ?_, fun k u a hk => ?_, ?_, hdebts⟩
  · rw [← hf]
    simp only [Market.position, hfinal]
    exact htakes
  · rw [← hb]
    simp only [Market.position, hfinal]
    exact hbrings
  · rw [hfinal, hframe k u a hk]
    rfl
  · rw [← hb]
    exact hholdings

/-- Exact accounting. Let a leveraged execution succeed, of a path that leads from the token of the loan to another one. What it has
funded is what the loan is paid back with, or the amount settled by an exact-out one; what it has brought is the amount settled,
or the target of an exact-out one. In the selected market the caller's debt in the token of the loan has grown by exactly what was
funded if a position was opened or debt swapped, and the collateral has shrunk by it if a position was closed or collateral
swapped. In the other token the collateral has grown by exactly what was brought if a position was opened or collateral swapped;
if a position was closed or debt swapped, the debt has shrunk by it as far as it went, and the rest has been paid out. Nothing
else has been paid out and nothing pulled in, and no other position has changed. -/
theorem leveraged_accounting {address : Address} {rate : FeeRate} {feeMode : FeeMode} {w w' : World} {settled : Settled}
    {asset out : Address} (hl : e.lender = .reserve address rate feeMode) (h : e.execute r w = .ok settled w')
    (hleveraged : settled.composition ≠ .spot) (hends : r.path.endpoints r.direction = (asset, out)) (hne : asset ≠ out) :
    ∃ mode market loan funded brought, r.path.mode = .ok mode ∧ e.markets.find mode.lender = .ok market ∧
      settled.loan = some loan ∧ funded = r.direction.pick loan.terms.owed settled.amount ∧
      brought = r.direction.pick settled.amount (target r mode market w.ledger) ∧
      (settled.composition = .marginOpen ∨ settled.composition = .debtSwap →
        (market.debtOf w'.ledger r.caller asset).toNat = (market.debtOf w.ledger r.caller asset).toNat + funded.toNat ∧
          market.collateralOf w'.ledger r.caller asset = market.collateralOf w.ledger r.caller asset) ∧
      (settled.composition = .marginClose ∨ settled.composition = .collateralSwap →
        (market.collateralOf w.ledger r.caller asset).toNat =
            (market.collateralOf w'.ledger r.caller asset).toNat + funded.toNat ∧
          market.debtOf w'.ledger r.caller asset = market.debtOf w.ledger r.caller asset) ∧
      (settled.composition = .marginOpen ∨ settled.composition = .collateralSwap →
        (market.collateralOf w'.ledger r.caller out).toNat =
            (market.collateralOf w.ledger r.caller out).toNat + brought.toNat ∧
          market.debtOf w'.ledger r.caller out = market.debtOf w.ledger r.caller out ∧ settled.report.paidOut = []) ∧
      (settled.composition = .marginClose ∨ settled.composition = .debtSwap →
        (market.debtOf w'.ledger r.caller out).toNat =
            (market.debtOf w.ledger r.caller out).toNat - min brought.toNat (market.debtOf w.ledger r.caller out).toNat ∧
          market.collateralOf w'.ledger r.caller out = market.collateralOf w.ledger r.caller out ∧
          settled.report.paidOut = if brought ≤ market.debtOf w.ledger r.caller out then []
            else [(out, brought - min brought (market.debtOf w.ledger r.caller out))]) ∧
      (∀ k u a, ¬(k = market.address ∧ u = r.caller ∧ (a = asset ∨ a = out)) →
        w'.ledger.position k u a = w.ledger.position k u a) ∧
      settled.report.pulledIn = [] := by
  obtain ⟨rfl, rfl⟩ : (r.path.endpoints r.direction).1 = asset ∧ (r.path.endpoints r.direction).2 = out := by
    rw [hends]
    exact ⟨rfl, rfl⟩
  obtain ⟨funding, proceeds, hlend, hborrow, hwithdraw, hsupply, hrepay⟩ := Composition.exists_lending hleveraged
  obtain ⟨mode, market, loan, funded, brought, hmode, hm, hloan, hfunded, hbrought, htakes, hbrings, hframe, hpaid, hpulled⟩ :=
    lending_accounting hl h hlend hne
  refine ⟨mode, market, loan, funded, brought, hmode, hm, hloan, hfunded, hbrought, fun hc => ?_, fun hc => ?_, fun hc => ?_,
    fun hc => ?_, hframe, hpulled⟩
  · obtain rfl := hborrow.1 hc
    exact ⟨htakes.2, htakes.1⟩
  · obtain rfl := hwithdraw.1 hc
    exact htakes
  · obtain rfl := hsupply.1 hc
    exact ⟨hbrings.1, hbrings.2, hpaid⟩
  · obtain rfl := hrepay.1 hc
    refine ⟨hbrings.2, hbrings.1, hpaid.trans ?_⟩
    simp only [Proceeds.surplus_repay_eq_zero]
    rfl

/-- Fifty of token 10 are settled by each of the four actions, with a loan for which fifty are owed. -/
theorem exists_settled_fifty {a : Action} (ha : a.isSpot = false) : ∃ settled w',
    Sample.engine.execute (Sample.fifty a) ⟨Sample.ledger, .new (.ofNat 1)⟩ = .ok settled w' ∧
      settled.composition = .ofAction a ∧ settled.composition ≠ .spot ∧ settled.amount = .ofWord 50 ∧
      ∀ loan, settled.loan = some loan → loan.terms.owed = .ofWord 50 := by
  have hruns : Step.yields (Sample.engine.execute (Sample.fifty a)) ⟨Sample.ledger, .new (.ofNat 1)⟩
      (fun settled _ => settled.composition = .ofAction a ∧ settled.composition ≠ .spot ∧ settled.amount = .ofWord 50 ∧
        settled.loan.all fun loan => loan.terms.owed = .ofWord 50) = true := by
    cases a with
    | swapExactIn | swapExactOut => cases ha
    | marginOpen | marginClose | collateralSwap | debtSwap => decide +kernel
  obtain ⟨settled, w', hs, hyields⟩ := Step.exists_ok_of_yields hruns
  obtain ⟨hcomp, hleveraged, hamount, hall⟩ := of_decide_eq_true hyields
  refine ⟨settled, w', hs, hcomp, hleveraged, hamount, fun loan hloan => ?_⟩
  rw [hloan] at hall
  exact of_decide_eq_true hall

/-- `leveraged_accounting` for fifty of token 10 and each of the four actions, from a hundred of collateral in that token and thirty of
debt in the other one: what is borrowed and supplied is fifty, what is withdrawn leaves fifty, and what is repaid leaves no debt
and twenty to be paid out. -/
theorem leveraged_accounting_fifty :
    (∃ settled w', Sample.engine.execute (Sample.fifty .marginOpen) ⟨Sample.ledger, .new (.ofNat 1)⟩ = .ok settled w' ∧
      settled.composition = .marginOpen ∧ (Sample.market.debtOf w'.ledger (.ofNat 7) (.ofNat 10)).toNat = 50 ∧
      (Sample.market.collateralOf w'.ledger (.ofNat 7) (.ofNat 11)).toNat = 50 ∧ settled.report.paidOut = []) ∧
    (∃ settled w', Sample.engine.execute (Sample.fifty .marginClose) ⟨Sample.ledger, .new (.ofNat 1)⟩ = .ok settled w' ∧
      settled.composition = .marginClose ∧ (Sample.market.collateralOf w'.ledger (.ofNat 7) (.ofNat 10)).toNat = 50 ∧
      (Sample.market.debtOf w'.ledger (.ofNat 7) (.ofNat 11)).toNat = 0 ∧
      settled.report.paidOut = [(.ofNat 11, .ofWord 20)]) ∧
    (∃ settled w', Sample.engine.execute (Sample.fifty .collateralSwap) ⟨Sample.ledger, .new (.ofNat 1)⟩ = .ok settled w' ∧
      settled.composition = .collateralSwap ∧ (Sample.market.collateralOf w'.ledger (.ofNat 7) (.ofNat 10)).toNat = 50 ∧
      (Sample.market.collateralOf w'.ledger (.ofNat 7) (.ofNat 11)).toNat = 50 ∧ settled.report.paidOut = []) ∧
    (∃ settled w', Sample.engine.execute (Sample.fifty .debtSwap) ⟨Sample.ledger, .new (.ofNat 1)⟩ = .ok settled w' ∧
      settled.composition = .debtSwap ∧ (Sample.market.debtOf w'.ledger (.ofNat 7) (.ofNat 10)).toNat = 50 ∧
      (Sample.market.debtOf w'.ledger (.ofNat 7) (.ofNat 11)).toNat = 0 ∧
      settled.report.paidOut = [(.ofNat 11, .ofWord 20)]) := by
  have hcollateral : (Sample.market.collateralOf Sample.ledger (.ofNat 7) (.ofNat 10)).toNat = 100 := by decide +kernel
  have hnone : (Sample.market.debtOf Sample.ledger (.ofNat 7) (.ofNat 10)).toNat = 0 := by decide +kernel
  have hempty : (Sample.market.collateralOf Sample.ledger (.ofNat 7) (.ofNat 11)).toNat = 0 := by decide +kernel
  have hdebt : Sample.market.debtOf Sample.ledger (.ofNat 7) (.ofNat 11) = .ofWord 30 := by decide +kernel
  have haccount (a : Action) (ha : a.isSpot = false) : ∃ settled w',
      Sample.engine.execute (Sample.fifty a) ⟨Sample.ledger, .new (.ofNat 1)⟩ = .ok settled w' ∧
        settled.composition = .ofAction a ∧
        (settled.composition = .marginOpen ∨ settled.composition = .debtSwap →
          (Sample.market.debtOf w'.ledger (.ofNat 7) (.ofNat 10)).toNat = 50) ∧
        (settled.composition = .marginClose ∨ settled.composition = .collateralSwap →
          (Sample.market.collateralOf w'.ledger (.ofNat 7) (.ofNat 10)).toNat = 50) ∧
        (settled.composition = .marginOpen ∨ settled.composition = .collateralSwap →
          (Sample.market.collateralOf w'.ledger (.ofNat 7) (.ofNat 11)).toNat = 50 ∧ settled.report.paidOut = []) ∧
        (settled.composition = .marginClose ∨ settled.composition = .debtSwap →
          (Sample.market.debtOf w'.ledger (.ofNat 7) (.ofNat 11)).toNat = 0 ∧
            settled.report.paidOut = [(.ofNat 11, .ofWord 20)]) := by
    obtain ⟨settled, w', hs, hcomp, hleveraged, hamount, howed⟩ := exists_settled_fifty ha
    have hends : (Sample.fifty a).path.endpoints .exactIn = (.ofNat 10, .ofNat 11) := rfl
    have hne : Address.ofNat 10 ≠ .ofNat 11 := by decide
    obtain ⟨mode, market, loan, funded, brought, hmode, hm, hloan, hfunded, hbrought, hborrow, hwithdraw, hsupply, hrepay, -⟩ :=
      leveraged_accounting rfl hs hleveraged hends hne
    obtain rfl := Sample.eq_market_of_find hm
    obtain rfl : funded = .ofWord 50 := hfunded.trans (howed loan hloan)
    obtain rfl : brought = .ofWord 50 := hbrought.trans hamount
    refine ⟨settled, w', hs, hcomp, fun hc => ?_, fun hc => ?_, fun hc => ?_, fun hc => ?_⟩
    · exact (hborrow hc).1.trans (congrArg (· + 50) hnone)
    · exact Nat.add_right_cancel ((hwithdraw hc).1.symm.trans hcollateral)
    · obtain ⟨hsupplied, -, hpaid⟩ := hsupply hc
      exact ⟨hsupplied.trans (congrArg (· + 50) hempty), hpaid⟩
    · obtain ⟨hrepaid, -, hpaid⟩ := hrepay hc
      refine ⟨hrepaid.trans (congrArg (fun debt : Amount => debt.toNat - min 50 debt.toNat) hdebt), hpaid.trans ?_⟩
      show (if .ofWord 50 ≤ Sample.market.debtOf Sample.ledger (.ofNat 7) (.ofNat 11) then [] else _) = _
      rw [hdebt]
      rfl
  obtain ⟨opened, w₁, h₁, hc₁, hborrowed₁, -, hsupplied₁, -⟩ := haccount .marginOpen rfl
  obtain ⟨closed, w₂, h₂, hc₂, -, hwithdrawn₂, -, hrepaid₂⟩ := haccount .marginClose rfl
  obtain ⟨moved, w₃, h₃, hc₃, -, hwithdrawn₃, hsupplied₃, -⟩ := haccount .collateralSwap rfl
  obtain ⟨swapped, w₄, h₄, hc₄, hborrowed₄, -, -, hrepaid₄⟩ := haccount .debtSwap rfl
  exact ⟨⟨opened, w₁, h₁, hc₁, hborrowed₁ (.inl hc₁), hsupplied₁ (.inl hc₁)⟩,
    ⟨closed, w₂, h₂, hc₂, hwithdrawn₂ (.inl hc₂), hrepaid₂ (.inl hc₂)⟩,
    ⟨moved, w₃, h₃, hc₃, hwithdrawn₃ (.inr hc₃), hsupplied₃ (.inr hc₃)⟩,
    ⟨swapped, w₄, h₄, hc₄, hborrowed₄ (.inr hc₄), hrepaid₄ (.inr hc₄)⟩⟩

end Engine

end MarginRouter
