import MarginRouter.Proofs.Loan
import MarginRouter.Proofs.LoanSizing
import MarginRouter.Proofs.Market
import MarginRouter.Proofs.Swap

/-!
# Executions that succeed

The stages that a leveraged execution passes through when the reserve lender lends, and the settlement that ends every
execution. A relation between books that movements of money keep, and that a market keeps when proceeds are brought to it and
when it hands money out, holds from the beginning of an execution to its settlement.
-/

namespace MarginRouter

open Ledger Clearing Books

/-- One of two values, by direction. -/
def Direction.pick {α : Type} (d : Direction) (exactIn exactOut : α) : α :=
  match d with
  | .exactIn => exactIn
  | .exactOut => exactOut

theorem MarketBook.find_eq_ok {b : MarketBook} {lender : UInt8} {m : Market} :
    b.find lender = .ok m ↔ b[lender]? = some m := by
  unfold find
  cases b[lender]? with
  | none => simp
  | some n => simp

namespace Engine

variable {e : Engine} {r : Request} {c : Composition} {mode : Mode} {market : Market} {funding : Funding} {proceeds : Proceeds}

theorem noting_eq_ok {τ : Type} {step : Step EngineError Books τ} {w w' : Workspace τ} {u : Unit}
    (h : noting step w = .ok u w') : ∃ b, step w.books = .ok w'.notes b ∧ w'.books = b := by
  simp only [noting, Workspace.onBooks, Step.bind_eq_ok, Step.on_eq_ok, Step.modify_eq_ok] at h
  obtain ⟨a, _, ⟨b, hb, rfl⟩, rfl⟩ := h
  exact ⟨b, hb, rfl⟩

/-- The first stages of a leveraged execution with a loan on these terms, up to the point at which it is to be paid back. From `b` on,
the loan has been handed over in `b₁`, the path has been walked in `b₂`, the proceeds have been brought to the market in `b₃`, and
what was missing has been drawn from it in `b₄`. -/
structure Underway (e : Engine) (r : Request) (market : Market) (funding : Funding) (proceeds : Proceeds) (terms : LoanTerms)
    (start : Amount) (done : Proceedings) (b b₁ b₂ b₃ b₄ : Books) : Prop where
  lent : Moved b b₁ (payment (r.path.endpoints r.direction).1 e.lender.address (-terms.delivered.toNat))
    (receipt (r.path.endpoints r.direction).1 terms.delivered.toNat)
  walked : walk e.venues r.direction r.path.legs (r.direction.pick terms.delivered start) b₁ =
    .ok (done.fills, done.swapped) b₂
  brought : bring market proceeds r.caller (r.path.endpoints r.direction).2 (r.direction.pick done.swapped start) b₂ =
    .ok () b₃
  funded : done.funded = terms.owed - b₃.clearing.held (r.path.endpoints r.direction).1
  drawn : done.funded = 0 ∧ b₄ = b₃ ∨
    done.funded ≠ 0 ∧ fund market funding r.caller (r.path.endpoints r.direction).1 done.funded b₃ = .ok () b₄

/-- All stages of a leveraged execution: after the first ones there is enough to pay the loan back, and it is paid back in `b'`. -/
structure Stages (e : Engine) (r : Request) (market : Market) (funding : Funding) (proceeds : Proceeds) (terms : LoanTerms)
    (start : Amount) (done : Proceedings) (b b₁ b₂ b₃ b₄ b' : Books) : Prop
    extends e.Underway r market funding proceeds terms start done b b₁ b₂ b₃ b₄ where
  enough : terms.owed ≤ b₄.clearing.held (r.path.endpoints r.direction).1
  repaid : Moved b₄ b' (payment (r.path.endpoints r.direction).1 e.lender.address terms.owed.toNat)
    (receipt (r.path.endpoints r.direction).1 (-terms.owed.toNat))

/-- What is done with the money of a loan, stage by stage. -/
theorem proceed_eq_ok {outToken : Address} {start : Amount} {context : LoanContext} {done : Proceedings} {b b' : Books}
    (h : e.proceed market funding proceeds outToken start context b = .ok done b') :
    ∃ b₂ b₃,
      walk e.venues context.direction context.path.legs (context.direction.pick context.terms.delivered start) b =
        .ok (done.fills, done.swapped) b₂ ∧
      bring market proceeds context.user outToken (context.direction.pick done.swapped start) b₂ = .ok () b₃ ∧
      done.funded = context.terms.owed - b₃.clearing.held context.asset ∧
      (done.funded = 0 ∧ b' = b₃ ∨
        done.funded ≠ 0 ∧ fund market funding context.user context.asset done.funded b₃ = .ok () b') := by
  simp only [proceed, Step.bind_eq_ok, Step.withError_eq_ok, Step.get_eq_ok] at h
  obtain ⟨⟨fills, swapped⟩, b₂, hw, _, b₃, hb, _, _, ⟨rfl, rfl⟩, h⟩ := h
  split at h
  · rename_i hne
    simp only [Step.bind_eq_ok, Step.withError_eq_ok, Step.pure_eq_ok] at h
    obtain ⟨_, _, hf, rfl, rfl⟩ := h
    exact ⟨b₂, b₃, hw, hb, rfl, .inr ⟨hne, hf⟩⟩
  · rename_i hz
    obtain ⟨rfl, rfl⟩ := Step.pure_eq_ok.1 h
    exact ⟨b₂, b₃, hw, hb, rfl, .inl ⟨not_not.1 hz, rfl⟩⟩

/-- What an execution starts from, which is not zero: the amount of the request, or in max mode the collateral that an exact-in one
spends, or the debt that an exact-out one repays. -/
theorem startAmount_cases {l : Ledger} {start : Amount} (h : startAmount l r c mode market funding proceeds = .ok start) :
    start ≠ 0 ∧ (mode.isMax = false ∧ start = r.amount ∨ mode.isMax = true ∧
      (r.direction = .exactIn ∧ funding = .withdraw ∧
          start = market.collateralOf l r.caller (r.path.endpoints .exactIn).1 ∨
        r.direction = .exactOut ∧ proceeds = .repay ∧
          start = market.debtOf l r.caller (r.path.endpoints .exactOut).2)) := by
  unfold startAmount at h
  cases hm : mode.isMax with
  | false =>
    simp only [hm, Bool.false_eq_true, if_false, Attempt.bind_eq_ok, Attempt.refuse_eq_ok, Attempt.pure_eq_ok] at h
    obtain ⟨_, rfl, hne, rfl⟩ := h
    exact ⟨hne, .inl ⟨rfl, rfl⟩⟩
  | true =>
    rw [hm, if_pos rfl] at h
    cases hd : r.direction with
    | exactIn =>
      rw [hd] at h
      cases funding with
      | borrow =>
        obtain ⟨_, ht, -⟩ := Attempt.bind_eq_ok.1 h
        exact absurd ht Attempt.throw_ne_ok
      | withdraw =>
        simp only [Attempt.bind_eq_ok, Attempt.refuse_eq_ok, Attempt.pure_eq_ok] at h
        obtain ⟨_, rfl, hne, rfl⟩ := h
        exact ⟨hne, .inr ⟨rfl, .inl ⟨rfl, rfl, rfl⟩⟩⟩
    | exactOut =>
      rw [hd] at h
      cases proceeds with
      | supply =>
        obtain ⟨_, ht, -⟩ := Attempt.bind_eq_ok.1 h
        exact absurd ht Attempt.throw_ne_ok
      | repay =>
        simp only [Attempt.bind_eq_ok, Attempt.refuse_eq_ok, Attempt.pure_eq_ok] at h
        obtain ⟨_, rfl, hne, rfl⟩ := h
        exact ⟨hne, .inr ⟨rfl, .inr ⟨rfl, rfl, rfl⟩⟩⟩

/-- How the loan of a leveraged execution is sized, which is not zero: for its budget, or for the input that the swaps are quoted to
need. -/
theorem loanTerms_cases {l : Ledger} {start : Amount} {terms : LoanTerms} (h : e.loanTerms l r start = .ok terms) :
    terms.gross ≠ 0 ∧
      (r.direction = .exactIn ∧ e.lender.rate.sizeForBudget start e.lender.mode = .ok terms ∨
        r.direction = .exactOut ∧ ∃ fills required, e.quote l r.path .exactOut start = .ok (fills, required) ∧
          e.lender.rate.sizeForInput required e.lender.mode = .ok terms) := by
  unfold loanTerms at h
  cases hd : r.direction with
  | exactIn =>
    rw [hd] at h
    simp only [Attempt.bind_eq_ok, Attempt.refuse_eq_ok, Attempt.pure_eq_ok, Attempt.mapError_eq_ok] at h
    obtain ⟨_, hs, hne, rfl⟩ := h
    exact ⟨hne, .inl ⟨rfl, hs⟩⟩
  | exactOut =>
    rw [hd] at h
    simp only [Attempt.bind_eq_ok, Attempt.refuse_eq_ok, Attempt.pure_eq_ok, Attempt.mapError_eq_ok] at h
    obtain ⟨⟨fills, required⟩, hq, _, hs, hne, rfl⟩ := h
    exact ⟨hne, .inr ⟨rfl, fills, required, hq, hs⟩⟩

/-- The loan of a leveraged execution has the terms of its size at the lender's rate, and is not zero. -/
theorem loanTerms_eq_ok {l : Ledger} {start : Amount} {terms : LoanTerms} (h : e.loanTerms l r start = .ok terms) :
    e.lender.rate.terms terms.gross e.lender.mode = .ok terms ∧ terms.gross ≠ 0 := by
  obtain ⟨hne, ⟨-, hs⟩ | ⟨-, fills, required, -, hs⟩⟩ := loanTerms_cases h
  · exact ⟨FeeRate.terms_of_sizeForBudget hs, hne⟩
  · exact ⟨FeeRate.terms_of_sizeForInput hs, hne⟩

/-- What is owed for the loan of a leveraged execution is not zero, and no less than what the loan delivers. -/
theorem owed_of_loanTerms {l : Ledger} {start : Amount} {terms : LoanTerms} (h : e.loanTerms l r start = .ok terms) :
    terms.delivered ≤ terms.owed ∧ terms.owed ≠ 0 := by
  obtain ⟨hterms, hne⟩ := loanTerms_eq_ok h
  obtain ⟨hdelivered, hgross⟩ := FeeRate.terms_eq_ok hterms
  exact ⟨Nat.le_trans hdelivered hgross, FeeRate.owed_ne_zero hterms hne⟩

theorem loanTerms_reserve {l : Ledger} {start : Amount} {terms : LoanTerms} {address : Address} {rate : FeeRate}
    {feeMode : FeeMode} (hl : e.lender = .reserve address rate feeMode) (h : e.loanTerms l r start = .ok terms) :
    rate.terms terms.gross feeMode = .ok terms := by
  have hterms := (loanTerms_eq_ok h).1
  rw [hl] at hterms
  exact hterms

/-- A leveraged execution that comes to its settlement has taken a loan, of the size it was sized for, and has proceeded with it. -/
theorem borrow_of_leverage {s s' : Session Proceedings} {amount : Amount} {fills : List Fill} {loan : Option LoanReceipt}
    (h : e.leverage r c mode funding proceeds s = .ok (amount, fills, loan) s') :
    ∃ market start terms receipt, e.markets[mode.lender]? = some market ∧
      startAmount s.books.ledger r c mode market funding proceeds = .ok start ∧
      e.loanTerms s.books.ledger r start = .ok terms ∧
      LoanDesk.borrow e.lender ⟨r.caller, (r.path.endpoints r.direction).1, terms.gross, r.path, r.direction⟩
        (fun context => noting (e.proceed market funding proceeds (r.path.endpoints r.direction).2 start context)) .loan s =
          .ok receipt s' ∧
      amount = r.direction.pick s'.notes.swapped s'.notes.funded ∧ fills = s'.notes.fills ∧ loan = some receipt := by
  simp only [leverage, Step.bind_eq_ok, Step.lift_eq_ok, Step.get_eq_ok, Step.pure_eq_ok, Attempt.mapError_eq_ok] at h
  obtain ⟨market, _, ⟨hm, rfl⟩, _, _, ⟨rfl, rfl⟩, start, _, ⟨hs, rfl⟩, terms, _, ⟨hq, rfl⟩, receipt, _, hb, _, _, ⟨rfl, rfl⟩,
    he, rfl⟩ := h
  cases he
  exact ⟨market, start, terms, receipt, MarketBook.find_eq_ok.1 hm, hs, hq, hb, rfl, rfl, rfl⟩

/-- A leveraged execution that comes to its settlement has passed through all stages, with a loan on the terms that it was
sized for. -/
theorem leverage_sized {address : Address} {rate : FeeRate} {feeMode : FeeMode} {s s' : Session Proceedings}
    {amount : Amount} {fills : List Fill} {loan : Option LoanReceipt} (hl : e.lender = .reserve address rate feeMode)
    (h : e.leverage r c mode funding proceeds s = .ok (amount, fills, loan) s') :
    ∃ market start terms b₁ b₂ b₃ b₄, e.markets[mode.lender]? = some market ∧
      startAmount s.books.ledger r c mode market funding proceeds = .ok start ∧
      e.loanTerms s.books.ledger r start = .ok terms ∧
      e.Stages r market funding proceeds terms start s'.notes s.books b₁ b₂ b₃ b₄ s'.books ∧
      amount = r.direction.pick s'.notes.swapped s'.notes.funded ∧ fills = s'.notes.fills ∧
      loan = some ⟨address, (r.path.endpoints r.direction).1, terms, s.desk.nonce + 1⟩ := by
  obtain ⟨market, start, quoted, receipt, hm, hs, hq, hb, hamount, hfills, rfl⟩ := borrow_of_leverage h
  rw [hl] at hb
  obtain ⟨terms, b₁, w, ht, rfl, h₁, hw, henough, h₅, hn⟩ := LoanDesk.borrow_reserve_eq_ok hb
  obtain rfl : quoted = terms := Except.ok.inj ((loanTerms_reserve hl hq).symm.trans ht)
  obtain ⟨b₄, hp, rfl⟩ := noting_eq_ok hw
  obtain ⟨b₂, b₃, h₂, h₃, hf, h₄⟩ := proceed_eq_ok hp
  rw [hn] at hamount hfills ⊢
  refine ⟨market, start, quoted, b₁, b₂, b₃, w.books, hm, hs, hq, ⟨⟨?_, h₂, h₃, hf, h₄⟩, henough, ?_⟩, hamount, hfills, rfl⟩
  · rw [hl]
    exact h₁
  · rw [hl]
    exact h₅

/-- A leveraged execution that comes to its settlement has passed through all stages. -/
theorem leverage_eq_ok {address : Address} {rate : FeeRate} {feeMode : FeeMode} {s s' : Session Proceedings}
    {amount : Amount} {fills : List Fill} {loan : Option LoanReceipt} (hl : e.lender = .reserve address rate feeMode)
    (h : e.leverage r c mode funding proceeds s = .ok (amount, fills, loan) s') :
    ∃ market start gross terms b₁ b₂ b₃ b₄, e.markets[mode.lender]? = some market ∧ gross ≠ 0 ∧
      rate.terms gross feeMode = .ok terms ∧ startAmount s.books.ledger r c mode market funding proceeds = .ok start ∧
      e.Stages r market funding proceeds terms start s'.notes s.books b₁ b₂ b₃ b₄ s'.books ∧
      amount = r.direction.pick s'.notes.swapped s'.notes.funded ∧ fills = s'.notes.fills ∧
      loan = some ⟨address, (r.path.endpoints r.direction).1, terms, s.desk.nonce + 1⟩ := by
  obtain ⟨market, start, terms, b₁, b₂, b₃, b₄, hm, hs, hq, hst, hamount, hfills, hloan⟩ := leverage_sized hl h
  exact ⟨market, start, terms.gross, terms, b₁, b₂, b₃, b₄, hm, (loanTerms_eq_ok hq).2, loanTerms_reserve hl hq, hs, hst,
    hamount, hfills, hloan⟩

/-- While the money of the loan is used, whoever is neither the market nor a pool on the path keeps what they have. -/
theorem Underway.holds {terms : LoanTerms} {start : Amount} {done : Proceedings} {b b₁ b₂ b₃ b₄ : Books}
    (h : e.Underway r market funding proceeds terms start done b b₁ b₂ b₃ b₄) {k : Address} (hmarket : k ≠ market.address)
    (hpool : ¬e.venues.OnPath r.path r.direction k) (t : Address) : b₄.ledger.holds t k = b₁.ledger.holds t k := by
  have h₂ := walk_holds h.walked hpool t
  obtain ⟨-, hf, -⟩ := bring_eq_ok h.brought
  have h₃ := hf.holds t k
  rw [payment_of_ne hmarket, Int.add_zero] at h₃
  have h₄ : b₄.ledger.holds t k = b₃.ledger.holds t k := by
    rcases h.drawn with ⟨-, rfl⟩ | ⟨-, hd⟩
    · rfl
    · obtain ⟨-, hf, -⟩ := fund_eq_ok hd
      rw [hf.holds, payment_of_ne hmarket, Int.add_zero]
  rw [h₄, h₃, h₂]

namespace Stages

variable {terms : LoanTerms} {start : Amount} {done : Proceedings} {b b₁ b₂ b₃ b₄ b' : Books}

/-- Whoever is neither the lender, nor the market, nor a pool on the path, has as much as before. -/
theorem holds (h : e.Stages r market funding proceeds terms start done b b₁ b₂ b₃ b₄ b') {k : Address}
    (hlender : k ≠ e.lender.address) (hmarket : k ≠ market.address) (hpool : ¬e.venues.OnPath r.path r.direction k)
    (t : Address) : b'.ledger.holds t k = b.ledger.holds t k := by
  have h₁ := h.lent.holds t k
  have h₄ := h.toUnderway.holds hmarket hpool t
  have h₅ := h.repaid.holds t k
  rw [payment_of_ne hlender, Int.add_zero] at h₁ h₅
  rw [h₅, h₄, h₁]

/-- No position is written but the user's in the market, in the two tokens at the ends of the path. -/
theorem position_frame (h : e.Stages r market funding proceeds terms start done b b₁ b₂ b₃ b₄ b') {k u a : Address}
    (hk : ¬(k = market.address ∧ u = r.caller ∧
      (a = (r.path.endpoints r.direction).1 ∨ a = (r.path.endpoints r.direction).2))) :
    b'.ledger.position k u a = b.ledger.position k u a := by
  obtain ⟨paid, hw, -⟩ := walk_moved r.path.finalToken r.path.hops 0 h.walked
  obtain ⟨-, -, q, -, hq⟩ := bring_eq_ok h.brought
  have h₃ : b₃.ledger.position k u a = b₂.ledger.position k u a := by
    rw [hq.position, if_neg fun he => hk ⟨he.1, he.2.1, .inr he.2.2⟩]
  have h₄ : b₄.ledger.position k u a = b₃.ledger.position k u a := by
    rcases h.drawn with ⟨-, rfl⟩ | ⟨-, hf⟩
    · rfl
    · obtain ⟨-, -, ⟨q', -, hq'⟩, -⟩ := fund_eq_ok hf
      rw [hq'.position, if_neg fun he => hk ⟨he.1, he.2.1, .inl he.2.2⟩]
  rw [h.repaid.position, h₄, h₃, hw.position, h.lent.position]

end Stages

/-- A spot execution is a walk of the path from the amount of the request, which is not zero. -/
theorem spot_eq_ok {b b' : Books} {amount : Amount} {fills : List Fill} {loan : Option LoanReceipt}
    (h : e.spot r mode b = .ok (amount, fills, loan) b') :
    walk e.venues r.direction r.path.legs r.amount b = .ok (fills, amount) b' ∧ r.amount ≠ 0 ∧ loan = none := by
  simp only [spot, Step.refuse_eq_ok, Step.bind_eq_ok, Step.pure_eq_ok] at h
  obtain ⟨-, hne, ⟨fills, last⟩, _, hw, he, rfl⟩ := h
  cases he
  exact ⟨hw, hne, rfl⟩

/-- An execution up to the settlement: leveraged or spot, as the composition says. -/
def prepare (e : Engine) (r : Request) (c : Composition) (mode : Mode) :
    Step EngineError (Session Proceedings) (Amount × List Fill × Option LoanReceipt) :=
  match c.lending? with
  | some (funding, proceeds) => e.leverage r c mode funding proceeds
  | none => onBooks (e.spot r mode)

/-- What comes after: the check of the limit, and the settlement with the caller. -/
def conclude (r : Request) (c : Composition) (a : Amount × List Fill × Option LoanReceipt) :
    Step EngineError (Session Proceedings) Settled := do
  Step.lift (checkSlippage r.direction a.1 r.limit)
  let clearing := (← get).books.clearing
  let report ← onBooks (Books.onLedger ((clearing.settle r.caller).withError .ledger))
  return ⟨a.1, c, r.direction, a.2.1, a.2.2, report⟩

theorem settle_eq (e : Engine) (r : Request) (c : Composition) :
    e.settle r c = (do
      let mode ← Step.lift (r.path.mode.mapError .path)
      let a ← e.prepare r c mode
      conclude r c a) := by
  unfold settle prepare conclude
  cases c.lending? with
  | none => rfl
  | some legs => rfl

theorem checkSlippage_eq_ok {d : Direction} {amount limit : Amount} :
    checkSlippage d amount limit = .ok () ↔ d.pick (limit ≤ amount) (amount ≤ limit) := by
  cases d with
  | exactIn =>
    unfold checkSlippage Direction.pick
    by_cases hlt : amount < limit
    · simp only [if_pos hlt, reduceCtorEq, false_iff]
      exact Nat.not_le_of_lt hlt
    · simp only [if_neg hlt, true_iff]
      exact Nat.le_of_not_lt hlt
  | exactOut =>
    unfold checkSlippage Direction.pick
    by_cases hlt : limit < amount
    · simp only [if_pos hlt, reduceCtorEq, false_iff]
      exact Nat.not_le_of_lt hlt
    · simp only [if_neg hlt, true_iff]
      exact Nat.le_of_not_lt hlt

/-- What is concluded is within the limit. -/
theorem limit_of_conclude {a : Amount × List Fill × Option LoanReceipt} {s s' : Session Proceedings} {settled : Settled}
    (h : conclude r c a s = .ok settled s') : r.direction.pick (r.limit ≤ a.1) (a.1 ≤ r.limit) := by
  simp only [conclude, Step.bind_eq_ok, Step.lift_eq_ok] at h
  obtain ⟨_, _, ⟨hlimit, -⟩, -⟩ := h
  exact checkSlippage_eq_ok.1 hlimit

/-- In the end the clearing account is settled with the caller. -/
theorem settled_of_conclude {a : Amount × List Fill × Option LoanReceipt} {s s' : Session Proceedings} {settled : Settled}
    (h : conclude r c a s = .ok settled s') :
    ∃ report, s.books.clearing.settle r.caller s.books.ledger = .ok report s'.books.ledger ∧
      settled = ⟨a.1, c, r.direction, a.2.1, a.2.2, report⟩ ∧ s'.notes = s.notes := by
  simp only [conclude, Step.bind_eq_ok, Step.lift_eq_ok, Step.get_eq_ok, Step.pure_eq_ok, onBooks, Books.onLedger,
    Step.on_eq_ok, Step.withError_eq_ok] at h
  obtain ⟨_, _, ⟨-, rfl⟩, _, _, ⟨rfl, rfl⟩, report, _, ⟨_, ⟨l, hs, rfl⟩, rfl⟩, rfl, rfl⟩ := h
  exact ⟨report, hs, rfl, rfl⟩

/-- In the end the caller is paid, in every token, the net position of the clearing account; the report says what the account
held and owed. -/
theorem conclude_eq_ok {a : Amount × List Fill × Option LoanReceipt} {s s' : Session Proceedings} {settled : Settled}
    (h : conclude r c a s = .ok settled s') :
    Paid s.books.ledger s'.books.ledger (fun t k => if k = r.caller then s.books.clearing.net t else 0) ∧
      settled = ⟨a.1, c, r.direction, a.2.1, a.2.2, ⟨s.books.clearing.holdings, s.books.clearing.debts⟩⟩ ∧
      s'.notes = s.notes := by
  obtain ⟨report, hs, rfl, hnotes⟩ := settled_of_conclude h
  obtain ⟨rfl, hpaid⟩ := Clearing.settle_eq_ok hs
  exact ⟨hpaid, rfl, hnotes⟩

/-- An execution that succeeds has been prepared and then concluded. -/
theorem settle_eq_ok {s s' : Session Proceedings} {settled : Settled} (h : e.settle r c s = .ok settled s') :
    ∃ mode a s₁, r.path.mode = .ok mode ∧ e.prepare r c mode s = .ok a s₁ ∧ conclude r c a s₁ = .ok settled s' := by
  simp only [settle_eq, Step.bind_eq_ok, Step.lift_eq_ok, Attempt.mapError_eq_ok] at h
  obtain ⟨mode, _, ⟨hm, rfl⟩, a, s₁, hp, hc⟩ := h
  exact ⟨mode, a, s₁, hm, hp, hc⟩

theorem composition_of_settle {s s' : Session Proceedings} {settled : Settled} (h : e.settle r c s = .ok settled s') :
    settled.composition = c := by
  obtain ⟨mode, a, s₁, -, -, hconclude⟩ := settle_eq_ok h
  rw [(conclude_eq_ok hconclude).2.1]

/-- The session that an execution starts in: nothing held, nothing owed, nothing noted. -/
def session (e : Engine) (w : World) : Session Proceedings :=
  ⟨⟨⟨w.ledger, .new e.address⟩, ⟨[], 0, 0⟩⟩, w.desk⟩

theorem inSession_eq_ok {α : Type} {step : Step EngineError (Session Proceedings) α} {w w' : World} {a : α}
    (h : e.inSession step w = .ok a w') :
    ∃ s, step (e.session w) = .ok a s ∧ w' = ⟨s.books.ledger, s.desk⟩ := by
  obtain ⟨s, hs, rfl⟩ := Step.on_eq_ok.1 h
  exact ⟨s, hs, rfl⟩

section Settle

variable {w : World} {settled : Settled} {s : Session Proceedings}

/-- A leveraged execution that succeeds: its stages from a flat clearing account on, and the settlement of what is left. -/
theorem settle_leveraged {address : Address} {rate : FeeRate} {feeMode : FeeMode}
    (hl : e.lender = .reserve address rate feeMode) (hc : c.lending? = some (funding, proceeds))
    (h : e.settle r c (e.session w) = .ok settled s) :
    ∃ mode market start terms done b₁ b₂ b₃ b₄ b', r.path.mode = .ok mode ∧ e.markets[mode.lender]? = some market ∧
      startAmount w.ledger r c mode market funding proceeds = .ok start ∧ e.loanTerms w.ledger r start = .ok terms ∧
      e.Stages r market funding proceeds terms start done ⟨w.ledger, .new e.address⟩ b₁ b₂ b₃ b₄ b' ∧
      Paid b'.ledger s.books.ledger (fun t k => if k = r.caller then b'.clearing.net t else 0) ∧
      settled = ⟨r.direction.pick done.swapped done.funded, c, r.direction, done.fills,
        some ⟨address, (r.path.endpoints r.direction).1, terms, w.desk.nonce + 1⟩,
        ⟨b'.clearing.holdings, b'.clearing.debts⟩⟩ := by
  obtain ⟨mode, ⟨amount, fills, loan⟩, s₁, hmode, hp, hconclude⟩ := settle_eq_ok h
  simp only [prepare, hc] at hp
  obtain ⟨market, start, terms, b₁, b₂, b₃, b₄, hm, hstart, hterms, hst, rfl, rfl, rfl⟩ := leverage_sized hl hp
  obtain ⟨hpaid, hsettled, -⟩ := conclude_eq_ok hconclude
  exact ⟨mode, market, start, terms, s₁.notes, b₁, b₂, b₃, b₄, s₁.books, hmode, hm, hstart, hterms, hst, hpaid, hsettled⟩

/-- A spot execution that succeeds: a walk of the path from a flat clearing account on, and the settlement of what is left. -/
theorem settle_spot (hc : c.lending? = none) (h : e.settle r c (e.session w) = .ok settled s) :
    ∃ fills amount b', walk e.venues r.direction r.path.legs r.amount ⟨w.ledger, .new e.address⟩ = .ok (fills, amount) b' ∧
      r.amount ≠ 0 ∧ r.direction.pick (r.limit ≤ amount) (amount ≤ r.limit) ∧
      Paid b'.ledger s.books.ledger (fun t k => if k = r.caller then b'.clearing.net t else 0) ∧
      settled = ⟨amount, c, r.direction, fills, none, ⟨b'.clearing.holdings, b'.clearing.debts⟩⟩ := by
  obtain ⟨mode, ⟨amount, fills, loan⟩, s₁, -, hp, hconclude⟩ := settle_eq_ok h
  simp only [prepare, hc] at hp
  obtain ⟨b, hb, rfl⟩ := Step.on_eq_ok.1 hp
  obtain ⟨hw, hne, rfl⟩ := spot_eq_ok hb
  obtain ⟨hpaid, hsettled, -⟩ := conclude_eq_ok hconclude
  exact ⟨fills, amount, b, hw, hne, limit_of_conclude hconclude, hpaid, hsettled⟩

end Settle

theorem execute_eq_ok {w w' : World} {settled : Settled} (h : e.execute r w = .ok settled w') :
    ∃ c s, r.path.classify r.direction = .ok c ∧ e.settle r c (e.session w) = .ok settled s ∧
      w' = ⟨s.books.ledger, s.desk⟩ := by
  simp only [execute, Step.bind_eq_ok, Step.lift_eq_ok] at h
  obtain ⟨c, _, ⟨hc, rfl⟩, h⟩ := h
  obtain ⟨s, hs, rfl⟩ := inSession_eq_ok h
  exact ⟨c, s, hc, hs, rfl⟩

/-- An execution that must be of one composition is the execution of a path of that composition. -/
theorem executeAs_eq_ok {expected : Composition} {w w' : World} {settled : Settled}
    (h : e.executeAs r expected w = .ok settled w') :
    ∃ s, e.settle r expected (e.session w) = .ok settled s ∧ w' = ⟨s.books.ledger, s.desk⟩ := by
  simp only [executeAs, Step.bind_eq_ok, Step.lift_eq_ok, Step.refuse_eq_ok, not_not] at h
  obtain ⟨found, _, ⟨-, rfl⟩, rfl, h⟩ := h
  exact inSession_eq_ok h

/-! ## Relations that executions keep -/

/-- Every execution for the caller that succeeds leaves a ledger that is related to the one it has started from. -/
def Relates (e : Engine) (caller : Address) (R : Ledger → Ledger → Prop) : Prop :=
  ∀ ⦃r : Request⦄ ⦃c w settled s⦄, r.caller = caller → e.settle r c (e.session w) = .ok settled s →
    R w.ledger s.books.ledger

/-- A relation between books that every part of an execution for a user keeps: the swaps, what passes between the lender and the
clearing account, and the user's dealings with the markets of the engine. -/
structure KeptAlong (e : Engine) (user : Address) (R : Books → Books → Prop) : Prop where
  chains : Step.Chains R
  swap : ∀ s d amount, Step.Keeps R (e.venues.swap s d amount)
  loan : ∀ {b b' asset} {amount amount' : Int}, amount + amount' = 0 →
    Moved b b' (payment asset e.lender.address amount) (receipt asset amount') → R b b'
  bring : ∀ {id : UInt8} {market}, e.markets[id]? = some market →
    ∀ proceeds asset amount, Step.Keeps R (bring market proceeds user asset amount)
  fund : ∀ {id : UInt8} {market}, e.markets[id]? = some market →
    ∀ funding asset amount, Step.Keeps R (fund market funding user asset amount)

namespace KeptAlong

/-- The relation holds between the beginning of a leveraged execution and the end of its loan. -/
theorem stages {R : Books → Books → Prop} {b b₁ b₂ b₃ b₄ b' : Books} {terms : LoanTerms} {start : Amount}
    {done : Proceedings} {id : UInt8} (hR : e.KeptAlong r.caller R) (hm : e.markets[id]? = some market)
    (h : e.Stages r market funding proceeds terms start done b b₁ b₂ b₃ b₄ b') : R b b' := by
  have h₁ : R b b₁ := hR.loan (by omega) h.lent
  have h₂ : R b₁ b₂ := walk_keeps hR.chains (fun s amount => hR.swap s _ amount) _ _ h.walked
  have h₃ : R b₂ b₃ := hR.bring hm _ _ _ h.brought
  have h₄ : R b₃ b₄ := by
    rcases h.drawn with ⟨-, rfl⟩ | ⟨-, hf⟩
    · exact hR.chains.refl _
    · exact hR.fund hm _ _ _ hf
  have h₅ : R b₄ b' := hR.loan (by omega) h.repaid
  exact hR.chains.trans h₁ (hR.chains.trans h₂ (hR.chains.trans h₃ (hR.chains.trans h₄ h₅)))

/-- The relation holds between the beginning of an execution and its settlement. -/
theorem prepare {R : Books → Books → Prop} {address : Address} {rate : FeeRate} {feeMode : FeeMode}
    {s s' : Session Proceedings} {a : Amount × List Fill × Option LoanReceipt} (hR : e.KeptAlong r.caller R)
    (hl : e.lender = .reserve address rate feeMode) (h : e.prepare r c mode s = .ok a s') : R s.books s'.books := by
  cases hc : c.lending? with
  | none =>
    simp only [Engine.prepare, hc] at h
    obtain ⟨b, hb, rfl⟩ := Step.on_eq_ok.1 h
    exact walk_keeps hR.chains (fun s amount => hR.swap s _ amount) _ _ (spot_eq_ok hb).1
  | some legs =>
    simp only [Engine.prepare, hc] at h
    obtain ⟨market, start, gross, terms, b₁, b₂, b₃, b₄, hm, -, -, -, hst, -⟩ := leverage_eq_ok hl h
    exact hR.stages hm hst

/-- A relation between ledgers that payments to the user keep as well holds between the beginning and the end of an execution. -/
theorem relates {R : Ledger → Ledger → Prop} {user address : Address} {rate : FeeRate} {feeMode : FeeMode}
    (hR : e.KeptAlong user fun b b' => R b.ledger b'.ledger)
    (hpay : ∀ {l l' p}, Paid l l' p → (∀ t k, k ≠ user → p t k = 0) → R l l')
    (hl : e.lender = .reserve address rate feeMode) : e.Relates user R := by
  rintro r c w settled s rfl h
  obtain ⟨mode, a, s₁, -, hp, hc⟩ := settle_eq_ok h
  obtain ⟨hpaid, -, -⟩ := conclude_eq_ok hc
  have hprepared : R (e.session w).books.ledger s₁.books.ledger := hR.prepare hl hp
  have hsettled : R s₁.books.ledger s.books.ledger := hpay hpaid fun t k hk => if_neg hk
  show R (e.session w).books.ledger s.books.ledger
  exact hR.chains.trans hprepared hsettled

end KeptAlong

/-- A relation between books that movements of money keep, and that the markets of the engine keep in their dealings with a
user. -/
structure KeptBy (e : Engine) (user : Address) (R : Books → Books → Prop) : Prop where
  chains : Step.Chains R
  moved : ∀ {b b' p g}, Moved b b' p g → (∀ t, (∑ k : Address, p t k) + g t = 0) → R b b'
  bring : ∀ {id : UInt8} {market}, e.markets[id]? = some market →
    ∀ proceeds asset amount, Step.Keeps R (bring market proceeds user asset amount)
  fund : ∀ {id : UInt8} {market}, e.markets[id]? = some market →
    ∀ funding asset amount, Step.Keeps R (fund market funding user asset amount)

/-- Swaps and loans are movements of money. -/
theorem KeptBy.along {user : Address} {R : Books → Books → Prop} (hR : e.KeptBy user R) : e.KeptAlong user R where
  chains := hR.chains
  swap s _ _ _ _ _ h := hR.moved (VenueBook.swap_eq_ok h).2 (VenueBook.sum_paid_add_gained s _)
  loan hz h := hR.moved h (sum_payment_add_receipt _ _ hz)
  bring := hR.bring
  fund := hR.fund

end Engine

end MarginRouter
