import MarginRouter.Engine.Execute
import MarginRouter.Proofs.Clearing

/-!
# Money and positions in lending markets

What supply, withdraw, borrow and repay do when they succeed: the money that flows between the market and the clearing
account, the one position that is written, and, after money has been handed out, the health that has been checked.
-/

namespace MarginRouter

open Ledger Clearing Books

theorem MarketError.checked_eq_some {n : Nat} {a : Amount} (h : MarketError.checked n = .ok a) : a.toNat = n :=
  MarketError.checked_eq_ok.1 h

/-- `p'` is the position `p` after the proceeds `amount` have been brought: as collateral, or against the debt. -/
def Proceeds.Brings (proceeds : Proceeds) (amount : Amount) (p p' : Position) : Prop :=
  match proceeds with
  | .supply => p'.collateral.toNat = p.collateral.toNat + amount.toNat ∧ p'.debt = p.debt
  | .repay => p'.collateral = p.collateral ∧ p'.debt.toNat = p.debt.toNat - min amount.toNat p.debt.toNat

/-- What the market takes of the proceeds: all of them, or no more than the debt. -/
def Proceeds.taken (proceeds : Proceeds) (amount : Amount) (p : Position) : Nat :=
  match proceeds with
  | .supply => amount.toNat
  | .repay => min amount.toNat p.debt.toNat

/-- `p'` is the position `p` after `amount` has been handed out: as a loan, or out of the collateral. -/
def Funding.Takes (funding : Funding) (amount : Amount) (p p' : Position) : Prop :=
  match funding with
  | .borrow => p'.collateral = p.collateral ∧ p'.debt.toNat = p.debt.toNat + amount.toNat
  | .withdraw => p.collateral.toNat = p'.collateral.toNat + amount.toNat ∧ p'.debt = p.debt

namespace Books

variable {b b' b'' : Books} {p : Address → Address → Int} {g : Address → Int}

/-- The positions of the books are those of `b` with one position of `user` in `market` written. -/
def Wrote (b b' : Books) (market user asset : Address) (q : Position) : Prop :=
  b'.ledger.positions = (b.ledger.setPosition market user asset q).positions

theorem Wrote.position {market user asset : Address} {q : Position} (h : Wrote b b' market user asset q)
    (m u a : Address) :
    b'.ledger.position m u a = if m = market ∧ u = user ∧ a = asset then q else b.ledger.position m u a := by
  rw [← position_setPosition, Ledger.position, h, Ledger.position]

theorem Wrote.after {market user asset : Address} {q : Position} (h : Wrote b' b'' market user asset q)
    (hm : Moved b b' p g) : Wrote b b'' market user asset q := by
  refine h.trans ?_
  unfold Ledger.setPosition
  rw [hm.positions]
  split <;> rfl

theorem Wrote.before {market user asset : Address} {q : Position} (h : Wrote b b' market user asset q)
    (hm : Moved b' b'' p g) : Wrote b b'' market user asset q :=
  hm.positions.trans h

end Books

namespace Market

variable {m : Market} {user asset : Address} {amount : Amount} {b b' : Books} {u : Unit}

theorem moved_absorb (h : m.absorb asset amount b = .ok u b') :
    Moved b b' (payment asset m.address amount.toNat) (receipt asset (-amount.toNat)) := by
  simp only [absorb, Step.bind_eq_ok, Step.withError_eq_ok] at h
  obtain ⟨_, b₁, h₁, h₂⟩ := h
  refine ((moved_clear_debit h₁).trans (moved_credit h₂)).congr (fun t k => ?_) fun t => ?_
  · simp
  · simp

theorem moved_release (h : m.release asset amount b = .ok u b') :
    Moved b b' (payment asset m.address (-amount.toNat)) (receipt asset amount.toNat) := by
  simp only [release, Step.bind_eq_ok, Step.withError_eq_ok, Step.get_eq_ok, Step.refuse_eq_ok] at h
  obtain ⟨_, _, ⟨rfl, rfl⟩, -, _, b₁, h₁, h₂⟩ := h
  refine ((moved_debit h₁).trans (moved_clear_credit h₂)).congr (fun t k => ?_) fun t => ?_
  · simp
  · simp

/-- Writing a position moves no money. -/
theorem flow_setPosition {q : Position} (h : m.setPosition user asset q b = .ok u b') :
    Flow b b' 0 0 ∧ Wrote b b' m.address user asset q := by
  have hb : _ = b' := Step.modify_eq_ok.1 h
  subst hb
  refine ⟨⟨fun t k => ?_, Gained.refl _⟩, rfl⟩
  simp [Ledger.holds]

theorem supply_eq_ok (h : m.supply user asset amount b = .ok u b') :
    (∃ t, m.terms asset = .ok t) ∧
      Flow b b' (payment asset m.address amount.toNat) (receipt asset (-amount.toNat)) ∧
      ∃ q, Proceeds.supply.Brings amount (m.position b.ledger user asset) q ∧ Wrote b b' m.address user asset q := by
  simp only [supply, Step.bind_eq_ok, Step.lift_eq_ok, Step.get_eq_ok] at h
  obtain ⟨t, _, ⟨ht, rfl⟩, _, b₁, ha, _, _, ⟨rfl, rfl⟩, c, _, ⟨hc, rfl⟩, hs⟩ := h
  have hm := moved_absorb ha
  obtain ⟨hf, hw⟩ := flow_setPosition hs
  have hp : m.position b₁.ledger user asset = m.position b.ledger user asset := hm.position _ _ _
  rw [hp] at hc hw
  refine ⟨⟨t, ht⟩, ?_, ⟨c, _⟩, ⟨MarketError.checked_eq_some hc, rfl⟩, hw.after hm⟩
  simpa using hm.toFlow.trans hf

/-- What has been handed out was there to be had, and the user's health has been checked after it. -/
theorem withdraw_eq_ok (h : m.withdraw user asset amount b = .ok u b') :
    (∃ t, m.terms asset = .ok t) ∧
      Flow b b' (payment asset m.address (-amount.toNat)) (receipt asset amount.toNat) ∧
      (∃ q, Funding.withdraw.Takes amount (m.position b.ledger user asset) q ∧ Wrote b b' m.address user asset q) ∧
      ∃ l, l.positions = b'.ledger.positions ∧ m.checkHealth l user = .ok () := by
  simp only [withdraw, Step.bind_eq_ok, Step.lift_eq_ok, Step.get_eq_ok, Step.refuse_eq_ok] at h
  obtain ⟨t, _, ⟨ht, rfl⟩, _, _, ⟨rfl, rfl⟩, hle, _, b₁, hs, _, _, ⟨rfl, rfl⟩, _, _, ⟨hh, rfl⟩, hr⟩ := h
  obtain ⟨hf, hw⟩ := flow_setPosition hs
  have hm := moved_release hr
  refine ⟨⟨t, ht⟩, ?_, ⟨⟨_ - _, _⟩, ⟨?_, rfl⟩, hw.before hm⟩, _, hm.positions.symm, hh⟩
  · simpa using hf.trans hm.toFlow
  · have hn := mt Amount.lt_def.2 hle
    simp only [Amount.toNat_sub]
    omega

theorem borrow_eq_ok (h : m.borrow user asset amount b = .ok u b') :
    (∃ t, m.terms asset = .ok t) ∧
      Flow b b' (payment asset m.address (-amount.toNat)) (receipt asset amount.toNat) ∧
      (∃ q, Funding.borrow.Takes amount (m.position b.ledger user asset) q ∧ Wrote b b' m.address user asset q) ∧
      ∃ l, l.positions = b'.ledger.positions ∧ m.checkHealth l user = .ok () := by
  simp only [borrow, Step.bind_eq_ok, Step.lift_eq_ok, Step.get_eq_ok] at h
  obtain ⟨t, _, ⟨ht, rfl⟩, _, _, ⟨rfl, rfl⟩, d, _, ⟨hd, rfl⟩, _, b₁, hs, _, _, ⟨rfl, rfl⟩, _, _, ⟨hh, rfl⟩, hr⟩ := h
  obtain ⟨hf, hw⟩ := flow_setPosition hs
  have hm := moved_release hr
  refine ⟨⟨t, ht⟩, ?_, ⟨⟨_, d⟩, ⟨rfl, MarketError.checked_eq_some hd⟩, hw.before hm⟩, _, hm.positions.symm, hh⟩
  simpa using hf.trans hm.toFlow

theorem toNat_min (a c : Amount) : (min a c).toNat = min a.toNat c.toNat := by
  show (if a ≤ c then a else c).toNat = _
  by_cases h : a ≤ c
  · rw [if_pos h, Nat.min_eq_left (Amount.le_def.1 h)]
  · have hlt := mt Amount.le_def.2 h
    rw [if_neg h, Nat.min_eq_right (by omega)]

/-- A repayment takes no more than the debt, and answers what it has taken. -/
theorem repay_eq_ok {repaid : Amount} (h : m.repay user asset amount b = .ok repaid b') :
    (∃ t, m.terms asset = .ok t) ∧
      repaid.toNat = Proceeds.repay.taken amount (m.position b.ledger user asset) ∧
      Flow b b' (payment asset m.address repaid.toNat) (receipt asset (-repaid.toNat)) ∧
      ∃ q, Proceeds.repay.Brings amount (m.position b.ledger user asset) q ∧ Wrote b b' m.address user asset q := by
  simp only [repay, Step.bind_eq_ok, Step.lift_eq_ok, Step.get_eq_ok, Step.pure_eq_ok] at h
  obtain ⟨t, _, ⟨ht, rfl⟩, _, _, ⟨rfl, rfl⟩, _, b₁, ha, _, _, hs, rfl, rfl⟩ := h
  have hm := moved_absorb ha
  obtain ⟨hf, hw⟩ := flow_setPosition hs
  refine ⟨⟨t, ht⟩, toNat_min _ _, ?_, ⟨_, _ - _⟩, ⟨rfl, ?_⟩, hw.after hm⟩
  · simpa using hm.toFlow.trans hf
  · rw [Amount.toNat_sub, toNat_min]

end Market

namespace Engine

variable {m : Market} {user asset : Address} {amount : Amount} {b b' : Books} {u : Unit}

/-- Bringing the proceeds to the market: what flows, and the position that is written. -/
theorem bring_eq_ok {proceeds : Proceeds} (h : bring m proceeds user asset amount b = .ok u b') :
    (∃ t, m.terms asset = .ok t) ∧
      Flow b b' (payment asset m.address (proceeds.taken amount (m.position b.ledger user asset)))
        (receipt asset (-(proceeds.taken amount (m.position b.ledger user asset) : Nat))) ∧
      ∃ q, proceeds.Brings amount (m.position b.ledger user asset) q ∧ Wrote b b' m.address user asset q := by
  cases proceeds with
  | supply => exact Market.supply_eq_ok h
  | repay =>
    simp only [bring, Step.bind_eq_ok, Step.pure_eq_ok] at h
    obtain ⟨repaid, _, hr, -, rfl⟩ := h
    obtain ⟨ht, hn, hf, hw⟩ := Market.repay_eq_ok hr
    rw [hn] at hf
    exact ⟨ht, hf, hw⟩

/-- Getting the missing money from the market: what flows, the position that is written, and the check of health. -/
theorem fund_eq_ok {funding : Funding} (h : fund m funding user asset amount b = .ok u b') :
    (∃ t, m.terms asset = .ok t) ∧
      Flow b b' (payment asset m.address (-amount.toNat)) (receipt asset amount.toNat) ∧
      (∃ q, funding.Takes amount (m.position b.ledger user asset) q ∧ Wrote b b' m.address user asset q) ∧
      ∃ l, l.positions = b'.ledger.positions ∧ m.checkHealth l user = .ok () := by
  cases funding with
  | borrow => exact Market.borrow_eq_ok h
  | withdraw => exact Market.withdraw_eq_ok h

end Engine

end MarginRouter
