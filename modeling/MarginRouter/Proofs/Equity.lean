import MarginRouter.Proofs.Health

/-!
# Equity of markets

A market's equity in an asset is what it holds of it and what its users owe it, less what they have given it as collateral.
Whatever a market takes in it books as collateral or as debt paid back, and whatever it hands out it books as collateral taken
back or as debt, so its equity stays as it is, as long as nobody else moves money from or to its address.
-/

namespace MarginRouter

open Ledger Clearing Books

/-- What a position owes to the market, less what it has given to it. -/
def Position.owing (p : Position) : Int :=
  p.debt.toNat - p.collateral.toNat

/-- A position that proceeds have been brought to owes as much less as the market has taken. -/
theorem Proceeds.Brings.owing {proceeds : Proceeds} {amount : Amount} {p q : Position} (h : proceeds.Brings amount p q) :
    q.owing = p.owing - proceeds.taken amount p := by
  unfold Position.owing
  cases proceeds with
  | supply =>
    obtain ⟨hc, hd⟩ := h
    rw [hc, hd, taken]
    omega
  | repay =>
    obtain ⟨hc, hd⟩ := h
    rw [hc, hd, taken]
    omega

/-- A position that an amount has been handed out to owes as much more. -/
theorem Funding.Takes.owing {funding : Funding} {amount : Amount} {p q : Position} (h : funding.Takes amount p q) :
    q.owing = p.owing + amount.toNat := by
  unfold Position.owing
  cases funding with
  | borrow =>
    obtain ⟨hc, hd⟩ := h
    rw [hc, hd]
    omega
  | withdraw =>
    obtain ⟨hc, hd⟩ := h
    rw [hc, hd]
    omega

namespace Market

variable {m : Market} {l l' : Ledger} {b b' : Books} {user asset : Address} {p : Address → Address → Int}

/-- What the market holds of an asset and what its users owe it, less what they have given it. -/
def equity (m : Market) (l : Ledger) (asset : Address) : Int :=
  l.holds asset m.address + ∑ user : Address, ((m.debtOf l user asset).toNat : Int) -
    ∑ user : Address, ((m.collateralOf l user asset).toNat : Int)

theorem equity_eq (m : Market) (l : Ledger) (asset : Address) :
    m.equity l asset = l.holds asset m.address + ∑ user : Address, (m.position l user asset).owing := by
  unfold equity Position.owing
  rw [Finset.sum_sub_distrib, Int.add_sub_assoc]
  rfl

/-- The equity of the market in every asset is the same. -/
def KeepsEquity (m : Market) (l l' : Ledger) : Prop :=
  ∀ asset, m.equity l' asset = m.equity l asset

theorem KeepsEquity.chains (m : Market) : Step.Chains m.KeepsEquity :=
  ⟨fun _ _ => rfl, fun h h' asset => (h' asset).trans (h asset)⟩

/-- Equity depends on the balances of the market and on the positions in it alone. -/
theorem KeepsEquity.congr (hb : ∀ asset, l'.holds asset m.address = l.holds asset m.address)
    (hp : ∀ user asset, l'.position m.address user asset = l.position m.address user asset) : m.KeepsEquity l l' := by
  intro asset
  simp only [equity_eq, position, hb, hp]

/-- Payments to others are nothing to the market. -/
theorem KeepsEquity.of_paid (h : Paid l l' p) (hz : ∀ asset, p asset m.address = 0) : m.KeepsEquity l l' := by
  refine .congr (fun asset => ?_) fun user asset => h.position _ _ _
  rw [h.holds, hz, Int.add_zero]

/-- Where another market deals with a user, nothing changes for this one. -/
theorem KeepsEquity.of_other {market : Address} {amount : Int} {g : Address → Int} {q : Position}
    (hf : Flow b b' (payment asset market amount) g) (hw : Wrote b b' market user asset q) (hm : m.address ≠ market) :
    m.KeepsEquity b.ledger b'.ledger := by
  refine .congr (fun a => ?_) fun u a => ?_
  · rw [hf.holds, payment_of_ne hm, Int.add_zero]
  · rw [hw.position, if_neg fun hk => hm hk.1]

/-- Where the market takes in an amount and the position that it writes owes as much less, its equity stays as it is. -/
theorem KeepsEquity.of_booked {amount : Int} {g : Address → Int} {q : Position}
    (hf : Flow b b' (payment asset m.address amount) g) (hw : Wrote b b' m.address user asset q)
    (hq : q.owing = (m.position b.ledger user asset).owing - amount) : m.KeepsEquity b.ledger b'.ledger := by
  intro a
  have howing : ∀ u, (m.position b'.ledger u a).owing =
      (m.position b.ledger u a).owing + payment asset user (-amount) a u := by
    intro u
    unfold payment
    by_cases hk : a = asset ∧ u = user
    · obtain ⟨rfl, rfl⟩ := hk
      have hp : m.position b'.ledger u a = q := by
        rw [position, hw.position, if_pos ⟨rfl, rfl, rfl⟩]
      rw [hp, hq, if_pos ⟨rfl, rfl⟩, Int.sub_eq_add_neg]
    · have hp : m.position b'.ledger u a = m.position b.ledger u a := by
        rw [position, hw.position, if_neg fun he => hk ⟨he.2.2, he.2.1⟩, position]
      rw [hp, if_neg hk, Int.add_zero]
  have hholds : b'.ledger.holds a m.address = b.ledger.holds a m.address + if a = asset then amount else 0 := by
    rw [hf.holds, payment]
    simp
  rw [equity_eq, equity_eq, hholds, Finset.sum_congr rfl fun u _ => howing u, Finset.sum_add_distrib, sum_payment]
  split_ifs <;> omega

/-- Bringing proceeds to the market keeps its equity. -/
theorem keepsEquity_bring {proceeds : Proceeds} {amount : Amount} {u : Unit}
    (h : Engine.bring m proceeds user asset amount b = .ok u b') : m.KeepsEquity b.ledger b'.ledger := by
  obtain ⟨-, hf, q, hq, hw⟩ := Engine.bring_eq_ok h
  exact .of_booked hf hw hq.owing

/-- Handing out money keeps the market's equity. -/
theorem keepsEquity_fund {funding : Funding} {amount : Amount} {u : Unit}
    (h : Engine.fund m funding user asset amount b = .ok u b') : m.KeepsEquity b.ledger b'.ledger := by
  obtain ⟨-, hf, ⟨q, hq, hw⟩, -⟩ := Engine.fund_eq_ok h
  refine .of_booked hf hw ?_
  rw [hq.owing, Int.sub_neg]

end Market

namespace Engine

variable {e : Engine} {m : Market} {user : Address}

/-- No other market, no pool and no lender uses the market's address. -/
structure SetsApart (e : Engine) (m : Market) : Prop where
  market : e.OwnAddress m
  pool : ∀ s pool, e.venues.Serves s pool → pool ≠ m.address
  lender : e.lender.address ≠ m.address

/-- Every part of an execution for somebody else keeps the equity of a market with an address of its own. -/
theorem SetsApart.keptAlong (hm : e.SetsApart m) (user : Address) :
    e.KeptAlong user fun b b' => m.KeepsEquity b.ledger b'.ledger where
  chains := (Market.KeepsEquity.chains m).on Books.ledger
  swap := by
    intro s d amount b f b' h
    obtain ⟨hq, hmoved⟩ := VenueBook.swap_eq_ok h
    have hpool := hm.pool s f.pool (VenueBook.quote_eq_ok hq).2
    exact .of_paid hmoved.paid fun asset => VenueBook.paid_eq_zero hpool asset
  loan := by
    intro b b' asset amount amount' _ h
    exact .of_paid h.paid (payment_of_ne hm.lender.symm asset amount)
  bring := by
    intro id market hmarket proceeds asset amount b u b' h
    by_cases ha : market.address = m.address
    · rw [hm.market id market hmarket ha] at h
      exact Market.keepsEquity_bring h
    · obtain ⟨-, hf, q, -, hw⟩ := bring_eq_ok h
      exact .of_other hf hw (Ne.symm ha)
  fund := by
    intro id market hmarket funding asset amount b u b' h
    by_cases ha : market.address = m.address
    · rw [hm.market id market hmarket ha] at h
      exact Market.keepsEquity_fund h
    · obtain ⟨-, hf, ⟨q, -, hw⟩, -⟩ := fund_eq_ok h
      exact .of_other hf hw (Ne.symm ha)

theorem SetsApart.relates {address : Address} {rate : FeeRate} {feeMode : FeeMode} (hm : e.SetsApart m)
    (hl : e.lender = .reserve address rate feeMode) (hu : user ≠ m.address) : e.Relates user m.KeepsEquity :=
  (hm.keptAlong user).relates (fun h hz => .of_paid h fun asset => hz asset m.address hu.symm) hl

end Engine

namespace Router

variable {r : Router} {m : Market}

/-- The books of a market balance. In a router of the built-in parts, for a market whose address no other market, no pool and
no lender uses: no call of anybody but the market itself, whether it succeeds or fails, and so no run of such calls, changes
what the market holds of an asset and what its users owe it less what they have given it. -/
theorem equity_kept (hr : r.BuiltIn) (hm : r.engine.SetsApart m) :
    (∀ caller calldata, caller ≠ m.address →
      ∀ asset, m.equity (r.afterCall caller calldata).ledger asset = m.equity r.ledger asset) ∧
    (∀ calls : List (Address × List UInt8), (∀ call ∈ calls, call.1 ≠ m.address) →
      ∀ asset, m.equity (r.after calls).ledger asset = m.equity r.ledger asset) := by
  obtain ⟨address, rate, feeMode, hl⟩ := hr.lender
  exact hr.related (Market.KeepsEquity.chains m) fun caller hcaller => hm.relates hl hcaller

end Router

namespace Sample

theorem pool_of_serves {s : Swap} {pool : Address} (h : router.engine.venues.Serves s pool) : pool = .ofNat 5 := by
  obtain ⟨-, h⟩ := VenueBook.serves_insert.1 h
  simp only [Venue.pool, Std.ExtTreeMap.getElem?_insert] at h
  split at h
  · exact (Except.ok.inj h).symm
  · cases h

theorem setsApart_market : router.engine.SetsApart market where
  market := ownAddress_market
  pool s pool h := by
    rw [pool_of_serves h]
    decide
  lender := by decide

end Sample

/-- `equity_kept` at a call that closes a position, and at as many of them as one likes: the market holds more of token 11 after
the first, and its equity is what it was. -/
theorem Router.equity_kept_close :
    Sample.router.engine.markets[(0 : UInt8)]? = some Sample.market ∧
    (Sample.router.afterCall (.ofNat 7) Sample.calldata).ledger.balance (.ofNat 11) Sample.market.address ≠
      Sample.router.ledger.balance (.ofNat 11) Sample.market.address ∧
    (∀ asset, Sample.market.equity (Sample.router.afterCall (.ofNat 7) Sample.calldata).ledger asset =
      Sample.market.equity Sample.router.ledger asset) ∧
    ∀ n asset, Sample.market.equity (Sample.router.after (List.replicate n (.ofNat 7, Sample.calldata))).ledger asset =
      Sample.market.equity Sample.router.ledger asset := by
  obtain ⟨hcall, hrun⟩ := Router.equity_kept Sample.builtIn_router Sample.setsApart_market
  refine ⟨?_, by decide +kernel, hcall _ _ (by decide), fun n => hrun _ fun call hc => ?_⟩
  · rw [Sample.getElem?_markets, if_pos rfl]
  · rw [List.eq_of_mem_replicate hc]
    decide

end MarginRouter
