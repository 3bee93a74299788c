import Mathlib.Algebra.Order.BigOperators.Group.Finset
import MarginRouter.Proofs.Router

/-!
# Health

A user is healthy in a market when all positions of the user are in listed assets and the collateral, weighted asset by asset
and rounded down there, is worth the debt, in exact numbers. The check that a market makes implies it. Supplying and repaying
keep it, since one summand of one sum changes and the right way; borrowing and withdrawing check it at the end; nothing else
writes positions.
-/

namespace MarginRouter

open Ledger Clearing Books

namespace Market

variable {m : Market} {l l' : Ledger} {user asset : Address}

/-- What the collateral of a position counts for; nothing if the asset is not listed. -/
def collateralValue (m : Market) (asset : Address) (p : Position) : Nat :=
  (m.assets[asset]?).elim 0 fun t => p.collateral.toNat * t.price.toNat * t.ltv / 10000

/-- What the debt of a position is worth; nothing if the asset is not listed. -/
def debtValue (m : Market) (asset : Address) (p : Position) : Nat :=
  (m.assets[asset]?).elim 0 fun t => p.debt.toNat * t.price.toNat

@[simp] theorem collateralValue_empty (m : Market) (asset : Address) : m.collateralValue asset .empty = 0 := by
  unfold collateralValue
  cases m.assets[asset]? with
  | none => rfl
  | some t => simp [Position.empty]

@[simp] theorem debtValue_empty (m : Market) (asset : Address) : m.debtValue asset .empty = 0 := by
  unfold debtValue
  cases m.assets[asset]? with
  | none => rfl
  | some t => simp [Position.empty]

theorem collateralValue_mono {p q : Position} (h : p.collateral.toNat ≤ q.collateral.toNat) :
    m.collateralValue asset p ≤ m.collateralValue asset q := by
  unfold collateralValue
  cases m.assets[asset]? with
  | none => exact Nat.le_refl 0
  | some t => exact Nat.div_le_div_right (Nat.mul_le_mul_right _ (Nat.mul_le_mul_right _ h))

theorem debtValue_mono {p q : Position} (h : p.debt.toNat ≤ q.debt.toNat) : m.debtValue asset p ≤ m.debtValue asset q := by
  unfold debtValue
  cases m.assets[asset]? with
  | none => exact Nat.le_refl 0
  | some t => exact Nat.mul_le_mul_right _ h

/-- All positions of the user are in listed assets, and the collateral is worth the debt. -/
structure Healthy (m : Market) (l : Ledger) (user : Address) : Prop where
  listed : ∀ asset, l.position m.address user asset ≠ .empty → asset ∈ m.assets
  covered : ∑ asset : Address, m.debtValue asset (l.position m.address user asset) ≤
    ∑ asset : Address, m.collateralValue asset (l.position m.address user asset)

/-! ## The check -/

theorem terms_eq_ok {t : AssetTerms} : m.terms asset = .ok t ↔ m.assets[asset]? = some t := by
  unfold terms
  cases m.assets[asset]? with
  | none => simp
  | some n => simp

/-- One position adds its values to the sums, exactly. -/
theorem addValue_eq_ok {sums sums' : Amount × Amount} {entry : Address × Position}
    (h : m.addValue sums entry = .ok sums') :
    entry.1 ∈ m.assets ∧ sums'.1.toNat = sums.1.toNat + m.collateralValue entry.1 entry.2 ∧
      sums'.2.toNat = sums.2.toNat + m.debtValue entry.1 entry.2 := by
  simp only [addValue, Attempt.bind_eq_ok, Attempt.pure_eq_ok] at h
  obtain ⟨t, ht, value, hv, scaled, hs, collateral, hc, owed, ho, debt, hd, rfl⟩ := h
  have ht := terms_eq_ok.1 ht
  have hv := MarketError.checked_eq_some hv
  have hs := MarketError.checked_eq_some hs
  have hc := MarketError.checked_eq_some hc
  have ho := MarketError.checked_eq_some ho
  have hd := MarketError.checked_eq_some hd
  refine ⟨?_, ?_, ?_⟩
  · rw [← Std.ExtTreeMap.isSome_getElem?_iff_mem, ht]
    rfl
  · rw [hc, hs, hv, collateralValue, ht]
    rfl
  · rw [hd, ho, debtValue, ht]
    rfl

/-- A list of positions adds up its values, exactly. -/
theorem foldlM_addValue_eq_ok :
    ∀ {entries : List (Address × Position)} {sums sums' : Amount × Amount}, entries.foldlM m.addValue sums = .ok sums' →
      (∀ e ∈ entries, e.1 ∈ m.assets) ∧
      sums'.1.toNat = sums.1.toNat + (entries.map fun e => m.collateralValue e.1 e.2).sum ∧
      sums'.2.toNat = sums.2.toNat + (entries.map fun e => m.debtValue e.1 e.2).sum
  | [], sums, sums', h => by
    obtain rfl := Attempt.pure_eq_ok.1 h
    exact ⟨fun _ he => absurd he List.not_mem_nil, (Nat.add_zero _).symm, (Nat.add_zero _).symm⟩
  | e :: entries, sums, sums', h => by
    obtain ⟨next, hn, h⟩ := Attempt.bind_eq_ok.1 h
    obtain ⟨hl, hc, hd⟩ := addValue_eq_ok hn
    obtain ⟨hl', hc', hd'⟩ := foldlM_addValue_eq_ok h
    refine ⟨?_, ?_, ?_⟩
    · intro e' he
      rcases List.mem_cons.1 he with rfl | he
      · exact hl
      · exact hl' e' he
    · rw [hc', hc, List.map_cons, List.sum_cons]
      omega
    · rw [hd', hd, List.map_cons, List.sum_cons]
      omega

/-- A sum over the stored positions of a user in a market is a sum over all assets. -/
theorem sum_positionsOf {value : Address → Position → Nat} (hz : ∀ asset, value asset .empty = 0) (m : Market) (l : Ledger)
    (user : Address) :
    ((l.positionsOf m.address user).map fun e => value e.1 e.2).sum =
      ∑ asset : Address, value asset (l.position m.address user asset) := by
  refine (Table.sum_entries l.nodup_positionsOf (fun _ _ => l.mem_positionsOf_iff) value).trans
    (Finset.sum_congr rfl fun a _ => ?_)
  unfold Ledger.position
  cases l.positions[(⟨m.address, user, a⟩ : PositionKey)]? with
  | none => exact (hz a).symm
  | some p => rfl

/-- A position that is not empty is among the stored ones. -/
theorem mem_positionsOf (h : l.position m.address user asset ≠ .empty) :
    (asset, l.position m.address user asset) ∈ l.positionsOf m.address user := by
  cases hp : l.positions[(⟨m.address, user, asset⟩ : PositionKey)]? with
  | none =>
    refine absurd ?_ h
    rw [Ledger.position, hp]
    rfl
  | some p =>
    rw [Ledger.mem_positionsOf_iff, Ledger.position, hp]
    rfl

/-- Who passes the check is healthy. -/
theorem healthy_of_checkHealth (h : m.checkHealth l user = .ok ()) : m.Healthy l user := by
  unfold checkHealth at h
  obtain ⟨⟨collateral, debt⟩, hf, h⟩ := Attempt.bind_eq_ok.1 h
  obtain ⟨hl, hc, hd⟩ := foldlM_addValue_eq_ok hf
  have hle : debt.toNat ≤ collateral.toNat := by
    simp only at h
    split at h
    · exact absurd h Attempt.throw_ne_ok
    · rename_i hlt
      exact Nat.le_of_not_lt hlt
  refine ⟨fun asset ha => hl _ (mem_positionsOf ha), ?_⟩
  rw [← sum_positionsOf m.debtValue_empty m l user, ← sum_positionsOf m.collateralValue_empty m l user]
  simp only [Amount.toNat_zero, Nat.zero_add] at hc hd
  rw [← hc, ← hd]
  exact hle

/-! ## What keeps it -/

/-- Health depends on the user's positions in the market alone. -/
theorem Healthy.congr (h : m.Healthy l user)
    (hp : ∀ asset, l'.position m.address user asset = l.position m.address user asset) : m.Healthy l' user := by
  refine ⟨fun asset ha => ?_, ?_⟩
  · rw [hp] at ha
    exact h.listed asset ha
  · simp only [hp]
    exact h.covered

/-- Without positions there is nothing to be unhealthy about. -/
theorem healthy_of_empty (h : ∀ asset, l.position m.address user asset = .empty) : m.Healthy l user := by
  refine ⟨fun asset ha => absurd (h asset) ha, ?_⟩
  simp [h]

/-- More collateral and less debt in one listed asset keep health. -/
theorem Healthy.improve {q : Position} (h : m.Healthy l user) (ha : asset ∈ m.assets)
    (hp : ∀ a, l'.position m.address user a = if a = asset then q else l.position m.address user a)
    (hc : (l.position m.address user asset).collateral.toNat ≤ q.collateral.toNat)
    (hd : q.debt.toNat ≤ (l.position m.address user asset).debt.toNat) : m.Healthy l' user := by
  have hpa : l'.position m.address user asset = q := by
    rw [hp, if_pos rfl]
  have hpo : ∀ a, a ≠ asset → l'.position m.address user a = l.position m.address user a := by
    intro a hne
    rw [hp, if_neg hne]
  refine ⟨fun a hne => ?_, ?_⟩
  · by_cases he : a = asset
    · rw [he]
      exact ha
    · rw [hpo a he] at hne
      exact h.listed a hne
  · calc ∑ a : Address, m.debtValue a (l'.position m.address user a)
        ≤ ∑ a : Address, m.debtValue a (l.position m.address user a) := by
          refine Finset.sum_le_sum fun a _ => debtValue_mono ?_
          by_cases he : a = asset
          · rw [he, hpa]
            exact hd
          · rw [hpo a he]
      _ ≤ ∑ a : Address, m.collateralValue a (l.position m.address user a) := h.covered
      _ ≤ ∑ a : Address, m.collateralValue a (l'.position m.address user a) := by
          refine Finset.sum_le_sum fun a _ => collateralValue_mono ?_
          by_cases he : a = asset
          · rw [he, hpa]
            exact hc
          · rw [hpo a he]

/-- Whoever was healthy in the market is healthy there. -/
def KeepsHealth (m : Market) (b b' : Books) : Prop :=
  ∀ user, m.Healthy b.ledger user → m.Healthy b'.ledger user

theorem KeepsHealth.of_position {b b' : Books}
    (h : ∀ user asset, b'.ledger.position m.address user asset = b.ledger.position m.address user asset) :
    m.KeepsHealth b b' :=
  fun user hu => hu.congr (h user)

theorem KeepsHealth.chains (m : Market) : Step.Chains m.KeepsHealth :=
  ⟨fun _ _ h => h, fun h h' user hu => h' user (h user hu)⟩

/-- Writing a position in a market at another address keeps health in this one. -/
theorem KeepsHealth.of_wrote {b b' : Books} {market : Address} {q : Position} (h : Wrote b b' market user asset q)
    (hm : m.address ≠ market) : m.KeepsHealth b b' := by
  refine .of_position fun u a => ?_
  rw [h.position, if_neg fun hk => hm hk.1]

/-- Bringing proceeds to a market keeps health there. -/
theorem keepsHealth_bring {proceeds : Proceeds} {amount : Amount} {b b' : Books} {u : Unit}
    (h : Engine.bring m proceeds user asset amount b = .ok u b') : m.KeepsHealth b b' := by
  obtain ⟨⟨t, ht⟩, -, q, hq, hw⟩ := Engine.bring_eq_ok h
  have hlisted : asset ∈ m.assets := by
    rw [← Std.ExtTreeMap.isSome_getElem?_iff_mem, terms_eq_ok.1 ht]
    rfl
  intro v hv
  by_cases he : v = user
  · subst he
    refine hv.improve (q := q) hlisted (fun a => ?_) ?_ ?_
    · rw [hw.position]
      simp
    · cases proceeds with
      | supply => exact hq.1 ▸ Nat.le_add_right _ _
      | repay => exact hq.1 ▸ Nat.le_refl _
    · cases proceeds with
      | supply => exact hq.2 ▸ Nat.le_refl _
      | repay => exact hq.2 ▸ Nat.sub_le _ _
  · refine hv.congr fun a => ?_
    rw [hw.position, if_neg fun hk => he hk.2.1]

/-- Who has been handed money by a market is healthy there afterwards. -/
theorem healthy_of_fund {funding : Funding} {amount : Amount} {b b' : Books} {u : Unit}
    (h : Engine.fund m funding user asset amount b = .ok u b') : m.Healthy b'.ledger user := by
  obtain ⟨-, -, -, l, hl, hc⟩ := Engine.fund_eq_ok h
  refine (healthy_of_checkHealth hc).congr fun a => ?_
  rw [Ledger.position, Ledger.position, hl]

/-- Handing out money keeps health in the market. -/
theorem keepsHealth_fund {funding : Funding} {amount : Amount} {b b' : Books} {u : Unit}
    (h : Engine.fund m funding user asset amount b = .ok u b') : m.KeepsHealth b b' := by
  obtain ⟨-, -, ⟨q, -, hw⟩, -⟩ := Engine.fund_eq_ok h
  intro v hv
  by_cases he : v = user
  · rw [he]
    exact healthy_of_fund h
  · refine hv.congr fun a => ?_
    rw [hw.position, if_neg fun hk => he hk.2.1]

end Market

namespace Engine

variable {e : Engine} {m : Market}

/-- No other registered market uses the address of this one. -/
def OwnAddress (e : Engine) (m : Market) : Prop :=
  ∀ (id : UInt8) market, e.markets[id]? = some market → market.address = m.address → market = m

theorem keptBy_keepsHealth (hm : e.OwnAddress m) (user : Address) : e.KeptBy user m.KeepsHealth where
  chains := Market.KeepsHealth.chains m
  moved h _ := .of_position fun u a => h.position _ u a
  bring := by
    intro id market hmarket proceeds asset amount b u b' h
    by_cases ha : market.address = m.address
    · rw [hm id market hmarket ha] at h
      exact Market.keepsHealth_bring h
    · obtain ⟨-, -, q, -, hw⟩ := bring_eq_ok h
      exact .of_wrote hw (Ne.symm ha)
  fund := by
    intro id market hmarket funding asset amount b u b' h
    by_cases ha : market.address = m.address
    · rw [hm id market hmarket ha] at h
      exact Market.keepsHealth_fund h
    · obtain ⟨-, -, ⟨q, -, hw⟩, -⟩ := fund_eq_ok h
      exact .of_wrote hw (Ne.symm ha)

section Settle

variable {address : Address} {rate : FeeRate} {feeMode : FeeMode} {r : Request} {c : Composition} {w : World}
variable {settled : Settled} {s : Session Proceedings}

/-- An execution that succeeds keeps health. -/
theorem keepsHealth_settle (hm : e.OwnAddress m) (hl : e.lender = .reserve address rate feeMode)
    (h : e.settle r c (e.session w) = .ok settled s) {user : Address} (hu : m.Healthy w.ledger user) :
    m.Healthy s.books.ledger user := by
  obtain ⟨mode, a, s₁, -, hp, hc⟩ := settle_eq_ok h
  have h₁ : m.Healthy s₁.books.ledger user := (keptBy_keepsHealth hm r.caller).along.prepare hl hp user hu
  exact h₁.congr fun a => (conclude_eq_ok hc).1.position _ _ a

/-- After an execution that has drawn an amount from a market, the caller is healthy there. -/
theorem healthy_of_drawn {mode : Mode} (hl : e.lender = .reserve address rate feeMode)
    (h : e.settle r c (e.session w) = .ok settled s) (hmode : r.path.mode = .ok mode)
    (hmarket : e.markets[mode.lender]? = some m) (hd : s.notes.funded ≠ 0) : m.Healthy s.books.ledger r.caller := by
  obtain ⟨mode', a, s₁, hmode', hp, hc⟩ := settle_eq_ok h
  obtain ⟨hpaid, -, hn⟩ := conclude_eq_ok hc
  obtain rfl := Except.ok.inj (hmode.symm.trans hmode')
  rw [hn] at hd
  cases hlend : c.lending? with
  | none =>
    simp only [Engine.prepare, hlend] at hp
    obtain ⟨b, -, rfl⟩ := Step.on_eq_ok.1 hp
    exact absurd rfl hd
  | some legs =>
    simp only [Engine.prepare, hlend] at hp
    obtain ⟨market, start, gross, terms, b₁, b₂, b₃, b₄, hm', -, -, -, hst, -⟩ := leverage_eq_ok hl hp
    obtain rfl := Option.some.inj (hmarket.symm.trans hm')
    rcases hst.drawn with ⟨hz, -⟩ | ⟨-, hf⟩
    · exact absurd hz hd
    · have h₄ := Market.healthy_of_fund hf
      have h₅ := h₄.congr fun a => hst.repaid.position m.address r.caller a
      exact h₅.congr fun a => hpaid.position _ _ a

end Settle

end Engine

/-- The call is a trade whose execution succeeds and draws an amount from the market, as a loan or out of the collateral. -/
def Router.Draws (r : Router) (caller : Address) (calldata : List UInt8) (m : Market) : Prop :=
  ∃ operation trader entry args mode settled s,
    OperationId.ofCalldata? calldata = some operation ∧ r.registry.resolve operation = some (.trader trader) ∧
    TradeEntry.ofOperation? operation = some entry ∧ TradeArgs.decode operation (calldata.drop 4) = .ok args ∧
    args.path.mode = .ok mode ∧ r.engine.markets[mode.lender]? = some m ∧
    r.engine.settle ⟨caller, args.path, args.amount, args.limit, entry.direction⟩ entry.composition
      (r.engine.session ⟨r.ledger, r.desk⟩) = .ok settled s ∧ s.notes.funded ≠ 0

namespace Router

variable {r : Router} {m : Market}

/-- A call to a router of the built-in parts keeps health in a market with an address of its own. -/
theorem BuiltIn.healthy_afterCall (hr : r.BuiltIn) (hm : r.engine.OwnAddress m) (caller : Address) (calldata : List UInt8)
    {user : Address} (hu : m.Healthy r.ledger user) : m.Healthy (r.afterCall caller calldata).ledger user := by
  obtain ⟨address, rate, mode, hl⟩ := hr.lender
  rcases hr.ledger_afterCall caller calldata with he | ⟨entry, args, settled, s, -, hs, he⟩
  · rw [he]
    exact hu
  · rw [he]
    exact Engine.keepsHealth_settle hm hl hs hu

/-- A call that has drawn an amount from a market leaves its caller healthy there. -/
theorem BuiltIn.healthy_of_draws (hr : r.BuiltIn) {caller : Address} {calldata output : List UInt8} {r' : Router}
    (hc : call caller calldata r = .ok output r') (hd : r.Draws caller calldata m) : m.Healthy r'.ledger caller := by
  obtain ⟨address, rate, feeMode, hl⟩ := hr.lender
  obtain ⟨operation, trader, entry, args, mode, settled, s, ho, hres, he, hargs, hmode, hmarket, hs, hf⟩ := hd
  obtain ⟨operation', module, w, ho', hres', hi, hledger⟩ := call_eq_ok hc
  obtain rfl := Option.some.inj (ho.symm.trans ho')
  obtain rfl := Option.some.inj (hres.symm.trans hres')
  rw [Module.invoke_trader] at hi
  obtain ⟨entry', args', settled', s', he', hargs', hs', rfl⟩ := Engine.trade_eq_ok hi
  obtain rfl := Option.some.inj (he.symm.trans he')
  obtain rfl := Except.ok.inj (hargs.symm.trans hargs')
  cases hs.symm.trans hs'
  rw [hledger]
  exact Engine.healthy_of_drawn hl hs hmode hmarket hf

/-- Health is never lost. In a router of the built-in parts, for a market whose address no other registered market uses: no call
takes the health of a user in the market, a call that has drawn an amount from it leaves its caller healthy, and where all users
are healthy they stay so over any run of calls. -/
theorem health_kept (hr : r.BuiltIn) (hm : r.engine.OwnAddress m) :
    (∀ caller calldata user, m.Healthy r.ledger user → m.Healthy (r.afterCall caller calldata).ledger user) ∧
    (∀ caller calldata output r', call caller calldata r = .ok output r' → r.Draws caller calldata m →
      m.Healthy r'.ledger caller) ∧
    (∀ calls, (∀ user, m.Healthy r.ledger user) → ∀ user, m.Healthy (r.after calls).ledger user) := by
  refine ⟨?_, ?_, ?_⟩
  · intro caller calldata user hu
    exact hr.healthy_afterCall hm caller calldata hu
  · intro caller calldata output r' hc hd
    exact hr.healthy_of_draws hc hd
  · intro calls hall
    have hafter : (r.after calls).BuiltIn ∧ (r.after calls).engine = r.engine ∧
        ∀ user, m.Healthy (r.after calls).ledger user := by
      refine after_keeps (P := fun r' => r'.BuiltIn ∧ r'.engine = r.engine ∧ ∀ user, m.Healthy r'.ledger user) ?_ calls
        ⟨hr, rfl, hall⟩
      rintro r' caller calldata ⟨hb, he, hu⟩
      refine ⟨hb.afterCall caller calldata, (afterCall_frame r' caller calldata).1.trans he, ?_⟩
      intro user
      exact hb.healthy_afterCall (he ▸ hm) caller calldata (hu user)
    exact hafter.2.2

end Router

namespace Sample

theorem ownAddress_market : router.engine.OwnAddress market := by
  intro id other h _
  rw [getElem?_markets] at h
  split at h
  · exact (Option.some.inj h).symm
  · cases h

theorem healthy_market (user : Address) : market.Healthy router.ledger user := by
  by_cases hu : user = .ofNat 7
  · rw [hu]
    exact Market.healthy_of_checkHealth (Attempt.ok_of_toOption (by decide +kernel))
  · refine Market.healthy_of_empty fun asset => ?_
    show ledger.position _ user asset = _
    simp only [ledger, position_setPosition, hu, false_and, and_false, if_false]
    simp [Ledger.position, Ledger.empty]

/-- Closing the position draws fifty out of the collateral. -/
theorem draws_market : router.Draws (.ofNat 7) calldata market := by
  have hs : Step.yields (router.engine.settle ⟨.ofNat 7, path, .ofWord 50, 0, .exactIn⟩ .marginClose)
      (router.engine.session ⟨router.ledger, router.desk⟩) (fun _ s => s.notes.funded ≠ 0) = true := by
    decide +kernel
  obtain ⟨settled, s, hs, hf⟩ := Step.exists_ok_of_yields hs
  refine ⟨entry.operation, .ofNat 9, entry, ⟨.ofWord 50, 0, path⟩, .default, settled, s, ?_, ?_, ?_, ?_, rfl, ?_, hs,
    of_decide_eq_true hf⟩
  · decide +kernel
  · exact Registry.resolve_assign_new _ _ _
  · decide +kernel
  · exact Attempt.ok_of_toOption (by decide +kernel)
  · exact (getElem?_markets 0).trans (if_pos rfl)

end Sample

/-- `health_kept` at a call that closes a position. -/
theorem Router.health_kept_close :
    Sample.router.engine.markets[(0 : UInt8)]? = some Sample.market ∧
    (∀ user, Sample.market.Healthy (Sample.router.after [(.ofNat 7, Sample.calldata)]).ledger user) ∧
    ∃ output r', call (.ofNat 7) Sample.calldata Sample.router = .ok output r' ∧
      Sample.router.Draws (.ofNat 7) Sample.calldata Sample.market ∧ Sample.market.Healthy r'.ledger (.ofNat 7) := by
  obtain ⟨-, hdraws, hafter⟩ := health_kept Sample.builtIn_router Sample.ownAddress_market
  obtain ⟨output, r', hr⟩ := Sample.exists_call
  refine ⟨?_, hafter _ Sample.healthy_market, output, r', hr, Sample.draws_market, ?_⟩
  · rw [Sample.getElem?_markets, if_pos rfl]
  · exact hdraws _ _ _ _ hr Sample.draws_market

end MarginRouter
