import Mathlib.Tactic.Linarith
import MarginRouter.Proofs.Pricing
import MarginRouter.Proofs.Router

/-!
# Reserves of pools

A pool that shares its address with nobody is changed by its own swaps alone, so what none of them lowers, no run of calls
lowers. For a constant-product pool that is the product of its two reserves, and for a fixed-rate pool what it holds, weighted
with the two parts of its rate.
-/

namespace MarginRouter

open Ledger Clearing Books

/-- Pairs with the same key are the same pair, in the same order or in the other one. -/
theorem PoolKey.of_eq_of {a b c d : Address} {fee fee' : Nat} (h : PoolKey.of a b fee = PoolKey.of c d fee') :
    fee = fee' ∧ (a = c ∧ b = d ∨ a = d ∧ b = c) := by
  unfold PoolKey.of at h
  split_ifs at h
  all_goals
    obtain ⟨h₀, h₁, hf⟩ := PoolKey.mk.inj h
    simp [h₀, h₁, hf]

section Paid

variable {s : Swap} (f : Fill)

theorem Swap.paid_tokenIn (hne : s.tokenIn ≠ s.tokenOut) : s.paid f s.tokenIn f.pool = f.amountIn.toNat := by
  simp [Swap.paid, payment, hne]

theorem Swap.paid_tokenOut (hne : s.tokenIn ≠ s.tokenOut) : s.paid f s.tokenOut f.pool = -f.amountOut.toNat := by
  simp [Swap.paid, payment, hne.symm]

end Paid

/-- What the account holds is worth no less, with this worth of its balances. -/
def Ledger.KeepsWorth (account : Address) (worth : (Address → Int) → Int) (l l' : Ledger) : Prop :=
  worth (fun t => l.holds t account) ≤ worth fun t => l'.holds t account

namespace Ledger.KeepsWorth

variable {account : Address} {worth : (Address → Int) → Int} {l l' : Ledger}

theorem chains (account : Address) (worth : (Address → Int) → Int) : Step.Chains (KeepsWorth account worth) :=
  ⟨fun _ => Int.le_refl _, fun h h' => Int.le_trans h h'⟩

theorem of_holds (h : ∀ t, l'.holds t account = l.holds t account) : KeepsWorth account worth l l' := by
  unfold KeepsWorth
  rw [funext h]

theorem of_paid {p : Address → Address → Int} (h : Paid l l' p) (hz : ∀ t, p t account = 0) :
    KeepsWorth account worth l l' := by
  refine .of_holds fun t => ?_
  rw [h.holds, hz, Int.add_zero]

/-- A payment to somebody else is nothing to the account. -/
theorem of_flow {b b' : Books} {token holder : Address} {amount : Int} {g : Address → Int}
    (h : Flow b b' (payment token holder amount) g) (hne : account ≠ holder) : KeepsWorth account worth b.ledger b'.ledger := by
  refine .of_holds fun t => ?_
  rw [h.holds, payment_of_ne hne, Int.add_zero]

end Ledger.KeepsWorth

namespace Engine

variable {e : Engine} {provider : UInt8} {key : PoolKey} {pool user : Address}
variable {worth : (Address → Int) → Int}

/-- No other pool, no market and no lender uses the pool's address. -/
structure PoolApart (e : Engine) (provider : UInt8) (key : PoolKey) (pool : Address) : Prop where
  serves : ∀ s, e.venues.Serves s pool → s.provider = provider ∧ s.key = key
  market : ∀ (id : UInt8) m, e.markets[id]? = some m → m.address ≠ pool
  lender : e.lender.address ≠ pool

/-- No fill that is quoted at the pool makes what it holds worth less. -/
def Favours (e : Engine) (pool : Address) (worth : (Address → Int) → Int) : Prop :=
  ∀ ⦃l s d amount f⦄, e.venues.quote l s d amount = .ok f → f.pool = pool →
    worth (fun t => l.holds t pool) ≤ worth fun t => l.holds t pool + s.paid f t pool

/-- Every part of an execution for somebody else keeps the worth of what the pool holds. -/
theorem PoolApart.keptAlong (hp : e.PoolApart provider key pool) (hf : e.Favours pool worth) (user : Address) :
    e.KeptAlong user fun b b' => KeepsWorth pool worth b.ledger b'.ledger where
  chains := (KeepsWorth.chains pool worth).on Books.ledger
  swap := by
    intro s d amount b f b' h
    obtain ⟨hq, hmoved⟩ := VenueBook.swap_eq_ok h
    by_cases hpool : f.pool = pool
    · have hholds : (fun t => b'.ledger.holds t pool) = fun t => b.ledger.holds t pool + s.paid f t pool :=
        funext fun t => hmoved.holds t pool
      show worth _ ≤ worth fun t => b'.ledger.holds t pool
      rw [hholds]
      exact hf hq hpool
    · exact .of_paid hmoved.paid (VenueBook.paid_eq_zero hpool)
  loan := by
    intro b b' asset amount amount' _ h
    exact .of_flow h.toFlow hp.lender.symm
  bring := by
    intro id market hmarket proceeds asset amount b u b' h
    obtain ⟨-, hflow, -⟩ := bring_eq_ok h
    exact .of_flow hflow (hp.market id market hmarket).symm
  fund := by
    intro id market hmarket funding asset amount b u b' h
    obtain ⟨-, hflow, -⟩ := fund_eq_ok h
    exact .of_flow hflow (hp.market id market hmarket).symm

theorem PoolApart.relates {address : Address} {rate : FeeRate} {feeMode : FeeMode} (hp : e.PoolApart provider key pool)
    (hf : e.Favours pool worth) (hl : e.lender = .reserve address rate feeMode) (hu : user ≠ pool) :
    e.Relates user (KeepsWorth pool worth) :=
  (hp.keptAlong hf user).relates (fun h hz => .of_paid h fun t => hz t pool hu.symm) hl

/-- A pool of two different tokens is favoured if the prices of its venue favour it in both directions. -/
theorem PoolApart.favours {venue : Venue} {t₀ t₁ : Address} {fee : Nat} (hp : e.PoolApart provider key pool)
    (hk : key = .of t₀ t₁ fee) (worth : Int → Int → Int) (hv : e.venues[provider]? = some venue) (hne : t₀ ≠ t₁)
    (hforth : ∀ s r f, s.key = key → s.tokenIn = t₀ → venue.Prices s r f →
      worth r.reserveIn.toNat r.reserveOut.toNat ≤
        worth (r.reserveIn.toNat + f.amountIn.toNat) (r.reserveOut.toNat - f.amountOut.toNat))
    (hback : ∀ s r f, s.key = key → s.tokenIn = t₁ → venue.Prices s r f →
      worth r.reserveOut.toNat r.reserveIn.toNat ≤
        worth (r.reserveOut.toNat - f.amountOut.toNat) (r.reserveIn.toNat + f.amountIn.toNat)) :
    e.Favours pool fun holds => worth (holds t₀) (holds t₁) := by
  rintro l s d amount f hq rfl
  obtain ⟨-, found, hfound, hserved, hprices⟩ := VenueBook.quote_priced hq
  obtain ⟨hprovider, hkey⟩ := hp.serves s ⟨found, hfound, hserved⟩
  rw [hprovider, hv] at hfound
  obtain rfl := Option.some.inj hfound
  obtain ⟨-, ⟨hin, hout⟩ | ⟨hin, hout⟩⟩ := PoolKey.of_eq_of (hkey.trans hk)
  · have hne' : s.tokenIn ≠ s.tokenOut := by
      rw [hin, hout]
      exact hne
    have hle := hforth s _ f hkey hin hprices
    simp only [← hin, ← hout, s.paid_tokenIn f hne', s.paid_tokenOut f hne']
    exact hle
  · have hne' : s.tokenIn ≠ s.tokenOut := by
      rw [hin, hout]
      exact hne.symm
    have hle := hback s _ f hkey hin hprices
    simp only [← hin, ← hout, s.paid_tokenIn f hne', s.paid_tokenOut f hne']
    exact hle

end Engine

/-- What no fill at the pool lowers, no call of anybody but the pool lowers, and no run of such calls. -/
theorem Router.BuiltIn.keepsWorth {r : Router} {provider : UInt8} {key : PoolKey} {pool : Address}
    {worth : (Address → Int) → Int} (hr : r.BuiltIn) (hp : r.engine.PoolApart provider key pool)
    (hf : r.engine.Favours pool worth) :
    (∀ caller calldata, caller ≠ pool → KeepsWorth pool worth r.ledger (r.afterCall caller calldata).ledger) ∧
    (∀ calls : List (Address × List UInt8), (∀ call ∈ calls, call.1 ≠ pool) →
      KeepsWorth pool worth r.ledger (r.after calls).ledger) := by
  obtain ⟨address, rate, feeMode, hl⟩ := hr.lender
  exact hr.related (KeepsWorth.chains pool worth) fun caller hcaller => hp.relates hf hl hcaller

/-! ## Constant-product pools -/

/-- What a constant-product venue prices does not lower the product of the reserves. -/
theorem Venue.Prices.product_le {pools : Std.ExtTreeMap PoolKey Address} {s : Swap} {r : Reserves} {f : Fill}
    (h : (Venue.constantProduct pools).Prices s r f) :
    (r.reserveIn.toNat : Int) * r.reserveOut.toNat ≤
      (r.reserveIn.toNat + f.amountIn.toNat) * (r.reserveOut.toNat - f.amountOut.toNat) := by
  obtain ⟨hle, hcovered⟩ : f.amountOut ≤ r.reserveOut ∧
      f.amountOut.toNat * r.reserveIn.toNat ≤ f.amountIn.toNat * (r.reserveOut.toNat - f.amountOut.toNat) := by
    rcases h with ho | hi
    · exact ConstantProduct.covered_of_amountOut ho
    · exact ConstantProduct.covered_of_amountIn hi
  have hproduct := ConstantProduct.product_le hcovered (Amount.le_def.1 hle)
  rw [← Int.ofNat_sub (Amount.le_def.1 hle)]
  exact_mod_cast hproduct

/-- Fills at a constant-product pool of two different tokens do not lower the product of what it holds of them. -/
theorem Engine.PoolApart.favours_product {e : Engine} {provider : UInt8} {t₀ t₁ pool : Address} {fee : Nat}
    {pools : Std.ExtTreeMap PoolKey Address} (hp : e.PoolApart provider (.of t₀ t₁ fee) pool)
    (hv : e.venues[provider]? = some (.constantProduct pools)) (hne : t₀ ≠ t₁) :
    e.Favours pool fun holds => holds t₀ * holds t₁ := by
  refine hp.favours rfl (fun h₀ h₁ => h₀ * h₁) hv hne ?_ ?_
  · intro s r f _ _ hprices
    exact hprices.product_le
  · intro s r f _ _ hprices
    rw [Int.mul_comm, Int.mul_comm (_ - _)]
    exact hprices.product_le

/-- The product never falls. In a router of the built-in parts, for a pool of two different tokens at a constant-product venue,
whose address no other pool, no market and no lender uses: no call of anybody but the pool itself, and so no run of such calls,
makes the product of what the pool holds of the two tokens smaller. -/
theorem Router.product_kept {r : Router} {provider : UInt8} {t₀ t₁ pool : Address} {fee : Nat}
    {pools : Std.ExtTreeMap PoolKey Address} (hr : r.BuiltIn)
    (hv : r.engine.venues[provider]? = some (.constantProduct pools)) (hne : t₀ ≠ t₁)
    (hp : r.engine.PoolApart provider (.of t₀ t₁ fee) pool) :
    (∀ caller calldata, caller ≠ pool →
      r.ledger.holds t₀ pool * r.ledger.holds t₁ pool ≤
        (r.afterCall caller calldata).ledger.holds t₀ pool * (r.afterCall caller calldata).ledger.holds t₁ pool) ∧
    (∀ calls : List (Address × List UInt8), (∀ call ∈ calls, call.1 ≠ pool) →
      r.ledger.holds t₀ pool * r.ledger.holds t₁ pool ≤
        (r.after calls).ledger.holds t₀ pool * (r.after calls).ledger.holds t₁ pool) :=
  hr.keepsWorth hp (hp.favours_product hv hne)

namespace Sample

/-- The small router with one venue in the place of its own. -/
def withVenue (venue : Venue) (l : Ledger) : Router :=
  { Router.new { engine with venues := (∅ : VenueBook).insert 0 venue } (.ofNat 8) l with registry := router.registry }

theorem builtIn_withVenue (venue : Venue) (l : Ledger) : (withVenue venue l).BuiltIn :=
  ⟨⟨_, _, _, rfl⟩, builtIn_router.registry⟩

theorem getElem?_venues_withVenue (venue : Venue) (l : Ledger) : (withVenue venue l).engine.venues[(0 : UInt8)]? = some venue :=
  Std.ExtTreeMap.getElem?_insert_self

/-- The only market is at address 6, and the lender at address 2. -/
theorem poolApart_withVenue {venue : Venue} {key : PoolKey} {pool : Address} (l : Ledger) (hmarket : .ofNat 6 ≠ pool)
    (hlender : .ofNat 2 ≠ pool) (hserves : ∀ s, venue.pool s = .ok pool → s.key = key) :
    (withVenue venue l).engine.PoolApart 0 key pool where
  serves s h := by
    obtain ⟨hprovider, hpool⟩ := VenueBook.serves_insert.1 h
    exact ⟨hprovider, hserves s hpool⟩
  market := by
    intro id m h
    rw [show (withVenue venue l).engine.markets[id]? = router.engine.markets[id]? from rfl, getElem?_markets] at h
    split at h
    · rw [← Option.some.inj h]
      exact hmarket
    · cases h
  lender := hlender

/-- A constant-product pool of tokens 10 and 11, in the place of the fixed-rate one. -/
def productVenue : Venue :=
  .constantProduct ((∅ : Std.ExtTreeMap PoolKey Address).insert (.of (.ofNat 10) (.ofNat 11) 0) (.ofNat 5))

/-- The pool has a thousand of both tokens. -/
def productRouter : Router :=
  withVenue productVenue (ledger.setBalance (.ofNat 10) (.ofNat 5) (.ofWord 1000))

theorem poolApart_product : productRouter.engine.PoolApart 0 (.of (.ofNat 10) (.ofNat 11) 0) (.ofNat 5) := by
  refine poolApart_withVenue _ (by decide) (by decide) fun s h => ?_
  simp only [productVenue, Venue.pool, Std.ExtTreeMap.getElem?_insert, Std.LawfulEqCmp.compare_eq_iff_eq] at h
  split at h
  · exact Eq.symm ‹_›
  · cases h

end Sample

/-- `product_kept` at the closing of a position over a constant-product pool, which brings the pool some of token 10, and at
closing again and again. -/
theorem Router.product_kept_close :
    (Sample.productRouter.afterCall (.ofNat 7) Sample.calldata).ledger.balance (.ofNat 10) (.ofNat 5) = .ofWord 1050 ∧
    Sample.productRouter.ledger.holds (.ofNat 10) (.ofNat 5) * Sample.productRouter.ledger.holds (.ofNat 11) (.ofNat 5) ≤
      (Sample.productRouter.afterCall (.ofNat 7) Sample.calldata).ledger.holds (.ofNat 10) (.ofNat 5) *
        (Sample.productRouter.afterCall (.ofNat 7) Sample.calldata).ledger.holds (.ofNat 11) (.ofNat 5) ∧
    ∀ n, Sample.productRouter.ledger.holds (.ofNat 10) (.ofNat 5) * Sample.productRouter.ledger.holds (.ofNat 11) (.ofNat 5) ≤
      (Sample.productRouter.after (List.replicate n (.ofNat 7, Sample.calldata))).ledger.holds (.ofNat 10) (.ofNat 5) *
        (Sample.productRouter.after (List.replicate n (.ofNat 7, Sample.calldata))).ledger.holds (.ofNat 11) (.ofNat 5) := by
  obtain ⟨hcall, hrun⟩ := Router.product_kept (Sample.builtIn_withVenue _ _) (Sample.getElem?_venues_withVenue _ _) (by decide)
    Sample.poolApart_product
  refine ⟨by decide +kernel, hcall _ _ (by decide), fun n => hrun _ fun call hc => ?_⟩
  rw [List.eq_of_mem_replicate hc]
  decide

/-! ## Fixed-rate pools -/

namespace PoolListing

variable {p : PoolListing}

/-- The pair and fee a pool is listed for. -/
def key (p : PoolListing) : PoolKey :=
  .of p.token0 p.token1 p.fee

theorem key_token0 (p : PoolListing) : p.key.token0 = p.token0 ∨ p.key.token0 = p.token1 := by
  unfold key PoolKey.of
  split
  · exact .inl rfl
  · exact .inr rfl

/-- What the pool holds, weighted with the parts of its rate as it is listed. -/
def worth (p : PoolListing) (l : Ledger) : Int :=
  p.rateNumerator.toNat * l.holds p.token0 p.address + p.rateDenominator.toNat * l.holds p.token1 p.address

/-- The pool has the rate that is listed, turned round if the key has the tokens in the other order. -/
structure HasRate (p : PoolListing) (pool : RatePool) : Prop where
  numerator : pool.numerator = if p.key.token0 = p.token0 then p.rateNumerator else p.rateDenominator
  denominator : pool.denominator = if p.key.token0 = p.token0 then p.rateDenominator else p.rateNumerator

/-- From the first listed token to the second, the rate is used as it is listed. -/
theorem HasRate.oriented_token0 {pool : RatePool} {s : Swap} (h : p.HasRate pool) (hkey : s.key = p.key)
    (hin : s.tokenIn = p.token0) : pool.oriented s = (.ofWord p.rateNumerator, .ofWord p.rateDenominator) := by
  unfold RatePool.oriented
  rw [h.numerator, h.denominator, hkey, hin]
  by_cases hk : p.key.token0 = p.token0
  · simp only [if_pos hk]
  · simp only [if_neg hk]

/-- From the second listed token to the first, it is used the other way round. -/
theorem HasRate.oriented_token1 {pool : RatePool} {s : Swap} (h : p.HasRate pool) (hkey : s.key = p.key)
    (hne : p.token0 ≠ p.token1) (hin : s.tokenIn = p.token1) :
    pool.oriented s = (.ofWord p.rateDenominator, .ofWord p.rateNumerator) := by
  unfold RatePool.oriented
  rw [h.numerator, h.denominator, hkey, hin]
  rcases p.key_token0 with hk | hk
  · simp only [hk, if_true, if_neg hne]
  · simp only [hk, if_true, if_neg hne.symm]

end PoolListing

namespace Venue

variable {pools : Std.ExtTreeMap PoolKey RatePool} {listing : PoolListing} {venue : Venue}

/-- A fixed-rate pool that is listed is on record with its rate, under its key. -/
theorem list_fixedRate_eq_ok (h : (Venue.fixedRate pools).list listing = .ok venue) :
    ∃ pool, listing.HasRate pool ∧ venue = .fixedRate (pools.insert listing.key pool) := by
  simp only [list, Attempt.bind_eq_ok, Attempt.pure_eq_ok] at h
  obtain ⟨pool, hpool, rfl⟩ := h
  unfold RatePool.of at hpool
  split at hpool
  · cases hpool
    exact ⟨_, ⟨apply_ite RatePool.numerator _ _ _, apply_ite RatePool.denominator _ _ _⟩, rfl⟩
  · cases hpool

/-- Listing other pools leaves a fixed-rate pool on record as it is. -/
theorem listAll_fixedRate_eq_ok {key : PoolKey} :
    ∀ {ps : List PoolListing} {pools : Std.ExtTreeMap PoolKey RatePool}, (Venue.fixedRate pools).listAll ps = .ok venue →
      (∀ q ∈ ps, q.key ≠ key) → ∃ pools', venue = .fixedRate pools' ∧ pools'[key]? = pools[key]?
  | [], pools, h, _ => by
    obtain rfl := Attempt.pure_eq_ok.1 h
    exact ⟨pools, rfl, rfl⟩
  | q :: ps, pools, h, hk => by
    obtain ⟨next, hn, h⟩ := Attempt.bind_eq_ok.1 h
    obtain ⟨pool, -, rfl⟩ := list_fixedRate_eq_ok hn
    obtain ⟨pools', rfl, hp⟩ := listAll_fixedRate_eq_ok h fun p hm => hk p (List.mem_cons_of_mem _ hm)
    refine ⟨pools', rfl, ?_⟩
    rw [hp, Std.ExtTreeMap.getElem?_insert, if_neg]
    rw [Std.LawfulEqCmp.compare_eq_iff_eq]
    exact hk q List.mem_cons_self

/-- A fixed-rate pool that no later listing replaces is on record with its rate. -/
theorem hasRate_of_listAll {later : List PoolListing}
    (h : (Venue.fixedRate pools).listAll (listing :: later) = .ok venue) (hlater : ∀ q ∈ later, q.key ≠ listing.key) :
    ∃ pools' pool, venue = .fixedRate pools' ∧ pools'[listing.key]? = some pool ∧ listing.HasRate pool := by
  obtain ⟨next, hn, h⟩ := Attempt.bind_eq_ok.1 h
  obtain ⟨pool, hrate, rfl⟩ := list_fixedRate_eq_ok hn
  obtain ⟨pools', rfl, hp⟩ := listAll_fixedRate_eq_ok h hlater
  rw [Std.ExtTreeMap.getElem?_insert_self] at hp
  exact ⟨pools', pool, rfl, hp, hrate⟩

/-- What a fixed-rate venue prices, the input covers at the rate of the pool on record. -/
theorem Prices.covered {s : Swap} {r : Reserves} {f : Fill} {pool : RatePool} (h : (Venue.fixedRate pools).Prices s r f)
    (hpool : pools[s.key]? = some pool) :
    (pool.oriented s).2.toNat * f.amountOut.toNat ≤ (pool.oriented s).1.toNat * f.amountIn.toNat := by
  have hfound : found s pools[s.key]? = .ok pool := by
    rw [hpool]
    rfl
  rcases h with ho | hi
  · obtain ⟨p, hp, hle⟩ := FixedRate.covered_of_amountOut ho
    obtain rfl := Except.ok.inj (hp.symm.trans hfound)
    exact hle
  · obtain ⟨p, hp, hle⟩ := FixedRate.covered_of_amountIn hi
    obtain rfl := Except.ok.inj (hp.symm.trans hfound)
    exact hle

end Venue

/-- Fills at a fixed-rate pool of two different tokens give no more than the listed rate. -/
theorem Engine.PoolApart.favours_rate {e : Engine} {provider : UInt8} {listing : PoolListing} {pool : RatePool}
    {pools : Std.ExtTreeMap PoolKey RatePool} (hp : e.PoolApart provider listing.key listing.address)
    (hv : e.venues[provider]? = some (.fixedRate pools)) (hpool : pools[listing.key]? = some pool)
    (hrate : listing.HasRate pool) (hne : listing.token0 ≠ listing.token1) :
    e.Favours listing.address fun holds =>
      listing.rateNumerator.toNat * holds listing.token0 + listing.rateDenominator.toNat * holds listing.token1 := by
  refine hp.favours rfl (fun h₀ h₁ => listing.rateNumerator.toNat * h₀ + listing.rateDenominator.toNat * h₁) hv hne
    ?_ ?_
  · intro s r f hkey hin hprices
    have hcovered := hprices.covered (hkey ▸ hpool)
    rw [hrate.oriented_token0 hkey hin] at hcovered
    have hle : (listing.rateDenominator.toNat : Int) * f.amountOut.toNat ≤ listing.rateNumerator.toNat * f.amountIn.toNat :=
      mod_cast hcovered
    linarith
  · intro s r f hkey hin hprices
    have hcovered := hprices.covered (hkey ▸ hpool)
    rw [hrate.oriented_token1 hkey hne hin] at hcovered
    have hle : (listing.rateNumerator.toNat : Int) * f.amountOut.toNat ≤ listing.rateDenominator.toNat * f.amountIn.toNat :=
      mod_cast hcovered
    linarith

/-- A fixed-rate pool gives no more than its rate. In a router of the built-in parts, for a pool of two different tokens that
has been listed, in whatever order, and not replaced since, and whose address no other pool, no market and no lender uses: no
call of anybody but the pool itself, and so no run of such calls, makes what the pool holds, weighted with the rate as it is
listed, smaller. -/
theorem Router.rate_kept {r : Router} {provider : UInt8} {pools : Std.ExtTreeMap PoolKey RatePool} {venue : Venue}
    {listing : PoolListing} {later : List PoolListing} (hr : r.BuiltIn)
    (hlist : (Venue.fixedRate pools).listAll (listing :: later) = .ok venue)
    (hlater : ∀ q ∈ later, q.key ≠ listing.key) (hv : r.engine.venues[provider]? = some venue)
    (hne : listing.token0 ≠ listing.token1) (hp : r.engine.PoolApart provider listing.key listing.address) :
    (∀ caller calldata, caller ≠ listing.address →
      listing.worth r.ledger ≤ listing.worth (r.afterCall caller calldata).ledger) ∧
    (∀ calls : List (Address × List UInt8), (∀ call ∈ calls, call.1 ≠ listing.address) →
      listing.worth r.ledger ≤ listing.worth (r.after calls).ledger) := by
  obtain ⟨pools', pool, rfl, hpool, hrate⟩ := Venue.hasRate_of_listAll hlist hlater
  exact hr.keepsWorth hp (hp.favours_rate hv hpool hrate hne)

namespace Sample

/-- Three of token 10 for two of token 11, listed with the higher token first. -/
def listing : PoolListing :=
  ⟨.ofNat 11, .ofNat 10, 0, .ofNat 5, 3, 2⟩

def rateVenue : Venue :=
  .fixedRate ((∅ : Std.ExtTreeMap PoolKey RatePool).insert listing.key ⟨.ofNat 5, 2, 3, by decide, by decide⟩)

def rateRouter : Router :=
  withVenue rateVenue ledger

theorem listAll_listing : (Venue.fixedRate ∅).listAll [listing] = .ok rateVenue := by
  rfl

theorem poolApart_rate : rateRouter.engine.PoolApart 0 listing.key (.ofNat 5) := by
  refine poolApart_withVenue _ (by decide) (by decide) fun s h => ?_
  simp only [rateVenue, Venue.pool, Std.ExtTreeMap.getElem?_insert, Std.LawfulEqCmp.compare_eq_iff_eq] at h
  split at h
  · exact Eq.symm ‹_›
  · cases h

end Sample

/-- `rate_kept` at the closing of a position over a pool that is listed with the higher token first, which brings the pool fifty
of token 10 and takes thirty-three of token 11 from it, and at closing again and again. -/
theorem Router.rate_kept_close :
    (Sample.rateRouter.afterCall (.ofNat 7) Sample.calldata).ledger.balance (.ofNat 11) (.ofNat 5) = .ofWord 967 ∧
    Sample.listing.worth Sample.rateRouter.ledger ≤
      Sample.listing.worth (Sample.rateRouter.afterCall (.ofNat 7) Sample.calldata).ledger ∧
    ∀ n, Sample.listing.worth Sample.rateRouter.ledger ≤
      Sample.listing.worth (Sample.rateRouter.after (List.replicate n (.ofNat 7, Sample.calldata))).ledger := by
  obtain ⟨hcall, hrun⟩ := Router.rate_kept (Sample.builtIn_withVenue _ _) Sample.listAll_listing
    (fun q hq => absurd hq List.not_mem_nil) (Sample.getElem?_venues_withVenue _ _) (by decide) Sample.poolApart_rate
  refine ⟨by decide +kernel, hcall _ _ (by decide), fun n => hrun _ fun call hc => ?_⟩
  rw [List.eq_of_mem_replicate hc]
  decide

end MarginRouter
