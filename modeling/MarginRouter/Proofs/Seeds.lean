import MarginRouter.Proofs.CanonicalLedgers
import MarginRouter.Proofs.Router

/-!
# What a router begins with

The ledger of a router that settings launch, read off the settings. A holder begins with what the seeds for him add up to, so that
the order of the seeds does not matter, neither for the ledger nor for whether a sum is too large. A position begins as the last
seed for it says, whichever of the lenders with that market the seed names.
-/

namespace MarginRouter

namespace Config

/-- What seeds add up to for a holder of a token. -/
def seededBalance (seeds : List BalanceSeed) (token holder : Address) : Nat :=
  ((seeds.filter fun seed => seed.token = token ∧ seed.holder = holder).map fun seed => seed.amount.toNat).sum

/-- The position that a seed asks for. -/
def PositionSeed.position (seed : PositionSeed) : Position :=
  ⟨seed.collateral, seed.debt⟩

/-! ## Balances -/

section Balances

variable {seeds seeds' : List BalanceSeed} {l l' : Ledger}

theorem seededBalance_cons (seed : BalanceSeed) (seeds : List BalanceSeed) (token holder : Address) :
    seededBalance (seed :: seeds) token holder =
      (if token = seed.token ∧ holder = seed.holder then seed.amount.toNat else 0) + seededBalance seeds token holder := by
  unfold seededBalance
  by_cases h : seed.token = token ∧ seed.holder = holder
  · rw [List.filter_cons_of_pos (by simpa using h), List.map_cons, List.sum_cons, if_pos ⟨h.1.symm, h.2.symm⟩]
  · rw [List.filter_cons_of_neg (by simpa using h), if_neg fun he => h ⟨he.1.symm, he.2.symm⟩, Nat.zero_add]

/-- The order of the seeds does not matter for what they add up to. -/
theorem seededBalance_perm (h : seeds.Perm seeds') (token holder : Address) :
    seededBalance seeds token holder = seededBalance seeds' token holder :=
  ((h.filter _).map _).sum_eq

/-- Each holder is paid what the seeds for him add up to. The induction is on the seeds. -/
theorem paid_credits (h : seeds.foldlM (fun l seed => l.credit seed.token seed.holder seed.amount) l = .ok l') :
    Ledger.Paid l l' fun token holder => seededBalance seeds token holder := by
  induction seeds generalizing l with
  | nil =>
    obtain rfl := Attempt.pure_eq_ok.1 h
    exact Ledger.Paid.refl l
  | cons seed seeds ih =>
    obtain ⟨l₁, h₁, h⟩ := Attempt.bind_eq_ok.1 h
    refine ((Ledger.paid_credit h₁).trans (ih h)).congr fun token holder => ?_
    rw [Pi.add_apply, Pi.add_apply, seededBalance_cons, Ledger.payment]
    push_cast
    rfl

theorem canonical_credits (hl : l.Canonical)
    (h : seeds.foldlM (fun l seed => l.credit seed.token seed.holder seed.amount) l = .ok l') : l'.Canonical :=
  Attempt.foldlM_keeps (fun _ _ _ _ hl h => hl.of_credit h) hl h

/-- What is credited for a seed is no longer among what the seeds add up to. -/
theorem credit_add_seededBalance {seed : BalanceSeed} (h : l.credit seed.token seed.holder seed.amount = .ok l')
    (token holder : Address) : (l'.balance token holder).toNat + seededBalance seeds token holder =
      (l.balance token holder).toNat + seededBalance (seed :: seeds) token holder := by
  have hpaid := (Ledger.paid_credit h).holds token holder
  rw [seededBalance_cons]
  unfold Ledger.holds Ledger.payment at hpaid
  split at hpaid
  · rename_i hk
    rw [if_pos hk]
    omega
  · rename_i hk
    rw [if_neg hk]
    omega

/-- Seeds can be credited exactly when no balance becomes too large by what is added to it. What matters is the balance in the end,
not at which of the seeds it would be too large. -/
theorem exists_credits : (∃ l', seeds.foldlM (fun l seed => l.credit seed.token seed.holder seed.amount) l = .ok l') ↔
    ∀ token holder, (l.balance token holder).toNat + seededBalance seeds token holder < 1 <<< 256 := by
  induction seeds generalizing l with
  | nil => exact iff_of_true ⟨l, rfl⟩ fun token holder => (l.balance token holder).isLt
  | cons seed seeds ih =>
    constructor
    · rintro ⟨l', h⟩ token holder
      obtain ⟨l₁, h₁, h⟩ := Attempt.bind_eq_ok.1 h
      rw [← credit_add_seededBalance h₁]
      exact ih.1 ⟨l', h⟩ token holder
    · intro hfits
      have hfirst : (l.balance seed.token seed.holder).toNat + seed.amount.toNat < 1 <<< 256 := by
        have hown := hfits seed.token seed.holder
        rw [seededBalance_cons, if_pos ⟨rfl, rfl⟩] at hown
        omega
      obtain ⟨l₁, h₁⟩ := Ledger.exists_credit.2 hfirst
      have hrest : ∀ token holder, (l₁.balance token holder).toNat + seededBalance seeds token holder < 1 <<< 256 := by
        intro token holder
        rw [credit_add_seededBalance h₁]
        exact hfits token holder
      obtain ⟨l', h⟩ := ih.2 hrest
      exact ⟨l', Attempt.bind_eq_ok.2 ⟨l₁, h₁, h⟩⟩

theorem exists_seedBalances : (∃ l, Settings.seedBalances seeds = .ok l) ↔
    ∀ token holder, seededBalance seeds token holder < 1 <<< 256 := by
  refine exists_credits.trans (forall_congr' fun token => forall_congr' fun holder => ?_)
  rw [Ledger.balance_empty, Amount.toNat_zero, Nat.zero_add]

/-- The balances to begin with are what the seeds add up to, and there are no positions. -/
theorem seedBalances_exact (h : Settings.seedBalances seeds = .ok l) :
    l.Canonical ∧ (∀ token holder, (l.balance token holder).toNat = seededBalance seeds token holder) ∧ l.positions = ∅ := by
  have hpaid := paid_credits h
  refine ⟨canonical_credits Ledger.canonical_empty h, fun token holder => ?_, hpaid.positions⟩
  have hholds := hpaid.holds token holder
  rw [Ledger.holds, Ledger.holds, Ledger.balance_empty, Amount.toNat_zero] at hholds
  omega

/-- Seeds in another order make the same ledger. -/
theorem seedBalances_perm (hperm : seeds'.Perm seeds) (h : Settings.seedBalances seeds = .ok l) :
    Settings.seedBalances seeds' = .ok l := by
  have hfits : ∃ l', Settings.seedBalances seeds' = .ok l' := by
    refine exists_seedBalances.2 fun token holder => ?_
    rw [seededBalance_perm hperm]
    exact exists_seedBalances.1 ⟨l, h⟩ token holder
  obtain ⟨l', h'⟩ := hfits
  obtain ⟨hl, hbalances, hpositions⟩ := seedBalances_exact h
  obtain ⟨hl', hbalances', hpositions'⟩ := seedBalances_exact h'
  have heq : l' = l := by
    refine (hl'.eq_iff hl).2 ⟨fun token holder => Amount.ext ?_, fun market user asset => ?_⟩
    · rw [hbalances', hbalances, seededBalance_perm hperm]
    · rw [Ledger.position, Ledger.position, hpositions', hpositions]
  rw [h', heq]

end Balances

/-! ## Positions -/

/-- The market that settings describe has their number and their address. -/
theorem MarketSettings.market_eq_ok {settings : MarketSettings} {m : Market} (h : settings.market = .ok m) :
    m.id = settings.id ∧ m.address = settings.address := by
  refine Attempt.foldlM_keeps (P := fun m : Market => m.id = settings.id ∧ m.address = settings.address) ?_ ⟨rfl, rfl⟩ h
  intro asset _ m m' hm h
  unfold Market.list at h
  split at h
  · cases h
    exact hm
  · cases h

namespace Settings

variable {s : Settings} {r : Router}

/-- The address of the market of a lender, as it is configured. -/
def marketAddress? (s : Settings) (lender : UInt8) : Option Address :=
  (s.lenders.find? fun m => m.id = lender).map MarketSettings.address

/-- The last seed for a position: the market is the one of the lender that the seed names. -/
def lastSeed? (s : Settings) (market user asset : Address) : Option PositionSeed :=
  (s.positions.filter fun seed => s.marketAddress? seed.lender = some market ∧ seed.user = user ∧ seed.asset = asset).getLast?

/-- The book has the markets at the addresses that are configured; lenders that have been registered before come first. -/
theorem address_registered {lenders : List MarketSettings} {b b' : MarketBook}
    (h : lenders.foldlM (fun (book : MarketBook) m => do book.register (← m.market)) b = .ok b') (lender : UInt8) :
    (b'[lender]?).map Market.address =
      ((b[lender]?).map Market.address).or ((lenders.find? fun m => m.id = lender).map MarketSettings.address) := by
  induction lenders generalizing b with
  | nil =>
    obtain rfl := Attempt.pure_eq_ok.1 h
    simp
  | cons settings lenders ih =>
    obtain ⟨b₁, h₁, h⟩ := Attempt.bind_eq_ok.1 h
    obtain ⟨m, hm, h₁⟩ := Attempt.bind_eq_ok.1 h₁
    obtain ⟨hid, haddress⟩ := MarketSettings.market_eq_ok hm
    rw [ih h]
    unfold MarketBook.register at h₁
    split at h₁
    · cases h₁
    · rename_i hfree
      cases h₁
      by_cases hl : settings.id = lender
      · subst hl
        rw [hid] at hfree
        simp [hid, haddress, Std.ExtTreeMap.getElem?_eq_none hfree]
      · have hother : (b.insert m.id m)[lender]? = b[lender]? := Table.getElem?_insert_of_ne (by rw [hid]; exact Ne.symm hl) b m
        rw [hother, List.find?_cons_of_neg (by simpa using hl)]

theorem address_marketBook {markets : MarketBook} (h : s.marketBook = .ok markets) (lender : UInt8) :
    (markets[lender]?).map Market.address = s.marketAddress? lender := by
  have haddress := address_registered h lender
  rwa [Std.ExtTreeMap.getElem?_empty, Option.map_none, Option.none_or] at haddress

/-- The seeds leave the balances alone, and of a position the last seed for it counts. The induction is on the seeds. -/
theorem seedPositions_exact {markets : MarketBook} {seeds : List PositionSeed} {l l' : Ledger} (hl : l.Canonical)
    (h : seedPositions markets seeds l = .ok l') :
    l'.Canonical ∧ l'.balances = l.balances ∧ ∀ market user asset, l'.position market user asset =
      ((seeds.filter fun seed => (markets[seed.lender]?).map Market.address = some market ∧ seed.user = user ∧
        seed.asset = asset).getLast?.map PositionSeed.position).getD (l.position market user asset) := by
  induction seeds generalizing l with
  | nil =>
    obtain rfl := Attempt.pure_eq_ok.1 h
    exact ⟨hl, rfl, fun _ _ _ => rfl⟩
  | cons seed seeds ih =>
    obtain ⟨l₁, h₁, h⟩ := Attempt.bind_eq_ok.1 h
    cases hm : markets[seed.lender]? with
    | none =>
      simp only [hm, reduceCtorEq] at h₁
    | some m =>
      simp only [hm, Except.ok.injEq] at h₁
      subst h₁
      obtain ⟨hcanonical, hbalances, hpositions⟩ := ih (hl.setPosition _ _ _ _) h
      refine ⟨hcanonical, hbalances.trans (Ledger.balances_setPosition ..), fun market user asset => ?_⟩
      rw [hpositions, Ledger.position_setPosition]
      by_cases hk : market = m.address ∧ user = seed.user ∧ asset = seed.asset
      · obtain ⟨rfl, rfl, rfl⟩ := hk
        rw [List.filter_cons_of_pos (by simp [hm]), List.getLast?_cons, if_pos ⟨rfl, rfl, rfl⟩]
        cases (seeds.filter _).getLast? <;> rfl
      · have hother : ¬((markets[seed.lender]?).map Market.address = some market ∧ seed.user = user ∧ seed.asset = asset) := by
          rw [hm]
          rintro ⟨haddress, rfl, rfl⟩
          exact hk ⟨(Option.some.inj haddress).symm, rfl, rfl⟩
        rw [List.filter_cons_of_neg (by rwa [decide_eq_true_eq]), if_neg hk]

/-! ## Launches -/

/-- The ledger to begin with does not depend on the order of the balances that are given. They can be credited exactly when for every
holder of every token they add up to an amount. In a router that has been launched every balance is what they add up to, and with
the same balances in another order the same router is launched. A position is what the last seed says that is for its user and asset
and names a lender with its market, and it is empty without one; and what is zero or empty is not stored. -/
theorem launch_begins_with (s : Settings) :
    ((∃ l, seedBalances s.balances = .ok l) ↔ ∀ token holder, seededBalance s.balances token holder < 1 <<< 256) ∧
    ∀ r, s.launch = .ok r →
      (∀ token holder, (r.ledger.balance token holder).toNat = seededBalance s.balances token holder) ∧
      (∀ seeds : List BalanceSeed, seeds.Perm s.balances → { s with balances := seeds }.launch = .ok r) ∧
      (∀ market user asset, r.ledger.position market user asset =
        ((s.lastSeed? market user asset).map PositionSeed.position).getD .empty) ∧
      (∀ token holder, r.ledger.balances[(⟨token, holder⟩ : Holding)]? ≠ some 0) ∧
      ∀ market user asset, r.ledger.positions[(⟨market, user, asset⟩ : PositionKey)]? ≠ some .empty := by
  refine ⟨exists_seedBalances, fun r h => ?_⟩
  obtain ⟨venues, markets, balances, ledger, rate, registry, hv, hm, hb, hl, hr, hc, rfl⟩ := launch_eq_ok.1 h
  obtain ⟨hcanonical, hbalances, hnone⟩ := seedBalances_exact hb
  obtain ⟨hcanonical', hkept, hpositions⟩ := seedPositions_exact hcanonical hl
  refine ⟨fun token holder => ?_, fun seeds hperm => ?_, fun market user asset => ?_, fun _ _ => hcanonical'.balances _,
    fun _ _ _ => hcanonical'.positions _⟩
  · show (ledger.balance token holder).toNat = _
    rw [Ledger.balance, hkept, ← hbalances, Ledger.balance]
  · exact launch_eq_ok.2 ⟨venues, markets, balances, ledger, rate, registry, hv, hm, seedBalances_perm hperm hb, hl, hr, hc, rfl⟩
  · show ledger.position market user asset = _
    rw [hpositions, Ledger.position, hnone, Std.ExtTreeMap.getElem?_empty]
    simp only [lastSeed?, address_marketBook hm, Option.getD_none]

/-- Settings with two lenders that have one market, with two balances for one holder and one of zero for another, and with a position
that the seed for the one lender opens and the seed for the other takes back. -/
def sharedMarket : Settings :=
  { default with
    lenders := [⟨1, .ofNat 5, []⟩, ⟨2, .ofNat 5, []⟩]
    balances := [⟨.ofNat 10, .ofNat 7, .ofWord 3⟩, ⟨.ofNat 10, .ofNat 8, 0⟩, ⟨.ofNat 10, .ofNat 7, .ofWord 4⟩]
    positions := [⟨1, .ofNat 7, .ofNat 10, .ofWord 9, 0⟩, ⟨1, .ofNat 7, .ofNat 11, .ofWord 5, 0⟩, ⟨2, .ofNat 7, .ofNat 10, 0, 0⟩] }

/-- `launch_begins_with` where two lenders have one market: the balances of a holder add up, in either order, and the position that is
taken back is empty. -/
theorem launch_begins_with_sharedMarket : ∃ r, sharedMarket.launch = .ok r ∧
    (r.ledger.balance (.ofNat 10) (.ofNat 7)).toNat = 7 ∧
    sharedMarket.balances.reverse.Perm sharedMarket.balances ∧
    { sharedMarket with balances := sharedMarket.balances.reverse }.launch = .ok r ∧
    r.ledger.position (.ofNat 5) (.ofNat 7) (.ofNat 10) = .empty ∧
    r.ledger.position (.ofNat 5) (.ofNat 7) (.ofNat 11) = ⟨.ofWord 5, 0⟩ := by
  have hlaunch : sharedMarket.launch.toOption.isSome = true := by decide +kernel
  obtain ⟨r, hr⟩ := Option.isSome_iff_exists.1 hlaunch
  have hr := Attempt.ok_of_toOption hr
  obtain ⟨hbalances, hperm, hpositions, -, -⟩ := (launch_begins_with sharedMarket).2 r hr
  have hreverse : sharedMarket.balances.reverse.Perm sharedMarket.balances := List.reverse_perm _
  refine ⟨r, hr, hbalances _ _, hreverse, hperm _ hreverse, ?_, ?_⟩
  · rw [hpositions]
    decide +kernel
  · rw [hpositions]
    decide +kernel

end Settings

end Config

end MarginRouter
