import MarginRouter.Proofs.ExactPricing
import MarginRouter.Proofs.Quote
import MarginRouter.Proofs.Reserves

/-!
# What pools keep

A constant-product pool always keeps some of the token that it pays out; a fixed-rate pool may pay out all that it has. A hop that
would leave the pool with less is refused for lack of liquidity, and a hop that is made takes something in, pays something out and
leaves the pool what it keeps.
-/

namespace MarginRouter

open Ledger Clearing Books

namespace ConstantProduct

variable {pool : Address} {r : Reserves} {fee : Nat} {input output : Amount}

/-- A pool without one of the tokens gives nothing. -/
theorem reserves_of_amountOut (h : amountOut pool r fee input = .ok output) : r.reserveIn ≠ 0 ∧ r.reserveOut ≠ 0 := by
  simp only [amountOut, Attempt.refuse_eq_ok, not_or] at h
  exact h.2.1

/-- The output leaves some of the reserve: it is covered by what is left. -/
theorem lt_reserve_of_amountOut (h : amountOut pool r fee input = .ok output) : output.toNat < r.reserveOut.toNat := by
  obtain ⟨hreserve, -⟩ := reserves_of_amountOut h
  obtain ⟨-, -, hne, -⟩ := amountOut_eq_ok h
  obtain ⟨-, hcovered⟩ := covered_of_amountOut h
  have hpaid : 0 < output.toNat * r.reserveIn.toNat :=
    Nat.mul_pos (Amount.toNat_pos.2 hne) (Amount.toNat_pos.2 hreserve)
  have hleft : 0 < r.reserveOut.toNat - output.toNat := Nat.pos_of_mul_pos_left (Nat.lt_of_lt_of_le hpaid hcovered)
  omega

/-- By the formula the output stays below the reserve of a pool that has both tokens. -/
theorem outputFor_lt (hin : r.reserveIn ≠ 0) (hout : r.reserveOut ≠ 0) (hfee : fee < feeUnit) :
    outputFor r fee input < r.reserveOut.toNat := by
  have hscaled : 0 < r.reserveIn.toNat * feeUnit := Nat.mul_pos (Amount.toNat_pos.2 hin) (by decide)
  rw [outputFor_eq hfee, Int.ofNat_lt]
  refine Nat.div_lt_of_lt_mul (Nat.mul_lt_mul_of_pos_right ?_ (Amount.toNat_pos.2 hout))
  exact Nat.lt_add_of_pos_left hscaled

/-- An input whose output would be the whole reserve is refused. -/
theorem amountOut_of_reserve_le (hne : input ≠ 0) (hfee : fee < feeUnit) (h : r.reserveOut.toNat ≤ outputFor r fee input) :
    amountOut pool r fee input = .error (r.insufficient pool input) := by
  by_cases hreserves : r.reserveIn = 0 ∨ r.reserveOut = 0
  · rw [amountOut, if_neg hne, if_pos hreserves]
    rfl
  · obtain ⟨hin, hout⟩ := not_or.1 hreserves
    exact absurd (outputFor_lt hin hout hfee) (Int.not_lt.2 h)

/-- A target that is the whole reserve is refused. -/
theorem amountIn_of_reserve_le (hne : output ≠ 0) (h : r.reserveOut ≤ output) :
    amountIn pool r fee output = .error (r.insufficient pool output) := by
  rw [amountIn, if_neg hne, if_pos (.inr h)]
  rfl

end ConstantProduct

namespace FixedRate

variable {pool : Address} {find : Except VenueError RatePool} {p : RatePool} {r : Reserves} {s : Swap} {input output : Amount}

/-- An input whose output would be more than the reserve is refused, where what is checked before fits. -/
theorem amountOut_of_reserve_lt (hne : input ≠ 0) (hfee : s.fee < feeUnit) (hp : find = .ok p)
    (hfits : ∀ n ∈ outputChecks p s input, n < 1 <<< 256) (h : r.reserveOut.toNat < outputFor p s input) :
    amountOut find pool r s input = .error (r.insufficient pool input) := by
  obtain ⟨kept, hkept⟩ : ∃ kept, afterFee pool s.fee = .ok kept := ⟨_, if_pos hfee⟩
  obtain ⟨-, hk⟩ := afterFee_eq_ok hkept
  have hpaid : input.toNat * kept.toNat < 1 <<< 256 := hfits _ (by simp [outputChecks, hk])
  have hnumerator : input.toNat * kept.toNat * (p.oriented s).1.toNat < 1 <<< 256 := hfits _ (by simp [outputChecks, hk])
  rw [outputFor_eq hfee, Int.ofNat_lt, ← hk] at h
  simp only [amountOut, Attempt.refuse_eq_error, Attempt.bind_eq_error]
  refine .inr ⟨hne, .inr ⟨kept, hkept, .inr ⟨p, hp, .inr ⟨_, VenueError.checked_of_lt hpaid, .inr ⟨_,
    VenueError.checked_of_lt hnumerator, .inl ⟨.inr ?_, trivial⟩⟩⟩⟩⟩⟩
  rw [Amount.lt_def, Amount.toNat_div, Amount.toNat_wrap (product_lt (Nat.le_refl _) (oriented_bounds p s).2.2)]
  exact h

/-- A target that is more than the reserve is refused. -/
theorem amountIn_of_reserve_lt (hne : output ≠ 0) (hfee : s.fee < feeUnit) (h : r.reserveOut < output) :
    amountIn find pool r s output = .error (r.insufficient pool output) := by
  simp only [amountIn, Attempt.refuse_eq_error, Attempt.bind_eq_error]
  exact .inr ⟨hne, .inr ⟨_, if_pos hfee, .inl ⟨h, trivial⟩⟩⟩

end FixedRate

namespace Venue

variable {venue : Venue} {pool : Address} {r : Reserves} {s : Swap} {d : Direction} {amount : Amount} {f : Fill}

/-- The least that a pool of the venue keeps of what it pays out. -/
def leastKept : Venue → Nat
  | .constantProduct _ => 1
  | .fixedRate _ => 0

/-- What a venue prices leaves the pool what it keeps. -/
theorem Prices.leastKept_le (h : venue.Prices s r f) : f.amountOut.toNat + venue.leastKept ≤ r.reserveOut.toNat := by
  cases venue with
  | constantProduct pools =>
    rcases h with ho | hi
    · exact ConstantProduct.lt_reserve_of_amountOut ho
    · exact Amount.lt_def.1 (ConstantProduct.amountIn_eq_ok hi).2.1
  | fixedRate pools =>
    rcases h with ho | hi
    · exact Amount.le_def.1 (FixedRate.amountOut_eq_ok ho).2.2.2.1
    · exact Amount.le_def.1 (FixedRate.amountIn_eq_ok hi).2.2.1

/-- The hop would leave the pool with less than it keeps. Of an exact-in hop the output is what the formula says, where what is
checked on the way fits. -/
def Exhausts (venue : Venue) (r : Reserves) (s : Swap) (d : Direction) (amount : Amount) : Prop :=
  match d with
  | .exactIn => (∀ n ∈ venue.outputChecks r s amount, n < 1 <<< 256) ∧
      ∃ output, venue.outputFor r s amount = some output ∧ r.reserveOut.toNat < output + venue.leastKept
  | .exactOut => r.reserveOut.toNat < amount.toNat + venue.leastKept

theorem amountOut_of_exhausts (hne : amount ≠ 0) (hfee : s.fee < feeUnit) (h : venue.Exhausts r s .exactIn amount) :
    venue.amountOut pool r s amount = .error (r.insufficient pool amount) := by
  obtain ⟨hfits, output, ho, hlt⟩ := h
  cases venue with
  | constantProduct pools =>
    obtain rfl := Option.some.inj ho
    exact ConstantProduct.amountOut_of_reserve_le hne hfee (Int.lt_add_one_iff.1 hlt)
  | fixedRate pools =>
    obtain ⟨p, hp, rfl⟩ := Option.map_eq_some_iff.1 ho
    rw [outputChecks, hp] at hfits
    rw [leastKept, Nat.cast_zero, Int.add_zero] at hlt
    exact FixedRate.amountOut_of_reserve_lt hne hfee (found_eq_ok.2 hp) hfits hlt

theorem amountIn_of_exhausts (hne : amount ≠ 0) (hfee : s.fee < feeUnit) (h : venue.Exhausts r s .exactOut amount) :
    venue.amountIn pool r s amount = .error (r.insufficient pool amount) := by
  cases venue with
  | constantProduct pools => exact ConstantProduct.amountIn_of_reserve_le hne (Nat.lt_succ_iff.1 h)
  | fixedRate pools => exact FixedRate.amountIn_of_reserve_lt hne hfee h

end Venue

/-- What a pool holds of the tokens of a swap. -/
def Swap.reserves (s : Swap) (l : Ledger) (pool : Address) : Reserves :=
  ⟨l.balance s.tokenIn pool, l.balance s.tokenOut pool⟩

namespace VenueBook

variable {v : VenueBook} {venue : Venue} {pool : Address} {l l' : Ledger} {s : Swap} {d : Direction} {amount : Amount} {f : Fill}
variable {b b' : Books}

/-- A fill takes something in and pays something out, and leaves its pool what the venue keeps. -/
structure Spares (v : VenueBook) (s : Swap) (f : Fill) (l : Ledger) : Prop where
  amountIn_ne_zero : f.amountIn ≠ 0
  amountOut_ne_zero : f.amountOut ≠ 0
  kept : ∃ venue, v[s.provider]? = some venue ∧ f.amountOut.toNat + venue.leastKept ≤ (l.balance s.tokenOut f.pool).toNat

/-- A swap between different tokens, from one ledger to another, has left its pool the reserve less what has been paid out, and that
is no less than what the venue keeps. -/
structure Leaves (v : VenueBook) (s : Swap) (f : Fill) (l l' : Ledger) : Prop extends v.Spares s f l where
  reserve : s.tokenIn ≠ s.tokenOut →
    (l'.balance s.tokenOut f.pool).toNat + f.amountOut.toNat = (l.balance s.tokenOut f.pool).toNat
  remains : s.tokenIn ≠ s.tokenOut →
    ∃ venue, v[s.provider]? = some venue ∧ venue.leastKept ≤ (l'.balance s.tokenOut f.pool).toNat

theorem quote_spares (h : v.quote l s d amount = .ok f) : v.Spares s f l := by
  obtain ⟨hin, hout⟩ := quote_ne_zero h
  obtain ⟨-, venue, hv, -, hprices⟩ := quote_priced h
  exact ⟨hin, hout, venue, hv, hprices.leastKept_le⟩

theorem swap_leaves (h : v.swap s d amount b = .ok f b') : v.Leaves s f b.ledger b'.ledger := by
  obtain ⟨hq, hmoved⟩ := swap_eq_ok h
  have hspares := quote_spares hq
  obtain ⟨venue, hv, hkept⟩ := hspares.kept
  have hreserve (hne : s.tokenIn ≠ s.tokenOut) :
      (b'.ledger.balance s.tokenOut f.pool).toNat + f.amountOut.toNat = (b.ledger.balance s.tokenOut f.pool).toNat := by
    have hholds := hmoved.holds s.tokenOut f.pool
    rw [Swap.paid_tokenOut f hne, Ledger.holds, Ledger.holds] at hholds
    omega
  refine ⟨hspares, hreserve, fun hne => ⟨venue, hv, ?_⟩⟩
  have hleft := hreserve hne
  omega

/-- A hop that would leave the pool with less than it keeps is not quoted. -/
theorem quote_of_exhausts (hv : v[s.provider]? = some venue) (hp : venue.pool s = .ok pool) (hne : amount ≠ 0)
    (hfee : s.fee < feeUnit) (h : venue.Exhausts (s.reserves l pool) s d amount) :
    v.quote l s d amount = .error ((s.reserves l pool).insufficient pool amount) := by
  have hr : v.resolve l s = .ok (venue, pool, s.reserves l pool) := by
    unfold resolve
    rw [hv]
    show venue.pool s >>= _ = _
    rw [hp]
    rfl
  unfold quote
  rw [hr]
  cases d with
  | exactIn =>
    show venue.amountOut pool _ s amount >>= _ = _
    rw [Venue.amountOut_of_exhausts hne hfee h]
    rfl
  | exactOut =>
    show venue.amountIn pool _ s amount >>= _ = _
    rw [Venue.amountIn_of_exhausts hne hfee h]
    rfl

/-- What is not quoted is not swapped, and nothing is changed. -/
theorem swap_of_quote_eq_error {e : VenueError} (h : v.quote b.ledger s d amount = .error e) :
    v.swap s d amount b = .error e b :=
  Step.get_bind_eq_error.2 (Step.lift_bind_eq_error.2 (.inl ⟨h, rfl⟩))

end VenueBook

namespace Engine

variable {v : VenueBook} {d : Direction} {legs : List Leg} {fills : List Fill} {b b' : Books} {cursor last : Amount}

/-- The legs are swapped one after another, and each swap leaves its pool what the venue keeps. -/
inductive EachLeaves (v : VenueBook) (d : Direction) : List Leg → List Fill → Books → Books → Prop where
  | nil (b : Books) : EachLeaves v d [] [] b b
  | cons {leg : Leg} {legs : List Leg} {amount : Amount} {f : Fill} {fills : List Fill} {b b₁ b' : Books}
      (hs : v.swap (leg.swap d) d amount b = .ok f b₁) (hl : v.Leaves (leg.swap d) f b.ledger b₁.ledger)
      (h : EachLeaves v d legs fills b₁ b') : EachLeaves v d (leg :: legs) (f :: fills) b b'

/-- The induction is on the legs: each swap starts from the books that the one before it has left. -/
theorem walk_eachLeaves (h : walk v d legs cursor b = .ok (fills, last) b') : EachLeaves v d legs fills b b' := by
  induction legs generalizing cursor fills b with
  | nil =>
    obtain ⟨he, rfl⟩ := Step.pure_eq_ok.1 h
    cases he
    exact .nil b
  | cons leg legs ih =>
    obtain ⟨f, rest, b₁, hs, hrest, rfl⟩ := walk_cons_eq_ok h
    exact .cons hs (VenueBook.swap_leaves hs) (ih hrest)

variable {e : Engine} {r : Request} {w w' : World} {settled : Settled}

/-- The swaps of an execution start from what the ledger holds before it, but for what the lender has handed over. -/
theorem execute_eachLeaves {address : Address} {rate : FeeRate} {feeMode : FeeMode}
    (hl : e.lender = .reserve address rate feeMode) (h : e.execute r w = .ok settled w') :
    ∃ b b', (∀ t k, k ≠ address → b.ledger.holds t k = w.ledger.holds t k) ∧
      EachLeaves e.venues r.direction r.path.legs settled.fills b b' := by
  obtain ⟨c, s, -, hsettle, -⟩ := execute_eq_ok h
  cases hc : c.lending? with
  | none =>
    obtain ⟨fills, amount, b', hw, -, -, -, rfl⟩ := settle_spot hc hsettle
    exact ⟨_, b', fun t k _ => rfl, walk_eachLeaves hw⟩
  | some legs =>
    obtain ⟨mode, market, start, terms, done, b₁, b₂, b₃, b₄, b', -, -, -, -, hst, -, rfl⟩ := settle_leveraged hl hc hsettle
    refine ⟨b₁, b₂, fun t k hk => ?_, walk_eachLeaves hst.walked⟩
    have hne : k ≠ e.lender.address := by
      rw [hl]
      exact hk
    rw [hst.lent.holds, payment_of_ne hne, Int.add_zero]

/-- What is left to pools. Every hop that is quoted takes something in and pays something out, and every swap leaves its pool no less
than its venue keeps: one unit at a constant product, nothing at a fixed rate. A hop that would leave less is refused for lack of
liquidity, and changes nothing. So each hop of a quoted path, and of an execution that succeeds, leaves its pool what the venue
keeps. -/
theorem hops_leave {address : Address} {rate : FeeRate} {feeMode : FeeMode} (hl : e.lender = .reserve address rate feeMode) :
    (∀ l s d amount f, e.venues.quote l s d amount = .ok f → e.venues.Spares s f l) ∧
    (∀ s d amount b f b', e.venues.swap s d amount b = .ok f b' → e.venues.Leaves s f b.ledger b'.ledger) ∧
    (∀ venue pool s d amount b, e.venues[s.provider]? = some venue → venue.pool s = .ok pool → amount ≠ 0 → s.fee < feeUnit →
      venue.Exhausts (s.reserves b.ledger pool) s d amount →
      e.venues.quote b.ledger s d amount = .error ((s.reserves b.ledger pool).insufficient pool amount) ∧
        e.venues.swap s d amount b = .error ((s.reserves b.ledger pool).insufficient pool amount) b) ∧
    (∀ l p d amount fills last, e.quote l p d amount = .ok (fills, last) →
      ∃ b', EachLeaves e.venues d p.legs fills ⟨l, .new e.address⟩ b') ∧
    ∀ r w settled w', e.execute r w = .ok settled w' →
      ∃ b b', (∀ t k, k ≠ address → b.ledger.holds t k = w.ledger.holds t k) ∧
        EachLeaves e.venues r.direction r.path.legs settled.fills b b' := by
  refine ⟨fun _ _ _ _ _ h => VenueBook.quote_spares h, fun _ _ _ _ _ _ h => VenueBook.swap_leaves h, ?_, ?_,
    fun _ _ _ _ h => execute_eachLeaves hl h⟩
  · intro venue pool s d amount b hv hp hne hfee h
    have hq := VenueBook.quote_of_exhausts hv hp hne hfee h
    exact ⟨hq, VenueBook.swap_of_quote_eq_error hq⟩
  · intro l p d amount fills last h
    obtain ⟨b', hw⟩ := quote_eq_ok.1 h
    exact ⟨b', walk_eachLeaves hw⟩

end Engine

namespace Sample

/-- A swap of token 10 for token 11. -/
def pairSwap : Swap :=
  ⟨0, .ofNat 10, .ofNat 11, 0⟩

/-- The books of the small engine before anything is done. -/
def books : Books :=
  ⟨ledger, .new engine.address⟩

/-- The lender buys all that the pool has of token 11. -/
def drain : Request :=
  ⟨.ofNat 2, ⟨[hop (.ofNat 11) .swapExactOut], .ofNat 10, none⟩, .ofWord 1000, .max, .exactOut⟩

end Sample

/-- `Engine.hops_leave` at a pool with a thousand of token 11: all of it can be bought, and not one more. -/
theorem Engine.hops_leave_drain :
    Sample.engine.lender = .reserve (.ofNat 2) ⟨0, 1, by decide⟩ .deducted ∧
    (∃ f b', Sample.engine.venues.swap Sample.pairSwap .exactOut (.ofWord 1000) Sample.books = .ok f b' ∧
      Sample.engine.venues.Leaves Sample.pairSwap f Sample.ledger b'.ledger) ∧
    Sample.engine.venues.swap Sample.pairSwap .exactOut (.ofWord 1001) Sample.books =
      .error ((Sample.pairSwap.reserves Sample.ledger (.ofNat 5)).insufficient (.ofNat 5) (.ofWord 1001)) Sample.books ∧
    ∃ settled w' b b', Sample.engine.execute Sample.drain ⟨Sample.ledger, .new (.ofNat 1)⟩ = .ok settled w' ∧
      EachLeaves Sample.engine.venues .exactOut Sample.drain.path.legs settled.fills b b' := by
  have hall : Step.yields (Sample.engine.venues.swap Sample.pairSwap .exactOut (.ofWord 1000)) Sample.books
      (fun _ _ => true) = true := by decide +kernel
  have hdrain : Step.yields (Sample.engine.execute Sample.drain) ⟨Sample.ledger, .new (.ofNat 1)⟩
      (fun _ _ => true) = true := by decide +kernel
  obtain ⟨f, b', hswap, -⟩ := Step.exists_ok_of_yields hall
  obtain ⟨settled, w', hexecute, -⟩ := Step.exists_ok_of_yields hdrain
  obtain ⟨-, hleaves, hrefused, -, hexecuted⟩ := Engine.hops_leave (e := Sample.engine) rfl
  obtain ⟨b, b₁, -, heach⟩ := hexecuted _ _ _ _ hexecute
  refine ⟨rfl, ⟨f, b', hswap, hleaves _ _ _ _ _ _ hswap⟩, ?_, settled, w', b, b₁, hexecute, heach⟩
  have hless : (Sample.ledger.balance (.ofNat 11) (.ofNat 5)).toNat < 1001 := by decide +kernel
  exact (hrefused _ (.ofNat 5) Sample.pairSwap .exactOut (.ofWord 1001) Sample.books Std.ExtTreeMap.getElem?_insert_self rfl
    (by decide) (by decide) hless).2

/-- A successful swap between two tokens can leave its pool nothing of the token that it has paid out. -/
theorem VenueBook.swap_lt_reserve_false :
    ¬∀ (v : VenueBook) (s : Swap) (d : Direction) (amount : Amount) (b : Books) (f : Fill) (b' : Books), s.tokenIn ≠ s.tokenOut →
      v.swap s d amount b = .ok f b' → f.amountOut < b.ledger.balance s.tokenOut f.pool := by
  intro h
  have hall : Step.yields (Sample.engine.venues.swap Sample.pairSwap .exactOut (.ofWord 1000)) Sample.books
      (fun f _ => f.amountOut = Sample.ledger.balance (.ofNat 11) f.pool) = true := by decide +kernel
  obtain ⟨f, b', hswap, heq⟩ := Step.exists_ok_of_yields hall
  have hlt := h _ Sample.pairSwap .exactOut (.ofWord 1000) Sample.books f b' (by decide) hswap
  rw [of_decide_eq_true heq] at hlt
  exact Nat.lt_irrefl _ hlt

end MarginRouter
