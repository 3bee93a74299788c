import MarginRouter.Proofs.Liquidity
import MarginRouter.Proofs.PathQuotes

/-!
# Quotes for larger amounts

On the same reserves a pool of either kind gives no less for a larger input, and asks no less for a larger target, whatever is
rounded. Along a path on which no pool serves two legs, each swap finds the reserves that it would find alone, so the same is true
of what the path as a whole is quoted to come to.
-/

namespace MarginRouter

namespace ConstantProduct

variable {pool : Address} {r : Reserves} {fee : Nat} {less more lower higher : Amount}

/-- A larger input gives no smaller output: what the smaller one reaches is below the reserve, and the larger one reaches it too. -/
theorem amountOut_mono (hless : amountOut pool r fee less = .ok lower) (hmore : amountOut pool r fee more = .ok higher)
    (hle : less ≤ more) : lower ≤ higher := by
  have hlt : lower < r.reserveOut := lt_reserve_of_amountOut hless
  have hreached := (target_le_iff hlt hless).1 (Nat.le_refl _)
  rw [target_le_iff hlt hmore]
  exact Nat.le_trans hreached (Nat.mul_le_mul_right _ (Amount.le_def.1 hle))

/-- A larger target asks for no smaller input: there is more to pay for, and less is left of the reserve. -/
theorem amountIn_mono (hless : amountIn pool r fee less = .ok lower) (hmore : amountIn pool r fee more = .ok higher)
    (hle : less ≤ more) : lower ≤ higher := by
  obtain ⟨-, -, -, hlower⟩ := amountIn_eq_ok hless
  obtain ⟨-, hlt, hfee, hhigher⟩ := amountIn_eq_ok hmore
  have hle := Amount.le_def.1 hle
  have hprice : r.reserveIn.toNat * less.toNat * feeUnit ≤ r.reserveIn.toNat * more.toNat * feeUnit :=
    Nat.mul_le_mul_right _ (Nat.mul_le_mul_left _ hle)
  have hleft : (r.reserveOut.toNat - more.toNat) * (feeUnit - fee) ≤ (r.reserveOut.toNat - less.toNat) * (feeUnit - fee) :=
    Nat.mul_le_mul_right _ (Nat.sub_le_sub_left hle _)
  rw [Amount.le_def, hlower, hhigher]
  exact Nat.succ_le_succ (Nat.div_le_div hprice hleft (Nat.ne_of_gt (divisor_pos hlt hfee)))

end ConstantProduct

namespace FixedRate

variable {pool : Address} {find : Except VenueError RatePool} {r : Reserves} {s : Swap} {less more lower higher : Amount}

theorem amountOut_mono (hless : amountOut find pool r s less = .ok lower) (hmore : amountOut find pool r s more = .ok higher)
    (hle : less ≤ more) : lower ≤ higher := by
  obtain ⟨-, -, -, -, p, hp, hlower⟩ := amountOut_eq_ok hless
  obtain ⟨-, -, -, -, p', hp', hhigher⟩ := amountOut_eq_ok hmore
  obtain rfl := Except.ok.inj (hp.symm.trans hp')
  rw [Amount.le_def, hlower, hhigher]
  exact Nat.div_le_div_right (Nat.mul_le_mul_right _ (Nat.mul_le_mul_right _ (Amount.le_def.1 hle)))

theorem amountIn_mono (hless : amountIn find pool r s less = .ok lower) (hmore : amountIn find pool r s more = .ok higher)
    (hle : less ≤ more) : lower ≤ higher := by
  obtain ⟨-, -, -, p, hp, hlower⟩ := amountIn_eq_ok hless
  obtain ⟨-, -, -, p', hp', hhigher⟩ := amountIn_eq_ok hmore
  obtain rfl := Except.ok.inj (hp.symm.trans hp')
  rw [Amount.le_def, hlower, hhigher]
  refine Nat.div_le_div_right (Nat.add_le_add_right ?_ _)
  exact Nat.mul_le_mul_right _ (Nat.mul_le_mul_right _ (Amount.le_def.1 hle))

end FixedRate

namespace Venue

variable {venue : Venue} {pool : Address} {r : Reserves} {s : Swap} {less more lower higher : Amount}

theorem amountOut_mono (hless : venue.amountOut pool r s less = .ok lower) (hmore : venue.amountOut pool r s more = .ok higher)
    (hle : less ≤ more) : lower ≤ higher := by
  cases venue with
  | constantProduct pools => exact ConstantProduct.amountOut_mono hless hmore hle
  | fixedRate pools => exact FixedRate.amountOut_mono hless hmore hle

theorem amountIn_mono (hless : venue.amountIn pool r s less = .ok lower) (hmore : venue.amountIn pool r s more = .ok higher)
    (hle : less ≤ more) : lower ≤ higher := by
  cases venue with
  | constantProduct pools => exact ConstantProduct.amountIn_mono hless hmore hle
  | fixedRate pools => exact FixedRate.amountIn_mono hless hmore hle

end Venue

namespace VenueBook

variable {v : VenueBook} {l : Ledger} {d : Direction} {s : Swap} {swaps : List Swap} {less more lower higher : Amount} {f g : Fill}

/-- On the same ledger a swap quoted for a larger amount comes to no less, in either direction. -/
theorem cursor_mono (hless : v.quote l s d less = .ok f) (hmore : v.quote l s d more = .ok g) (hle : less ≤ more) :
    f.cursor d ≤ g.cursor d := by
  obtain ⟨⟨venue, pool, reserves⟩, hr, hless⟩ := Attempt.bind_eq_ok.1 hless
  obtain ⟨resolved, hr', hmore⟩ := Attempt.bind_eq_ok.1 hmore
  obtain rfl := Except.ok.inj (hr.symm.trans hr')
  cases d with
  | exactIn =>
    obtain ⟨lower, hlower, hf⟩ := Attempt.bind_eq_ok.1 hless
    obtain ⟨higher, hhigher, hg⟩ := Attempt.bind_eq_ok.1 hmore
    obtain rfl := Attempt.pure_eq_ok.1 hf
    obtain rfl := Attempt.pure_eq_ok.1 hg
    exact Venue.amountOut_mono hlower hhigher hle
  | exactOut =>
    obtain ⟨lower, hlower, hf⟩ := Attempt.bind_eq_ok.1 hless
    obtain ⟨higher, hhigher, hg⟩ := Attempt.bind_eq_ok.1 hmore
    obtain rfl := Attempt.pure_eq_ok.1 hf
    obtain rfl := Attempt.pure_eq_ok.1 hg
    exact Venue.amountIn_mono hlower hhigher hle

/-- Quoted one after another on the same ledger, the swaps come to no less from a larger amount. The induction is on the swaps:
the first comes to no less, and the others start from there. -/
theorem Comes.mono (hless : v.Comes l d swaps less lower) (hmore : v.Comes l d swaps more higher) (hle : less ≤ more) :
    lower ≤ higher := by
  induction hless generalizing more with
  | nil amount =>
    cases hmore
    exact hle
  | cons hf _ ih =>
    cases hmore with
    | cons hg hrest => exact ih hrest (cursor_mono hf hg hle)

end VenueBook

/-- Quotes are monotone along whole paths. Where no pool serves two legs of a path, whatever the kinds of its venues and its length:
of two quotes on the same ledger, the one for the larger amount comes to no less. It is the output that an exact-in quote comes to,
and the input that an exact-out quote asks for. -/
theorem Engine.quote_mono {e : Engine} {l : Ledger} {p : Path} {d : Direction} {less more lower higher : Amount}
    {fills fills' : List Fill} (hapart : e.venues.Apart (p.swaps d)) (hless : e.quote l p d less = .ok (fills, lower))
    (hmore : e.quote l p d more = .ok (fills', higher)) (hle : less ≤ more) : lower ≤ higher :=
  (quote_comes hapart hless).mono (quote_comes hapart hmore) hle

/-- `Engine.quote_mono` over a fixed-rate pool and a constant-product pool: for an input of a hundred and one of a hundred and
twelve, and for an output of fifty and one of a hundred. -/
theorem Engine.quote_mono_two_pools :
    (∃ fills fills' lower higher, Sample.twoPools.venues.Apart (Sample.longPath.swaps .exactIn) ∧
      Sample.twoPools.quote Sample.twoPoolsLedger Sample.longPath .exactIn (.ofWord 100) = .ok (fills, lower) ∧
      Sample.twoPools.quote Sample.twoPoolsLedger Sample.longPath .exactIn (.ofWord 112) = .ok (fills', higher) ∧
      lower ≤ higher) ∧
    ∃ fills fills' lower higher, Sample.twoPools.venues.Apart (Sample.longPath.reversed.swaps .exactOut) ∧
      Sample.twoPools.quote Sample.twoPoolsLedger Sample.longPath.reversed .exactOut (.ofWord 50) = .ok (fills, lower) ∧
      Sample.twoPools.quote Sample.twoPoolsLedger Sample.longPath.reversed .exactOut (.ofWord 100) = .ok (fills', higher) ∧
      lower ≤ higher := by
  have hquoted : ∀ {p d amount}, (Sample.twoPools.quote Sample.twoPoolsLedger p d amount).toOption.isSome = true →
      ∃ fills last, Sample.twoPools.quote Sample.twoPoolsLedger p d amount = .ok (fills, last) := by
    intro p d amount h
    obtain ⟨⟨fills, last⟩, h⟩ := Option.isSome_iff_exists.1 h
    exact ⟨fills, last, Attempt.ok_of_toOption h⟩
  constructor
  · have hapart : Sample.twoPools.venues.Apart (Sample.longPath.swaps .exactIn) := by decide +kernel
    obtain ⟨fills, lower, hless⟩ := @hquoted Sample.longPath .exactIn (.ofWord 100) (by decide +kernel)
    obtain ⟨fills', higher, hmore⟩ := @hquoted Sample.longPath .exactIn (.ofWord 112) (by decide +kernel)
    exact ⟨fills, fills', lower, higher, hapart, hless, hmore, Engine.quote_mono hapart hless hmore (by decide)⟩
  · have hapart : Sample.twoPools.venues.Apart (Sample.longPath.reversed.swaps .exactOut) := by decide +kernel
    obtain ⟨fills, lower, hless⟩ := @hquoted Sample.longPath.reversed .exactOut (.ofWord 50) (by decide +kernel)
    obtain ⟨fills', higher, hmore⟩ := @hquoted Sample.longPath.reversed .exactOut (.ofWord 100) (by decide +kernel)
    exact ⟨fills, fills', lower, higher, hapart, hless, hmore, Engine.quote_mono hapart hless hmore (by decide)⟩

end MarginRouter
