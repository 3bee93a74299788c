import MarginRouter.Proofs.ExactPricing

/-!
# Quotes of one pool in both directions

How close the input that a pool asks for is to the smallest that suffices. At a fixed rate it is the smallest. A constant-product
pool asks for one unit more than the quotient, also where the quotient has no remainder, and so for at most one unit too much.
-/

namespace MarginRouter

namespace ConstantProduct

variable {pool : Address} {r : Reserves} {fee : Nat} {asked given target output : Amount}

/-- The output reaches a target below the reserve exactly when the input, times what would be left of the reserve, reaches the exact
price: the target times the input after the fee is on both sides. -/
theorem target_le_iff (hlt : target < r.reserveOut) (hout : amountOut pool r fee given = .ok output) :
    target ≤ output ↔ r.reserveIn.toNat * target.toNat * feeUnit ≤
      given.toNat * ((r.reserveOut.toNat - target.toNat) * (feeUnit - fee)) := by
  obtain ⟨hgiven, hfee, -, hexact⟩ := amountOut_eq_ok hout
  have hpaid : 0 < given.toNat * (feeUnit - fee) :=
    Nat.mul_pos (Amount.toNat_pos.2 hgiven) (Nat.sub_pos_of_lt hfee)
  obtain ⟨left, hleft⟩ := Nat.exists_eq_add_of_le (Nat.le_of_lt (Amount.lt_def.1 hlt))
  have hprice : target.toNat * (r.reserveIn.toNat * feeUnit + given.toNat * (feeUnit - fee)) =
      r.reserveIn.toNat * target.toNat * feeUnit + target.toNat * (given.toNat * (feeUnit - fee)) := by ring
  have hworth : given.toNat * (feeUnit - fee) * (target.toNat + left) =
      given.toNat * (left * (feeUnit - fee)) + target.toNat * (given.toNat * (feeUnit - fee)) := by ring
  rw [Amount.le_def, hexact, Nat.le_div_iff_mul_le (Nat.add_pos_right _ hpaid), hleft, hprice, hworth, Nat.add_sub_cancel_left,
    Nat.add_le_add_iff_right]

/-- At the input that is asked for, or above it, the output is at least the target. -/
theorem target_le (hin : amountIn pool r fee target = .ok asked) (hout : amountOut pool r fee given = .ok output)
    (hle : asked ≤ given) : target ≤ output := by
  obtain ⟨hlt, hprice⟩ := price_lt_of_amountIn hin
  rw [target_le_iff hlt hout]
  exact Nat.le_trans (Nat.le_of_lt hprice) (Nat.mul_le_mul_right _ (Amount.le_def.1 hle))

/-- More than one unit below the input that is asked for, the output is less than the target. -/
theorem output_lt (hin : amountIn pool r fee target = .ok asked) (hout : amountOut pool r fee given = .ok output)
    (hless : given.toNat + 1 < asked.toNat) : output < target := by
  obtain ⟨-, hlt, hfee, hasked⟩ := amountIn_eq_ok hin
  have hquotient : given.toNat + 1 ≤ r.reserveIn.toNat * target.toNat * feeUnit /
      ((r.reserveOut.toNat - target.toNat) * (feeUnit - fee)) := by omega
  have hdivisor := divisor_pos hlt hfee
  have hprice := (Nat.le_div_iff_mul_le hdivisor).1 hquotient
  refine Nat.lt_of_not_le fun hle => ?_
  have hreached := (target_le_iff hlt hout).1 hle
  rw [Nat.succ_mul] at hprice
  omega

end ConstantProduct

namespace FixedRate

variable {pool : Address} {find : Except VenueError RatePool} {r : Reserves} {s : Swap} {asked given target output : Amount}

/-- The output reaches the target exactly when the input reaches what is asked for. -/
theorem target_le_iff (hin : amountIn find pool r s target = .ok asked) (hout : amountOut find pool r s given = .ok output) :
    target ≤ output ↔ asked ≤ given := by
  obtain ⟨-, hfee, -, p, hp, hasked⟩ := amountIn_eq_ok hin
  obtain ⟨-, -, -, -, p', hp', hexact⟩ := amountOut_eq_ok hout
  obtain rfl := Except.ok.inj (hp.symm.trans hp')
  have hdivisor := inputDivisor_pos p hfee
  calc target ≤ output
      ↔ target.toNat * (feeUnit * (p.oriented s).2.toNat) ≤ given.toNat * (feeUnit - s.fee) * (p.oriented s).1.toNat := by
        rw [Amount.le_def, hexact, Nat.le_div_iff_mul_le (outputDivisor_pos p s)]
    _ ↔ target.toNat * feeUnit * (p.oriented s).2.toNat ≤ (feeUnit - s.fee) * (p.oriented s).1.toNat * given.toNat := by
        rw [Nat.mul_assoc target.toNat, Nat.mul_assoc given.toNat, Nat.mul_comm given.toNat]
    _ ↔ asked ≤ given := by
        rw [Amount.le_def, hasked, ← Nat.add_sub_assoc hdivisor, ← Nat.ceilDiv_eq_add_pred_div, ceilDiv_le_iff_le_mul hdivisor]

end FixedRate

namespace Venue

variable {venue : Venue} {pool : Address} {r : Reserves} {s : Swap} {asked given target output : Amount}

/-- By how much the input that is asked for can be more than the smallest that suffices. -/
def excess : Venue → Nat
  | .constantProduct _ => 1
  | .fixedRate _ => 0

/-- At the input that a pool of either kind asks for, or above it, its output is at least the target. -/
theorem target_le (hin : venue.amountIn pool r s target = .ok asked) (hout : venue.amountOut pool r s given = .ok output)
    (hle : asked ≤ given) : target ≤ output := by
  cases venue with
  | constantProduct pools => exact ConstantProduct.target_le hin hout hle
  | fixedRate pools => exact (FixedRate.target_le_iff hin hout).2 hle

/-- Further below it than the excess, its output is less than the target. -/
theorem output_lt (hin : venue.amountIn pool r s target = .ok asked) (hout : venue.amountOut pool r s given = .ok output)
    (hless : given.toNat + venue.excess < asked.toNat) : output < target := by
  cases venue with
  | constantProduct pools => exact ConstantProduct.output_lt hin hout hless
  | fixedRate pools => exact Nat.lt_of_not_le fun hle => Nat.not_le.2 hless ((FixedRate.target_le_iff hin hout).1 hle)

/-- The quotes of a pool in the two directions are tight. What it asks for a target suffices, and so does whatever is more. What is
less does not suffice at a fixed rate; at a constant product it does not if it is less by more than one unit. -/
theorem quotes_tight (hin : venue.amountIn pool r s target = .ok asked) :
    ∀ given output, venue.amountOut pool r s given = .ok output →
      (asked ≤ given → target ≤ output) ∧ (given.toNat + venue.excess < asked.toNat → output < target) :=
  fun _ _ hout => ⟨target_le hin hout, output_lt hin hout⟩

end Venue

namespace Sample

/-- A venue with a pool that gives five for seven. -/
def fiveForSeven : Venue :=
  .fixedRate ((∅ : Std.ExtTreeMap PoolKey RatePool).insert feeSwap.key ⟨.ofNat 4, 5, 7, by decide, by decide⟩)

end Sample

/-- `Venue.quotes_tight` for a hundred: a pool with a thousand of both tokens asks for a hundred and twelve, a pool that gives five
for seven for a hundred and forty-one. -/
theorem Venue.quotes_tight_hundred :
    (Sample.feeVenue.amountIn (.ofNat 4) Sample.thousands Sample.feeSwap (.ofWord 100) = .ok (.ofWord 112) ∧
      (∃ output, Sample.feeVenue.amountOut (.ofNat 4) Sample.thousands Sample.feeSwap (.ofWord 112) = .ok output ∧
        .ofWord 100 ≤ output) ∧
      ∃ output, Sample.feeVenue.amountOut (.ofNat 4) Sample.thousands Sample.feeSwap (.ofWord 110) = .ok output ∧
        output < .ofWord 100) ∧
    Sample.fiveForSeven.amountIn (.ofNat 4) Sample.thousands Sample.feeSwap (.ofWord 100) = .ok (.ofWord 141) ∧
      ∃ output, Sample.fiveForSeven.amountOut (.ofNat 4) Sample.thousands Sample.feeSwap (.ofWord 140) = .ok output ∧
        output < .ofWord 100 := by
  have hproduct : Sample.feeVenue.amountIn (.ofNat 4) Sample.thousands Sample.feeSwap (.ofWord 100) = .ok (.ofWord 112) := by
    decide +kernel
  have henough : Sample.feeVenue.amountOut (.ofNat 4) Sample.thousands Sample.feeSwap (.ofWord 112) = .ok (.ofWord 100) := by
    decide +kernel
  have hless : Sample.feeVenue.amountOut (.ofNat 4) Sample.thousands Sample.feeSwap (.ofWord 110) = .ok (.ofWord 98) := by
    decide +kernel
  have hrate : Sample.fiveForSeven.amountIn (.ofNat 4) Sample.thousands Sample.feeSwap (.ofWord 100) = .ok (.ofWord 141) := by
    decide +kernel
  have hshort : Sample.fiveForSeven.amountOut (.ofNat 4) Sample.thousands Sample.feeSwap (.ofWord 140) = .ok (.ofWord 99) := by
    decide +kernel
  refine ⟨⟨hproduct, ⟨_, henough, ?_⟩, _, hless, ?_⟩, hrate, _, hshort, ?_⟩
  · exact (Venue.quotes_tight hproduct _ _ henough).1 (by decide)
  · exact (Venue.quotes_tight hproduct _ _ hless).2 (by decide)
  · exact (Venue.quotes_tight hrate _ _ hshort).2 (by decide)

end MarginRouter
