import Mathlib.Algebra.Order.Floor.Div
import Mathlib.Tactic.Ring
import MarginRouter.Proofs.Swap

/-!
# Prices of pools

What the two kinds of pool ask and give, as exact numbers: nothing that is computed without a check wraps. So a quote is never
for nothing and never costs nothing, and it never favours the trader: the product of a constant-product pool's reserves does not
fall, and a fixed-rate pool gives no more than its rate, because a fee only takes from the input and all rounding is for the
pool.
-/

namespace MarginRouter

namespace Amount

theorem toNat_wrap {n : Nat} (h : n < 1 <<< 256) : (wrap n).toNat = n :=
  Nat.mod_eq_of_lt h

@[simp] theorem toNat_div (a b : Amount) : (a.div b).toNat = a.toNat / b.toNat := rfl

/-- Where there is a remainder the quotient rounded up fits, since a divisor that leaves one is at least two. -/
theorem div_add_one_lt {a b : Amount} (h : a.toNat % b.toNat ≠ 0) : a.toNat / b.toNat + 1 < 1 <<< 256 := by
  have ha := a.isLt
  rcases Nat.lt_or_ge b.toNat 2 with hlt | htwo
  · have hzero : b.toNat = 0 := by
      by_contra hne
      have hone : b.toNat = 1 := by omega
      exact h (by rw [hone, Nat.mod_one])
    rw [hzero, Nat.div_zero]
    decide
  · have hhalf : a.toNat / b.toNat ≤ a.toNat / 2 := Nat.div_le_div_left htwo (by decide)
    omega

/-- The quotient rounded up is one more than the quotient wherever there is a remainder. -/
theorem toNat_divCeil {a b : Amount} (hb : b ≠ 0) : (a.divCeil b).toNat = (a.toNat + (b.toNat - 1)) / b.toNat := by
  have hpos : 0 < b.toNat := toNat_pos.2 hb
  have hdecomp := Nat.div_add_mod a.toNat b.toNat
  have hlt := Nat.mod_lt a.toNat hpos
  unfold divCeil
  by_cases hm : a.toNat % b.toNat = 0
  · rw [if_pos hm, toNat_div, ← hdecomp, hm, Nat.add_zero, Nat.mul_div_cancel_left _ hpos, Nat.mul_add_div hpos,
      Nat.div_eq_of_lt (Nat.sub_lt hpos Nat.one_pos), Nat.add_zero]
  · rw [if_neg hm]
    have hnext : b.toNat * (a.toNat / b.toNat + 1) = b.toNat * (a.toNat / b.toNat) + b.toNat := Nat.mul_add_one _ _
    have hsplit : a.toNat + (b.toNat - 1) = b.toNat * (a.toNat / b.toNat + 1) + (a.toNat % b.toNat - 1) := by omega
    have hrest : a.toNat % b.toNat - 1 < b.toNat := by omega
    rw [toNat_wrap (div_add_one_lt hm), hsplit, Nat.mul_add_div hpos, Nat.div_eq_of_lt hrest, Nat.add_zero]

end Amount

theorem VenueError.checked_eq_some {n : Nat} {a : Amount} (h : VenueError.checked n = .ok a) : a.toNat = n :=
  VenueError.checked_eq_ok.1 h

theorem VenueError.checked_of_lt {n : Nat} (h : n < 1 <<< 256) : VenueError.checked n = .ok ⟨n, h⟩ :=
  VenueError.checked_eq_ok.2 rfl

/-- What is covered by the input less the fee is covered by the input. -/
theorem le_of_afterFee (fee : Nat) {a b : Nat} (h : a * feeUnit ≤ b * (feeUnit - fee)) : a ≤ b := by
  have hle : a * feeUnit ≤ b * feeUnit := h.trans (Nat.mul_le_mul_left b (Nat.sub_le _ _))
  exact Nat.le_of_mul_le_mul_right hle (by decide)

namespace ConstantProduct

variable {pool : Address} {r : Reserves} {fee kept : Nat} {input output : Amount}

theorem afterFee_eq_ok : afterFee pool fee = .ok kept ↔ fee < feeUnit ∧ kept = feeUnit - fee := by
  unfold afterFee
  by_cases h : fee < feeUnit
  · simp [h, eq_comm]
  · simp [h]

/-- The output is the exact quotient, rounded down, and not zero. -/
theorem amountOut_eq_ok (h : amountOut pool r fee input = .ok output) :
    input ≠ 0 ∧ fee < feeUnit ∧ output ≠ 0 ∧
      output.toNat = input.toNat * (feeUnit - fee) * r.reserveOut.toNat /
        (r.reserveIn.toNat * feeUnit + input.toNat * (feeUnit - fee)) := by
  simp only [amountOut, Attempt.refuse_eq_ok, Attempt.bind_eq_ok, Attempt.pure_eq_ok, afterFee_eq_ok] at h
  obtain ⟨hin, -, _, ⟨hfee, rfl⟩, paid, hp, numerator, hn, scaled, hs, denominator, hd, hout, rfl⟩ := h
  refine ⟨hin, hfee, hout, ?_⟩
  rw [Amount.toNat_div, VenueError.checked_eq_some hn, VenueError.checked_eq_some hd, VenueError.checked_eq_some hs,
    VenueError.checked_eq_some hp]

/-- One more than the quotient fits where the numerator is a multiple of the fee unit: it is not the largest amount. -/
theorem div_add_one_lt {numerator : Amount} {product : Nat} (h : numerator.toNat = product * feeUnit) (denominator : Nat) :
    numerator.toNat / denominator + 1 < 1 <<< 256 := by
  have hle : numerator.toNat / denominator ≤ numerator.toNat := Nat.div_le_self _ _
  have hbound := numerator.isLt
  simp only [feeUnit] at h
  omega

/-- The input is the exact quotient, rounded down, and one more. -/
theorem amountIn_eq_ok (h : amountIn pool r fee output = .ok input) :
    output ≠ 0 ∧ output < r.reserveOut ∧ fee < feeUnit ∧
      input.toNat = r.reserveIn.toNat * output.toNat * feeUnit /
        ((r.reserveOut.toNat - output.toNat) * (feeUnit - fee)) + 1 := by
  simp only [amountIn, Attempt.refuse_eq_ok, Attempt.bind_eq_ok, Attempt.pure_eq_ok, afterFee_eq_ok, not_or] at h
  obtain ⟨hout, ⟨-, hlt⟩, product, hp, numerator, hn, _, ⟨hfee, rfl⟩, denominator, hd, rfl⟩ := h
  have hn := VenueError.checked_eq_some hn
  have hd := VenueError.checked_eq_some hd
  refine ⟨hout, Nat.lt_of_not_le hlt, hfee, ?_⟩
  rw [Amount.toNat_div, Amount.toNat_wrap (div_add_one_lt hn _), hn, hd, VenueError.checked_eq_some hp, Amount.toNat_sub]

/-- The output is covered: at the reserves before it is worth no more than the input at what is left of the other reserve. -/
theorem covered_of_amountOut (h : amountOut pool r fee input = .ok output) :
    output ≤ r.reserveOut ∧
      output.toNat * r.reserveIn.toNat ≤ input.toNat * (r.reserveOut.toNat - output.toNat) := by
  obtain ⟨-, -, -, hout⟩ := amountOut_eq_ok h
  have hle : output.toNat ≤ r.reserveOut.toNat := by
    rw [hout]
    exact Nat.div_le_of_le_mul (Nat.mul_le_mul_right _ (Nat.le_add_left _ _))
  have hfloor : output.toNat * (r.reserveIn.toNat * feeUnit + input.toNat * (feeUnit - fee)) ≤
      input.toNat * (feeUnit - fee) * r.reserveOut.toNat := by
    rw [hout]
    exact Nat.div_mul_le_self _ _
  refine ⟨hle, le_of_afterFee fee ?_⟩
  obtain ⟨left, hleft⟩ := Nat.exists_eq_add_of_le hle
  rw [hleft, Nat.add_sub_cancel_left]
  rw [hleft] at hfloor
  refine Nat.le_of_add_le_add_right (b := output.toNat * (input.toNat * (feeUnit - fee))) ?_
  calc output.toNat * r.reserveIn.toNat * feeUnit + output.toNat * (input.toNat * (feeUnit - fee))
      = output.toNat * (r.reserveIn.toNat * feeUnit + input.toNat * (feeUnit - fee)) := by ring
    _ ≤ input.toNat * (feeUnit - fee) * (output.toNat + left) := hfloor
    _ = input.toNat * left * (feeUnit - fee) + output.toNat * (input.toNat * (feeUnit - fee)) := by ring

/-- What is left of the reserve, after the fee, is something to divide by. -/
theorem divisor_pos (hlt : output < r.reserveOut) (hfee : fee < feeUnit) :
    0 < (r.reserveOut.toNat - output.toNat) * (feeUnit - fee) :=
  Nat.mul_pos (Nat.sub_pos_of_lt (Amount.lt_def.1 hlt)) (Nat.sub_pos_of_lt hfee)

/-- The input asked for is more than the exact price of the output. -/
theorem price_lt_of_amountIn (h : amountIn pool r fee output = .ok input) :
    output < r.reserveOut ∧ r.reserveIn.toNat * output.toNat * feeUnit <
      input.toNat * ((r.reserveOut.toNat - output.toNat) * (feeUnit - fee)) := by
  obtain ⟨-, hlt, hfee, hin⟩ := amountIn_eq_ok h
  refine ⟨hlt, ?_⟩
  rw [hin, Nat.mul_comm (_ + 1)]
  exact Nat.lt_mul_div_succ _ (divisor_pos hlt hfee)

/-- The output asked for is covered by the input. -/
theorem covered_of_amountIn (h : amountIn pool r fee output = .ok input) :
    output ≤ r.reserveOut ∧
      output.toNat * r.reserveIn.toNat ≤ input.toNat * (r.reserveOut.toNat - output.toNat) := by
  obtain ⟨hlt, hceil⟩ := price_lt_of_amountIn h
  refine ⟨Nat.le_of_lt (Amount.lt_def.1 hlt), le_of_afterFee fee ?_⟩
  calc output.toNat * r.reserveIn.toNat * feeUnit
      = r.reserveIn.toNat * output.toNat * feeUnit := by ring
    _ ≤ input.toNat * ((r.reserveOut.toNat - output.toNat) * (feeUnit - fee)) := Nat.le_of_lt hceil
    _ = input.toNat * (r.reserveOut.toNat - output.toNat) * (feeUnit - fee) := by ring

/-- A covered trade does not lower the product of the reserves. -/
theorem product_le {reserveIn reserveOut amountIn amountOut : Nat}
    (h : amountOut * reserveIn ≤ amountIn * (reserveOut - amountOut)) (hle : amountOut ≤ reserveOut) :
    reserveIn * reserveOut ≤ (reserveIn + amountIn) * (reserveOut - amountOut) := by
  obtain ⟨left, rfl⟩ := Nat.exists_eq_add_of_le hle
  rw [Nat.add_sub_cancel_left] at h ⊢
  calc reserveIn * (amountOut + left) = amountOut * reserveIn + reserveIn * left := by ring
    _ ≤ amountIn * left + reserveIn * left := Nat.add_le_add_right h _
    _ = (reserveIn + amountIn) * left := by ring

end ConstantProduct

namespace FixedRate

variable {pool : Address} {find : Except VenueError RatePool} {r : Reserves} {s : Swap} {kept input output : Amount}

theorem afterFee_eq_ok {fee : Nat} (h : afterFee pool fee = .ok kept) : fee < feeUnit ∧ kept.toNat = feeUnit - fee := by
  unfold afterFee at h
  split at h
  · rename_i hfee
    cases h
    refine ⟨hfee, Amount.toNat_wrap ?_⟩
    simp only [feeUnit]
    omega
  · cases h

/-- Both parts of a rate are positive words, whichever way round it is read. -/
theorem oriented_bounds (p : RatePool) (s : Swap) :
    (0 < (p.oriented s).1.toNat ∧ (p.oriented s).1.toNat < 1 <<< 64) ∧
      0 < (p.oriented s).2.toNat ∧ (p.oriented s).2.toNat < 1 <<< 64 := by
  have hn : 0 < p.numerator.toNat ∧ p.numerator.toNat < 1 <<< 64 := ⟨p.numerator_pos, p.numerator.toNat_lt⟩
  have hd : 0 < p.denominator.toNat ∧ p.denominator.toNat < 1 <<< 64 := ⟨p.denominator_pos, p.denominator.toNat_lt⟩
  unfold RatePool.oriented
  split
  · exact ⟨hn, hd⟩
  · exact ⟨hd, hn⟩

/-- The divisor of an output. -/
theorem outputDivisor_pos (p : RatePool) (s : Swap) : 0 < feeUnit * (p.oriented s).2.toNat :=
  Nat.mul_pos (by decide) (oriented_bounds p s).2.1

/-- The divisor of an input. -/
theorem inputDivisor_pos (p : RatePool) (hfee : s.fee < feeUnit) : 0 < (feeUnit - s.fee) * (p.oriented s).1.toNat :=
  Nat.mul_pos (Nat.sub_pos_of_lt hfee) (oriented_bounds p s).1.1

/-- What the fee leaves of each million fits with any word. -/
theorem product_lt {a b : Nat} (ha : a ≤ feeUnit) (hb : b < 1 <<< 64) : a * b < 1 <<< 256 := by
  calc a * b ≤ feeUnit * (1 <<< 64) := Nat.mul_le_mul ha (Nat.le_of_lt hb)
    _ < 1 <<< 256 := by decide

/-- The output is the exact quotient, rounded down, and not zero. -/
theorem amountOut_eq_ok (h : amountOut find pool r s input = .ok output) :
    input ≠ 0 ∧ s.fee < feeUnit ∧ output ≠ 0 ∧ output ≤ r.reserveOut ∧ ∃ p, find = .ok p ∧
      output.toNat = input.toNat * (feeUnit - s.fee) * (p.oriented s).1.toNat / (feeUnit * (p.oriented s).2.toNat) := by
  simp only [amountOut, Attempt.refuse_eq_ok, Attempt.bind_eq_ok, Attempt.pure_eq_ok, not_or] at h
  obtain ⟨hin, kept, hk, p, hp, paid, hpaid, numerator, hn, ⟨hout, hle⟩, rfl⟩ := h
  obtain ⟨hfee, hk⟩ := afterFee_eq_ok hk
  refine ⟨hin, hfee, hout, Nat.le_of_not_lt hle, p, hp, ?_⟩
  rw [Amount.toNat_div, Amount.toNat_wrap (product_lt (Nat.le_refl _) (oriented_bounds p s).2.2),
    VenueError.checked_eq_some hn, VenueError.checked_eq_some hpaid, hk]

/-- The input is the exact quotient, rounded up. -/
theorem amountIn_eq_ok (h : amountIn find pool r s output = .ok input) :
    output ≠ 0 ∧ s.fee < feeUnit ∧ output ≤ r.reserveOut ∧ ∃ p, find = .ok p ∧
      input.toNat = (output.toNat * feeUnit * (p.oriented s).2.toNat +
        ((feeUnit - s.fee) * (p.oriented s).1.toNat - 1)) / ((feeUnit - s.fee) * (p.oriented s).1.toNat) := by
  simp only [amountIn, Attempt.refuse_eq_ok, Attempt.bind_eq_ok, Attempt.pure_eq_ok] at h
  obtain ⟨hout, kept, hk, hle, p, hp, scaled, hs, numerator, hn, rfl⟩ := h
  obtain ⟨hfee, hk⟩ := afterFee_eq_ok hk
  obtain ⟨⟨-, hword⟩, -⟩ := oriented_bounds p s
  have hdivisor : (Amount.wrap (kept.toNat * (p.oriented s).1.toNat)).toNat = (feeUnit - s.fee) * (p.oriented s).1.toNat := by
    rw [hk, Amount.toNat_wrap (product_lt (Nat.sub_le _ _) hword)]
  have hne : Amount.wrap (kept.toNat * (p.oriented s).1.toNat) ≠ 0 := by
    rw [← Amount.toNat_pos, hdivisor]
    exact inputDivisor_pos p hfee
  refine ⟨hout, hfee, Nat.le_of_not_lt hle, p, hp, ?_⟩
  rw [Amount.toNat_divCeil hne, hdivisor, VenueError.checked_eq_some hn, VenueError.checked_eq_some hs]

/-- The output is worth no more than the input at the rate. -/
theorem covered_of_amountOut (h : amountOut find pool r s input = .ok output) :
    ∃ p, find = .ok p ∧ (p.oriented s).2.toNat * output.toNat ≤ (p.oriented s).1.toNat * input.toNat := by
  obtain ⟨-, -, -, -, p, hp, hout⟩ := amountOut_eq_ok h
  have hfloor : output.toNat * (feeUnit * (p.oriented s).2.toNat) ≤
      input.toNat * (feeUnit - s.fee) * (p.oriented s).1.toNat := by
    rw [hout]
    exact Nat.div_mul_le_self _ _
  refine ⟨p, hp, le_of_afterFee s.fee ?_⟩
  calc (p.oriented s).2.toNat * output.toNat * feeUnit
      = output.toNat * (feeUnit * (p.oriented s).2.toNat) := by ring
    _ ≤ input.toNat * (feeUnit - s.fee) * (p.oriented s).1.toNat := hfloor
    _ = (p.oriented s).1.toNat * input.toNat * (feeUnit - s.fee) := by ring

/-- The input asked for is at least the exact price of the output. -/
theorem price_le_of_amountIn (h : amountIn find pool r s output = .ok input) :
    ∃ p, find = .ok p ∧ output.toNat * feeUnit * (p.oriented s).2.toNat ≤
      (feeUnit - s.fee) * (p.oriented s).1.toNat * input.toNat := by
  obtain ⟨-, hfee, -, p, hp, hin⟩ := amountIn_eq_ok h
  have hpos := inputDivisor_pos p hfee
  refine ⟨p, hp, ?_⟩
  rw [hin, ← Nat.add_sub_assoc hpos, ← Nat.ceilDiv_eq_add_pred_div]
  exact le_smul_ceilDiv hpos

/-- The input asked for is worth the output at the rate. -/
theorem covered_of_amountIn (h : amountIn find pool r s output = .ok input) :
    ∃ p, find = .ok p ∧ (p.oriented s).2.toNat * output.toNat ≤ (p.oriented s).1.toNat * input.toNat := by
  obtain ⟨p, hp, hceil⟩ := price_le_of_amountIn h
  refine ⟨p, hp, le_of_afterFee s.fee ?_⟩
  calc (p.oriented s).2.toNat * output.toNat * feeUnit
      = output.toNat * feeUnit * (p.oriented s).2.toNat := by ring
    _ ≤ (feeUnit - s.fee) * (p.oriented s).1.toNat * input.toNat := hceil
    _ = (p.oriented s).1.toNat * input.toNat * (feeUnit - s.fee) := by ring

end FixedRate

/-- What a venue prices is never for nothing and never costs nothing. -/
theorem Venue.Prices.ne_zero {venue : Venue} {s : Swap} {r : Reserves} {f : Fill} (h : venue.Prices s r f) :
    f.amountIn ≠ 0 ∧ f.amountOut ≠ 0 := by
  cases venue with
  | constantProduct pools =>
    rcases h with ho | hi
    · obtain ⟨hin, -, hout, -⟩ := ConstantProduct.amountOut_eq_ok ho
      exact ⟨hin, hout⟩
    · obtain ⟨hout, -, -, hinput⟩ := ConstantProduct.amountIn_eq_ok hi
      refine ⟨Amount.toNat_pos.1 ?_, hout⟩
      rw [hinput]
      exact Nat.succ_pos _
  | fixedRate pools =>
    rcases h with ho | hi
    · obtain ⟨hin, -, hout, -⟩ := FixedRate.amountOut_eq_ok ho
      exact ⟨hin, hout⟩
    · obtain ⟨hout, hfee, -, p, -, hinput⟩ := FixedRate.amountIn_eq_ok hi
      obtain ⟨-, hden, -⟩ := FixedRate.oriented_bounds p s
      have hdivisor := FixedRate.inputDivisor_pos p hfee
      have hnumerator : 0 < f.amountOut.toNat * feeUnit * (p.oriented s).2.toNat :=
        Nat.mul_pos (Nat.mul_pos (Amount.toNat_pos.2 hout) (by decide)) hden
      refine ⟨Amount.toNat_pos.1 ?_, hout⟩
      rw [hinput]
      exact Nat.div_pos (by omega) hdivisor

/-- A quote is never for nothing and never costs nothing. -/
theorem VenueBook.quote_ne_zero {v : VenueBook} {l : Ledger} {s : Swap} {d : Direction} {amount : Amount} {f : Fill}
    (h : v.quote l s d amount = .ok f) : f.amountIn ≠ 0 ∧ f.amountOut ≠ 0 := by
  obtain ⟨-, venue, -, -, hprices⟩ := quote_priced h
  exact hprices.ne_zero

end MarginRouter
