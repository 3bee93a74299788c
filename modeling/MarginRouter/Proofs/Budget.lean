import Mathlib.Data.Nat.Find
import MarginRouter.Proofs.LoanSizing

/-!
# Where a loan within a budget is found

Among the amounts there is always a largest loan within a budget. The search for it looks one unit beyond what it has found, so
it needs that unit to be an amount; and it starts from an estimate whose divisor is the sum of two words. Where the product of the
estimate fits and the sum is a word, the search fails at the largest budget alone. Where the sum wraps, the estimate exceeds the
budget, and the search fails wherever the repayment one unit beyond the estimate cannot be computed.
-/

namespace MarginRouter.FeeRate

variable {rate : FeeRate} {budget : Amount}

/-- There is a largest loan within every budget, and it is an amount. -/
theorem exists_isGreatest (rate : FeeRate) (budget : Amount) :
    ∃ best : Amount, IsGreatest {g | rate.owedFor .surcharge g ≤ budget.toNat} best.toNat := by
  have hle : ∀ g, rate.owedFor .surcharge g ≤ budget.toNat → g ≤ budget.toNat :=
    fun g hg => Nat.le_trans (Nat.le_add_right g _) hg
  have hzero : rate.owedFor .surcharge 0 ≤ budget.toNat := by
    simp [owedFor, feeFor]
  have hbest := Nat.findGreatest_le (P := fun g => rate.owedFor .surcharge g ≤ budget.toNat) budget.toNat
  refine ⟨⟨_, Nat.lt_of_le_of_lt hbest budget.isLt⟩, ?_, fun g hg => ?_⟩
  · exact Nat.findGreatest_spec (P := fun g => rate.owedFor .surcharge g ≤ budget.toNat) (Nat.zero_le _) hzero
  · exact Nat.le_findGreatest (hle g hg) hg

/-- Wherever a loan is found it is the largest. -/
theorem principalWithin_eq_best {best : Amount}
    (hbest : IsGreatest {g | rate.owedFor .surcharge g ≤ budget.toNat} best.toNat) :
    rate.principalWithin budget = .ok best ↔ ∃ principal, rate.principalWithin budget = .ok principal := by
  refine ⟨fun h => ⟨best, h⟩, ?_⟩
  rintro ⟨principal, h⟩
  have heq := (principalWithin_isGreatest h).unique hbest
  rw [h, Amount.ext heq]

/-- The word that the estimate is divided by, where the sum it holds does not wrap. -/
theorem toNat_divisor (h : rate.denominator.toNat + rate.fee.toNat < 1 <<< 64) :
    (rate.denominator + rate.fee).toNat = rate.denominator.toNat + rate.fee.toNat := by
  rw [UInt64.toNat_add]
  exact Nat.mod_eq_of_lt h

/-- That word is a divisor. -/
theorem divisor_ne_zero (h : rate.denominator.toNat + rate.fee.toNat < 1 <<< 64) : rate.denominator + rate.fee ≠ 0 := by
  have hdivisor := toNat_divisor h
  have hfee := rate.toNat_fee_lt
  intro hz
  have hzero : (rate.denominator + rate.fee).toNat = 0 := by
    rw [hz]
    rfl
  omega

/-- Where it wraps it is what the sum has above `2 ^ 64`, which is less than the denominator. -/
theorem toNat_divisor_of_le (h : 1 <<< 64 ≤ rate.denominator.toNat + rate.fee.toNat) :
    (rate.denominator + rate.fee).toNat = rate.denominator.toNat + rate.fee.toNat - 1 <<< 64 := by
  have hd := rate.denominator.toNat_lt
  have hf := rate.fee.toNat_lt
  rw [UInt64.toNat_add]
  omega

/-- The fee is less than the loan it is for. -/
theorem feeFor_lt (r : FeeRate) {gross : Nat} (h : 0 < gross) : r.feeFor gross < gross := by
  refine Nat.div_lt_of_lt_mul ?_
  rw [Nat.mul_comm]
  exact Nat.mul_lt_mul_of_pos_right r.toNat_fee_lt h

/-- Where the product of the estimate fits, so does the product of the fee one unit beyond the budget. -/
theorem product_succ_lt (hfits : budget.toNat * rate.denominator.toNat < 1 <<< 256) :
    (budget.toNat + 1) * rate.fee.toNat < 1 <<< 256 := by
  have hfee := rate.toNat_fee_lt
  have hword := rate.denominator.toNat_lt
  by_cases hsmall : budget.toNat < rate.denominator.toNat
  · -- the product of two words
    calc (budget.toNat + 1) * rate.fee.toNat ≤ (1 <<< 64) * (1 <<< 64) := Nat.mul_le_mul (by omega) (by omega)
      _ < 1 <<< 256 := by decide
  · calc (budget.toNat + 1) * rate.fee.toNat = budget.toNat * rate.fee.toNat + rate.fee.toNat := Nat.succ_mul _ _
      _ ≤ budget.toNat * rate.fee.toNat + budget.toNat := by omega
      _ = budget.toNat * (rate.fee.toNat + 1) := (Nat.mul_succ _ _).symm
      _ ≤ budget.toNat * rate.denominator.toNat := Nat.mul_le_mul_left _ hfee
      _ < 1 <<< 256 := hfits

/-- And so does the repayment, unless the budget is the largest amount: the fee is at most the budget, and none without a fraction
of two parts at least. -/
theorem owedFor_succ_lt (hfits : budget.toNat * rate.denominator.toNat < 1 <<< 256) (hmax : budget ≠ .max) :
    rate.owedFor .surcharge (budget.toNat + 1) < 1 <<< 256 := by
  have hfee := rate.toNat_fee_lt
  have hlt : budget.toNat + 1 < 1 <<< 256 := by
    have hne : budget.toNat ≠ 1 <<< 256 - 1 := fun h => hmax (Amount.ext h)
    have hbudget := budget.isLt
    omega
  show budget.toNat + 1 + rate.feeFor (budget.toNat + 1) < 1 <<< 256
  by_cases hone : rate.denominator.toNat = 1
  · have hzero : rate.fee.toNat = 0 := by omega
    rw [feeFor, hzero, Nat.mul_zero, Nat.zero_div, Nat.add_zero]
    exact hlt
  · have hless : rate.feeFor (budget.toNat + 1) < budget.toNat + 1 := rate.feeFor_lt (by omega)
    have hhalf : budget.toNat * 2 ≤ budget.toNat * rate.denominator.toNat := Nat.mul_le_mul_left _ (by omega)
    omega

/-- A divisor that does not exceed the denominator makes the estimate no less than the budget. -/
theorem le_principalEstimate (hpos : 0 < (rate.denominator + rate.fee).toNat)
    (hle : (rate.denominator + rate.fee).toNat ≤ rate.denominator.toNat) (budget : Nat) :
    budget ≤ rate.principalEstimate budget :=
  (Nat.le_div_iff_mul_le hpos).2 (Nat.mul_le_mul_left _ hle)

/-- A divisor that is no less than the denominator makes it no more than the budget. -/
theorem principalEstimate_le (hle : rate.denominator.toNat ≤ (rate.denominator + rate.fee).toNat) (budget : Nat) :
    rate.principalEstimate budget ≤ budget :=
  Nat.div_le_of_le_mul (by rw [Nat.mul_comm]; exact Nat.mul_le_mul_right _ hle)

/-- Where the sum is a word, a loan is found for every budget but the largest amount. -/
theorem exists_principalWithin_of_lt (hfits : budget.toNat * rate.denominator.toNat < 1 <<< 256)
    (hsum : rate.denominator.toNat + rate.fee.toNat < 1 <<< 64) :
    (∃ principal, rate.principalWithin budget = .ok principal) ↔ budget ≠ .max := by
  have hdivisor := toNat_divisor hsum
  have hfee := rate.toNat_fee_lt
  rw [exists_principalWithin]
  constructor
  · rintro ⟨-, -, limit, -, -, hover, howed⟩ rfl
    have hmax : Amount.max.toNat = 1 <<< 256 - 1 := rfl
    omega
  · intro hmax
    refine ⟨hfits, divisor_ne_zero hsum, budget.toNat + 1, ?_, product_succ_lt hfits, ?_, owedFor_succ_lt hfits hmax⟩
    · exact Nat.lt_succ_of_le (principalEstimate_le (by omega) _)
    · exact Nat.lt_of_lt_of_le (Nat.lt_succ_self _) (Nat.le_add_right _ _)

/-- Where the sum wraps, a loan is found unless nothing is left of the sum, or the repayment one unit beyond the estimate cannot be
computed. -/
theorem exists_principalWithin_of_le (hfits : budget.toNat * rate.denominator.toNat < 1 <<< 256)
    (hsum : 1 <<< 64 ≤ rate.denominator.toNat + rate.fee.toNat) :
    (∃ principal, rate.principalWithin budget = .ok principal) ↔
      rate.denominator.toNat + rate.fee.toNat ≠ 1 <<< 64 ∧
        (rate.principalEstimate budget.toNat + 1) * rate.fee.toNat < 1 <<< 256 ∧
        rate.owedFor .surcharge (rate.principalEstimate budget.toNat + 1) < 1 <<< 256 := by
  have hdivisor := toNat_divisor_of_le hsum
  have hword := rate.fee.toNat_lt
  have hzero : rate.denominator + rate.fee = 0 ↔ rate.denominator.toNat + rate.fee.toNat = 1 <<< 64 := by
    rw [← UInt64.toNat_inj, hdivisor]
    show _ = 0 ↔ _
    omega
  rw [exists_principalWithin]
  constructor
  · rintro ⟨-, hne, limit, hlimit, hproduct, -, howed⟩
    refine ⟨mt hzero.2 hne, Nat.lt_of_le_of_lt (Nat.mul_le_mul_right _ hlimit) hproduct, ?_⟩
    exact Nat.lt_of_le_of_lt ((rate.owedFor_strictMono .surcharge).monotone hlimit) howed
  · rintro ⟨hne, hproduct, howed⟩
    refine ⟨hfits, mt hzero.1 hne, _, Nat.lt_succ_self _, hproduct, ?_, howed⟩
    have hle : budget.toNat ≤ rate.principalEstimate budget.toNat := le_principalEstimate (by omega) (by omega) _
    exact Nat.lt_of_lt_of_le (Nat.lt_succ_of_le hle) (Nat.le_add_right _ _)

/-- Where the sum is a word, the search extends the estimate and reduces what it has come to. -/
theorem principalWithin_eq_bind {estimate : Amount} (hfits : budget.toNat * rate.denominator.toNat < 1 <<< 256)
    (hsum : rate.denominator.toNat + rate.fee.toNat < 1 <<< 64)
    (hestimate : estimate.toNat = budget.toNat * rate.denominator.toNat / (rate.denominator.toNat + rate.fee.toNat)) :
    rate.principalWithin budget = rate.extend budget estimate >>= rate.reduce budget := by
  rw [← toNat_divisor hsum] at hestimate
  rw [principalWithin, checked_of_lt hfits]
  show (if rate.denominator + rate.fee = 0 then _ else rate.extend budget _ >>= _) = _
  rw [if_neg (divisor_ne_zero hsum)]
  exact congrArg (rate.extend budget · >>= rate.reduce budget) (Amount.ext hestimate.symm)

/-- At the largest budget the search ends in an overflow: there is no unit beyond it. -/
theorem principalWithin_max (hfits : Amount.max.toNat * rate.denominator.toNat < 1 <<< 256)
    (hsum : rate.denominator.toNat + rate.fee.toNat < 1 <<< 64) : rate.principalWithin .max = .error .overflow := by
  have hfee := rate.toNat_fee_lt
  have hmax : Amount.max.toNat = 1 <<< 256 - 1 := rfl
  -- a larger denominator would make a product that does not fit
  have hunit : rate.denominator.toNat = 1 := by
    by_contra hne
    have htwice : Amount.max.toNat * 2 ≤ Amount.max.toNat * rate.denominator.toNat := Nat.mul_le_mul_left _ (by omega)
    omega
  have hzero : rate.fee.toNat = 0 := by omega
  have hextend : rate.extend .max .max = .error .overflow := by
    rw [extend, dif_neg]
    omega
  have hestimate : Amount.max.toNat =
      Amount.max.toNat * rate.denominator.toNat / (rate.denominator.toNat + rate.fee.toNat) := by
    rw [hunit, hzero, Nat.mul_one, Nat.div_one]
  rw [principalWithin_eq_bind hfits hsum hestimate, hextend]
  rfl

/-- Where a loan within a budget is found. There always is a largest one, and where the product of the estimate fits: if the sum of
the two words of the rate is a word, that loan is found for every budget but the largest amount, for which the search ends in an
overflow; if the sum wraps, it is found unless nothing is left of the sum, or the repayment one unit beyond the estimate cannot be
computed. -/
theorem principalWithin_defined (rate : FeeRate) (budget : Amount)
    (hfits : budget.toNat * rate.denominator.toNat < 1 <<< 256) :
    ∃ best : Amount, IsGreatest {g | rate.owedFor .surcharge g ≤ budget.toNat} best.toNat ∧
      (rate.denominator.toNat + rate.fee.toNat < 1 <<< 64 →
        rate.principalWithin budget = if budget = .max then .error .overflow else .ok best) ∧
      (1 <<< 64 ≤ rate.denominator.toNat + rate.fee.toNat →
        (rate.principalWithin budget = .ok best ↔
          rate.denominator.toNat + rate.fee.toNat ≠ 1 <<< 64 ∧
            (rate.principalEstimate budget.toNat + 1) * rate.fee.toNat < 1 <<< 256 ∧
            rate.owedFor .surcharge (rate.principalEstimate budget.toNat + 1) < 1 <<< 256)) := by
  obtain ⟨best, hbest⟩ := rate.exists_isGreatest budget
  have hfound := principalWithin_eq_best hbest
  refine ⟨best, hbest, fun hsum => ?_, fun hsum => ?_⟩
  · split
    · rename_i hmax
      subst hmax
      exact principalWithin_max hfits hsum
    · rename_i hmax
      exact hfound.2 ((exists_principalWithin_of_lt hfits hsum).2 hmax)
  · rw [hfound]
    exact exists_principalWithin_of_le hfits hsum

/-- A loan that costs nothing. -/
def free : FeeRate := ⟨0, 1, UInt64.zero_lt_one⟩

/-- A rate whose two words add up to `2 ^ 64`. -/
def fullSum : FeeRate := ⟨0x7fffffffffffffff, 0x8000000000000001, by decide⟩

/-- At nine tenths the loan is found. At no fee it is not found for the largest amount, and where nothing is left of the sum it is
not found for any budget. -/
theorem principalWithin_defined_rates :
    (100 * nineTenths.denominator.toNat < 1 <<< 256 ∧ ∃ best : Amount,
      IsGreatest {g | nineTenths.owedFor .surcharge g ≤ 100} best.toNat ∧
        nineTenths.principalWithin (.ofWord 100) = .ok best) ∧
    (Amount.max.toNat * free.denominator.toNat < 1 <<< 256 ∧ free.principalWithin .max = .error .overflow) ∧
    (0 * fullSum.denominator.toNat < 1 <<< 256 ∧ ∃ best : Amount,
      IsGreatest {g | fullSum.owedFor .surcharge g ≤ 0} best.toNat ∧ fullSum.principalWithin 0 ≠ .ok best) := by
  refine ⟨⟨by decide, ?_⟩, ⟨by decide, ?_⟩, by decide, ?_⟩
  · obtain ⟨best, hbest, hword, -⟩ := principalWithin_defined nineTenths (.ofWord 100) (by decide)
    exact ⟨best, hbest, hword (by decide)⟩
  · obtain ⟨best, -, hword, -⟩ := principalWithin_defined free .max (by decide)
    exact hword (by decide)
  · obtain ⟨best, hbest, -, hwraps⟩ := principalWithin_defined fullSum 0 (by decide)
    refine ⟨best, hbest, fun h => ?_⟩
    obtain ⟨hne, -⟩ := (hwraps (by decide)).1 h
    exact hne (by decide)

/-- So a product that fits is not enough for a loan to be found. -/
theorem principalWithin_always_defined_false :
    ¬∀ (rate : FeeRate) (budget : Amount), budget.toNat * rate.denominator.toNat < 1 <<< 256 →
      ∃ principal, rate.principalWithin budget = .ok principal := by
  intro h
  obtain ⟨principal, hp⟩ := h free .max (by decide)
  rw [principalWithin_max (by decide) (by decide)] at hp
  cases hp

end MarginRouter.FeeRate
