import Mathlib.Order.Monotone.Basic
import MarginRouter.FeeRate
import MarginRouter.Proofs.Step

/-!
# What a loan costs

The fee on a loan, what it hands over and what it is paid back with, as exact numbers for loans of any size. One unit more costs
at most one unit of fee more; so a larger loan hands over no less and is paid back with more. The checked computations answer
these numbers whenever they answer.
-/

namespace MarginRouter.FeeRate

variable {rate : FeeRate} {mode : FeeMode} {terms : LoanTerms} {amount fee gross left repayment : Amount}

/-- The fee on a loan of any size. -/
def feeFor (r : FeeRate) (gross : Nat) : Nat :=
  gross * r.fee.toNat / r.denominator.toNat

/-- What a loan of any size hands over. -/
def deliveredFor (r : FeeRate) (mode : FeeMode) (gross : Nat) : Nat :=
  match mode with
  | .surcharge => gross
  | .deducted => gross - r.feeFor gross

/-- What a loan of any size is paid back with. -/
def owedFor (r : FeeRate) (mode : FeeMode) (gross : Nat) : Nat :=
  match mode with
  | .surcharge => gross + r.feeFor gross
  | .deducted => gross

theorem toNat_fee_lt (r : FeeRate) : r.fee.toNat < r.denominator.toNat := r.fee_lt

/-- No fee exceeds the loan it is for. -/
theorem feeFor_le (r : FeeRate) (gross : Nat) : r.feeFor gross ≤ gross := by
  refine Nat.div_le_of_le_mul ?_
  calc gross * r.fee.toNat ≤ gross * r.denominator.toNat := Nat.mul_le_mul_left _ (Nat.le_of_lt r.toNat_fee_lt)
    _ = r.denominator.toNat * gross := Nat.mul_comm _ _

theorem feeFor_mono (r : FeeRate) : Monotone r.feeFor :=
  fun _ _ h => Nat.div_le_div_right (Nat.mul_le_mul_right _ h)

/-- On one unit more the fee is at most one unit more. -/
theorem feeFor_succ_le (r : FeeRate) (gross : Nat) : r.feeFor (gross + 1) ≤ r.feeFor gross + 1 := by
  have hlt := r.toNat_fee_lt
  have hpos : 0 < r.denominator.toNat := Nat.zero_lt_of_lt hlt
  calc (gross + 1) * r.fee.toNat / r.denominator.toNat
      ≤ (gross * r.fee.toNat + r.denominator.toNat) / r.denominator.toNat := by
        refine Nat.div_le_div_right ?_
        rw [Nat.succ_mul]
        omega
    _ = gross * r.fee.toNat / r.denominator.toNat + 1 := Nat.add_div_right _ hpos

/-- A larger loan hands over no less. -/
theorem deliveredFor_mono (r : FeeRate) (mode : FeeMode) : Monotone (r.deliveredFor mode) := by
  refine monotone_nat_of_le_succ fun gross => ?_
  cases mode with
  | surcharge => exact Nat.le_succ gross
  | deducted =>
    have hsucc := r.feeFor_succ_le gross
    simp only [deliveredFor]
    omega

/-- A larger loan is paid back with more. -/
theorem owedFor_strictMono (r : FeeRate) (mode : FeeMode) : StrictMono (r.owedFor mode) := by
  refine strictMono_nat_of_lt_succ fun gross => ?_
  cases mode with
  | surcharge =>
    have hmono : r.feeFor gross ≤ r.feeFor (gross + 1) := r.feeFor_mono (Nat.le_succ gross)
    simp only [owedFor]
    omega
  | deducted => exact Nat.lt_succ_self gross

/-- One unit more is paid back with at most two more: itself and a unit of fee. -/
theorem owedFor_succ_le (r : FeeRate) (mode : FeeMode) (gross : Nat) :
    r.owedFor mode (gross + 1) ≤ r.owedFor mode gross + 2 := by
  have hsucc := r.feeFor_succ_le gross
  cases mode with
  | surcharge =>
    simp only [owedFor]
    omega
  | deducted => exact Nat.le_succ _

/-- There is no fee on a loan of one unit. -/
theorem owedFor_one (r : FeeRate) (mode : FeeMode) : r.owedFor mode 1 = 1 := by
  have hfee : r.feeFor 1 = 0 := by
    rw [feeFor, Nat.one_mul]
    exact Nat.div_eq_of_lt r.toNat_fee_lt
  cases mode with
  | surcharge => rw [owedFor, hfee]
  | deducted => rfl

/-! ## The checked computations -/

theorem feeOn_eq_ok : rate.feeOn amount = .ok fee ↔
    amount.toNat * rate.fee.toNat < 1 <<< 256 ∧ fee.toNat = rate.feeFor amount.toNat := by
  simp only [feeOn, Attempt.bind_eq_ok, Attempt.pure_eq_ok, checked_eq_ok]
  constructor
  · rintro ⟨scaled, hs, rfl⟩
    refine ⟨hs ▸ scaled.isLt, ?_⟩
    show scaled.toNat / _ = _
    rw [hs, feeFor]
  · rintro ⟨hlt, hfee⟩
    exact ⟨⟨_, hlt⟩, rfl, Amount.ext hfee.symm⟩

/-- When its product fits, the fee can be computed. -/
theorem exists_feeOn (h : amount.toNat * rate.fee.toNat < 1 <<< 256) :
    ∃ fee, rate.feeOn amount = .ok fee ∧ fee.toNat = rate.feeFor amount.toNat := by
  have hfee := Nat.lt_of_le_of_lt (rate.feeFor_le amount.toNat) amount.isLt
  exact ⟨⟨_, hfee⟩, feeOn_eq_ok.2 ⟨h, rfl⟩, rfl⟩

theorem netOf_eq_ok : rate.netOf gross = .ok left ↔
    gross.toNat * rate.fee.toNat < 1 <<< 256 ∧ left.toNat = rate.deliveredFor .deducted gross.toNat := by
  simp only [netOf, Attempt.bind_eq_ok, Attempt.pure_eq_ok]
  constructor
  · rintro ⟨fee, hf, rfl⟩
    obtain ⟨hlt, hfee⟩ := feeOn_eq_ok.1 hf
    exact ⟨hlt, by rw [Amount.toNat_sub, hfee, deliveredFor]⟩
  · rintro ⟨hlt, hleft⟩
    obtain ⟨fee, hf, hfee⟩ := exists_feeOn hlt
    exact ⟨fee, hf, Amount.ext (by rw [Amount.toNat_sub, hfee, hleft, deliveredFor])⟩

theorem repaymentOf_eq_ok : rate.repaymentOf gross = .ok repayment ↔
    gross.toNat * rate.fee.toNat < 1 <<< 256 ∧ repayment.toNat = rate.owedFor .surcharge gross.toNat := by
  simp only [repaymentOf, Attempt.bind_eq_ok, checked_eq_ok]
  constructor
  · rintro ⟨fee, hf, hsum⟩
    obtain ⟨hlt, hfee⟩ := feeOn_eq_ok.1 hf
    exact ⟨hlt, by rw [hsum, hfee, owedFor]⟩
  · rintro ⟨hlt, hsum⟩
    obtain ⟨fee, hf, hfee⟩ := exists_feeOn hlt
    exact ⟨fee, hf, by rw [hsum, hfee, owedFor]⟩

/-! ## Terms -/

/-- The terms of a loan are the exact numbers for its size. -/
theorem terms_numbers (h : rate.terms gross mode = .ok terms) :
    terms.gross = gross ∧ terms.fee.toNat = rate.feeFor gross.toNat ∧
      terms.delivered.toNat = rate.deliveredFor mode gross.toNat ∧ terms.owed.toNat = rate.owedFor mode gross.toNat := by
  obtain ⟨fee, hf, h⟩ := Attempt.bind_eq_ok.1 h
  obtain ⟨-, hfee⟩ := feeOn_eq_ok.1 hf
  cases mode with
  | surcharge =>
    obtain ⟨owed, ho, h⟩ := Attempt.bind_eq_ok.1 h
    cases h
    refine ⟨rfl, hfee, rfl, ?_⟩
    show owed.toNat = gross.toNat + rate.feeFor gross.toNat
    rw [checked_eq_ok.1 ho, hfee]
  | deducted =>
    cases h
    refine ⟨rfl, hfee, ?_, rfl⟩
    show (gross - fee).toNat = gross.toNat - rate.feeFor gross.toNat
    rw [Amount.toNat_sub, hfee]

/-- The terms of a loan: what is paid back is what is handed over and the fee. -/
theorem terms_exact (h : rate.terms gross mode = .ok terms) :
    terms.gross = gross ∧ terms.owed.toNat = terms.delivered.toNat + terms.fee.toNat := by
  obtain ⟨hgross, hfee, hdelivered, howed⟩ := terms_numbers h
  have hle := rate.feeFor_le gross.toNat
  refine ⟨hgross, ?_⟩
  rw [hfee, hdelivered, howed]
  cases mode with
  | surcharge => rfl
  | deducted =>
    simp only [owedFor, deliveredFor]
    omega

/-- A loan delivers no more than it is, and is paid back with no less. -/
theorem terms_eq_ok (h : rate.terms gross mode = .ok terms) : terms.delivered ≤ gross ∧ gross ≤ terms.owed := by
  obtain ⟨-, -, hdelivered, howed⟩ := terms_numbers h
  rw [Amount.le_def, Amount.le_def, hdelivered, howed]
  cases mode with
  | surcharge => exact ⟨Nat.le_refl _, Nat.le_add_right _ _⟩
  | deducted => exact ⟨Nat.sub_le _ _, Nat.le_refl _⟩

/-- A loan that is not zero is not paid back with nothing. -/
theorem owed_ne_zero (h : rate.terms gross mode = .ok terms) (hgross : gross ≠ 0) : terms.owed ≠ 0 := by
  intro hz
  have hle := Amount.le_def.1 (terms_eq_ok h).2
  rw [hz] at hle
  exact hgross (Amount.eq_zero_iff.2 (Nat.le_zero.1 hle))

end MarginRouter.FeeRate
