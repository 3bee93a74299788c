import MarginRouter.Amount
import MarginRouter.Step

/-!
# Flash-loan fees

A fee rate is a fraction below one. The fee on a loan is cut to a whole number, so the loan that delivers an amount, or that a
budget can repay, is estimated by division and then corrected one unit at a time against the fee really charged.
-/

namespace MarginRouter

inductive FeeError where
  | invalidRate (fee denominator : UInt64)
  | overflow
  deriving DecidableEq, Repr

namespace FeeError

def message : FeeError → String
  | invalidRate fee denominator => "费率非法: fee=" ++ toString fee ++ " denom=" ++ toString denominator
  | overflow => "费用计算溢出"

def category : FeeError → FailureCategory
  | _ => .malformedInput

end FeeError

/-- Whether the fee comes on top of what is paid back or out of what is handed over. -/
inductive FeeMode where
  /-- The loan is handed over whole; the fee is paid back on top. -/
  | surcharge
  /-- The fee is kept back; the loan is paid back as it stands. -/
  | deducted
  deriving DecidableEq, Repr

def FeeMode.name : FeeMode → String
  | surcharge => "surcharge"
  | deducted => "deducted"

/-- A fee as a fraction below one. -/
structure FeeRate where
  fee : UInt64
  denominator : UInt64
  fee_lt : fee < denominator
  deriving DecidableEq

/-- What a flash loan costs: its size, the fee, what is handed over and what is paid back. -/
structure LoanTerms where
  gross : Amount
  fee : Amount
  delivered : Amount
  owed : Amount
  deriving DecidableEq

namespace FeeRate

/-- The rate with this fraction, which must be below one. -/
def of (fee denominator : UInt64) : Except FeeError FeeRate :=
  if h : fee < denominator then .ok ⟨fee, denominator, h⟩ else .error (.invalidRate fee denominator)

/-- The rate in hundredths of a percent. -/
def ofBasisPoints (points : UInt64) : Except FeeError FeeRate :=
  of points 10000

/-- An amount, or an overflow where the exact value does not fit. -/
def checked (n : Nat) : Except FeeError Amount :=
  match Amount.ofNat? n with
  | some a => .ok a
  | none => .error .overflow

theorem checked_eq_ok {n : Nat} {a : Amount} : checked n = .ok a ↔ a.toNat = n := by
  rw [← Amount.ofNat?_eq_some]
  unfold checked
  split <;> simp_all

/-- The fee on a loan: the fraction of it, cut to a whole number. The product must fit. -/
def feeOn (r : FeeRate) (amount : Amount) : Except FeeError Amount := do
  let scaled ← checked (amount.toNat * r.fee.toNat)
  return ⟨scaled.toNat / r.denominator.toNat, Nat.lt_of_le_of_lt (Nat.div_le_self _ _) scaled.isLt⟩

/-- What a loan leaves after its fee. -/
def netOf (r : FeeRate) (gross : Amount) : Except FeeError Amount := do
  let fee ← r.feeOn gross
  return gross - fee

/-- What pays a loan back with its fee. -/
def repaymentOf (r : FeeRate) (gross : Amount) : Except FeeError Amount := do
  let fee ← r.feeOn gross
  checked (gross.toNat + fee.toNat)

/-- Raises a loan until it leaves `net`. -/
def raise (r : FeeRate) (net gross : Amount) : Except FeeError Amount := do
  let left ← r.netOf gross
  if left < net then
    if h : gross.toNat + 1 < 1 <<< 256 then r.raise net ⟨gross.toNat + 1, h⟩ else .error .overflow
  else return gross
termination_by 1 <<< 256 - gross.toNat

/-- Lowers a loan while one unit less still leaves `net`. -/
def lower (r : FeeRate) (net gross : Amount) : Except FeeError Amount := do
  if h : 0 < gross.toNat then
    let less : Amount := ⟨gross.toNat - 1, by have := gross.isLt; omega⟩
    let left ← r.netOf less
    if net ≤ left then r.lower net less else return gross
  else return gross
termination_by gross.toNat

/-- The smallest loan that leaves `net` after its fee. -/
def grossForNet (r : FeeRate) (net : Amount) : Except FeeError Amount := do
  if net = 0 then return 0
  let scaled ← checked (net.toNat * r.denominator.toNat)
  let estimate : Amount :=
    ⟨scaled.toNat / (r.denominator.toNat - r.fee.toNat), Nat.lt_of_le_of_lt (Nat.div_le_self _ _) scaled.isLt⟩
  let enough ← r.raise net estimate
  r.lower net enough

/-- Raises a principal while one unit more is still within the budget. -/
def extend (r : FeeRate) (budget principal : Amount) : Except FeeError Amount := do
  if h : principal.toNat + 1 < 1 <<< 256 then
    let next : Amount := ⟨principal.toNat + 1, h⟩
    let repayment ← r.repaymentOf next
    if repayment ≤ budget then r.extend budget next else return principal
  else .error .overflow
termination_by 1 <<< 256 - principal.toNat

/-- Lowers a principal until it is within the budget. -/
def reduce (r : FeeRate) (budget principal : Amount) : Except FeeError Amount := do
  if h : 0 < principal.toNat then
    let repayment ← r.repaymentOf principal
    if budget < repayment then r.reduce budget ⟨principal.toNat - 1, by have := principal.isLt; omega⟩
    else return principal
  else return principal
termination_by principal.toNat

/-- The largest loan that a budget pays back with its fee. The divisor of the estimate is a 64-bit word, and the sum it holds
wraps. A sum that wraps to zero is no divisor: a machine would stop at that division instead of answering, and the overflow stands
for this stop too. -/
def principalWithin (r : FeeRate) (budget : Amount) : Except FeeError Amount := do
  let scaled ← checked (budget.toNat * r.denominator.toNat)
  let divisor := r.denominator + r.fee
  if divisor = 0 then .error .overflow
  let estimate : Amount := ⟨scaled.toNat / divisor.toNat, Nat.lt_of_le_of_lt (Nat.div_le_self _ _) scaled.isLt⟩
  let most ← r.extend budget estimate
  r.reduce budget most

/-- The terms of a loan of this size. -/
def terms (r : FeeRate) (gross : Amount) (mode : FeeMode) : Except FeeError LoanTerms := do
  let fee ← r.feeOn gross
  match mode with
  | .surcharge => return { gross, fee, delivered := gross, owed := ← checked (gross.toNat + fee.toNat) }
  | .deducted => return { gross, fee, delivered := gross - fee, owed := gross }

/-- The smallest loan that hands over at least `input`. -/
def sizeForInput (r : FeeRate) (input : Amount) (mode : FeeMode) : Except FeeError LoanTerms := do
  match mode with
  | .surcharge => r.terms input mode
  | .deducted => r.terms (← r.grossForNet input) mode

/-- The largest loan that `budget` pays back. -/
def sizeForBudget (r : FeeRate) (budget : Amount) (mode : FeeMode) : Except FeeError LoanTerms := do
  match mode with
  | .surcharge => r.terms (← r.principalWithin budget) mode
  | .deducted => r.terms budget mode

end FeeRate

end MarginRouter
