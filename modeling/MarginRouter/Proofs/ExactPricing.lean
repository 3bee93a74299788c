import Mathlib.Data.Rat.Floor
import MarginRouter.Proofs.Pricing

/-!
# Exact arithmetic of pools

Some of the operations by which a pool is priced are checked and some are not. Here every operation has a guard: a division for its
divisor, an operation that is not checked for the value that would wrap. No guard ever stops anything, so the prices are the
formulas over the rationals, cut only at the end, and an overflow is reported only where a checked value does not fit.
-/

namespace MarginRouter

/-- What stops a computation in which every operation is guarded: an error of the venue, or an operation that was taken to be
harmless. -/
inductive Fault where
  | venue (error : VenueError)
  | divisionByZero
  | wrapped

/-! ## Guarded operations -/

namespace Guarded

variable {α β : Type}

/-- A computation that guards its own operations. -/
def lift (x : Except VenueError α) : Except Fault α :=
  x.mapError .venue

/-- An amount that is not to wrap. -/
def fit (n : Nat) : Except Fault Amount :=
  if h : n < 1 <<< 256 then .ok ⟨n, h⟩ else .error .wrapped

/-- A difference that is not to wrap. -/
def sub (a b : Nat) : Except Fault Nat :=
  if b ≤ a then .ok (a - b) else .error .wrapped

/-- A quotient, rounded down. -/
def div (a b : Amount) : Except Fault Amount :=
  if b = 0 then .error .divisionByZero else .ok (a.div b)

/-- A quotient, rounded up. -/
def divCeil (a b : Amount) : Except Fault Amount :=
  if b = 0 then .error .divisionByZero
  else if a.toNat % b.toNat = 0 then .ok (a.div b)
  else fit (a.toNat / b.toNat + 1)

theorem fit_of_lt {n : Nat} (h : n < 1 <<< 256) : fit n = .ok (.wrap n) := by
  rw [fit, dif_pos h]
  exact congrArg _ (Amount.ext (Amount.toNat_wrap h).symm)

theorem sub_of_le {a b : Nat} (h : b ≤ a) : sub a b = .ok (a - b) :=
  if_pos h

theorem div_of_pos {a b : Amount} (h : 0 < b.toNat) : div a b = .ok (a.div b) :=
  if_neg (Amount.toNat_pos.1 h)

theorem divCeil_of_pos {a b : Amount} (h : 0 < b.toNat) : divCeil a b = .ok (a.divCeil b) := by
  rw [divCeil, if_neg (Amount.toNat_pos.1 h), Amount.divCeil]
  split
  · rfl
  · rename_i hrest
    exact fit_of_lt (Amount.div_add_one_lt hrest)

/-- The computation with guards does what the one without them does. -/
def Agrees (guarded : Except Fault α) (plain : Except VenueError α) : Prop :=
  guarded = lift plain

namespace Agrees

variable {guarded : Except Fault α} {plain : Except VenueError α}

theorem pure (a : α) : Agrees (Pure.pure a) (Pure.pure a) := rfl

theorem lift (x : Except VenueError α) : Agrees (Guarded.lift x) x := rfl

/-- What follows is compared only where the plain computation comes to it. -/
theorem bind {f : α → Except Fault β} {g : α → Except VenueError β} (h : Agrees guarded plain)
    (hf : ∀ a, plain = .ok a → Agrees (f a) (g a)) : Agrees (guarded >>= f) (plain >>= g) := by
  rw [Agrees] at h
  subst h
  cases plain with
  | ok a => exact hf a rfl
  | error e => rfl

theorem refuse {c : Prop} [Decidable c] {e : VenueError} {f : β → Except Fault α} {g : β → Except VenueError α}
    (h : ¬c → Agrees guarded plain) :
    Agrees (if c then throw (.venue e) >>= f else guarded) (if c then throw e >>= g else plain) := by
  by_cases hc : c
  · rw [if_pos hc, if_pos hc]
    rfl
  · rw [if_neg hc, if_neg hc]
    exact h hc

/-- A guard that lets its value pass. -/
theorem guard {a : β} {x : Except Fault β} {f : β → Except Fault α} (hx : x = .ok a) (h : Agrees (f a) plain) :
    Agrees (x >>= f) plain := by
  subst hx
  exact h

end Agrees

/-- What is left of each million of input after the fee. -/
def afterFee (pool : Address) (fee : Nat) : Except Fault Nat :=
  if fee < feeUnit then sub feeUnit fee else .error (.venue (.invalidFee pool fee))

theorem afterFee_agrees (pool : Address) (fee : Nat) : Agrees (afterFee pool fee) (ConstantProduct.afterFee pool fee) := by
  unfold afterFee ConstantProduct.afterFee
  split
  · rename_i hfee
    exact sub_of_le (Nat.le_of_lt hfee)
  · rfl

end Guarded

/-! ## The two kinds of pool with guards -/

namespace ConstantProduct

variable {pool : Address} {r : Reserves} {fee : Nat} {amount : Amount}

/-- `amountOut` with a guard at each operation. -/
def amountOutGuarded (pool : Address) (r : Reserves) (fee : Nat) (amountIn : Amount) : Except Fault Amount := do
  if amountIn = 0 then throw (.venue .zeroAmount)
  if r.reserveIn = 0 ∨ r.reserveOut = 0 then throw (.venue (r.insufficient pool amountIn))
  let kept ← Guarded.afterFee pool fee
  let input ← Guarded.lift (VenueError.checked (amountIn.toNat * kept))
  let numerator ← Guarded.lift (VenueError.checked (input.toNat * r.reserveOut.toNat))
  let scaled ← Guarded.lift (VenueError.checked (r.reserveIn.toNat * feeUnit))
  let denominator ← Guarded.lift (VenueError.checked (scaled.toNat + input.toNat))
  let out ← Guarded.div numerator denominator
  if out = 0 then throw (.venue (r.insufficient pool amountIn))
  return out

/-- `amountIn` with a guard at each operation. -/
def amountInGuarded (pool : Address) (r : Reserves) (fee : Nat) (amountOut : Amount) : Except Fault Amount := do
  if amountOut = 0 then throw (.venue .zeroAmount)
  if r.reserveIn = 0 ∨ r.reserveOut ≤ amountOut then throw (.venue (r.insufficient pool amountOut))
  let product ← Guarded.lift (VenueError.checked (r.reserveIn.toNat * amountOut.toNat))
  let numerator ← Guarded.lift (VenueError.checked (product.toNat * feeUnit))
  let kept ← Guarded.afterFee pool fee
  let left ← Guarded.sub r.reserveOut.toNat amountOut.toNat
  let denominator ← Guarded.lift (VenueError.checked (left * kept))
  let quotient ← Guarded.div numerator denominator
  Guarded.fit (quotient.toNat + 1)

/-- The divisor is not zero, because the pool holds some of the token that comes in. -/
theorem amountOutGuarded_agrees (pool : Address) (r : Reserves) (fee : Nat) (amount : Amount) :
    Guarded.Agrees (amountOutGuarded pool r fee amount) (amountOut pool r fee amount) := by
  unfold amountOutGuarded amountOut
  refine .refuse fun _ => .refuse fun hreserves => .bind (Guarded.afterFee_agrees pool fee) fun kept _ => ?_
  refine .bind (.lift _) fun input _ => .bind (.lift _) fun numerator _ => .bind (.lift _) fun scaled hscaled => ?_
  refine .bind (.lift _) fun denominator hdenominator => .guard (Guarded.div_of_pos ?_) (.refuse fun _ => .pure _)
  have hpos : 0 < r.reserveIn.toNat := Amount.toNat_pos.2 fun h => hreserves (.inl h)
  rw [VenueError.checked_eq_some hdenominator, VenueError.checked_eq_some hscaled]
  exact Nat.add_pos_left (Nat.mul_pos hpos (by decide)) _

/-- The divisor is not zero, because the target is below the reserve and the fee below a million. -/
theorem amountInGuarded_agrees (pool : Address) (r : Reserves) (fee : Nat) (amount : Amount) :
    Guarded.Agrees (amountInGuarded pool r fee amount) (amountIn pool r fee amount) := by
  unfold amountInGuarded amountIn
  refine .refuse fun _ => .refuse fun hreserves => .bind (.lift _) fun product _ => ?_
  have hlt : amount < r.reserveOut := Nat.lt_of_not_le fun h => hreserves (.inr h)
  refine .bind (.lift _) fun numerator hnumerator => .bind (Guarded.afterFee_agrees pool fee) fun kept hkept => ?_
  refine .guard (Guarded.sub_of_le (Nat.le_of_lt (Amount.lt_def.1 hlt))) (.bind (.lift _) fun denominator hdenominator => ?_)
  obtain ⟨hfee, rfl⟩ := afterFee_eq_ok.1 hkept
  refine .guard (Guarded.div_of_pos ?_) (Guarded.fit_of_lt ?_)
  · rw [VenueError.checked_eq_some hdenominator]
    exact divisor_pos hlt hfee
  · exact div_add_one_lt (VenueError.checked_eq_some hnumerator) _

end ConstantProduct

namespace FixedRate

/-- `amountOut` with a guard at each operation. -/
def amountOutGuarded (find : Except VenueError RatePool) (pool : Address) (r : Reserves) (s : Swap) (amountIn : Amount) :
    Except Fault Amount := do
  if amountIn = 0 then throw (.venue .zeroAmount)
  let kept ← Guarded.afterFee pool s.fee >>= Guarded.fit
  let (num, den) := (← Guarded.lift find).oriented s
  let input ← Guarded.lift (VenueError.checked (amountIn.toNat * kept.toNat))
  let numerator ← Guarded.lift (VenueError.checked (input.toNat * num.toNat))
  let denominator ← Guarded.fit (feeUnit * den.toNat)
  let out ← Guarded.div numerator denominator
  if out = 0 ∨ r.reserveOut < out then throw (.venue (r.insufficient pool amountIn))
  return out

/-- `amountIn` with a guard at each operation. -/
def amountInGuarded (find : Except VenueError RatePool) (pool : Address) (r : Reserves) (s : Swap) (amountOut : Amount) :
    Except Fault Amount := do
  if amountOut = 0 then throw (.venue .zeroAmount)
  let kept ← Guarded.afterFee pool s.fee >>= Guarded.fit
  if r.reserveOut < amountOut then throw (.venue (r.insufficient pool amountOut))
  let (num, den) := (← Guarded.lift find).oriented s
  let scaled ← Guarded.lift (VenueError.checked (amountOut.toNat * feeUnit))
  let numerator ← Guarded.lift (VenueError.checked (scaled.toNat * den.toNat))
  let denominator ← Guarded.fit (kept.toNat * num.toNat)
  Guarded.divCeil numerator denominator

theorem afterFee_agrees (pool : Address) (fee : Nat) :
    Guarded.Agrees (Guarded.afterFee pool fee >>= Guarded.fit) (afterFee pool fee) := by
  unfold Guarded.afterFee afterFee
  split
  · rename_i hfee
    rw [Guarded.sub_of_le (Nat.le_of_lt hfee)]
    exact Guarded.fit_of_lt (Nat.lt_of_le_of_lt (Nat.sub_le _ _) (by decide))
  · rfl

/-- The divisor fits and is not zero, because both parts of a rate are positive words. -/
theorem amountOutGuarded_agrees (find : Except VenueError RatePool) (pool : Address) (r : Reserves) (s : Swap)
    (amount : Amount) : Guarded.Agrees (amountOutGuarded find pool r s amount) (amountOut find pool r s amount) := by
  unfold amountOutGuarded amountOut
  refine .refuse fun _ => .bind (afterFee_agrees pool s.fee) fun kept _ => .bind (.lift find) fun p _ => ?_
  have hbounds := oriented_bounds p s
  generalize p.oriented s = rate at hbounds ⊢
  obtain ⟨num, den⟩ := rate
  obtain ⟨-, hpos, hword⟩ := hbounds
  have hfits : feeUnit * den.toNat < 1 <<< 256 := product_lt (Nat.le_refl _) hword
  refine .bind (.lift _) fun input _ => .bind (.lift _) fun numerator _ => .guard (Guarded.fit_of_lt hfits) ?_
  refine .guard (Guarded.div_of_pos ?_) (.refuse fun _ => .pure _)
  rw [Amount.toNat_wrap hfits]
  exact Nat.mul_pos (by decide) hpos

/-- The divisor fits and is not zero, because the fee is below a million and both parts of a rate are positive words. -/
theorem amountInGuarded_agrees (find : Except VenueError RatePool) (pool : Address) (r : Reserves) (s : Swap)
    (amount : Amount) : Guarded.Agrees (amountInGuarded find pool r s amount) (amountIn find pool r s amount) := by
  unfold amountInGuarded amountIn
  refine .refuse fun _ => .bind (afterFee_agrees pool s.fee) fun kept hkept => .refuse fun _ => .bind (.lift find) fun p _ => ?_
  obtain ⟨hfee, hkept⟩ := afterFee_eq_ok hkept
  have hbounds := oriented_bounds p s
  generalize p.oriented s = rate at hbounds ⊢
  obtain ⟨num, den⟩ := rate
  obtain ⟨⟨hpos, hword⟩, -⟩ := hbounds
  have hfits : kept.toNat * num.toNat < 1 <<< 256 := by
    rw [hkept]
    exact product_lt (Nat.sub_le _ _) hword
  refine .bind (.lift _) fun scaled _ => .bind (.lift _) fun numerator _ => .guard (Guarded.fit_of_lt hfits) ?_
  refine Guarded.divCeil_of_pos ?_
  rw [Amount.toNat_wrap hfits, hkept]
  exact Nat.mul_pos (Nat.sub_pos_of_lt hfee) hpos

end FixedRate

/-! ## The formulas and what is checked on the way -/

/-- If the error is an overflow, one of the values does not fit. -/
def VenueError.OverflowOf (checks : List Nat) (e : VenueError) : Prop :=
  e = .overflow → ∃ n ∈ checks, 1 <<< 256 ≤ n

theorem VenueError.checked_fails {n : Nat} {checks : List Nat} (h : n ∈ checks) :
    Attempt.Fails (VenueError.OverflowOf checks) (VenueError.checked n) := by
  intro e he _
  unfold VenueError.checked at he
  split at he
  · cases he
  · rename_i hnone
    exact ⟨n, h, Amount.ofNat?_eq_none.1 hnone⟩

theorem ConstantProduct.afterFee_fails {checks : List Nat} (pool : Address) (fee : Nat) :
    Attempt.Fails (VenueError.OverflowOf checks) (ConstantProduct.afterFee pool fee) := by
  intro e he hoverflow
  unfold ConstantProduct.afterFee at he
  split at he
  · cases he
  · subst hoverflow
    cases he

/-- What the fee leaves of each million is the difference over the rationals. -/
theorem cast_afterFee {fee : Nat} (h : fee < feeUnit) : ((feeUnit - fee : Nat) : ℚ) = feeUnit - fee :=
  Nat.cast_sub (Nat.le_of_lt h)

/-- The quotient rounded up is the quotient over the rationals rounded up. -/
theorem ceil_natCast_div {n d : Nat} (hd : 0 < d) : ⌈(n : ℚ) / d⌉ = ((n + (d - 1)) / d : Nat) := by
  rw [← Int.natCast_ceil_eq_ceil (by positivity)]
  refine congrArg _ (eq_of_forall_ge_iff fun q => ?_)
  rw [Nat.ceil_le, div_le_iff₀ (Nat.cast_pos.2 hd), ← Nat.add_sub_assoc hd, ← Nat.ceilDiv_eq_add_pred_div,
    ceilDiv_le_iff_le_mul hd, Nat.mul_comm]
  exact_mod_cast Iff.rfl

namespace ConstantProduct

/-- The output by the formula. -/
def outputFor (r : Reserves) (fee : Nat) (input : Amount) : Int :=
  ⌊(input.toNat * (feeUnit - fee) * r.reserveOut.toNat : ℚ) / (r.reserveIn.toNat * feeUnit + input.toNat * (feeUnit - fee))⌋

/-- The input by the formula. -/
def inputFor (r : Reserves) (fee : Nat) (output : Amount) : Int :=
  ⌊(r.reserveIn.toNat * output.toNat * feeUnit : ℚ) / ((r.reserveOut.toNat - output.toNat) * (feeUnit - fee))⌋ + 1

/-- The checked values on the way to the output. -/
def outputChecks (r : Reserves) (fee : Nat) (input : Amount) : List Nat :=
  [input.toNat * (feeUnit - fee), input.toNat * (feeUnit - fee) * r.reserveOut.toNat, r.reserveIn.toNat * feeUnit,
    r.reserveIn.toNat * feeUnit + input.toNat * (feeUnit - fee)]

/-- The checked values on the way to the input. -/
def inputChecks (r : Reserves) (fee : Nat) (output : Amount) : List Nat :=
  [r.reserveIn.toNat * output.toNat, r.reserveIn.toNat * output.toNat * feeUnit,
    (r.reserveOut.toNat - output.toNat) * (feeUnit - fee)]

variable {pool : Address} {r : Reserves} {fee : Nat} {input output : Amount}

/-- Below a million the fee leaves a quotient of natural numbers. -/
theorem outputFor_eq (hfee : fee < feeUnit) : outputFor r fee input =
    (input.toNat * (feeUnit - fee) * r.reserveOut.toNat /
      (r.reserveIn.toNat * feeUnit + input.toNat * (feeUnit - fee)) : Nat) := by
  rw [outputFor, ← cast_afterFee hfee]
  exact_mod_cast Rat.floor_natCast_div_natCast _ _

theorem amountOut_eq_outputFor (h : amountOut pool r fee input = .ok output) : (output.toNat : Int) = outputFor r fee input := by
  obtain ⟨-, hfee, -, hout⟩ := amountOut_eq_ok h
  rw [outputFor_eq hfee, hout]

theorem amountIn_eq_inputFor (h : amountIn pool r fee output = .ok input) : (input.toNat : Int) = inputFor r fee output := by
  obtain ⟨-, hlt, hfee, hin⟩ := amountIn_eq_ok h
  have hleft : ((r.reserveOut.toNat - output.toNat : Nat) : ℚ) = r.reserveOut.toNat - output.toNat :=
    Nat.cast_sub (Nat.le_of_lt (Amount.lt_def.1 hlt))
  rw [inputFor, ← cast_afterFee hfee, ← hleft, hin, Nat.cast_add_one]
  congr 1
  exact_mod_cast (Rat.floor_natCast_div_natCast _ _).symm

/-- An overflow comes from a checked value. -/
theorem amountOut_fails (pool : Address) (r : Reserves) (fee : Nat) (input : Amount) :
    Attempt.Fails (VenueError.OverflowOf (outputChecks r fee input)) (amountOut pool r fee input) := by
  unfold amountOut
  refine .refuse nofun (.refuse nofun (.bind_of_ok (afterFee_fails pool fee) fun kept hkept => ?_))
  obtain ⟨-, rfl⟩ := afterFee_eq_ok.1 hkept
  refine .bind_of_ok (VenueError.checked_fails ?_) fun paid hpaid => .bind_of_ok (VenueError.checked_fails ?_) fun numerator _ =>
    .bind_of_ok (VenueError.checked_fails ?_) fun scaled hscaled => .bind (VenueError.checked_fails ?_) fun denominator =>
    .refuse nofun (.pure _)
  · simp [outputChecks]
  · simp [outputChecks, VenueError.checked_eq_some hpaid]
  · simp [outputChecks]
  · simp [outputChecks, VenueError.checked_eq_some hpaid, VenueError.checked_eq_some hscaled]

/-- An overflow comes from a checked value. -/
theorem amountIn_fails (pool : Address) (r : Reserves) (fee : Nat) (output : Amount) :
    Attempt.Fails (VenueError.OverflowOf (inputChecks r fee output)) (amountIn pool r fee output) := by
  unfold amountIn
  refine .refuse nofun (.refuse nofun (.bind_of_ok (VenueError.checked_fails ?_) fun product hproduct =>
    .bind (VenueError.checked_fails ?_) fun numerator => .bind_of_ok (afterFee_fails pool fee) fun kept hkept =>
    .bind (VenueError.checked_fails ?_) fun denominator => .pure _))
  · simp [inputChecks]
  · simp [inputChecks, VenueError.checked_eq_some hproduct]
  · obtain ⟨-, rfl⟩ := afterFee_eq_ok.1 hkept
    simp [inputChecks]

end ConstantProduct

namespace FixedRate

/-- The output by the formula. -/
def outputFor (p : RatePool) (s : Swap) (input : Amount) : Int :=
  ⌊(input.toNat * (feeUnit - s.fee) * (p.oriented s).1.toNat : ℚ) / (feeUnit * (p.oriented s).2.toNat)⌋

/-- The input by the formula. -/
def inputFor (p : RatePool) (s : Swap) (output : Amount) : Int :=
  ⌈(output.toNat * feeUnit * (p.oriented s).2.toNat : ℚ) / ((feeUnit - s.fee) * (p.oriented s).1.toNat)⌉

/-- The checked values on the way to the output. -/
def outputChecks (p : RatePool) (s : Swap) (input : Amount) : List Nat :=
  [input.toNat * (feeUnit - s.fee), input.toNat * (feeUnit - s.fee) * (p.oriented s).1.toNat]

/-- The checked values on the way to the input. -/
def inputChecks (p : RatePool) (s : Swap) (output : Amount) : List Nat :=
  [output.toNat * feeUnit, output.toNat * feeUnit * (p.oriented s).2.toNat]

variable {pool : Address} {find : Except VenueError RatePool} {r : Reserves} {s : Swap} {input output : Amount} {checks : List Nat}

/-- Below a million the fee leaves a quotient of natural numbers. -/
theorem outputFor_eq {p : RatePool} (hfee : s.fee < feeUnit) : outputFor p s input =
    (input.toNat * (feeUnit - s.fee) * (p.oriented s).1.toNat / (feeUnit * (p.oriented s).2.toNat) : Nat) := by
  rw [outputFor, ← cast_afterFee hfee]
  exact_mod_cast Rat.floor_natCast_div_natCast _ _

theorem amountOut_eq_outputFor (h : amountOut find pool r s input = .ok output) :
    ∃ p, find = .ok p ∧ (output.toNat : Int) = outputFor p s input := by
  obtain ⟨-, hfee, -, -, p, hp, hout⟩ := amountOut_eq_ok h
  exact ⟨p, hp, by rw [outputFor_eq hfee, hout]⟩

theorem amountIn_eq_inputFor (h : amountIn find pool r s output = .ok input) :
    ∃ p, find = .ok p ∧ (input.toNat : Int) = inputFor p s output := by
  obtain ⟨-, hfee, -, p, hp, hin⟩ := amountIn_eq_ok h
  refine ⟨p, hp, ?_⟩
  rw [inputFor, ← cast_afterFee hfee, hin]
  exact_mod_cast (ceil_natCast_div (inputDivisor_pos p hfee)).symm

theorem afterFee_fails (pool : Address) (fee : Nat) :
    Attempt.Fails (VenueError.OverflowOf checks) (afterFee pool fee) := by
  intro e he hoverflow
  subst hoverflow
  unfold afterFee at he
  split at he
  · cases he
  · cases he

/-- An overflow comes from a checked value. -/
theorem amountOut_fails (pool : Address) (r : Reserves) (hfind : Attempt.Fails (VenueError.OverflowOf checks) find)
    (hchecks : ∀ p, find = .ok p → checks = outputChecks p s input) :
    Attempt.Fails (VenueError.OverflowOf checks) (amountOut find pool r s input) := by
  unfold amountOut
  refine .refuse nofun (.bind_of_ok (afterFee_fails pool s.fee) fun kept hkept => .bind_of_ok hfind fun p hp => ?_)
  obtain ⟨-, hkept⟩ := afterFee_eq_ok hkept
  rw [hchecks p hp, outputChecks, ← hkept]
  generalize p.oriented s = rate
  obtain ⟨num, den⟩ := rate
  refine .bind_of_ok (VenueError.checked_fails ?_) fun paid hpaid => .bind (VenueError.checked_fails ?_) fun numerator =>
    .refuse nofun (.pure _)
  · simp
  · simp [VenueError.checked_eq_some hpaid]

/-- An overflow comes from a checked value. -/
theorem amountIn_fails (pool : Address) (r : Reserves) (hfind : Attempt.Fails (VenueError.OverflowOf checks) find)
    (hchecks : ∀ p, find = .ok p → checks = inputChecks p s output) :
    Attempt.Fails (VenueError.OverflowOf checks) (amountIn find pool r s output) := by
  unfold amountIn
  refine .refuse nofun (.bind (afterFee_fails pool s.fee) fun kept => .refuse nofun (.bind_of_ok hfind fun p hp => ?_))
  rw [hchecks p hp, inputChecks]
  generalize p.oriented s = rate
  obtain ⟨num, den⟩ := rate
  refine .bind_of_ok (VenueError.checked_fails ?_) fun scaled hscaled => .bind (VenueError.checked_fails ?_) fun numerator =>
    .pure _
  · simp
  · simp [VenueError.checked_eq_some hscaled]

end FixedRate

/-! ## Venues -/

namespace Venue

/-- `amountOut` with a guard at each operation. -/
def amountOutGuarded (venue : Venue) (pool : Address) (r : Reserves) (s : Swap) (amountIn : Amount) : Except Fault Amount :=
  match venue with
  | .constantProduct _ => ConstantProduct.amountOutGuarded pool r s.fee amountIn
  | .fixedRate pools => FixedRate.amountOutGuarded (found s pools[s.key]?) pool r s amountIn

/-- `amountIn` with a guard at each operation. -/
def amountInGuarded (venue : Venue) (pool : Address) (r : Reserves) (s : Swap) (amountOut : Amount) : Except Fault Amount :=
  match venue with
  | .constantProduct _ => ConstantProduct.amountInGuarded pool r s.fee amountOut
  | .fixedRate pools => FixedRate.amountInGuarded (found s pools[s.key]?) pool r s amountOut

/-- The output by the formula of the pool that serves the swap. -/
def outputFor (venue : Venue) (r : Reserves) (s : Swap) (input : Amount) : Option Int :=
  match venue with
  | .constantProduct _ => some (ConstantProduct.outputFor r s.fee input)
  | .fixedRate pools => pools[s.key]?.map fun p => FixedRate.outputFor p s input

/-- The input by the formula of the pool that serves the swap. -/
def inputFor (venue : Venue) (r : Reserves) (s : Swap) (output : Amount) : Option Int :=
  match venue with
  | .constantProduct _ => some (ConstantProduct.inputFor r s.fee output)
  | .fixedRate pools => pools[s.key]?.map fun p => FixedRate.inputFor p s output

/-- The checked values on the way to the output. -/
def outputChecks (venue : Venue) (r : Reserves) (s : Swap) (input : Amount) : List Nat :=
  match venue with
  | .constantProduct _ => ConstantProduct.outputChecks r s.fee input
  | .fixedRate pools => pools[s.key]?.elim [] fun p => FixedRate.outputChecks p s input

/-- The checked values on the way to the input. -/
def inputChecks (venue : Venue) (r : Reserves) (s : Swap) (output : Amount) : List Nat :=
  match venue with
  | .constantProduct _ => ConstantProduct.inputChecks r s.fee output
  | .fixedRate pools => pools[s.key]?.elim [] fun p => FixedRate.inputChecks p s output

variable {α : Type} {s : Swap} {checks : List Nat}

theorem found_eq_ok {x : Option α} {a : α} : found s x = .ok a ↔ x = some a := by
  cases x <;> simp [found]

theorem found_fails (s : Swap) (x : Option α) : Attempt.Fails (VenueError.OverflowOf checks) (found s x) := by
  intro e he hoverflow
  subst hoverflow
  cases x with
  | none => cases he
  | some a => cases he

/-- The prices of pools are exact. No guard stops anything: nothing is divided by zero, and nothing that is not checked wraps. So
whatever is answered is the formula over the rationals, and where an overflow is reported a checked value does not fit. -/
theorem pricing_exact (venue : Venue) (pool : Address) (r : Reserves) (s : Swap) (amount : Amount) :
    (venue.amountOutGuarded pool r s amount = Guarded.lift (venue.amountOut pool r s amount) ∧
      (∀ output, venue.amountOut pool r s amount = .ok output → venue.outputFor r s amount = some (output.toNat : Int)) ∧
      (venue.amountOut pool r s amount = .error .overflow → ∃ n ∈ venue.outputChecks r s amount, 1 <<< 256 ≤ n)) ∧
    (venue.amountInGuarded pool r s amount = Guarded.lift (venue.amountIn pool r s amount) ∧
      (∀ input, venue.amountIn pool r s amount = .ok input → venue.inputFor r s amount = some (input.toNat : Int)) ∧
      (venue.amountIn pool r s amount = .error .overflow → ∃ n ∈ venue.inputChecks r s amount, 1 <<< 256 ≤ n)) := by
  cases venue with
  | constantProduct pools =>
    refine ⟨⟨ConstantProduct.amountOutGuarded_agrees pool r s.fee amount, fun output h => ?_, fun h => ?_⟩,
      ConstantProduct.amountInGuarded_agrees pool r s.fee amount, fun input h => ?_, fun h => ?_⟩
    · exact congrArg some (ConstantProduct.amountOut_eq_outputFor h).symm
    · exact ConstantProduct.amountOut_fails pool r s.fee amount h rfl
    · exact congrArg some (ConstantProduct.amountIn_eq_inputFor h).symm
    · exact ConstantProduct.amountIn_fails pool r s.fee amount h rfl
  | fixedRate pools =>
    refine ⟨⟨FixedRate.amountOutGuarded_agrees _ pool r s amount, fun output h => ?_, fun h => ?_⟩,
      FixedRate.amountInGuarded_agrees _ pool r s amount, fun input h => ?_, fun h => ?_⟩
    · obtain ⟨p, hp, hexact⟩ := FixedRate.amountOut_eq_outputFor h
      rw [outputFor, found_eq_ok.1 hp, hexact]
      rfl
    · refine FixedRate.amountOut_fails pool r (found_fails s _) (fun p hp => ?_) h rfl
      rw [outputChecks, found_eq_ok.1 hp]
      rfl
    · obtain ⟨p, hp, hexact⟩ := FixedRate.amountIn_eq_inputFor h
      rw [inputFor, found_eq_ok.1 hp, hexact]
      rfl
    · refine FixedRate.amountIn_fails pool r (found_fails s _) (fun p hp => ?_) h rfl
      rw [inputChecks, found_eq_ok.1 hp]
      rfl

end Venue

namespace Sample

/-- A swap between two tokens with a fee of three thousandths. -/
def feeSwap : Swap :=
  ⟨1, .ofNat 11, .ofNat 12, 3000⟩

/-- A venue with a constant-product pool. -/
def feeVenue : Venue :=
  .constantProduct ((∅ : Std.ExtTreeMap PoolKey Address).insert feeSwap.key (.ofNat 4))

/-- A thousand of both tokens. -/
def thousands : Reserves :=
  ⟨.ofWord 1000, .ofWord 1000⟩

/-- A venue with a pool that lists nine for eight. -/
def nineForEight : Venue :=
  .fixedRate ((∅ : Std.ExtTreeMap PoolKey RatePool).insert feeSwap.key ⟨.ofNat 4, 9, 8, by decide, by decide⟩)

/-- The swap back, from the second token of the pool to the first. -/
def feeSwapBack : Swap :=
  { feeSwap with tokenIn := feeSwap.tokenOut, tokenOut := feeSwap.tokenIn }

end Sample

/-- For a hundred a pool with a thousand of both tokens gives ninety, as the formula says; the product of the largest amount does not
fit. A pool that lists nine for eight gives eighty-eight for a hundred of its second token, for which the listed rate is turned over,
and asks for a hundred where eighty-eight are to come out. -/
theorem Venue.pricing_exact_thousands :
    (Sample.feeVenue.amountOut (.ofNat 4) Sample.thousands Sample.feeSwap (.ofWord 100) = .ok (.ofWord 90) ∧
      Sample.feeVenue.outputFor Sample.thousands Sample.feeSwap (.ofWord 100) = some 90) ∧
    (Sample.feeVenue.amountOut (.ofNat 4) Sample.thousands Sample.feeSwap .max = .error .overflow ∧
      ∃ n ∈ Sample.feeVenue.outputChecks Sample.thousands Sample.feeSwap .max, 1 <<< 256 ≤ n) ∧
    (Sample.nineForEight.amountOut (.ofNat 4) Sample.thousands Sample.feeSwapBack (.ofWord 100) = .ok (.ofWord 88) ∧
      Sample.nineForEight.outputFor Sample.thousands Sample.feeSwapBack (.ofWord 100) = some 88) ∧
    Sample.nineForEight.amountIn (.ofNat 4) Sample.thousands Sample.feeSwapBack (.ofWord 88) = .ok (.ofWord 100) ∧
      Sample.nineForEight.inputFor Sample.thousands Sample.feeSwapBack (.ofWord 88) = some 100 := by
  have hout : Sample.feeVenue.amountOut (.ofNat 4) Sample.thousands Sample.feeSwap (.ofWord 100) = .ok (.ofWord 90) := by
    decide +kernel
  have hoverflow : Sample.feeVenue.amountOut (.ofNat 4) Sample.thousands Sample.feeSwap .max = .error .overflow := by
    decide +kernel
  have hback : Sample.nineForEight.amountOut (.ofNat 4) Sample.thousands Sample.feeSwapBack (.ofWord 100) = .ok (.ofWord 88) := by
    decide +kernel
  have hasked : Sample.nineForEight.amountIn (.ofNat 4) Sample.thousands Sample.feeSwapBack (.ofWord 88) = .ok (.ofWord 100) := by
    decide +kernel
  obtain ⟨⟨-, hexact, -⟩, -⟩ :=
    Venue.pricing_exact Sample.feeVenue (.ofNat 4) Sample.thousands Sample.feeSwap (.ofWord 100)
  obtain ⟨⟨-, -, hchecked⟩, -⟩ := Venue.pricing_exact Sample.feeVenue (.ofNat 4) Sample.thousands Sample.feeSwap .max
  obtain ⟨⟨-, hturned, -⟩, -⟩ :=
    Venue.pricing_exact Sample.nineForEight (.ofNat 4) Sample.thousands Sample.feeSwapBack (.ofWord 100)
  obtain ⟨-, -, hinput, -⟩ :=
    Venue.pricing_exact Sample.nineForEight (.ofNat 4) Sample.thousands Sample.feeSwapBack (.ofWord 88)
  exact ⟨⟨hout, hexact _ hout⟩, ⟨hoverflow, hchecked hoverflow⟩, ⟨hback, hturned _ hback⟩, hasked, hinput _ hasked⟩

end MarginRouter
