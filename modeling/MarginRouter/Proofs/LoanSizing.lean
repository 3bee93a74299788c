import Mathlib.Order.Bounds.Basic
import MarginRouter.Proofs.FeeRate

/-!
# Loans of the right size

The estimate of a loan is corrected one unit at a time, by loops that compare what the loan really leaves, or is really paid back
with, to what is asked. Each loop is given by its turns. It comes to an end from every start; and since larger loans leave no less
and are paid back with more, the place where the second loop ends is the best of all, however far off the estimate was.
-/

namespace MarginRouter.FeeRate

variable {rate : FeeRate} {mode : FeeMode} {terms : LoanTerms} {net budget gross principal input : Amount}
variable {next : Option Amount}

/-! ## The turns of the loops -/

/-- One unit less. -/
def less (gross : Amount) : Amount :=
  ⟨gross.toNat - 1, Nat.lt_of_le_of_lt (Nat.sub_le _ _) gross.isLt⟩

/-- A turn of `raise`: one unit more, as long as the loan leaves too little. -/
def raiseTurn (r : FeeRate) (net gross : Amount) : Except FeeError (Option Amount) := do
  let left ← r.netOf gross
  if left < net then
    let more ← checked (gross.toNat + 1)
    return some more
  else return none

/-- A turn of `lower`: one unit less, if that still leaves enough. -/
def lowerTurn (r : FeeRate) (net gross : Amount) : Except FeeError (Option Amount) := do
  if 0 < gross.toNat then
    let left ← r.netOf (less gross)
    return if net ≤ left then some (less gross) else none
  else return none

/-- A turn of `extend`: one unit more, if that is still within the budget. -/
def extendTurn (r : FeeRate) (budget principal : Amount) : Except FeeError (Option Amount) := do
  let more ← checked (principal.toNat + 1)
  let repayment ← r.repaymentOf more
  return if repayment ≤ budget then some more else none

/-- A turn of `reduce`: one unit less, as long as the budget is exceeded. -/
def reduceTurn (r : FeeRate) (budget principal : Amount) : Except FeeError (Option Amount) := do
  if 0 < principal.toNat then
    let repayment ← r.repaymentOf principal
    return if budget < repayment then some (less principal) else none
  else return none

theorem raiseTurn_eq_ok : rate.raiseTurn net gross = .ok next ↔
    gross.toNat * rate.fee.toNat < 1 <<< 256 ∧
      if rate.deliveredFor .deducted gross.toNat < net.toNat then ∃ more, more.toNat = gross.toNat + 1 ∧ some more = next
      else none = next := by
  simp only [raiseTurn, Attempt.bind_eq_ok]
  constructor
  · rintro ⟨left, hl, h⟩
    obtain ⟨hfits, hleft⟩ := netOf_eq_ok.1 hl
    refine ⟨hfits, ?_⟩
    rw [← hleft]
    split at h
    · rename_i hless
      obtain ⟨more, hm, h⟩ := Attempt.bind_eq_ok.1 h
      rw [if_pos (Amount.lt_def.1 hless)]
      exact ⟨more, checked_eq_ok.1 hm, Attempt.pure_eq_ok.1 h⟩
    · rename_i hless
      rw [if_neg (mt Amount.lt_def.2 hless)]
      exact Attempt.pure_eq_ok.1 h
  · rintro ⟨hfits, h⟩
    have hlt := Nat.lt_of_le_of_lt (Nat.sub_le gross.toNat (rate.feeFor gross.toNat)) gross.isLt
    refine ⟨⟨_, hlt⟩, netOf_eq_ok.2 ⟨hfits, rfl⟩, ?_⟩
    split at h
    · rename_i hless
      obtain ⟨more, hm, rfl⟩ := h
      rw [if_pos (Amount.lt_def.2 hless)]
      exact Attempt.bind_eq_ok.2 ⟨more, checked_eq_ok.2 hm, rfl⟩
    · rename_i hless
      rw [if_neg (mt Amount.lt_def.1 hless)]
      exact Attempt.pure_eq_ok.2 h

theorem lowerTurn_eq_ok : rate.lowerTurn net gross = .ok next ↔
    if 0 < gross.toNat then (gross.toNat - 1) * rate.fee.toNat < 1 <<< 256 ∧
      (if net.toNat ≤ rate.deliveredFor .deducted (gross.toNat - 1) then some (less gross) else none) = next
    else none = next := by
  unfold lowerTurn
  split
  · simp only [Attempt.bind_eq_ok, Attempt.pure_eq_ok]
    constructor
    · rintro ⟨left, hl, rfl⟩
      obtain ⟨hfits, hleft⟩ := netOf_eq_ok.1 hl
      refine ⟨hfits, ?_⟩
      simp only [Amount.le_def, hleft]
      rfl
    · rintro ⟨hfits, rfl⟩
      have hlt := Nat.lt_of_le_of_lt (Nat.sub_le (less gross).toNat (rate.feeFor (less gross).toNat)) (less gross).isLt
      exact ⟨⟨_, hlt⟩, netOf_eq_ok.2 ⟨hfits, rfl⟩, rfl⟩
  · exact Attempt.pure_eq_ok

theorem extendTurn_eq_ok : rate.extendTurn budget principal = .ok next ↔
    (principal.toNat + 1) * rate.fee.toNat < 1 <<< 256 ∧ rate.owedFor .surcharge (principal.toNat + 1) < 1 <<< 256 ∧
      if rate.owedFor .surcharge (principal.toNat + 1) ≤ budget.toNat then
        ∃ more, more.toNat = principal.toNat + 1 ∧ some more = next
      else none = next := by
  simp only [extendTurn, Attempt.bind_eq_ok, Attempt.pure_eq_ok, checked_eq_ok]
  constructor
  · rintro ⟨more, hmore, repayment, hr, rfl⟩
    obtain ⟨hfits, hrepayment⟩ := repaymentOf_eq_ok.1 hr
    rw [hmore] at hfits hrepayment
    refine ⟨hfits, hrepayment ▸ repayment.isLt, ?_⟩
    simp only [Amount.le_def, hrepayment]
    split
    · exact ⟨more, hmore, rfl⟩
    · rfl
  · rintro ⟨hfits, howed, h⟩
    have hlt : principal.toNat + 1 < 1 <<< 256 := Nat.lt_of_le_of_lt (Nat.le_add_right _ _) howed
    refine ⟨⟨_, hlt⟩, rfl, ⟨_, howed⟩, repaymentOf_eq_ok.2 ⟨hfits, rfl⟩, ?_⟩
    split at h
    · rename_i hle
      obtain ⟨more, hmore, rfl⟩ := h
      rw [if_pos (Amount.le_def.2 hle)]
      exact congrArg some (Amount.ext hmore.symm)
    · rename_i hle
      rw [if_neg (mt Amount.le_def.1 hle), h]

theorem reduceTurn_eq_ok : rate.reduceTurn budget principal = .ok next ↔
    if 0 < principal.toNat then principal.toNat * rate.fee.toNat < 1 <<< 256 ∧
      rate.owedFor .surcharge principal.toNat < 1 <<< 256 ∧
      (if budget.toNat < rate.owedFor .surcharge principal.toNat then some (less principal) else none) = next
    else none = next := by
  unfold reduceTurn
  split
  · simp only [Attempt.bind_eq_ok, Attempt.pure_eq_ok]
    constructor
    · rintro ⟨repayment, hr, rfl⟩
      obtain ⟨hfits, hrepayment⟩ := repaymentOf_eq_ok.1 hr
      refine ⟨hfits, hrepayment ▸ repayment.isLt, ?_⟩
      simp only [Amount.lt_def, hrepayment]
    · rintro ⟨hfits, howed, rfl⟩
      exact ⟨⟨_, howed⟩, repaymentOf_eq_ok.2 ⟨hfits, rfl⟩, rfl⟩
  · exact Attempt.pure_eq_ok

/-! What a turn that goes on has done: -/

theorem raiseTurn_again {more : Amount} (h : rate.raiseTurn net gross = .ok (some more)) : more.toNat = gross.toNat + 1 := by
  obtain ⟨-, h⟩ := raiseTurn_eq_ok.1 h
  split at h
  · obtain ⟨_, hmore, he⟩ := h
    cases he
    exact hmore
  · cases h

theorem lowerTurn_again {least : Amount} (h : rate.lowerTurn net gross = .ok (some least)) :
    least.toNat + 1 = gross.toNat ∧ net.toNat ≤ rate.deliveredFor .deducted least.toNat := by
  have h := lowerTurn_eq_ok.1 h
  split at h
  · rename_i hpos
    obtain ⟨-, h⟩ := h
    split at h
    · rename_i hle
      cases h
      exact ⟨Nat.sub_add_cancel hpos, hle⟩
    · cases h
  · cases h

theorem extendTurn_again {more : Amount} (h : rate.extendTurn budget principal = .ok (some more)) :
    more.toNat = principal.toNat + 1 ∧ rate.owedFor .surcharge more.toNat ≤ budget.toNat := by
  obtain ⟨-, -, h⟩ := extendTurn_eq_ok.1 h
  split at h
  · rename_i hle
    obtain ⟨_, hmore, he⟩ := h
    cases he
    exact ⟨hmore, hmore ▸ hle⟩
  · cases h

theorem reduceTurn_again {rest : Amount} (h : rate.reduceTurn budget principal = .ok (some rest)) :
    rest.toNat + 1 = principal.toNat ∧ budget.toNat < rate.owedFor .surcharge (rest.toNat + 1) := by
  have h := reduceTurn_eq_ok.1 h
  split at h
  · rename_i hpos
    obtain ⟨-, -, h⟩ := h
    split at h
    · rename_i hlt
      cases h
      have hpred : (less principal).toNat + 1 = principal.toNat := Nat.sub_add_cancel hpos
      exact ⟨hpred, hpred ▸ hlt⟩
    · cases h
  · cases h

/-! ## The loops end -/

theorem checked_of_lt {n : Nat} (h : n < 1 <<< 256) : checked n = .ok ⟨n, h⟩ :=
  checked_eq_ok.2 rfl

theorem checked_of_not_lt {n : Nat} (h : ¬n < 1 <<< 256) : checked n = .error .overflow := by
  rw [checked, Amount.ofNat?, dif_neg h]

theorem raise_eq (r : FeeRate) (net gross : Amount) :
    r.raise net gross = r.raiseTurn net gross >>= fun next => next.elim (pure gross) (r.raise net) := by
  rw [raise, raiseTurn]
  cases r.netOf gross with
  | error e => rfl
  | ok left =>
    show (if left < net then _ else _) = (if left < net then _ else _) >>= _
    split
    · by_cases h : gross.toNat + 1 < 1 <<< 256
      · rw [dif_pos h, checked_of_lt h]
        rfl
      · rw [dif_neg h, checked_of_not_lt h]
        rfl
    · rfl

theorem lower_eq (r : FeeRate) (net gross : Amount) :
    r.lower net gross = r.lowerTurn net gross >>= fun next => next.elim (pure gross) (r.lower net) := by
  rw [lower, lowerTurn]
  by_cases hpos : 0 < gross.toNat
  · rw [dif_pos hpos, if_pos hpos]
    show r.netOf (less gross) >>= _ = _
    cases r.netOf (less gross) with
    | error e => rfl
    | ok left =>
      show (if net ≤ left then _ else _) = Option.elim (if net ≤ left then _ else _) _ _
      split
      · rfl
      · rfl
  · rw [dif_neg hpos, if_neg hpos]
    rfl

theorem extend_eq (r : FeeRate) (budget principal : Amount) :
    r.extend budget principal =
      r.extendTurn budget principal >>= fun next => next.elim (pure principal) (r.extend budget) := by
  rw [extend, extendTurn]
  by_cases h : principal.toNat + 1 < 1 <<< 256
  · rw [dif_pos h, checked_of_lt h]
    show r.repaymentOf _ >>= _ = (r.repaymentOf _ >>= _) >>= _
    cases r.repaymentOf ⟨principal.toNat + 1, h⟩ with
    | error e => rfl
    | ok repayment =>
      show (if repayment ≤ budget then _ else _) = Option.elim (if repayment ≤ budget then _ else _) _ _
      split
      · rfl
      · rfl
  · rw [dif_neg h, checked_of_not_lt h]
    rfl

theorem reduce_eq (r : FeeRate) (budget principal : Amount) :
    r.reduce budget principal =
      r.reduceTurn budget principal >>= fun next => next.elim (pure principal) (r.reduce budget) := by
  rw [reduce, reduceTurn]
  by_cases hpos : 0 < principal.toNat
  · rw [dif_pos hpos, if_pos hpos]
    show r.repaymentOf principal >>= _ = _
    cases r.repaymentOf principal with
    | error e => rfl
    | ok repayment =>
      show (if budget < repayment then _ else _) = Option.elim (if budget < repayment then _ else _) _ _
      split
      · rfl
      · rfl
  · rw [dif_neg hpos, if_neg hpos]
    rfl

/-- Raising goes through its loop, which ends because amounts are bounded. -/
theorem loops_raise (r : FeeRate) (net gross : Amount) :
    ∃ n, Attempt.Loops (r.raiseTurn net) gross n (r.raise net gross) := by
  refine Attempt.Loops.of_measure (r.raise_eq net) (fun g => 1 <<< 256 - g.toNat) (fun g more h => ?_) gross
  have hmore := raiseTurn_again h
  have hlt := more.isLt
  omega

theorem loops_lower (r : FeeRate) (net gross : Amount) :
    ∃ n, Attempt.Loops (r.lowerTurn net) gross n (r.lower net gross) := by
  refine Attempt.Loops.of_measure (r.lower_eq net) Amount.toNat (fun g least h => ?_) gross
  have hleast := (lowerTurn_again h).1
  omega

theorem loops_extend (r : FeeRate) (budget principal : Amount) :
    ∃ n, Attempt.Loops (r.extendTurn budget) principal n (r.extend budget principal) := by
  refine Attempt.Loops.of_measure (r.extend_eq budget) (fun p => 1 <<< 256 - p.toNat) (fun p more h => ?_) principal
  have hmore := (extendTurn_again h).1
  have hlt := more.isLt
  omega

theorem loops_reduce (r : FeeRate) (budget principal : Amount) :
    ∃ n, Attempt.Loops (r.reduceTurn budget) principal n (r.reduce budget principal) := by
  refine Attempt.Loops.of_measure (r.reduce_eq budget) Amount.toNat (fun p rest h => ?_) principal
  have hrest := (reduceTurn_again h).1
  omega

/-! ## The smallest loan that leaves enough -/

/-- Raising ends at a loan that leaves enough. -/
theorem raise_eq_ok {enough : Amount} (h : rate.raise net gross = .ok enough) :
    net.toNat ≤ rate.deliveredFor .deducted enough.toNat := by
  obtain ⟨n, hloop⟩ := rate.loops_raise net gross
  rw [h] at hloop
  obtain ⟨-, hstop⟩ := hloop.of_ok (P := fun _ => True) (fun _ _ _ _ => trivial) trivial
  obtain ⟨-, hstop⟩ := raiseTurn_eq_ok.1 hstop
  split at hstop
  · obtain ⟨_, -, he⟩ := hstop
    cases he
  · rename_i henough
    exact Nat.le_of_not_lt henough

/-- Lowering a loan that leaves enough ends at the smallest that does. -/
theorem lower_eq_ok {least : Amount} (h : rate.lower net gross = .ok least)
    (hgross : net.toNat ≤ rate.deliveredFor .deducted gross.toNat) :
    IsLeast {g | net.toNat ≤ rate.deliveredFor .deducted g} least.toNat := by
  obtain ⟨n, hloop⟩ := rate.loops_lower net gross
  rw [h] at hloop
  obtain ⟨henough, hstop⟩ := hloop.of_ok (P := fun g => net.toNat ≤ rate.deliveredFor .deducted g.toNat)
    (fun g g' _ ht => (lowerTurn_again ht).2) hgross
  refine ⟨henough, fun g hg => ?_⟩
  -- a smaller loan would be at most one unit less, and that leaves too little
  by_contra hless
  have hless : g ≤ least.toNat - 1 := by omega
  have hle : net.toNat ≤ rate.deliveredFor .deducted (least.toNat - 1) :=
    Nat.le_trans hg (rate.deliveredFor_mono .deducted hless)
  have hstop := lowerTurn_eq_ok.1 hstop
  rw [if_pos (by omega), if_pos hle] at hstop
  exact nomatch hstop.2

/-- When the fee on a loan can be computed, lowering from it answers: smaller loans are all that it looks at. -/
theorem exists_lower (hgross : gross.toNat * rate.fee.toNat < 1 <<< 256) : ∃ least, rate.lower net gross = .ok least := by
  obtain ⟨n, hloop⟩ := rate.loops_lower net gross
  refine hloop.exists_ok (P := fun g => g.toNat ≤ gross.toNat) (fun g g' hg ht => ?_) (fun g hg => ?_) (Nat.le_refl _)
  · have hless := (lowerTurn_again ht).1
    omega
  · have hfits : (g.toNat - 1) * rate.fee.toNat < 1 <<< 256 :=
      Nat.lt_of_le_of_lt (Nat.mul_le_mul_right _ (Nat.le_trans (Nat.sub_le _ _) hg)) hgross
    by_cases hpos : 0 < g.toNat
    · exact ⟨_, lowerTurn_eq_ok.2 (by rw [if_pos hpos]; exact ⟨hfits, rfl⟩)⟩
    · exact ⟨none, lowerTurn_eq_ok.2 (by rw [if_neg hpos])⟩

/-- The first estimate of a loan that leaves `net`. -/
def grossEstimate (r : FeeRate) (net : Nat) : Nat :=
  net * r.denominator.toNat / (r.denominator.toNat - r.fee.toNat)

/-- The estimate leaves enough. -/
theorem le_deliveredFor_grossEstimate (r : FeeRate) (net : Nat) : net ≤ r.deliveredFor .deducted (r.grossEstimate net) := by
  have hlt := r.toNat_fee_lt
  unfold deliveredFor feeFor grossEstimate
  simp only
  generalize r.denominator.toNat = d at hlt ⊢
  generalize r.fee.toNat = f at hlt ⊢
  have hpos : 0 < d - f := by omega
  have hle : net ≤ net * d / (d - f) := (Nat.le_div_iff_mul_le hpos).2 (Nat.mul_le_mul_left _ (Nat.sub_le _ _))
  have hnext : net * d < (d - f) * (net * d / (d - f) + 1) := Nat.lt_mul_div_succ _ hpos
  generalize net * d / (d - f) = q at hle hnext ⊢
  obtain ⟨p, rfl⟩ := Nat.exists_eq_add_of_le hle
  -- the fee on the estimate is below `p + 1`
  have hfee : (net + p) * f / d < p + 1 := by
    refine Nat.div_lt_of_lt_mul ?_
    have hsplit : (net + p) * d = (net + p) * (d - f) + (net + p) * f := by rw [← Nat.mul_add, Nat.sub_add_cancel hlt.le]
    have hsum : (net + p) * d = net * d + p * d := Nat.add_mul _ _ _
    have hone : (d - f) * (net + p + 1) = (net + p) * (d - f) + (d - f) := by rw [Nat.mul_comm, Nat.succ_mul]
    have hgoal : d * (p + 1) = p * d + d := by rw [Nat.mul_comm, Nat.succ_mul]
    omega
  omega

/-- A loan that leaves enough is not raised, when the fee on it can be computed. -/
theorem raise_eq_self (henough : net.toNat ≤ rate.deliveredFor .deducted gross.toNat)
    (hfits : gross.toNat * rate.fee.toNat < 1 <<< 256) : rate.raise net gross = .ok gross := by
  rw [raise_eq, raiseTurn_eq_ok.2 ⟨hfits, by rw [if_neg (Nat.not_lt.2 henough)]⟩]
  rfl

theorem grossForNet_eq_ok (hnet : net ≠ 0) : rate.grossForNet net = .ok gross ↔
    net.toNat * rate.denominator.toNat < 1 <<< 256 ∧ ∃ estimate enough : Amount,
      estimate.toNat = rate.grossEstimate net.toNat ∧ rate.raise net estimate = .ok enough ∧
      rate.lower net enough = .ok gross := by
  rw [grossForNet, if_neg hnet]
  simp only [Attempt.bind_eq_ok]
  constructor
  · rintro ⟨scaled, hs, enough, hr, hl⟩
    have hscaled := checked_eq_ok.1 hs
    refine ⟨hscaled ▸ scaled.isLt, _, enough, ?_, hr, hl⟩
    show scaled.toNat / _ = _
    rw [hscaled, grossEstimate]
  · rintro ⟨hfits, estimate, enough, he, hr, hl⟩
    refine ⟨⟨_, hfits⟩, checked_of_lt hfits, enough, ?_, hl⟩
    rw [← hr]
    exact congrArg _ (Amount.ext he.symm)

/-- The loan found for a net amount is the smallest that leaves it. -/
theorem grossForNet_isLeast (h : rate.grossForNet net = .ok gross) :
    IsLeast {g | net.toNat ≤ rate.deliveredFor .deducted g} gross.toNat := by
  by_cases hnet : net = 0
  · rw [grossForNet, if_pos hnet] at h
    obtain rfl := Attempt.pure_eq_ok.1 h
    rw [hnet]
    exact ⟨Nat.zero_le _, fun g _ => Nat.zero_le g⟩
  · obtain ⟨-, estimate, enough, -, hr, hl⟩ := (grossForNet_eq_ok hnet).1 h
    exact lower_eq_ok hl (raise_eq_ok hr)

/-- A loan for a net amount is found exactly when the estimate and the fee on it can be computed. -/
theorem exists_grossForNet : (∃ gross, rate.grossForNet net = .ok gross) ↔
    net = 0 ∨ net.toNat * rate.denominator.toNat < 1 <<< 256 ∧
      rate.grossEstimate net.toNat * rate.fee.toNat < 1 <<< 256 := by
  by_cases hnet : net = 0
  · refine iff_of_true ⟨0, ?_⟩ (.inl hnet)
    rw [grossForNet, if_pos hnet]
    rfl
  simp only [hnet, false_or, grossForNet_eq_ok hnet]
  constructor
  · rintro ⟨gross, hfits, estimate, enough, he, hr, -⟩
    refine ⟨hfits, ?_⟩
    rw [raise] at hr
    obtain ⟨left, hl, -⟩ := Attempt.bind_eq_ok.1 hr
    rw [← he]
    exact (netOf_eq_ok.1 hl).1
  · rintro ⟨hfits, hestimate⟩
    have hlt : rate.grossEstimate net.toNat < 1 <<< 256 := Nat.lt_of_le_of_lt (Nat.div_le_self _ _) hfits
    have hraise : rate.raise net ⟨_, hlt⟩ = .ok ⟨_, hlt⟩ :=
      raise_eq_self (rate.le_deliveredFor_grossEstimate net.toNat) hestimate
    have hlower : ∃ least, rate.lower net ⟨_, hlt⟩ = .ok least := exists_lower hestimate
    obtain ⟨least, hlower⟩ := hlower
    exact ⟨least, hfits, _, _, rfl, hraise, hlower⟩

/-! ## The largest loan within a budget -/

/-- Extending ends at a loan that is not smaller, and one unit more would exceed the budget. -/
theorem extend_eq_ok {most : Amount} (h : rate.extend budget principal = .ok most) :
    principal ≤ most ∧ (most.toNat + 1) * rate.fee.toNat < 1 <<< 256 ∧
      rate.owedFor .surcharge (most.toNat + 1) < 1 <<< 256 ∧ budget.toNat < rate.owedFor .surcharge (most.toNat + 1) := by
  obtain ⟨n, hloop⟩ := rate.loops_extend budget principal
  rw [h] at hloop
  have hkeeps : ∀ p more : Amount, principal ≤ p → rate.extendTurn budget p = .ok (some more) → principal ≤ more := by
    intro p more hp ht
    have hmore := (extendTurn_again ht).1
    rw [Amount.le_def] at hp ⊢
    omega
  obtain ⟨hle, hstop⟩ := hloop.of_ok hkeeps (Nat.le_refl _)
  obtain ⟨hfits, howed, hstop⟩ := extendTurn_eq_ok.1 hstop
  refine ⟨hle, hfits, howed, ?_⟩
  split at hstop
  · obtain ⟨_, -, he⟩ := hstop
    cases he
  · rename_i hover
    exact Nat.lt_of_not_le hover

/-- Reducing a loan than which one unit more exceeds the budget ends at the largest that is within it. -/
theorem reduce_eq_ok {rest : Amount} (h : rate.reduce budget principal = .ok rest)
    (hover : budget.toNat < rate.owedFor .surcharge (principal.toNat + 1)) :
    IsGreatest {g | rate.owedFor .surcharge g ≤ budget.toNat} rest.toNat := by
  obtain ⟨n, hloop⟩ := rate.loops_reduce budget principal
  rw [h] at hloop
  obtain ⟨hnext, hstop⟩ := hloop.of_ok (P := fun p => budget.toNat < rate.owedFor .surcharge (p.toNat + 1))
    (fun p rest _ ht => (reduceTurn_again ht).2) hover
  constructor
  · have hstop := reduceTurn_eq_ok.1 hstop
    show rate.owedFor .surcharge rest.toNat ≤ budget.toNat
    by_cases hpos : 0 < rest.toNat
    · rw [if_pos hpos] at hstop
      by_contra hless
      rw [if_pos (Nat.lt_of_not_le hless)] at hstop
      exact nomatch hstop.2.2
    · rw [Nat.eq_zero_of_not_pos hpos]
      simp [owedFor, feeFor]
  · intro g hg
    by_contra hlt
    have hmore : rest.toNat + 1 ≤ g := Nat.lt_of_not_le hlt
    have howed := (rate.owedFor_strictMono .surcharge).monotone hmore
    exact Nat.not_lt.2 (Nat.le_trans howed hg) hnext

/-- When there is a loan beyond the budget whose repayment can still be computed, extending from below it answers a loan below
it. -/
theorem exists_extend {limit : Nat} (hlimit : principal.toNat < limit) (hfits : limit * rate.fee.toNat < 1 <<< 256)
    (howed : rate.owedFor .surcharge limit < 1 <<< 256) (hover : budget.toNat < rate.owedFor .surcharge limit) :
    ∃ most, rate.extend budget principal = .ok most ∧ most.toNat < limit := by
  have hmono := rate.owedFor_strictMono .surcharge
  have hkeeps : ∀ p more : Amount, p.toNat < limit → rate.extendTurn budget p = .ok (some more) → more.toNat < limit := by
    intro p more _ ht
    exact hmono.lt_iff_lt.1 (Nat.lt_of_le_of_lt (extendTurn_again ht).2 hover)
  have hanswers : ∀ p : Amount, p.toNat < limit → ∃ next, rate.extendTurn budget p = .ok next := by
    intro p hp
    have hle : p.toNat + 1 ≤ limit := hp
    have hfits' : (p.toNat + 1) * rate.fee.toNat < 1 <<< 256 := Nat.lt_of_le_of_lt (Nat.mul_le_mul_right _ hle) hfits
    have howed' : rate.owedFor .surcharge (p.toNat + 1) < 1 <<< 256 := Nat.lt_of_le_of_lt (hmono.monotone hle) howed
    have hlt : p.toNat + 1 < 1 <<< 256 := Nat.lt_of_le_of_lt (Nat.le_add_right _ _) howed'
    by_cases hwithin : rate.owedFor .surcharge (p.toNat + 1) ≤ budget.toNat
    · exact ⟨some ⟨_, hlt⟩, extendTurn_eq_ok.2 ⟨hfits', howed', by rw [if_pos hwithin]; exact ⟨_, rfl, rfl⟩⟩⟩
    · exact ⟨none, extendTurn_eq_ok.2 ⟨hfits', howed', by rw [if_neg hwithin]⟩⟩
  obtain ⟨n, hloop⟩ := rate.loops_extend budget principal
  obtain ⟨most, hmost⟩ := hloop.exists_ok hkeeps hanswers hlimit
  rw [hmost] at hloop
  exact ⟨most, hmost, (hloop.of_ok hkeeps hlimit).1⟩

/-- When the repayment of a loan can be computed, reducing it answers. -/
theorem exists_reduce (hfits : principal.toNat * rate.fee.toNat < 1 <<< 256)
    (howed : rate.owedFor .surcharge principal.toNat < 1 <<< 256) : ∃ rest, rate.reduce budget principal = .ok rest := by
  obtain ⟨n, hloop⟩ := rate.loops_reduce budget principal
  refine hloop.exists_ok (P := fun p => p.toNat ≤ principal.toNat) (fun p p' hp ht => ?_) (fun p hp => ?_) (Nat.le_refl _)
  · have hless := (reduceTurn_again ht).1
    omega
  · have hfits' := Nat.lt_of_le_of_lt (Nat.mul_le_mul_right rate.fee.toNat hp) hfits
    have howed' := Nat.lt_of_le_of_lt ((rate.owedFor_strictMono .surcharge).monotone hp) howed
    by_cases hpos : 0 < p.toNat
    · exact ⟨_, reduceTurn_eq_ok.2 (by rw [if_pos hpos]; exact ⟨hfits', howed', rfl⟩)⟩
    · exact ⟨none, reduceTurn_eq_ok.2 (by rw [if_neg hpos])⟩

/-- The first estimate of a loan within `budget`. -/
def principalEstimate (r : FeeRate) (budget : Nat) : Nat :=
  budget * r.denominator.toNat / (r.denominator + r.fee).toNat

theorem principalWithin_eq_ok : rate.principalWithin budget = .ok principal ↔
    budget.toNat * rate.denominator.toNat < 1 <<< 256 ∧ rate.denominator + rate.fee ≠ 0 ∧ ∃ estimate most : Amount,
      estimate.toNat = rate.principalEstimate budget.toNat ∧ rate.extend budget estimate = .ok most ∧
      rate.reduce budget most = .ok principal := by
  simp only [principalWithin, Attempt.bind_eq_ok]
  constructor
  · rintro ⟨scaled, hs, h⟩
    have hscaled := checked_eq_ok.1 hs
    split at h
    · cases h
    · rename_i hdivisor
      obtain ⟨most, he, hr⟩ := Attempt.bind_eq_ok.1 h
      refine ⟨hscaled ▸ scaled.isLt, hdivisor, _, most, ?_, he, hr⟩
      show scaled.toNat / _ = _
      rw [hscaled, principalEstimate]
  · rintro ⟨hfits, hdivisor, estimate, most, hestimate, he, hr⟩
    refine ⟨⟨_, hfits⟩, checked_of_lt hfits, ?_⟩
    rw [if_neg hdivisor]
    refine Attempt.bind_eq_ok.2 ⟨most, ?_, hr⟩
    rw [← he]
    exact congrArg _ (Amount.ext hestimate.symm)

/-- The loan found for a budget is the largest within it, however far off its estimate was. -/
theorem principalWithin_isGreatest (h : rate.principalWithin budget = .ok principal) :
    IsGreatest {g | rate.owedFor .surcharge g ≤ budget.toNat} principal.toNat := by
  obtain ⟨-, -, estimate, most, -, he, hr⟩ := principalWithin_eq_ok.1 h
  exact reduce_eq_ok hr (extend_eq_ok he).2.2.2

/-- A loan within a budget is found exactly when the estimate can be computed, and the repayment of a larger loan beyond the
budget. -/
theorem exists_principalWithin : (∃ principal, rate.principalWithin budget = .ok principal) ↔
    budget.toNat * rate.denominator.toNat < 1 <<< 256 ∧ rate.denominator + rate.fee ≠ 0 ∧
      ∃ limit, rate.principalEstimate budget.toNat < limit ∧ limit * rate.fee.toNat < 1 <<< 256 ∧
        budget.toNat < rate.owedFor .surcharge limit ∧ rate.owedFor .surcharge limit < 1 <<< 256 := by
  simp only [principalWithin_eq_ok]
  constructor
  · rintro ⟨principal, hfits, hdivisor, estimate, most, hestimate, he, -⟩
    obtain ⟨hle, hfits', howed, hover⟩ := extend_eq_ok he
    have hle := Amount.le_def.1 hle
    exact ⟨hfits, hdivisor, most.toNat + 1, by omega, hfits', hover, howed⟩
  · rintro ⟨hfits, hdivisor, limit, hlimit, hfits', hover, howed⟩
    have hlt : rate.principalEstimate budget.toNat < 1 <<< 256 := Nat.lt_of_le_of_lt (Nat.div_le_self _ _) hfits
    have hextend : ∃ most, rate.extend budget ⟨_, hlt⟩ = .ok most ∧ most.toNat < limit :=
      exists_extend hlimit hfits' howed hover
    obtain ⟨most, he, hmost⟩ := hextend
    have hreduce : ∃ rest, rate.reduce budget most = .ok rest := by
      refine exists_reduce (Nat.lt_of_le_of_lt (Nat.mul_le_mul_right _ (Nat.le_of_lt hmost)) hfits') ?_
      exact Nat.lt_trans (rate.owedFor_strictMono .surcharge hmost) howed
    obtain ⟨rest, hr⟩ := hreduce
    exact ⟨rest, hfits, hdivisor, _, most, rfl, he, hr⟩

/-! ## Sizes -/

theorem terms_of_sizeForInput (h : rate.sizeForInput input mode = .ok terms) :
    rate.terms terms.gross mode = .ok terms := by
  cases mode with
  | surcharge =>
    have h : rate.terms input .surcharge = .ok terms := h
    rw [(terms_exact h).1]
    exact h
  | deducted =>
    obtain ⟨gross, -, h⟩ := Attempt.bind_eq_ok.1 h
    rw [(terms_exact h).1]
    exact h

/-- A loan sized for an input is the smallest that delivers it. -/
theorem sizeForInput_isLeast (h : rate.sizeForInput input mode = .ok terms) :
    IsLeast {g | input.toNat ≤ rate.deliveredFor mode g} terms.gross.toNat := by
  cases mode with
  | surcharge =>
    have h : rate.terms input .surcharge = .ok terms := h
    rw [(terms_exact h).1]
    exact ⟨Nat.le_refl _, fun g hg => hg⟩
  | deducted =>
    obtain ⟨gross, hgross, h⟩ := Attempt.bind_eq_ok.1 h
    rw [(terms_exact h).1]
    exact grossForNet_isLeast hgross

/-- A loan sized for an input has the terms of its size, and delivers at least the input. -/
theorem sizeForInput_eq_ok (h : rate.sizeForInput input mode = .ok terms) :
    rate.terms terms.gross mode = .ok terms ∧ input ≤ terms.delivered := by
  have hterms := terms_of_sizeForInput h
  obtain ⟨-, -, hdelivered, -⟩ := terms_numbers hterms
  refine ⟨hterms, ?_⟩
  rw [Amount.le_def, hdelivered]
  exact (sizeForInput_isLeast h).1

/-- A loan sized for a budget has the terms of its size. -/
theorem terms_of_sizeForBudget (h : rate.sizeForBudget budget mode = .ok terms) :
    rate.terms terms.gross mode = .ok terms := by
  cases mode with
  | surcharge =>
    obtain ⟨gross, -, h⟩ := Attempt.bind_eq_ok.1 h
    rw [(terms_exact h).1]
    exact h
  | deducted =>
    have h : rate.terms budget .deducted = .ok terms := h
    rw [(terms_exact h).1]
    exact h

/-- A loan sized for a budget is the largest that the budget pays back. -/
theorem sizeForBudget_isGreatest (h : rate.sizeForBudget budget mode = .ok terms) :
    IsGreatest {g | rate.owedFor mode g ≤ budget.toNat} terms.gross.toNat := by
  cases mode with
  | surcharge =>
    obtain ⟨principal, hprincipal, h⟩ := Attempt.bind_eq_ok.1 h
    rw [(terms_exact h).1]
    exact principalWithin_isGreatest hprincipal
  | deducted =>
    have h : rate.terms budget .deducted = .ok terms := h
    rw [(terms_exact h).1]
    exact ⟨Nat.le_refl _, fun g hg => hg⟩

/-- A loan sized for a budget is paid back within the budget. -/
theorem owed_le_of_sizeForBudget (h : rate.sizeForBudget budget mode = .ok terms) : terms.owed ≤ budget := by
  obtain ⟨-, -, -, howed⟩ := terms_numbers (terms_of_sizeForBudget h)
  rw [Amount.le_def, howed]
  exact (sizeForBudget_isGreatest h).1

/-- How much may be left of a budget when the loan that is sized for it has been paid back. -/
def slack : FeeMode → Nat
  | .surcharge => 1
  | .deducted => 0

/-- Of the budget that a loan is sized for at most one unit is left when it is paid back, and none when the fee is kept back. -/
theorem budget_le_of_sizeForBudget (h : rate.sizeForBudget budget mode = .ok terms) :
    budget.toNat ≤ terms.owed.toNat + slack mode := by
  obtain ⟨-, -, -, howed⟩ := terms_numbers (terms_of_sizeForBudget h)
  have hmost := (sizeForBudget_isGreatest h).2
  cases mode with
  | surcharge =>
    -- one unit more would exceed the budget, and costs two more at most
    have hsucc := rate.owedFor_succ_le .surcharge terms.gross.toNat
    have hover : budget.toNat < rate.owedFor .surcharge (terms.gross.toNat + 1) := by
      by_contra hle
      exact Nat.not_succ_le_self _ (hmost (Nat.le_of_not_lt hle))
    show budget.toNat ≤ terms.owed.toNat + 1
    omega
  | deducted =>
    rw [howed]
    exact hmost (Nat.le_refl _)

/-! ## Exact sizes -/

/-- Sizing for an input is exact. A loan sized for an input delivers it, no smaller loan does, its terms are those of its size, and
what is paid back is what is delivered and the fee. The loan found for a net amount is the smallest that leaves it; one is found
exactly when the estimate, and the fee on it, can be computed; and both loops end from every start. -/
theorem sizeForInput_exact (rate : FeeRate) (input : Amount) :
    (∀ mode terms, rate.sizeForInput input mode = .ok terms →
      input ≤ terms.delivered ∧ terms.delivered.toNat = rate.deliveredFor mode terms.gross.toNat ∧
      (∀ g, g < terms.gross.toNat → rate.deliveredFor mode g < input.toNat) ∧
      rate.terms terms.gross mode = .ok terms ∧ terms.owed.toNat = terms.delivered.toNat + terms.fee.toNat) ∧
    (∀ gross, rate.grossForNet input = .ok gross →
      IsLeast {g | input.toNat ≤ rate.deliveredFor .deducted g} gross.toNat) ∧
    ((∃ gross, rate.grossForNet input = .ok gross) ↔
      input = 0 ∨ input.toNat * rate.denominator.toNat < 1 <<< 256 ∧
        rate.grossEstimate input.toNat * rate.fee.toNat < 1 <<< 256) ∧
    ∀ start, (∃ n, Attempt.Loops (rate.raiseTurn input) start n (rate.raise input start)) ∧
      ∃ n, Attempt.Loops (rate.lowerTurn input) start n (rate.lower input start) := by
  refine ⟨fun mode terms h => ?_, fun gross h => grossForNet_isLeast h, exists_grossForNet,
    fun start => ⟨rate.loops_raise input start, rate.loops_lower input start⟩⟩
  obtain ⟨hterms, hinput⟩ := sizeForInput_eq_ok h
  obtain ⟨-, -, hdelivered, -⟩ := terms_numbers hterms
  refine ⟨hinput, hdelivered, fun g hg => ?_, hterms, (terms_exact hterms).2⟩
  by_contra hless
  exact Nat.not_le_of_lt hg ((sizeForInput_isLeast h).2 (Nat.le_of_not_lt hless))

/-- A rate of nine tenths. -/
def nineTenths : FeeRate := ⟨9, 10, by decide⟩

/-- `sizeForInput_exact` at a rate of nine tenths: the estimate of a loan that delivers a hundred is a thousand, and 991 is enough. -/
theorem sizeForInput_exact_nineTenths : ∃ terms, nineTenths.sizeForInput (.ofWord 100) .deducted = .ok terms ∧
    nineTenths.grossEstimate 100 = 1000 ∧ terms.gross = .ofWord 991 ∧ terms.delivered = .ofWord 100 ∧
    ∀ g, g < 991 → nineTenths.deliveredFor .deducted g < 100 := by
  have hs : nineTenths.sizeForInput (.ofWord 100) .deducted =
      .ok ⟨.ofWord 991, .ofWord 891, .ofWord 100, .ofWord 991⟩ := by decide +kernel
  obtain ⟨-, -, hless, -, -⟩ := (sizeForInput_exact nineTenths (.ofWord 100)).1 _ _ hs
  exact ⟨_, hs, rfl, rfl, rfl, hless⟩

/-- Sizing for a budget is exact. A loan sized for a budget is paid back within it, no larger loan is, its terms are those of its
size, and it is not zero unless the budget is. The loan found for a budget is the largest within it; one is found exactly when the
estimate can be computed, and the repayment of some larger loan beyond the budget; and both loops end from every start. -/
theorem sizeForBudget_exact (rate : FeeRate) (budget : Amount) :
    (∀ mode terms, rate.sizeForBudget budget mode = .ok terms →
      terms.owed ≤ budget ∧ terms.owed.toNat = rate.owedFor mode terms.gross.toNat ∧
      (∀ g, terms.gross.toNat < g → budget.toNat < rate.owedFor mode g) ∧
      rate.terms terms.gross mode = .ok terms ∧ (0 < budget → 0 < terms.gross)) ∧
    (∀ principal, rate.principalWithin budget = .ok principal →
      IsGreatest {g | rate.owedFor .surcharge g ≤ budget.toNat} principal.toNat) ∧
    ((∃ principal, rate.principalWithin budget = .ok principal) ↔
      budget.toNat * rate.denominator.toNat < 1 <<< 256 ∧ rate.denominator + rate.fee ≠ 0 ∧
        ∃ limit, rate.principalEstimate budget.toNat < limit ∧ limit * rate.fee.toNat < 1 <<< 256 ∧
          budget.toNat < rate.owedFor .surcharge limit ∧ rate.owedFor .surcharge limit < 1 <<< 256) ∧
    ∀ start, (∃ n, Attempt.Loops (rate.extendTurn budget) start n (rate.extend budget start)) ∧
      ∃ n, Attempt.Loops (rate.reduceTurn budget) start n (rate.reduce budget start) := by
  refine ⟨fun mode terms h => ?_, fun principal h => principalWithin_isGreatest h, exists_principalWithin,
    fun start => ⟨rate.loops_extend budget start, rate.loops_reduce budget start⟩⟩
  have hterms := terms_of_sizeForBudget h
  have hmost := (sizeForBudget_isGreatest h).2
  obtain ⟨-, -, -, howed⟩ := terms_numbers hterms
  refine ⟨owed_le_of_sizeForBudget h, howed, fun g hg => ?_, hterms, fun hbudget => ?_⟩
  · by_contra hle
    exact Nat.not_le_of_lt hg (hmost (Nat.le_of_not_lt hle))
  · have hone : rate.owedFor mode 1 ≤ budget.toNat := by
      rw [owedFor_one]
      exact hbudget
    exact Amount.lt_def.2 (hmost hone)

/-- `sizeForBudget_exact` at a rate of nine tenths: the estimate of a loan that a hundred pays back is 52, and 53 is within it. -/
theorem sizeForBudget_exact_nineTenths : ∃ terms, nineTenths.sizeForBudget (.ofWord 100) .surcharge = .ok terms ∧
    nineTenths.principalEstimate 100 = 52 ∧ terms.gross = .ofWord 53 ∧ terms.owed = .ofWord 100 ∧
    ∀ g, 53 < g → 100 < nineTenths.owedFor .surcharge g := by
  have hs : nineTenths.sizeForBudget (.ofWord 100) .surcharge =
      .ok ⟨.ofWord 53, .ofWord 47, .ofWord 53, .ofWord 100⟩ := by decide +kernel
  obtain ⟨-, -, hmore, -, -⟩ := (sizeForBudget_exact nineTenths (.ofWord 100)).1 _ _ hs
  exact ⟨_, hs, rfl, rfl, rfl, hmore⟩

end MarginRouter.FeeRate
