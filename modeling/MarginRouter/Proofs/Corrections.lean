import MarginRouter.Proofs.Budget

/-!
# How far the estimates are off

The largest loan that a budget pays back, and the smallest that leaves a net amount, as quotients of exact numbers. The estimate
that the search for a loan within a budget starts from is this largest loan or one unit below it: the search goes up once at most,
and never down. The estimate of a loan for a net amount is never below the smallest one, so that this search only goes down, once
for every unit between the two.
-/

namespace MarginRouter.FeeRate

variable {rate : FeeRate} {net budget gross principal best least : Amount}

/-! ## The best loans as quotients -/

/-- A budget pays a loan back with its fee exactly when the loan times both words of the rate is below the next budget times the
denominator. -/
theorem owedFor_le_iff (r : FeeRate) {budget g : Nat} :
    r.owedFor .surcharge g ≤ budget ↔ g * (r.denominator.toNat + r.fee.toNat) < (budget + 1) * r.denominator.toNat := by
  have hpos : 0 < r.denominator.toNat := Nat.zero_lt_of_lt r.toNat_fee_lt
  have howed : r.owedFor .surcharge g = g * (r.denominator.toNat + r.fee.toNat) / r.denominator.toNat := by
    rw [owedFor, feeFor, Nat.mul_add, Nat.mul_comm g r.denominator.toNat, Nat.mul_add_div hpos]
  rw [howed, ← Nat.lt_succ_iff, Nat.div_lt_iff_lt_mul hpos]

/-- A loan leaves more than an amount after its fee exactly when it does so in proportion. -/
theorem lt_deliveredFor_iff (r : FeeRate) {left g : Nat} :
    left < r.deliveredFor .deducted g ↔ left * r.denominator.toNat < g * (r.denominator.toNat - r.fee.toNat) := by
  have hlt := r.toNat_fee_lt
  unfold deliveredFor feeFor
  simp only
  generalize r.denominator.toNat = d at hlt ⊢
  generalize r.fee.toNat = f at hlt ⊢
  obtain ⟨kept, rfl⟩ := Nat.exists_eq_add_of_le hlt.le
  rw [Nat.add_sub_cancel_left]
  rcases Nat.lt_or_ge left g with hless | hge
  · obtain ⟨rest, rfl⟩ := Nat.exists_eq_add_of_le hless.le
    have hfee : (left + rest) * f / (f + kept) < rest ↔ (left + rest) * f < rest * (f + kept) :=
      Nat.div_lt_iff_lt_mul (Nat.zero_lt_of_lt hlt)
    have hproducts : (left + rest) * f < rest * (f + kept) ↔ left * (f + kept) < (left + rest) * kept := by
      rw [Nat.add_mul, Nat.mul_add, Nat.mul_add, Nat.add_mul]
      omega
    rw [← hproducts, ← hfee]
    omega
  · have hproducts : g * kept ≤ left * (f + kept) := Nat.mul_le_mul hge (Nat.le_add_left _ _)
    exact iff_of_false (Nat.not_lt.2 (Nat.le_trans (Nat.sub_le _ _) hge)) (Nat.not_lt.2 hproducts)

theorem isGreatest_owedFor (r : FeeRate) (budget : Nat) :
    IsGreatest {g | r.owedFor .surcharge g ≤ budget}
      (((budget + 1) * r.denominator.toNat - 1) / (r.denominator.toNat + r.fee.toNat)) := by
  have hpos : 0 < r.denominator.toNat := Nat.zero_lt_of_lt r.toNat_fee_lt
  have hprod : 0 < (budget + 1) * r.denominator.toNat := Nat.mul_pos (Nat.succ_pos budget) hpos
  have hiff : ∀ g, r.owedFor .surcharge g ≤ budget ↔
      g ≤ ((budget + 1) * r.denominator.toNat - 1) / (r.denominator.toNat + r.fee.toNat) := by
    intro g
    rw [owedFor_le_iff, Nat.le_div_iff_mul_le (Nat.add_pos_left hpos _)]
    omega
  exact ⟨(hiff _).2 (Nat.le_refl _), fun g hg => (hiff g).1 hg⟩

theorem isLeast_deliveredFor (r : FeeRate) {net : Nat} (hnet : 0 < net) :
    IsLeast {g | net ≤ r.deliveredFor .deducted g}
      ((net - 1) * r.denominator.toNat / (r.denominator.toNat - r.fee.toNat) + 1) := by
  have hpos : 0 < r.denominator.toNat - r.fee.toNat := Nat.sub_pos_of_lt r.toNat_fee_lt
  have hiff : ∀ g, net ≤ r.deliveredFor .deducted g ↔
      (net - 1) * r.denominator.toNat / (r.denominator.toNat - r.fee.toNat) < g := by
    intro g
    rw [Nat.div_lt_iff_lt_mul hpos, ← lt_deliveredFor_iff]
    omega
  exact ⟨(hiff _).2 (Nat.lt_succ_self _), fun g hg => (hiff g).1 hg⟩

/-- The largest loan is the estimate, cut to a whole number, or one unit more. -/
theorem isGreatest_eq_or_eq_succ (r : FeeRate) {budget best : Nat}
    (hbest : IsGreatest {g | r.owedFor .surcharge g ≤ budget} best) :
    best = budget * r.denominator.toNat / (r.denominator.toNat + r.fee.toNat) ∨
      best = budget * r.denominator.toNat / (r.denominator.toNat + r.fee.toNat) + 1 := by
  have hpos : 0 < r.denominator.toNat := Nat.zero_lt_of_lt r.toNat_fee_lt
  have hsum : 0 < r.denominator.toNat + r.fee.toNat := Nat.add_pos_left hpos _
  have hprod : (budget + 1) * r.denominator.toNat = budget * r.denominator.toNat + r.denominator.toNat := Nat.succ_mul _ _
  rw [hbest.unique (r.isGreatest_owedFor budget), hprod]
  have hlow := Nat.div_le_div_right (c := r.denominator.toNat + r.fee.toNat)
    (show budget * r.denominator.toNat ≤ budget * r.denominator.toNat + r.denominator.toNat - 1 by omega)
  have hhigh := Nat.div_le_div_right (c := r.denominator.toNat + r.fee.toNat)
    (show budget * r.denominator.toNat + r.denominator.toNat - 1 ≤
      budget * r.denominator.toNat + (r.denominator.toNat + r.fee.toNat) by omega)
  rw [Nat.add_div_right _ hsum] at hhigh
  omega

/-- The smallest loan is no larger than the estimate. -/
theorem isLeast_le_grossEstimate (r : FeeRate) {net least : Nat} (hleast : IsLeast {g | net ≤ r.deliveredFor .deducted g} least) :
    least ≤ r.grossEstimate net :=
  hleast.2 (r.le_deliveredFor_grossEstimate net)

/-! ## The courses of the loops -/

/-- Extending goes on exactly as far as the largest loan. The induction is on how far that is. -/
theorem loops_extend_best (hbest : IsGreatest {g | rate.owedFor .surcharge g ≤ budget.toNat} best.toNat)
    (hfits : best.toNat * rate.fee.toNat < 1 <<< 256) (n : Nat) :
    ∀ {principal : Amount}, principal.toNat + n = best.toNat →
      Attempt.Loops (rate.extendTurn budget) principal n (rate.extend budget principal) := by
  induction n with
  | zero =>
    intro principal hn
    rw [extend_eq]
    cases ht : rate.extendTurn budget principal with
    | error e => exact .fail ht
    | ok next =>
      cases next with
      | none => exact .stop ht
      | some more =>
        obtain ⟨hmore, hwithin⟩ := extendTurn_again ht
        have hle := hbest.2 hwithin
        omega
  | succ n ih =>
    intro principal hn
    have hle : principal.toNat + 1 ≤ best.toNat := by omega
    have hwithin : rate.owedFor .surcharge (principal.toNat + 1) ≤ budget.toNat :=
      Nat.le_trans ((rate.owedFor_strictMono .surcharge).monotone hle) hbest.1
    have hnext : principal.toNat + 1 < 1 <<< 256 := Nat.lt_of_le_of_lt hle best.isLt
    have ht : rate.extendTurn budget principal = .ok (some ⟨_, hnext⟩) := by
      refine extendTurn_eq_ok.2 ⟨Nat.lt_of_le_of_lt (Nat.mul_le_mul_right _ hle) hfits,
        Nat.lt_of_le_of_lt hwithin budget.isLt, ?_⟩
      rw [if_pos hwithin]
      exact ⟨_, rfl, rfl⟩
    rw [extend_eq, ht]
    exact .again ht (ih (by show principal.toNat + 1 + n = best.toNat; omega))

/-- Where extending ends is the largest loan. -/
theorem extend_eq_best (hbest : IsGreatest {g | rate.owedFor .surcharge g ≤ budget.toNat} best.toNat)
    (hle : principal.toNat ≤ best.toNat) {most : Amount} (h : rate.extend budget principal = .ok most) : most = best := by
  have hwithin : rate.owedFor .surcharge principal.toNat ≤ budget.toNat :=
    Nat.le_trans ((rate.owedFor_strictMono .surcharge).monotone hle) hbest.1
  obtain ⟨-, -, -, hover⟩ := extend_eq_ok h
  obtain ⟨n, hloop⟩ := rate.loops_extend budget principal
  rw [h] at hloop
  obtain ⟨hmost, -⟩ := hloop.of_ok (P := fun p => rate.owedFor .surcharge p.toNat ≤ budget.toNat)
    (fun _ _ _ ht => (extendTurn_again ht).2) hwithin
  have hnot : ¬most.toNat + 1 ≤ best.toNat := fun hless =>
    absurd (Nat.le_trans ((rate.owedFor_strictMono .surcharge).monotone hless) hbest.1) (Nat.not_le.2 hover)
  exact Amount.ext (Nat.le_antisymm (hbest.2 hmost) (by omega))

/-- A loan within the budget is not reduced. -/
theorem loops_reduce_within (hwithin : rate.owedFor .surcharge principal.toNat ≤ budget.toNat)
    (hfits : principal.toNat * rate.fee.toNat < 1 <<< 256) :
    Attempt.Loops (rate.reduceTurn budget) principal 0 (rate.reduce budget principal) ∧
      rate.reduce budget principal = .ok principal := by
  have ht : rate.reduceTurn budget principal = .ok none := by
    rw [reduceTurn_eq_ok, if_neg (Nat.not_lt.2 hwithin)]
    split
    · exact ⟨hfits, Nat.lt_of_le_of_lt hwithin budget.isLt, rfl⟩
    · rfl
  rw [reduce_eq, ht]
  exact ⟨.stop ht, rfl⟩

/-- A loan that leaves enough is not raised. -/
theorem loops_raise_enough (henough : net.toNat ≤ rate.deliveredFor .deducted gross.toNat) :
    Attempt.Loops (rate.raiseTurn net) gross 0 (rate.raise net gross) := by
  rw [raise_eq]
  cases ht : rate.raiseTurn net gross with
  | error e => exact .fail ht
  | ok next =>
    cases next with
    | none => exact .stop ht
    | some more =>
      obtain ⟨-, hmore⟩ := raiseTurn_eq_ok.1 ht
      rw [if_neg (Nat.not_lt.2 henough)] at hmore
      cases hmore

/-- Lowering goes on exactly as far as the smallest loan. The induction is on how far that is. -/
theorem loops_lower_least (hleast : IsLeast {g | net.toNat ≤ rate.deliveredFor .deducted g} least.toNat) (n : Nat) :
    ∀ {gross : Amount}, gross.toNat = least.toNat + n → gross.toNat * rate.fee.toNat < 1 <<< 256 →
      Attempt.Loops (rate.lowerTurn net) gross n (rate.lower net gross) := by
  induction n with
  | zero =>
    intro gross hn _
    rw [lower_eq]
    cases ht : rate.lowerTurn net gross with
    | error e => exact .fail ht
    | ok next =>
      cases next with
      | none => exact .stop ht
      | some below =>
        obtain ⟨hbelow, henough⟩ := lowerTurn_again ht
        have hle := hleast.2 henough
        omega
  | succ n ih =>
    intro gross hn hfits
    have hle : least.toNat ≤ gross.toNat - 1 := by omega
    have henough : net.toNat ≤ rate.deliveredFor .deducted (gross.toNat - 1) :=
      Nat.le_trans hleast.1 (rate.deliveredFor_mono .deducted hle)
    have hfits' : (gross.toNat - 1) * rate.fee.toNat < 1 <<< 256 :=
      Nat.lt_of_le_of_lt (Nat.mul_le_mul_right _ (Nat.sub_le _ _)) hfits
    have ht : rate.lowerTurn net gross = .ok (some (less gross)) := by
      rw [lowerTurn_eq_ok, if_pos (by omega), if_pos henough]
      exact ⟨hfits', rfl⟩
    rw [lower_eq, ht]
    exact .again ht (ih (by show gross.toNat - 1 = least.toNat + n; omega) hfits')

/-! ## The corrections -/

/-- The search for a net amount raises the estimate and lowers what it has come to. -/
theorem grossForNet_eq_bind {estimate : Amount} (hnet : net ≠ 0) (hfits : net.toNat * rate.denominator.toNat < 1 <<< 256)
    (hestimate : estimate.toNat = rate.grossEstimate net.toNat) :
    rate.grossForNet net = rate.raise net estimate >>= rate.lower net := by
  rw [grossForNet, if_neg hnet, checked_of_lt hfits]
  exact congrArg (rate.raise net · >>= rate.lower net) (Amount.ext hestimate.symm)

/-- The loops only do the correction they are meant to do. Within a budget, where the sum of the two words of the rate is a word and
the product of the estimate fits: the largest loan is the estimate or one unit more; extending goes on once for every unit between
the two, that is once at most, and the loan that it ends with is not reduced. For a net amount that is not zero: the smallest loan is
one unit more than what the rate makes of one unit less, cut to a whole number, and no more than the estimate; so the estimate is
never raised, and where the fee on it can be computed it is lowered once for every unit between the two. Where the product of the
estimate does not fit no loop is entered. -/
theorem corrections_exact (rate : FeeRate) :
    (rate.denominator.toNat + rate.fee.toNat < 1 <<< 64 → ∀ budget : Amount,
      budget.toNat * rate.denominator.toNat < 1 <<< 256 → ∃ estimate best : Amount,
        estimate.toNat = budget.toNat * rate.denominator.toNat / (rate.denominator.toNat + rate.fee.toNat) ∧
        IsGreatest {g | rate.owedFor .surcharge g ≤ budget.toNat} best.toNat ∧
        (best.toNat = estimate.toNat ∨ best.toNat = estimate.toNat + 1) ∧
        rate.principalWithin budget = rate.extend budget estimate >>= rate.reduce budget ∧
        Attempt.Loops (rate.extendTurn budget) estimate (best.toNat - estimate.toNat) (rate.extend budget estimate) ∧
        (∀ most, rate.extend budget estimate = .ok most → most = best) ∧
        Attempt.Loops (rate.reduceTurn budget) best 0 (rate.reduce budget best) ∧ rate.reduce budget best = .ok best) ∧
    ∀ net : Amount, net ≠ 0 → ∃ least : Nat,
      least = (net.toNat - 1) * rate.denominator.toNat / (rate.denominator.toNat - rate.fee.toNat) + 1 ∧
      IsLeast {g | net.toNat ≤ rate.deliveredFor .deducted g} least ∧
      least ≤ net.toNat * rate.denominator.toNat / (rate.denominator.toNat - rate.fee.toNat) ∧
      (net.toNat * rate.denominator.toNat < 1 <<< 256 → ∃ estimate : Amount,
        estimate.toNat = net.toNat * rate.denominator.toNat / (rate.denominator.toNat - rate.fee.toNat) ∧
        rate.grossForNet net = rate.raise net estimate >>= rate.lower net ∧
        Attempt.Loops (rate.raiseTurn net) estimate 0 (rate.raise net estimate) ∧
        (estimate.toNat * rate.fee.toNat < 1 <<< 256 → rate.raise net estimate = .ok estimate ∧
          Attempt.Loops (rate.lowerTurn net) estimate (estimate.toNat - least) (rate.lower net estimate))) ∧
      (1 <<< 256 ≤ net.toNat * rate.denominator.toNat → rate.grossForNet net = .error .overflow) := by
  refine ⟨fun hsum budget hfits => ?_, fun net hnet => ?_⟩
  · obtain ⟨best, hbest⟩ := rate.exists_isGreatest budget
    obtain ⟨estimate, hestimate⟩ : ∃ estimate : Amount,
        estimate.toNat = budget.toNat * rate.denominator.toNat / (rate.denominator.toNat + rate.fee.toNat) :=
      ⟨⟨_, Nat.lt_of_le_of_lt (Nat.div_le_self _ _) hfits⟩, rfl⟩
    have hnear := rate.isGreatest_eq_or_eq_succ hbest
    rw [← hestimate] at hnear
    have hle : best.toNat ≤ budget.toNat := Nat.le_trans (Nat.le_add_right _ _) hbest.1
    have hproduct : best.toNat * rate.fee.toNat < 1 <<< 256 :=
      Nat.lt_of_le_of_lt (Nat.mul_le_mul hle rate.toNat_fee_lt.le) hfits
    refine ⟨estimate, best, hestimate, hbest, hnear, principalWithin_eq_bind hfits hsum hestimate, ?_, fun most hmost => ?_,
      loops_reduce_within hbest.1 hproduct⟩
    · exact loops_extend_best hbest hproduct _ (by omega)
    · exact extend_eq_best hbest (by omega) hmost
  · have hleast := rate.isLeast_deliveredFor (Amount.toNat_pos.2 hnet)
    have hle := rate.isLeast_le_grossEstimate hleast
    refine ⟨_, rfl, hleast, hle, fun hfits => ?_, fun hover => ?_⟩
    · have hestimate : rate.grossEstimate net.toNat < 1 <<< 256 := Nat.lt_of_le_of_lt (Nat.div_le_self _ _) hfits
      have henough := rate.le_deliveredFor_grossEstimate net.toNat
      refine ⟨⟨_, hestimate⟩, rfl, grossForNet_eq_bind hnet hfits rfl, loops_raise_enough henough, fun hfee => ?_⟩
      refine ⟨raise_eq_self henough hfee, ?_⟩
      have hamount : IsLeast {g | net.toNat ≤ rate.deliveredFor .deducted g}
          (⟨_, Nat.lt_of_le_of_lt hle hestimate⟩ : Amount).toNat := hleast
      exact loops_lower_least hamount _ (Nat.add_sub_cancel' hle).symm hfee
    · rw [grossForNet, if_neg hnet, checked_of_not_lt (Nat.not_lt.2 hover)]
      rfl

/-- `corrections_exact` at nine tenths: within a hundred the search goes up once, from 52 to 53; for a net amount of a hundred it goes
down nine times, from a thousand to 991. -/
theorem corrections_exact_nineTenths :
    (nineTenths.denominator.toNat + nineTenths.fee.toNat < 1 <<< 64 ∧ 100 * nineTenths.denominator.toNat < 1 <<< 256 ∧
      Attempt.Loops (nineTenths.extendTurn (.ofWord 100)) (.ofWord 52) 1 (nineTenths.extend (.ofWord 100) (.ofWord 52)) ∧
      nineTenths.reduce (.ofWord 100) (.ofWord 53) = .ok (.ofWord 53)) ∧
    (Amount.ofWord 100 ≠ 0 ∧ IsLeast {g | 100 ≤ nineTenths.deliveredFor .deducted g} 991 ∧
      Attempt.Loops (nineTenths.raiseTurn (.ofWord 100)) (.ofWord 1000) 0 (nineTenths.raise (.ofWord 100) (.ofWord 1000)) ∧
      Attempt.Loops (nineTenths.lowerTurn (.ofWord 100)) (.ofWord 1000) 9 (nineTenths.lower (.ofWord 100) (.ofWord 1000))) := by
  obtain ⟨hbudget, hnet⟩ := corrections_exact nineTenths
  constructor
  · obtain ⟨estimate, best, hestimate, hbest, -, -, hextend, -, -, hreduce⟩ := hbudget (by decide) (.ofWord 100) (by decide)
    obtain rfl : estimate = .ofWord 52 := Amount.ext hestimate
    obtain rfl : best = .ofWord 53 := Amount.ext (hbest.unique (nineTenths.isGreatest_owedFor 100))
    exact ⟨by decide, by decide, hextend, hreduce⟩
  · have hne : Amount.ofWord 100 ≠ 0 := by decide
    obtain ⟨least, rfl, hleast, -, hfound, -⟩ := hnet (.ofWord 100) hne
    obtain ⟨estimate, hestimate, -, hraise, hlower⟩ := hfound (by decide)
    obtain rfl : estimate = .ofWord 1000 := Amount.ext hestimate
    exact ⟨hne, hleast, hraise, (hlower (by decide)).2⟩

end MarginRouter.FeeRate
