import Mathlib.Algebra.BigOperators.Group.Finset.Piecewise
import Mathlib.Algebra.BigOperators.Ring.Finset
import MarginRouter.Ledger.Basic
import MarginRouter.Proofs.Step
import MarginRouter.Proofs.Table

/-!
# Money in the ledger

What each write to the ledger does to the balances, as integers, and to the positions. `Ledger.Paid l l' paid` says that
`l'` is `l` after each holder has been paid `paid token holder` of each token; a payment may be negative. Payments add up.
-/

namespace MarginRouter

instance : Fintype Address :=
  Fintype.ofEquiv (Fin (1 <<< 160)) ⟨fun i => ⟨i.1, i.2⟩, fun a => ⟨a.toNat, a.isLt⟩, fun _ => rfl, fun _ => rfl⟩

theorem Position.isEmpty_iff {p : Position} : p.isEmpty = true ↔ p = .empty := by
  simp [Position.isEmpty, Position.empty, Position.ext_iff]

namespace Ledger

theorem eq_of_parts {l l' : Ledger} (hbalances : l.balances = l'.balances) (hpositions : l.positions = l'.positions) :
    l = l' := by
  cases l
  cases l'
  rw [Ledger.mk.injEq]
  exact ⟨hbalances, hpositions⟩

/-! ## One write -/

theorem setBalance_eq (l : Ledger) (token holder : Address) (amount : Amount) :
    l.setBalance token holder amount = { l with balances := Table.write 0 l.balances ⟨token, holder⟩ amount } := by
  unfold setBalance Table.write
  split <;> rfl

theorem setPosition_eq (l : Ledger) (market user asset : Address) (p : Position) :
    l.setPosition market user asset p = { l with positions := Table.write .empty l.positions ⟨market, user, asset⟩ p } := by
  unfold setPosition Table.write
  simp only [Position.isEmpty_iff]
  split <;> rfl

/-- Writing a balance writes its own entry, and none if the amount is zero. -/
theorem balances_setBalance (l : Ledger) (token holder : Address) (amount : Amount) (t k : Address) :
    (l.setBalance token holder amount).balances[(⟨t, k⟩ : Holding)]? =
      if t = token ∧ k = holder then if amount = 0 then none else some amount else l.balances[(⟨t, k⟩ : Holding)]? := by
  rw [setBalance_eq, Table.getElem?_write]
  simp only [Holding.mk.injEq]

@[simp] theorem balance_setBalance (l : Ledger) (token holder : Address) (amount : Amount) (t k : Address) :
    (l.setBalance token holder amount).balance t k = if t = token ∧ k = holder then amount else l.balance t k := by
  rw [setBalance_eq, balance, Table.getD_write, balance]
  simp only [Holding.mk.injEq]

@[simp] theorem positions_setBalance (l : Ledger) (token holder : Address) (amount : Amount) :
    (l.setBalance token holder amount).positions = l.positions := by
  unfold setBalance
  split <;> rfl

@[simp] theorem position_setPosition (l : Ledger) (market user asset : Address) (p : Position) (m u a : Address) :
    (l.setPosition market user asset p).position m u a =
      if m = market ∧ u = user ∧ a = asset then p else l.position m u a := by
  rw [setPosition_eq, position, Table.getD_write, position]
  simp only [PositionKey.mk.injEq]

@[simp] theorem balances_setPosition (l : Ledger) (market user asset : Address) (p : Position) :
    (l.setPosition market user asset p).balances = l.balances := by
  unfold setPosition
  split <;> rfl

@[simp] theorem balance_setPosition (l : Ledger) (market user asset : Address) (p : Position) (t k : Address) :
    (l.setPosition market user asset p).balance t k = l.balance t k := by
  rw [balance, balances_setPosition, balance]

theorem balance_empty (token holder : Address) : (∅ : Ledger).balance token holder = 0 := by
  have hnone : (∅ : Std.ExtTreeMap Holding Amount)[(⟨token, holder⟩ : Holding)]? = none := Std.ExtTreeMap.getElem?_empty
  exact congrArg (Option.getD · 0) hnone

/-- A credit is refused exactly when the sum is no amount. -/
theorem exists_credit {l : Ledger} {token holder : Address} {amount : Amount} :
    (∃ l', l.credit token holder amount = .ok l') ↔ (l.balance token holder).toNat + amount.toNat < 1 <<< 256 := by
  unfold credit
  by_cases ha : amount = 0
  · rw [if_pos ha, ha, Amount.toNat_zero, Nat.add_zero]
    exact iff_of_true ⟨l, rfl⟩ (l.balance token holder).isLt
  · rw [if_neg ha]
    cases hs : (l.balance token holder).add? amount with
    | none => exact iff_of_false nofun (Nat.not_lt.2 (Amount.add?_eq_none.1 hs))
    | some sum => exact iff_of_true ⟨_, rfl⟩ (Amount.add?_eq_some.1 hs ▸ sum.isLt)

/-! ## Payments -/

/-- A balance as an integer. -/
def holds (l : Ledger) (token holder : Address) : Int :=
  (l.balance token holder).toNat

theorem balance_eq_of_holds {l l' : Ledger} {token holder : Address} (h : l'.holds token holder = l.holds token holder) :
    l'.balance token holder = l.balance token holder :=
  Amount.ext (Int.ofNat.inj h)

/-- One payment: this amount of this token to this holder, and nothing else. -/
def payment (token holder : Address) (amount : Int) (t k : Address) : Int :=
  if t = token ∧ k = holder then amount else 0

theorem payment_of_ne {holder k : Address} (h : k ≠ holder) (token : Address) (amount : Int) (t : Address) :
    payment token holder amount t k = 0 :=
  if_neg fun he => h he.2

/-- `l'` is `l` after each holder has been paid `paid token holder`, with the positions as they were. -/
structure Paid (l l' : Ledger) (paid : Address → Address → Int) : Prop where
  holds : ∀ t k, l'.holds t k = l.holds t k + paid t k
  positions : l'.positions = l.positions

namespace Paid

variable {l l' l'' : Ledger} {p q : Address → Address → Int}

theorem refl (l : Ledger) : Paid l l 0 :=
  ⟨fun _ _ => (Int.add_zero _).symm, rfl⟩

theorem trans (h : Paid l l' p) (h' : Paid l' l'' q) : Paid l l'' (p + q) := by
  refine ⟨fun t k => ?_, h'.positions.trans h.positions⟩
  rw [h'.holds, h.holds, Pi.add_apply, Pi.add_apply, Int.add_assoc]

theorem congr (h : Paid l l' p) (hpq : ∀ t k, p t k = q t k) : Paid l l' q :=
  ⟨fun t k => by rw [h.holds, hpq], h.positions⟩

theorem position (h : Paid l l' p) (m u a : Address) : l'.position m u a = l.position m u a := by
  rw [Ledger.position, h.positions, Ledger.position]

end Paid

theorem paid_credit {l l' : Ledger} {token holder : Address} {amount : Amount} (h : l.credit token holder amount = .ok l') :
    Paid l l' (payment token holder amount.toNat) := by
  unfold credit at h
  by_cases ha : amount = 0
  · rw [if_pos ha] at h
    cases h
    refine (Paid.refl l).congr fun t k => ?_
    simp [payment, ha]
  · rw [if_neg ha] at h
    cases hs : (l.balance token holder).add? amount with
    | none => simp [hs] at h
    | some sum =>
      simp only [hs, Except.ok.injEq] at h
      subst h
      refine ⟨fun t k => ?_, by simp⟩
      have hsum := Amount.add?_eq_some.1 hs
      by_cases hk : t = token ∧ k = holder
      · simp [holds, payment, hk, hsum]
      · simp [holds, payment, hk]

/-- A debit that succeeds finds the amount there. -/
theorem le_of_debit {l l' : Ledger} {token holder : Address} {amount : Amount} (h : l.debit token holder amount = .ok l') :
    amount ≤ l.balance token holder := by
  unfold debit at h
  simp only at h
  split at h
  · cases h
  · rename_i hlt
    exact Nat.le_of_not_lt hlt

theorem paid_debit {l l' : Ledger} {token holder : Address} {amount : Amount} (h : l.debit token holder amount = .ok l') :
    Paid l l' (payment token holder (-amount.toNat)) := by
  have hle := Amount.le_def.1 (le_of_debit h)
  unfold debit at h
  simp only at h
  split at h
  · cases h
  · cases h
    refine ⟨fun t k => ?_, by simp⟩
    by_cases hk : t = token ∧ k = holder
    · simp only [holds, payment, balance_setBalance, hk, and_self, if_true, Amount.toNat_sub]
      omega
    · simp [holds, payment, hk]

theorem paid_transfer {l l' : Ledger} {token source target : Address} {amount : Amount} {u : Unit}
    (h : transfer token source target amount l = .ok u l') :
    Paid l l' (payment token source (-amount.toNat) + payment token target amount.toNat) := by
  simp only [transfer, Step.bind_eq_ok, Step.write_eq_ok] at h
  obtain ⟨-, l₁, h₁, h₂⟩ := h
  exact (paid_debit h₁).trans (paid_credit h₂)

/-- A run of payments to one account pays it, token by token, what the list adds up to. -/
theorem paid_forM {f : Address × Amount → Step LedgerError Ledger PUnit} (account : Address) (sign : Int)
    (hf : ∀ e l u l', f e l = .ok u l' → Paid l l' (payment e.1 account (sign * e.2.toNat))) :
    ∀ (es : List (Address × Amount)) {l l' : Ledger} {u : PUnit}, es.forM f l = .ok u l' →
      Paid l l' fun t k => if k = account then (es.map fun e => if e.1 = t then sign * e.2.toNat else 0).sum else 0
  | [], l, l', u, h => by
    obtain ⟨-, rfl⟩ := Step.pure_eq_ok.1 h
    refine (Paid.refl l).congr fun t k => ?_
    simp
  | e :: es, l, l', u, h => by
    obtain ⟨v, l₁, h₁, h₂⟩ := Step.bind_eq_ok.1 h
    refine ((hf e l v l₁ h₁).trans (paid_forM account sign hf es h₂)).congr fun t k => ?_
    by_cases hk : k = account
    · by_cases ht : e.1 = t
      · simp [payment, hk, ht]
      · simp [payment, hk, ht, Ne.symm ht]
    · simp [payment, hk]

/-! ## The sum over all holders -/

/-- All there is of a token, as an integer. -/
def sum (l : Ledger) (token : Address) : Int :=
  ∑ k : Address, l.holds token k

@[simp] theorem sum_payment (token holder : Address) (amount : Int) (t : Address) :
    ∑ k : Address, payment token holder amount t k = if t = token then amount else 0 := by
  unfold payment
  by_cases ht : t = token
  · simp [ht]
  · simp [ht]

theorem Paid.sum {l l' : Ledger} {p : Address → Address → Int} (h : Paid l l' p) (t : Address) :
    l'.sum t = l.sum t + ∑ k : Address, p t k := by
  unfold Ledger.sum
  rw [← Finset.sum_add_distrib]
  exact Finset.sum_congr rfl fun k _ => h.holds t k

/-- The total the ledger counts from its entries is the sum over all holders. -/
theorem total_eq_sum (l : Ledger) (token : Address) : (l.total token : Int) = l.sum token := by
  have hp : ∀ k : Holding, decide (k.token = token) = true → (⟨token, k.holder⟩ : Holding) = k := by
    intro k hk
    rw [← of_decide_eq_true hk]
  have hn := Table.nodup_slice (m := l.balances) (π := Holding.holder) hp
  have hm := fun a v => Table.mem_slice (m := l.balances) (ι := fun a => ⟨token, a⟩) (a := a) (v := v)
    (fun a => ⟨decide_eq_true rfl, rfl⟩) hp
  have hs := Table.sum_entries hn hm fun _ v => v.toNat
  rw [List.map_map] at hs
  rw [total, Ledger.sum, ← List.sum_eq_foldr]
  refine (congrArg Nat.cast hs).trans ?_
  rw [Nat.cast_sum]
  refine Finset.sum_congr rfl fun k _ => ?_
  unfold holds balance
  cases l.balances[(⟨token, k⟩ : Holding)]? <;> rfl

/-! ## The positions of a user -/

section PositionsOf

variable {market user : Address}

theorem positionKey_of_decide (k : PositionKey) (hk : decide (k.market = market ∧ k.user = user) = true) :
    (⟨market, user, k.asset⟩ : PositionKey) = k := by
  obtain ⟨hm, hu⟩ := of_decide_eq_true hk
  rw [← hm, ← hu]

theorem mem_positionsOf_iff (l : Ledger) {asset : Address} {p : Position} :
    (asset, p) ∈ l.positionsOf market user ↔ l.positions[(⟨market, user, asset⟩ : PositionKey)]? = some p :=
  Table.mem_slice (ι := fun a => (⟨market, user, a⟩ : PositionKey)) (fun _ => ⟨decide_eq_true ⟨rfl, rfl⟩, rfl⟩)
    positionKey_of_decide

theorem nodup_positionsOf (l : Ledger) : ((l.positionsOf market user).map Prod.fst).Nodup :=
  Table.nodup_slice positionKey_of_decide

end PositionsOf

end Ledger

end MarginRouter
