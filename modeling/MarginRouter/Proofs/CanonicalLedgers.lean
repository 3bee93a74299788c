import MarginRouter.Proofs.Ledger

/-!
# Canonical ledgers

A ledger is canonical if it stores no balance of zero and no empty position. Such a ledger is known by what is looked up in it,
and its lists of entries are exactly what is not zero. All ledgers that entries lead to from the empty one are canonical, with
entries that fail among them, and it does not matter that a credit makes room for a balance before it is known whether the sum
fits: written so, in place, the entries lead to the same ledgers.
-/

namespace MarginRouter.Ledger

/-! ## Writing in place -/

/-- Stores a balance that is not stored as zero. -/
def openBalance (l : Ledger) (token holder : Address) : Ledger :=
  { l with balances := l.balances.insertIfNew ⟨token, holder⟩ 0 }

/-- Adds to a balance in place. The balance is stored, if only as zero, before it is known whether the sum fits. -/
def creditInPlace (token holder : Address) (amount : Amount) : Step LedgerError Ledger Unit :=
  if amount = 0 then pure ()
  else do
    modify fun l => l.openBalance token holder
    let l ← get
    match (l.balance token holder).add? amount with
    | none => throw (.overflow token holder)
    | some sum => modify fun l => { l with balances := l.balances.insert ⟨token, holder⟩ sum }

/-- Takes from a balance in place. Of a balance of which nothing remains no entry is left. -/
def debitInPlace (token holder : Address) (amount : Amount) : Step LedgerError Ledger Unit :=
  if amount = 0 then pure ()
  else do
    let l ← get
    let available := l.balance token holder
    if available < amount then throw (.insufficientBalance token holder available amount)
    modify fun l => l.setBalance token holder (available - amount)

def transferInPlace (token source target : Address) (amount : Amount) : Step LedgerError Ledger Unit := do
  debitInPlace token source amount
  creditInPlace token target amount

/-- Makes one entry in place. -/
def postInPlace : Entry → Step LedgerError Ledger Unit
  | .credit token holder amount => creditInPlace token holder amount
  | .debit token holder amount => debitInPlace token holder amount
  | .transfer token source target amount => transferInPlace token source target amount
  | .setPosition market user asset p => modify fun l => l.setPosition market user asset p

/-! ## Canonical ledgers -/

/-- No stored balance is zero and no stored position is empty. -/
structure Canonical (l : Ledger) : Prop where
  balances : Table.Sparse 0 l.balances
  positions : Table.Sparse Position.empty l.positions

theorem canonical_empty : Canonical ∅ :=
  ⟨Table.sparse_empty 0, Table.sparse_empty Position.empty⟩

namespace Canonical

variable {l l' : Ledger}

theorem setBalance (hl : l.Canonical) (token holder : Address) (amount : Amount) : (l.setBalance token holder amount).Canonical := by
  rw [setBalance_eq]
  exact ⟨hl.balances.write _ _, hl.positions⟩

theorem setPosition (hl : l.Canonical) (market user asset : Address) (p : Position) :
    (l.setPosition market user asset p).Canonical := by
  rw [setPosition_eq]
  exact ⟨hl.balances, hl.positions.write _ _⟩

theorem of_credit (hl : l.Canonical) {token holder : Address} {amount : Amount} (h : l.credit token holder amount = .ok l') :
    l'.Canonical := by
  unfold credit at h
  split at h
  · cases h
    exact hl
  · split at h
    · cases h
    · cases h
      exact hl.setBalance _ _ _

theorem of_debit (hl : l.Canonical) {token holder : Address} {amount : Amount} (h : l.debit token holder amount = .ok l') :
    l'.Canonical := by
  unfold debit at h
  simp only at h
  split at h
  · cases h
  · cases h
    exact hl.setBalance _ _ _

/-- A canonical ledger is known by its balances and positions. -/
theorem eq_iff (hl : l.Canonical) (hl' : l'.Canonical) :
    l = l' ↔ (∀ t k, l.balance t k = l'.balance t k) ∧ ∀ m u a, l.position m u a = l'.position m u a := by
  constructor
  · rintro rfl
    exact ⟨fun _ _ => rfl, fun _ _ _ => rfl⟩
  · rintro ⟨hb, hp⟩
    refine eq_of_parts (hl.balances.ext hl'.balances ?_) (hl.positions.ext hl'.positions ?_)
    · exact fun k => hb k.token k.holder
    · exact fun k => hp k.market k.user k.asset

theorem mem_balances_iff (hl : l.Canonical) {token holder : Address} {amount : Amount} :
    (⟨token, holder⟩, amount) ∈ l.balances.toList ↔ l.balance token holder = amount ∧ amount ≠ 0 := by
  rw [Std.ExtTreeMap.mem_toList_iff_getElem?_eq_some]
  exact hl.balances.getElem?_eq_some

theorem mem_positionsOf_iff (hl : l.Canonical) {market user asset : Address} {p : Position} :
    (asset, p) ∈ l.positionsOf market user ↔ l.position market user asset = p ∧ p ≠ .empty := by
  rw [Ledger.mem_positionsOf_iff]
  exact hl.positions.getElem?_eq_some

end Canonical

/-! ## Entries keep ledgers canonical -/

theorem maintains_credit (token holder : Address) (amount : Amount) :
    Step.Maintains Canonical (Step.write fun l => l.credit token holder amount) :=
  Step.Maintains.write fun _ _ hl h => hl.of_credit h

theorem maintains_debit (token holder : Address) (amount : Amount) :
    Step.Maintains Canonical (Step.write fun l => l.debit token holder amount) :=
  Step.Maintains.write fun _ _ hl h => hl.of_debit h

theorem maintains_post (e : Entry) : Step.Maintains Canonical (post e) := by
  cases e with
  | credit token holder amount => exact maintains_credit token holder amount
  | debit token holder amount => exact maintains_debit token holder amount
  | transfer token source target amount =>
    exact (maintains_debit token source amount).bind fun _ => maintains_credit token target amount
  | setPosition market user asset p => exact Step.Maintains.modify fun _ hl => hl.setPosition market user asset p

/-! ## Writing in place makes no difference -/

theorem balance_openBalance (l : Ledger) (token holder t k : Address) :
    (l.openBalance token holder).balance t k = l.balance t k :=
  Table.getD_insertIfNew _ _ _

theorem openBalance_eq_self {l : Ledger} {token holder : Address} (h : l.balance token holder ≠ 0) :
    l.openBalance token holder = l := by
  unfold openBalance
  rw [Table.insertIfNew_eq h]

/-- Room is made for a balance of zero only. Where the sum does not fit there has been a balance before. -/
theorem creditInPlace_eq (token holder : Address) (amount : Amount) (l : Ledger) :
    creditInPlace token holder amount l = Step.write (fun l => l.credit token holder amount) l := by
  unfold creditInPlace
  by_cases ha : amount = 0
  · have hcredit : l.credit token holder amount = .ok l := if_pos ha
    rw [if_pos ha]
    exact (Step.write_eq_ok.2 hcredit).symm
  · rw [if_neg ha, Step.modify_bind, Step.get_bind, balance_openBalance]
    cases hs : (l.balance token holder).add? amount with
    | none =>
      have hcredit : l.credit token holder amount = .error (.overflow token holder) := by rw [credit, if_neg ha, hs]
      have hne : l.balance token holder ≠ 0 := by
        intro h0
        have hle := Amount.add?_eq_none.1 hs
        rw [h0, Amount.toNat_zero, Nat.zero_add] at hle
        exact absurd amount.isLt (Nat.not_lt.2 hle)
      rw [openBalance_eq_self hne]
      exact (Step.write_eq_error.2 ⟨hcredit, rfl⟩).symm
    | some sum =>
      have hcredit : l.credit token holder amount = .ok (l.setBalance token holder sum) := by rw [credit, if_neg ha, hs]
      have hne : sum ≠ 0 := by
        rw [← Amount.toNat_pos, Amount.add?_eq_some.1 hs]
        exact Nat.add_pos_right _ (Amount.toNat_pos.2 ha)
      have hopen : l.setBalance token holder sum = (l.openBalance token holder).setBalance token holder sum := by
        rw [setBalance_eq, setBalance_eq]
        exact congrArg (Ledger.mk · l.positions)
          (Table.write_congr (fun k hk => (Table.getElem?_insertIfNew_of_ne hk _ _).symm) sum)
      rw [Step.write_eq_ok.2 hcredit, hopen, setBalance, if_neg hne]
      rfl

/-- To take out nothing is to write the balance that is there. -/
theorem Canonical.setBalance_self {l : Ledger} (hl : l.Canonical) (token holder : Address) :
    l.setBalance token holder (l.balance token holder) = l := by
  refine ((hl.setBalance token holder _).eq_iff hl).2 ⟨fun t k => ?_, fun m u a => ?_⟩
  · rw [balance_setBalance]
    split
    · rename_i hk
      rw [hk.1, hk.2]
    · rfl
  · rw [position, positions_setBalance, position]

theorem Canonical.debitInPlace_eq {l : Ledger} (hl : l.Canonical) (token holder : Address) (amount : Amount) :
    debitInPlace token holder amount l = Step.write (fun l => l.debit token holder amount) l := by
  unfold debitInPlace
  by_cases ha : amount = 0
  · have hdebit : l.debit token holder amount = .ok l := by
      have hle : ¬l.balance token holder < amount := by
        rw [ha]
        exact Nat.not_lt_zero _
      have hsub : l.balance token holder - amount = l.balance token holder := by rw [ha]; rfl
      unfold debit
      simp only
      rw [if_neg hle, hsub, hl.setBalance_self]
    rw [if_pos ha]
    exact (Step.write_eq_ok.2 hdebit).symm
  · rw [if_neg ha, Step.get_bind]
    by_cases hlt : l.balance token holder < amount
    · have hdebit : l.debit token holder amount =
          .error (.insufficientBalance token holder (l.balance token holder) amount) := if_pos hlt
      rw [if_pos hlt]
      exact (Step.write_eq_error.2 ⟨hdebit, rfl⟩).symm
    · have hdebit : l.debit token holder amount =
          .ok (l.setBalance token holder (l.balance token holder - amount)) := if_neg hlt
      rw [if_neg hlt]
      exact (Step.write_eq_ok.2 hdebit).symm

/-- Entries made in place do what they do as whole writes. -/
theorem Canonical.postInPlace_eq {l : Ledger} (hl : l.Canonical) (e : Entry) : postInPlace e l = post e l := by
  cases e with
  | credit token holder amount => exact creditInPlace_eq token holder amount l
  | debit token holder amount => exact hl.debitInPlace_eq token holder amount
  | transfer token source target amount =>
    exact Step.bind_congr (hl.debitInPlace_eq token source amount) fun _ l' _ => creditInPlace_eq token target amount l'
  | setPosition market user asset p => rfl

/-- From the empty ledger on, whatever the entries and whether they fail or not: made in place they leave what they leave as whole
writes, and no balance of zero and no empty position is stored. So two such ledgers are the same if the same balances and positions
are looked up in them, and the balances, and the positions of a user, are listed exactly where they are not zero, once each. -/
theorem canonical_after (entries : List Entry) :
    let l := Step.after postInPlace ∅ entries
    l = Step.after post ∅ entries ∧
    (∀ t k, l.balances[(⟨t, k⟩ : Holding)]? ≠ some 0) ∧
    (∀ m u a, l.positions[(⟨m, u, a⟩ : PositionKey)]? ≠ some .empty) ∧
    (∀ entries' : List Entry,
      let l' := Step.after postInPlace ∅ entries'
      l = l' ↔ (∀ t k, l.balance t k = l'.balance t k) ∧ ∀ m u a, l.position m u a = l'.position m u a) ∧
    (∀ t k amount, (⟨t, k⟩, amount) ∈ l.balances.toList ↔ l.balance t k = amount ∧ amount ≠ 0) ∧
    (l.balances.toList.map Prod.fst).Nodup ∧
    (∀ m u a p, (a, p) ∈ l.positionsOf m u ↔ l.position m u a = p ∧ p ≠ .empty) ∧
    ∀ m u, ((l.positionsOf m u).map Prod.fst).Nodup := by
  intro l
  have hrun : ∀ entries : List Entry, Step.after postInPlace ∅ entries = Step.after post ∅ entries := fun entries =>
    Step.after_congr maintains_post (fun e _ hl => hl.postInPlace_eq e) entries canonical_empty
  have hcanonical : ∀ entries : List Entry, Canonical (Step.after postInPlace ∅ entries) := by
    intro entries
    rw [hrun]
    exact Step.Maintains.after maintains_post entries canonical_empty
  have hl : l.Canonical := hcanonical entries
  refine ⟨hrun entries, fun t k => hl.balances _, fun m u a => hl.positions _, ?_, fun _ _ _ => hl.mem_balances_iff,
    Table.nodup_keys l.balances, fun _ _ _ _ => hl.mem_positionsOf_iff, fun _ _ => l.nodup_positionsOf⟩
  exact fun entries' => hl.eq_iff (hcanonical entries')

end MarginRouter.Ledger
