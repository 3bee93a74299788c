import MarginRouter.Proofs.Clearing

/-!
# Net positions

The two sides of an exposure, what is held and what is owed, are the two signs of one integer, the net position. A clearing
account is canonical if no exposure has both sides and no exposure that is flat is stored. All clearing accounts that movements
lead to from a new one are canonical, with movements that fail among them, and the net position in each token is the sum of what
the movements that have succeeded have brought in. A movement clears one side before it is known whether the other side can take
what is left; when it cannot, there has been nothing to clear, and the account is as it was.
-/

namespace MarginRouter

/-! ## The two sides of an exposure -/

/-- One side of an exposure. -/
inductive Side where
  | held
  | owed

namespace Side

def other : Side → Side
  | held => owed
  | owed => held

/-- What is on this side. -/
def amount : Side → Exposure → Amount
  | held, e => e.held
  | owed, e => e.owed

/-- Writes what is on this side. -/
def put : Side → Amount → Exposure → Exposure
  | held, a, e => { e with held := a }
  | owed, a, e => { e with owed := a }

/-- Whether this side counts for or against the net position. -/
def sign : Side → Int
  | held => 1
  | owed => -1

theorem sign_mul_net (side : Side) (e : Exposure) :
    side.sign * e.net = (side.amount e).toNat - (side.other.amount e).toNat := by
  cases side with
  | held => exact one_mul _
  | owed => exact (neg_one_mul _).trans (neg_sub _ _)

@[simp] theorem put_amount (side : Side) (e : Exposure) : side.put (side.amount e) e = e := by
  cases side <;> rfl

end Side

namespace Exposure

variable {side : Side} {e e' : Exposure} {amount : Amount}

/-- Books an amount on one side: first against the other side, the rest on this one. -/
def book (side : Side) (e : Exposure) (amount : Amount) : Option Exposure :=
  if amount ≤ side.other.amount e then some (side.other.put (side.other.amount e - amount) e)
  else ((side.amount e).add? (amount - side.other.amount e)).map fun sum => side.put sum (side.other.put 0 e)

theorem receive_eq_book (e : Exposure) (amount : Amount) : e.receive amount = e.book .held amount := rfl

theorem pay_eq_book (e : Exposure) (amount : Amount) : e.pay amount = e.book .owed amount := rfl

/-- An amount can be booked exactly when the net position it makes is one that an exposure can show. -/
theorem exists_book_iff : (∃ e', e.book side amount = some e') ↔ side.sign * e.net + amount.toNat < 2 ^ 256 := by
  have hthis := (side.amount e).isLt
  rw [Side.sign_mul_net]
  unfold book
  by_cases h : amount ≤ side.other.amount e
  · have hle := Amount.le_def.1 h
    rw [if_pos h]
    refine iff_of_true ⟨_, rfl⟩ ?_
    omega
  · have hlt := mt Amount.le_def.2 h
    rw [if_neg h]
    cases hs : (side.amount e).add? (amount - side.other.amount e) with
    | none =>
      have hle := Amount.add?_eq_none.1 hs
      rw [Amount.toNat_sub] at hle
      refine iff_of_false ?_ ?_
      · rintro ⟨_, he⟩
        cases he
      · omega
    | some sum =>
      have hsum := Amount.add?_eq_some.1 hs
      have hfits := sum.isLt
      rw [Amount.toNat_sub] at hsum
      refine iff_of_true ⟨_, rfl⟩ ?_
      omega

theorem Proper.other_eq_zero (he : e.Proper) (h : side.amount e ≠ 0) : side.other.amount e = 0 := by
  cases side with
  | held => exact he.resolve_left h
  | owed => exact he.resolve_right h

/-- An amount that cannot be booked finds the other side at zero and this side above it. -/
theorem Proper.of_book_eq_none (he : e.Proper) (h : e.book side amount = none) : side.other.put 0 e = e ∧ e ≠ .flat := by
  have hne : side.amount e ≠ 0 := by
    intro h0
    unfold book at h
    split at h
    · cases h
    · have hle := Amount.add?_eq_none.1 (Option.map_eq_none_iff.1 h)
      have hlt := amount.isLt
      rw [h0, Amount.toNat_zero, Amount.toNat_sub] at hle
      omega
  refine ⟨?_, ?_⟩
  · rw [← he.other_eq_zero hne, Side.put_amount]
  · rintro rfl
    cases side with
    | held => exact hne rfl
    | owed => exact hne rfl

/-- In an exposure with one side at most, only flat is a net position of zero. -/
theorem Proper.eq_flat_iff (he : e.Proper) : e = .flat ↔ e.net = 0 := by
  rw [Exposure.eq_flat_iff, Amount.eq_zero_iff, Amount.eq_zero_iff]
  have hheld := he.held_eq
  have howed := he.owed_eq
  omega

end Exposure

namespace Clearing

variable {c c' : Clearing} {token : Address} {side : Side} {amount : Amount}

/-- Books an amount on one side of the exposure in a token. -/
def book (side : Side) (token : Address) (amount : Amount) (c : Clearing) : Except LedgerError Clearing :=
  match (c.exposure token).book side amount with
  | none => .error (.overflow token c.account)
  | some e => .ok (c.setExposure token e)

theorem credit_eq_book (c : Clearing) (token : Address) (amount : Amount) : c.credit token amount = c.book .held token amount :=
  rfl

theorem debit_eq_book (c : Clearing) (token : Address) (amount : Amount) : c.debit token amount = c.book .owed token amount :=
  rfl

theorem book_eq_ok : c.book side token amount = .ok c' ↔
    ∃ e, (c.exposure token).book side amount = some e ∧ c.setExposure token e = c' := by
  unfold book
  cases (c.exposure token).book side amount with
  | none => simp
  | some e => simp

theorem exists_book_iff (c : Clearing) (side : Side) (token : Address) (amount : Amount) :
    (∃ c', c.book side token amount = .ok c') ↔ side.sign * c.net token + amount.toNat < 2 ^ 256 := by
  rw [net, ← Exposure.exists_book_iff]
  constructor
  · rintro ⟨c', h⟩
    obtain ⟨e, he, -⟩ := book_eq_ok.1 h
    exact ⟨e, he⟩
  · rintro ⟨e, he⟩
    exact ⟨_, book_eq_ok.2 ⟨e, he, rfl⟩⟩

/-- Spending succeeds exactly when enough is held, and takes from what is held alone. -/
theorem spendHeld_iff : c.spendHeld token amount = .ok c' ↔
    amount ≤ c.held token ∧ c.setExposure token { c.exposure token with held := c.held token - amount } = c' := by
  rw [spendHeld_eq_ok]
  refine and_congr_right fun hle => ?_
  have hbook : (c.exposure token).book .owed amount = some { c.exposure token with held := c.held token - amount } :=
    if_pos hle
  rw [debit_eq_book, book_eq_ok, hbook]
  simp

theorem owed_of_spendHeld (h : c.spendHeld token amount = .ok c') (t : Address) : c'.owed t = c.owed t := by
  obtain ⟨-, rfl⟩ := spendHeld_iff.1 h
  unfold owed
  rw [exposure_setExposure]
  split
  · rename_i ht
    rw [ht]
  · rfl

/-! ## Booking in place -/

/-- Stores the exposure in a token if it is not stored. -/
def openExposure (c : Clearing) (token : Address) : Clearing :=
  { c with exposures := c.exposures.insertIfNew token .flat }

/-- Stores an exposure, flat or not. -/
def store (c : Clearing) (token : Address) (e : Exposure) : Clearing :=
  { c with exposures := c.exposures.insert token e }

/-- Takes out the exposure in a token if it is stored and flat. -/
def prune (c : Clearing) (token : Address) : Clearing :=
  if c.exposures[token]? = some .flat then { c with exposures := c.exposures.erase token } else c

/-- Books an amount on one side of the stored exposure in a token. What the amount exceeds the other side by is added to this side
after the other side has been cleared. -/
def bookStored (side : Side) (token : Address) (amount : Amount) : Step LedgerError Clearing Unit := do
  modify fun c => c.openExposure token
  let c ← get
  let e := c.exposure token
  if amount ≤ side.other.amount e then
    modify fun c => c.store token (side.other.put (side.other.amount e - amount) e)
  else do
    modify fun c => c.store token (side.other.put 0 e)
    match (side.amount e).add? (amount - side.other.amount e) with
    | none => throw (.overflow token c.account)
    | some sum => modify fun c => c.store token (side.put sum (side.other.put 0 e))

/-- Books an amount in place. -/
def bookInPlace (side : Side) (token : Address) (amount : Amount) : Step LedgerError Clearing Unit := do
  bookStored side token amount
  modify fun c => c.prune token

/-- Pays an amount out of what is held, in place. -/
def spendHeldInPlace (token : Address) (amount : Amount) : Step LedgerError Clearing Unit := do
  let c ← get
  if c.held token < amount then throw (.insufficientHeld token (c.held token) amount)
  bookInPlace .owed token amount

/-! ## Canonical clearing accounts -/

/-- No exposure has both sides, and no exposure that is flat is stored. -/
structure Canonical (c : Clearing) : Prop where
  proper : c.Proper
  sparse : Table.Sparse Exposure.flat c.exposures

theorem canonical_new (account : Address) : (new account).Canonical :=
  ⟨proper_new account, Table.sparse_empty Exposure.flat⟩

namespace Canonical

/-- A canonical account stores nothing exactly when it is at zero in every token. -/
theorem isFlat_iff (hc : c.Canonical) : c.isFlat = true ↔ ∀ t, c.net t = 0 := by
  rw [isFlat, Std.ExtTreeMap.isEmpty_iff, hc.sparse.eq_empty_iff]
  exact forall_congr' fun t => (hc.proper t).eq_flat_iff

theorem setExposure (hc : c.Canonical) {e : Exposure} (he : e.Proper) : (c.setExposure token e).Canonical := by
  refine ⟨fun t => ?_, ?_⟩
  · rw [exposure_setExposure]
    split
    · exact he
    · exact hc.proper t
  · rw [setExposure_eq]
    exact hc.sparse.write _ _

theorem book (hc : c.Canonical) (h : c.book side token amount = .ok c') : c'.Canonical := by
  obtain ⟨e, he, rfl⟩ := book_eq_ok.1 h
  refine hc.setExposure ?_
  cases side with
  | held =>
    rw [← Exposure.receive_eq_book] at he
    exact (Exposure.receive_eq_some he).2 (hc.proper token)
  | owed =>
    rw [← Exposure.pay_eq_book] at he
    exact (Exposure.pay_eq_some he).2 (hc.proper token)

end Canonical

/-! ## Booking in place makes no difference -/

/-- The two accounts differ in what they store for one token at most. -/
structure SameBut (token : Address) (c c' : Clearing) : Prop where
  account : c'.account = c.account
  exposures : ∀ t, t ≠ token → c'.exposures[t]? = c.exposures[t]?

theorem sameBut_openExposure (c : Clearing) (token : Address) : SameBut token c (c.openExposure token) :=
  ⟨rfl, fun _ ht => Table.getElem?_insertIfNew_of_ne ht _ _⟩

theorem SameBut.store (h : SameBut token c c') (e : Exposure) : SameBut token c (c'.store token e) :=
  ⟨h.account, fun t ht => (Table.getElem?_insert_of_ne ht _ _).trans (h.exposures t ht)⟩

/-- Storing an exposure, and taking it out if it is flat, writes it. -/
theorem SameBut.prune_store (h : SameBut token c c') (e : Exposure) : (c'.store token e).prune token = c.setExposure token e := by
  have hstored : (c'.store token e).exposures[token]? = some e := Std.ExtTreeMap.getElem?_insert_self
  have hwrite : ∀ c₁ : Clearing, SameBut token c c₁ →
      (⟨c₁.account, Table.write .flat c₁.exposures token e⟩ : Clearing) = c.setExposure token e := by
    intro c₁ h₁
    rw [setExposure_eq, h₁.account, Table.write_congr h₁.exposures]
  unfold prune
  rw [hstored]
  by_cases he : e = .flat
  · rw [if_pos (congrArg some he), ← hwrite _ (h.store e), Table.write, if_pos he]
  · rw [if_neg fun hs => he (Option.some.inj hs), ← hwrite c' h, Table.write, if_neg he]
    rfl

theorem exposure_openExposure (c : Clearing) (token t : Address) : (c.openExposure token).exposure t = c.exposure t :=
  Table.getD_insertIfNew _ _ _

/-- Where there is something, the exposure is stored already, and to store it once more changes nothing. -/
theorem store_openExposure_self (h : c.exposure token ≠ .flat) :
    (c.openExposure token).store token (c.exposure token) = c := by
  unfold openExposure store
  rw [Table.insertIfNew_eq h]
  exact congrArg (Clearing.mk c.account) (Table.insert_getD_eq h)

theorem bookStored_of_some {e : Exposure} (h : (c.exposure token).book side amount = some e) :
    ∃ c', SameBut token c c' ∧ bookStored side token amount c = .ok () (c'.store token e) := by
  have hopen := sameBut_openExposure c token
  unfold bookStored
  rw [Step.modify_bind, Step.get_bind, exposure_openExposure]
  unfold Exposure.book at h
  by_cases ha : amount ≤ side.other.amount (c.exposure token)
  · rw [if_pos ha] at h
    cases h
    refine ⟨_, hopen, ?_⟩
    rw [if_pos ha]
    rfl
  · rw [if_neg ha] at h
    obtain ⟨sum, hs, rfl⟩ := Option.map_eq_some_iff.1 h
    refine ⟨_, hopen.store (side.other.put 0 (c.exposure token)), ?_⟩
    rw [if_neg ha, Step.modify_bind, hs]
    rfl

theorem bookStored_of_none (h : (c.exposure token).book side amount = none) :
    bookStored side token amount c =
      .error (.overflow token c.account) ((c.openExposure token).store token (side.other.put 0 (c.exposure token))) := by
  unfold bookStored
  rw [Step.modify_bind, Step.get_bind, exposure_openExposure]
  unfold Exposure.book at h
  by_cases ha : amount ≤ side.other.amount (c.exposure token)
  · rw [if_pos ha] at h
    cases h
  · rw [if_neg ha] at h
    rw [if_neg ha, Step.modify_bind, Option.map_eq_none_iff.1 h]
    rfl

/-- The other side is cleared before the amount is known to fit; when it does not fit, there has been nothing to clear. -/
theorem Canonical.bookInPlace_eq (hc : c.Canonical) (side : Side) (token : Address) (amount : Amount) :
    bookInPlace side token amount c = Step.write (Clearing.book side token amount) c := by
  unfold bookInPlace
  cases h : (c.exposure token).book side amount with
  | none =>
    obtain ⟨hput, hne⟩ := (hc.proper token).of_book_eq_none h
    have hbook : c.book side token amount = .error (.overflow token c.account) := by rw [Clearing.book, h]
    have hstored := bookStored_of_none h
    rw [hput, store_openExposure_self hne] at hstored
    rw [Step.write_eq_error.2 ⟨hbook, rfl⟩]
    exact Step.bind_eq_error.2 (.inl hstored)
  | some e =>
    obtain ⟨c', hc', hstored⟩ := bookStored_of_some h
    rw [Step.write_eq_ok.2 (book_eq_ok.2 ⟨e, h, rfl⟩), ← hc'.prune_store]
    exact Step.bind_eq_ok.2 ⟨_, _, hstored, rfl⟩

theorem Canonical.spendHeldInPlace_eq (hc : c.Canonical) (token : Address) (amount : Amount) :
    spendHeldInPlace token amount c = Step.write (fun c => c.spendHeld token amount) c := by
  unfold spendHeldInPlace
  rw [Step.get_bind]
  by_cases hlt : c.held token < amount
  · have hspend : c.spendHeld token amount = .error (.insufficientHeld token (c.held token) amount) := if_pos hlt
    rw [if_pos hlt]
    exact (Step.write_eq_error.2 ⟨hspend, rfl⟩).symm
  · have hspend : c.spendHeld token amount = c.debit token amount := if_neg hlt
    rw [if_neg hlt]
    exact (hc.bookInPlace_eq .owed token amount).trans (Step.write_congr hspend.symm)

end Clearing

namespace Books

open Clearing

/-! ## Movements -/

/-- A step on the clearing account. -/
def onClearing {ε α : Type} (step : Step ε Clearing α) : Step ε Books α :=
  Step.on Books.clearing (fun c b => { b with clearing := c }) step

/-- Makes one movement, in place on the clearing account. -/
def moveInPlace : Movement → Step LedgerError Books Unit
  | .entry e => onLedger (Ledger.post e)
  | .credit token amount => onClearing (bookInPlace .held token amount)
  | .debit token amount => onClearing (bookInPlace .owed token amount)
  | .spendHeld token amount => onClearing (spendHeldInPlace token amount)

variable {b b' : Books} {m : Movement}

theorem onClearing_congr {step step' : Step LedgerError Clearing Unit} (h : step b.clearing = step' b.clearing) :
    onClearing step b = onClearing step' b := by
  unfold onClearing Step.on
  rw [h]

theorem moveInPlace_eq (hb : b.clearing.Canonical) (m : Movement) : moveInPlace m b = move m b := by
  cases m with
  | entry e => rfl
  | credit token amount =>
    have hcredit := credit_eq_book b.clearing token amount
    exact onClearing_congr ((hb.bookInPlace_eq .held token amount).trans (Step.write_congr hcredit.symm))
  | debit token amount =>
    have hdebit := debit_eq_book b.clearing token amount
    exact onClearing_congr ((hb.bookInPlace_eq .owed token amount).trans (Step.write_congr hdebit.symm))
  | spendHeld token amount => exact onClearing_congr (hb.spendHeldInPlace_eq token amount)

/-- A movement that fails leaves the clearing account exactly as it was. -/
theorem clearing_eq_of_error {e : LedgerError} (h : move m b = .error e b') : b'.clearing = b.clearing := by
  have hclear : ∀ f, clear f b = .error e b' → b'.clearing = b.clearing := by
    intro f hf
    obtain ⟨c, hc, rfl⟩ := Step.on_eq_error.1 hf
    exact (Step.write_eq_error.1 hc).2.symm
  cases m with
  | entry en =>
    rw [move, onLedger, Step.on_eq_error] at h
    obtain ⟨l, -, rfl⟩ := h
    rfl
  | credit token amount => exact hclear _ h
  | debit token amount => exact hclear _ h
  | spendHeld token amount => exact hclear _ h

theorem maintains_clear {f : Clearing → Except LedgerError Clearing}
    (hf : ∀ c c', c.Canonical → f c = .ok c' → c'.Canonical) : Step.Maintains (fun b => b.clearing.Canonical) (clear f) :=
  Step.Maintains.on (fun _ _ => rfl) (Step.Maintains.write hf)

theorem maintains_move (m : Movement) : Step.Maintains (fun b => b.clearing.Canonical) (move m) := by
  cases m with
  | entry e =>
    intro b hb
    show ((onLedger (Ledger.post e)).outcome b).2.clearing.Canonical
    rw [onLedger, Step.outcome_on]
    exact hb
  | credit token amount =>
    exact maintains_clear fun c _ hc h => hc.book ((credit_eq_book c token amount).symm.trans h)
  | debit token amount =>
    exact maintains_clear fun c _ hc h => hc.book ((debit_eq_book c token amount).symm.trans h)
  | spendHeld token amount =>
    exact maintains_clear fun c _ hc h => hc.book ((debit_eq_book c token amount).symm.trans (spendHeld_eq_ok.1 h).2)

/-- What a movement adds to the net positions of the clearing account if it succeeds. -/
def Movement.gain : Movement → Address → Int
  | .entry _ => 0
  | .credit token amount => receipt token amount.toNat
  | .debit token amount => receipt token (-amount.toNat)
  | .spendHeld token amount => receipt token (-amount.toNat)

theorem gained_move {u : Unit} (h : move m b = .ok u b') : Gained b.clearing b'.clearing m.gain := by
  cases m with
  | entry e =>
    rw [move, onLedger, Step.on_eq_ok] at h
    obtain ⟨l, -, rfl⟩ := h
    exact Gained.refl _
  | credit token amount => exact (moved_clear_credit h).clearing
  | debit token amount => exact (moved_clear_debit h).clearing
  | spendHeld token amount => exact (moved_clear_spendHeld h).clearing

/-- What the movements of a run that succeed add to the net positions. -/
def gains (b : Books) : List Movement → Address → Int
  | [] => 0
  | m :: ms =>
    match moveInPlace m b with
    | .ok _ b' => m.gain + gains b' ms
    | .error _ b' => gains b' ms

theorem gained_after : ∀ (ms : List Movement) {b : Books}, b.clearing.Canonical →
    Gained b.clearing (Step.after moveInPlace b ms).clearing (gains b ms)
  | [], b, _ => Gained.refl b.clearing
  | m :: ms, b, hb => by
    have heq := moveInPlace_eq hb m
    have hnext := maintains_move m hb
    show Gained b.clearing (Step.after moveInPlace ((moveInPlace m).outcome b).2 ms).clearing _
    rw [Step.outcome, ← heq, ← Step.outcome] at hnext
    unfold gains
    cases h : moveInPlace m b with
    | ok u b' =>
      rw [Step.outcome_of_ok h] at hnext ⊢
      exact (gained_move (heq.symm.trans h)).trans (gained_after ms hnext)
    | error e b' =>
      rw [Step.outcome_eq_error.2 h] at hnext ⊢
      rw [← clearing_eq_of_error (heq.symm.trans h)]
      exact gained_after ms hnext

/-- A movement of the clearing account succeeds exactly when the account can make it. -/
theorem exists_clear_iff {f : Clearing → Except LedgerError Clearing} :
    (∃ b', clear f b = .ok () b') ↔ ∃ c, f b.clearing = .ok c := by
  constructor
  · rintro ⟨b', h⟩
    obtain ⟨c, hc, -⟩ := Step.on_eq_ok.1 h
    exact ⟨c, Step.write_eq_ok.1 hc⟩
  · rintro ⟨c, hc⟩
    exact ⟨_, Step.on_eq_ok.2 ⟨c, Step.write_eq_ok.2 hc, rfl⟩⟩

theorem exists_credit_iff (b : Books) (token : Address) (amount : Amount) :
    (∃ b', move (.credit token amount) b = .ok () b') ↔ b.clearing.net token + amount.toNat < 2 ^ 256 := by
  have hbook := b.clearing.exists_book_iff .held token amount
  rw [Side.sign, one_mul] at hbook
  exact exists_clear_iff.trans hbook

theorem exists_debit_iff (b : Books) (token : Address) (amount : Amount) :
    (∃ b', move (.debit token amount) b = .ok () b') ↔ -2 ^ 256 < b.clearing.net token - amount.toNat := by
  have hbook := b.clearing.exists_book_iff .owed token amount
  rw [Side.sign, neg_one_mul] at hbook
  refine (exists_clear_iff.trans hbook).trans ?_
  omega

theorem exists_spendHeld_iff (b : Books) (token : Address) (amount : Amount) :
    (∃ b', move (.spendHeld token amount) b = .ok () b') ↔ amount ≤ b.clearing.held token := by
  refine exists_clear_iff.trans ⟨?_, fun hle => ⟨_, spendHeld_iff.2 ⟨hle, rfl⟩⟩⟩
  rintro ⟨c, hc⟩
  exact (spendHeld_iff.1 hc).1

/-- The clearing account of an execution is one integer for each token. From a new account on, whatever the movements and whether
they fail or not: in no token does it both hold and owe, no flat exposure is stored, so that it counts as flat exactly when it is at
zero in every token, and what it holds less what it owes is the sum of what the movements that have succeeded have brought in. A
credit or a debit succeeds exactly when the integer stays within the amounts, a payment out of what is held exactly when that is
enough, and it leaves what is owed; and a movement that fails leaves the account exactly as it was. -/
theorem clearing_after (l : Ledger) (account : Address) (ms : List Movement) :
    let b := Step.after moveInPlace ⟨l, .new account⟩ ms
    b = Step.after move ⟨l, .new account⟩ ms ∧ (∀ m, moveInPlace m b = move m b) ∧
    (∀ t, b.clearing.held t = 0 ∨ b.clearing.owed t = 0) ∧
    (∀ t : Address, b.clearing.exposures[t]? ≠ some .flat) ∧
    (b.clearing.isFlat = true ↔ ∀ t, b.clearing.net t = 0) ∧
    (∀ t, ((b.clearing.held t).toNat : Int) - (b.clearing.owed t).toNat = gains ⟨l, .new account⟩ ms t) ∧
    (∀ t x, (∃ b', moveInPlace (.credit t x) b = .ok () b') ↔ b.clearing.net t + x.toNat < 2 ^ 256) ∧
    (∀ t x, (∃ b', moveInPlace (.debit t x) b = .ok () b') ↔ -2 ^ 256 < b.clearing.net t - x.toNat) ∧
    (∀ t x, (∃ b', moveInPlace (.spendHeld t x) b = .ok () b') ↔ x ≤ b.clearing.held t) ∧
    (∀ t x b', moveInPlace (.spendHeld t x) b = .ok () b' → ∀ s, b'.clearing.owed s = b.clearing.owed s) ∧
    ∀ m e b', moveInPlace m b = .error e b' → b'.clearing = b.clearing := by
  intro b
  have hnew : (new account).Canonical := canonical_new account
  have hrun : b = Step.after move ⟨l, .new account⟩ ms :=
    Step.after_congr maintains_move (fun m _ hb => moveInPlace_eq hb m) ms hnew
  have hb : b.clearing.Canonical := by
    rw [hrun]
    exact Step.Maintains.after (P := fun b : Books => b.clearing.Canonical) maintains_move ms hnew
  have hgained := gained_after ms (b := ⟨l, .new account⟩) hnew
  refine ⟨hrun, moveInPlace_eq hb, hb.proper, hb.sparse, hb.isFlat_iff, fun t => ?_, fun t x => ?_, fun t x => ?_, fun t x => ?_,
    fun t x b' h => ?_, fun m e b' h => ?_⟩
  · show b.clearing.net t = _
    rw [hgained.net t, net_new, Int.zero_add]
  · rw [moveInPlace_eq hb]
    exact b.exists_credit_iff t x
  · rw [moveInPlace_eq hb]
    exact b.exists_debit_iff t x
  · rw [moveInPlace_eq hb]
    exact b.exists_spendHeld_iff t x
  · rw [moveInPlace_eq hb, move, clear, Step.on_eq_ok] at h
    obtain ⟨c, hc, rfl⟩ := h
    exact owed_of_spendHeld (Step.write_eq_ok.1 hc)
  · rw [moveInPlace_eq hb] at h
    exact clearing_eq_of_error h

end Books

end MarginRouter
