import MarginRouter.Proofs.Nonce
import MarginRouter.Proofs.Parties
import MarginRouter.Proofs.Quote

/-!
# What a spot execution reads and writes

A spot execution reads and writes the balances of its parties, the caller and the pools on its path, entry by entry, and nothing
else. So it goes alike from two ledgers with the same entries for its parties, writes the same to both, and leaves all other
entries of each as they are; whether it succeeds or fails.
-/

namespace MarginRouter

open Step (Twin)

/-- The two ledgers have the same entries for these accounts. -/
def Ledger.SameFor (accounts : Address → Prop) (l l' : Ledger) : Prop :=
  ∀ t k, accounts k → l'.balances[(⟨t, k⟩ : Holding)]? = l.balances[(⟨t, k⟩ : Holding)]?

/-- What becomes of two ledgers `m` and `m'` when the same is written to both, for these accounts alone. -/
structure Ledger.Alongside (accounts : Address → Prop) (m m' l l' : Ledger) : Prop where
  same : SameFor accounts l l'
  others : SameFor (fun k => ¬accounts k) m l
  others' : SameFor (fun k => ¬accounts k) m' l'
  positions : l.positions = m.positions
  positions' : l'.positions = m'.positions

namespace Ledger

variable {accounts : Address → Prop} {m m' l l' : Ledger} {token holder : Address}

theorem SameFor.balance (h : SameFor accounts l l') (hk : accounts holder) (t : Address) :
    l'.balance t holder = l.balance t holder := by
  unfold Ledger.balance
  rw [h t holder hk]

theorem SameFor.alongside (h : SameFor accounts m m') : Alongside accounts m m' m m' :=
  ⟨h, fun _ _ _ => rfl, fun _ _ _ => rfl, rfl, rfl⟩

namespace Alongside

/-- The same balance is written to both. -/
theorem setBalance (h : Alongside accounts m m' l l') (hk : accounts holder) (amount : Amount) :
    Alongside accounts m m' (l.setBalance token holder amount) (l'.setBalance token holder amount) := by
  have hother : ∀ {n n' : Ledger}, SameFor (fun k => ¬accounts k) n n' →
      SameFor (fun k => ¬accounts k) n (n'.setBalance token holder amount) := by
    intro n n' hn t k hnot
    rw [balances_setBalance, if_neg, hn t k hnot]
    rintro ⟨-, rfl⟩
    exact hnot hk
  refine ⟨?_, hother h.others, hother h.others', ?_, ?_⟩
  · intro t k ha
    rw [balances_setBalance, balances_setBalance, h.same t k ha]
  · rw [positions_setBalance, h.positions]
  · rw [positions_setBalance, h.positions']

theorem twin_debit (hk : accounts holder) (amount : Amount) : Twin (Alongside accounts m m') Eq
    (Step.write fun l => l.debit token holder amount) (Step.write fun l => l.debit token holder amount) := by
  refine .write fun l l' h => ?_
  unfold debit
  rw [h.same.balance hk token]
  by_cases hlt : l.balance token holder < amount
  · exact .inl ⟨_, if_pos hlt, if_pos hlt⟩
  · exact .inr ⟨_, _, if_neg hlt, if_neg hlt, h.setBalance hk _⟩

theorem twin_credit (hk : accounts holder) (amount : Amount) : Twin (Alongside accounts m m') Eq
    (Step.write fun l => l.credit token holder amount) (Step.write fun l => l.credit token holder amount) := by
  refine .write fun l l' h => ?_
  unfold credit
  rw [h.same.balance hk token]
  by_cases hzero : amount = 0
  · exact .inr ⟨l, l', if_pos hzero, if_pos hzero, h⟩
  · rw [if_neg hzero, if_neg hzero]
    cases (l.balance token holder).add? amount with
    | none => exact .inl ⟨_, rfl, rfl⟩
    | some sum => exact .inr ⟨_, _, rfl, rfl, h.setBalance hk sum⟩

/-- A settlement with one of the accounts. -/
theorem twin_settle (c : Clearing) (hk : accounts holder) :
    Twin (Alongside accounts m m') Eq (c.settle holder) (c.settle holder) := by
  unfold Clearing.settle
  refine (Twin.forM ?_ c.debts).bind_eq fun _ => (Twin.forM ?_ c.holdings).bind_eq fun _ => .pure rfl
  · rintro ⟨token, amount⟩
    exact twin_debit hk amount
  · rintro ⟨token, amount⟩
    exact twin_credit hk amount

end Alongside

end Ledger

/-- The same is written to both ledgers, and the clearing accounts are the same. -/
structure Books.Alongside (accounts : Address → Prop) (m m' : Ledger) (b b' : Books) : Prop where
  ledger : Ledger.Alongside accounts m m' b.ledger b'.ledger
  clearing : b'.clearing = b.clearing

namespace Books.Alongside

variable {accounts : Address → Prop} {m m' : Ledger} {ε α : Type}

theorem twin_onLedger {x : Step ε Ledger α} (h : Twin (Ledger.Alongside accounts m m') Eq x x) :
    Twin (Books.Alongside accounts m m') Eq (onLedger x) (onLedger x) :=
  h.on (fun _ _ hb => hb.ledger) fun _ _ _ _ hb hl => ⟨hl, hb.clearing⟩

theorem twin_clear (f : Clearing → Except LedgerError Clearing) :
    Twin (Books.Alongside accounts m m') Eq (clear f) (clear f) := by
  have hf : Twin (fun c c' => c' = c) Eq (Step.write f) (Step.write f) := by
    refine .write fun c c' hc => ?_
    rw [hc]
    cases f c with
    | error e => exact .inl ⟨e, rfl, rfl⟩
    | ok c' => exact .inr ⟨c', c', rfl, rfl, rfl⟩
  exact hf.on (fun _ _ hb => hb.clearing) fun _ _ _ _ hb hc => ⟨hb.ledger, hc⟩

/-! ## Swaps -/

variable {v : VenueBook} {s : Swap} {d : Direction}

/-- A fill at one of the accounts is made alike. -/
theorem twin_apply (s : Swap) {f : Fill} (hpool : accounts f.pool) :
    Twin (Books.Alongside accounts m m') Eq (VenueBook.apply s f) (VenueBook.apply s f) := by
  unfold VenueBook.apply
  refine .bind .get ?_
  intro b b' hb
  rw [hb.ledger.same.balance hpool]
  refine ((twin_onLedger (Ledger.Alongside.twin_debit hpool _)).withError _).bind_eq fun _ => ?_
  refine ((twin_clear _).withError _).bind_eq fun _ => ((twin_clear _).withError _).bind_eq fun _ => ?_
  exact (twin_onLedger (Ledger.Alongside.twin_credit hpool _)).withError _

/-- A swap is quoted and made alike, if its pool is one of the accounts. -/
theorem twin_swap (hpool : ∀ pool, v.Serves s pool → accounts pool) (amount : Amount) :
    Twin (Books.Alongside accounts m m') Eq (v.swap s d amount) (v.swap s d amount) := by
  unfold VenueBook.swap
  refine .bind .get ?_
  intro b b' hb
  rw [VenueBook.quote_congr d amount fun pool hs t => hb.ledger.same.balance (hpool pool hs) t]
  -- which pool is to be written to is known only from the quote
  refine .lift_bind _ fun f hf => ?_
  have hserves := (VenueBook.quote_eq_ok hf).2
  exact (twin_apply s (hpool f.pool hserves)).bind_eq fun _ => .pure rfl

/-- So is a walk, if all its pools are among the accounts. -/
theorem twin_walk {legs : List Leg} (hpools : ∀ leg ∈ legs, ∀ pool, v.Serves (leg.swap d) pool → accounts pool)
    (cursor : Amount) : Twin (Books.Alongside accounts m m') Eq (Engine.walk v d legs cursor) (Engine.walk v d legs cursor) := by
  induction legs generalizing cursor with
  | nil => exact .pure rfl
  | cons leg legs ih =>
    refine ((twin_swap (hpools leg List.mem_cons_self) cursor).withError _).bind_eq fun f => ?_
    refine (ih (fun leg' hleg => hpools leg' (List.mem_cons_of_mem leg hleg)) _).bind_eq fun _ => .pure rfl

end Books.Alongside

/-! ## Executions -/

namespace Engine

variable {e : Engine} {r : Request} {accounts : Address → Prop} {m m' : Ledger} {desk : LoanDesk}

/-- The books go alongside each other; the desk is left alone. -/
structure SessionAlongside (accounts : Address → Prop) (m m' : Ledger) (desk : LoanDesk) (s s' : Session Proceedings) : Prop where
  books : Books.Alongside accounts m m' s.books s'.books
  desks : s.desk = desk ∧ s'.desk = desk

/-- The ledgers go alongside each other; the desk is left alone. -/
structure WorldAlongside (accounts : Address → Prop) (m m' : Ledger) (desk : LoanDesk) (w w' : World) : Prop where
  ledger : Ledger.Alongside accounts m m' w.ledger w'.ledger
  desks : w.desk = desk ∧ w'.desk = desk

theorem twin_onBooks_alongside {α : Type} {x : Step EngineError Books α} (h : Twin (Books.Alongside accounts m m') Eq x x) :
    Twin (SessionAlongside accounts m m' desk) Eq (onBooks x) (onBooks x) :=
  h.on (fun _ _ hs => hs.books) fun _ _ _ _ hs hb => ⟨hb, hs.desks⟩

/-- A spot execution settles alike, if its parties are among the accounts. -/
theorem twin_settle_spot (hparties : ∀ k, e.Party r .spot k → accounts k) :
    Twin (SessionAlongside accounts m m' desk) Eq (e.settle r .spot) (e.settle r .spot) := by
  have hwalk : ∀ mode, Twin (SessionAlongside accounts m m' desk) Eq (e.prepare r .spot mode) (e.prepare r .spot mode) := by
    intro mode
    refine twin_onBooks_alongside (.refuse _ fun _ => .refuse _ fun _ => Twin.bind_eq ?_ fun _ => .pure rfl)
    exact Books.Alongside.twin_walk (fun leg hleg pool hs => hparties pool (.pool ⟨leg, hleg, hs⟩)) r.amount
  have hconclude : ∀ a, Twin (SessionAlongside accounts m m' desk) Eq (conclude r .spot a) (conclude r .spot a) := by
    intro a
    unfold conclude
    refine .bind_eq (.lift _) fun _ => .bind .get ?_
    intro s s' hs
    rw [hs.books.clearing]
    refine (twin_onBooks_alongside (Books.Alongside.twin_onLedger ?_)).bind_eq fun _ => .pure rfl
    exact (Ledger.Alongside.twin_settle _ (hparties r.caller .caller)).withError _
  rw [settle_eq]
  exact .bind_eq (.lift _) fun mode => (hwalk mode).bind_eq hconclude

theorem twin_executeAs_spot (hparties : ∀ k, e.Party r .spot k → accounts k) :
    Twin (WorldAlongside accounts m m' desk) Eq (e.executeAs r .spot) (e.executeAs r .spot) := by
  refine .bind_eq (.lift _) fun found => ?_
  refine .refuse _ fun hfound => ?_
  obtain rfl := not_not.1 hfound
  have hsettle : Twin (SessionAlongside accounts m m' desk) Eq (e.settle r .spot) (e.settle r .spot) :=
    twin_settle_spot hparties
  refine hsettle.on ?_ ?_
  · intro w w' hw
    exact ⟨⟨hw.ledger, rfl⟩, hw.desks⟩
  · intro w w' s s' _ hs
    exact ⟨hs.books.ledger, hs.desks⟩

/-- A spot trade is answered alike. -/
theorem twin_trade_spot (call : Call) {d : Direction} (he : TradeEntry.ofOperation? call.operation = some ⟨.spot, d⟩)
    (hparties : ∀ args, TradeArgs.decode call.operation call.args = .ok args →
      ∀ k, e.Party (args.request call.caller d) .spot k → accounts k) :
    Twin (WorldAlongside accounts m m' desk) Eq (e.trade call) (e.trade call) := by
  refine twin_trade_of call fun entry args hentry hargs => ?_
  obtain rfl := Option.some.inj (he.symm.trans hentry)
  exact (twin_executeAs_spot (hparties args hargs)).mono fun _ _ h => by rw [h]

end Engine

end MarginRouter
