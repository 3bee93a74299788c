import MarginRouter.Proofs.Quote
import MarginRouter.Proofs.ReserveLoan

/-!
# Loans that do not go wrong

With the reserve lender a loan itself is never what goes wrong. Lender and desk keep to the rules, so an execution fails with an
error of its own work, or because the lender or an account has no room or no money. That the loan cannot be paid back would take
books in which the swaps have spent more than was delivered: then money drawn from the market would go into that debt first. The
size of an exact-out loan excludes it, since the swaps spend what they were quoted to spend; so what is drawn always fills up
what the clearing account holds to what is owed.
-/

namespace MarginRouter

open Ledger Clearing Books

theorem Amount.saturate_toNat (a : Amount) : saturate a.toNat = a := by
  unfold saturate
  rw [ofNat?_eq_some.2 rfl]
  rfl

namespace LoanError

/-- Lender or desk has not kept to the rules of a loan. -/
def IsBreach : LoanError → Prop
  | unauthorizedCallback .. | unauthorizedInitiator .. | contextMismatch _ | reentrancy | callbackMissing
  | continuationFailed => True
  | _ => False

/-- A loan has not been paid back in full. -/
def IsShortfall : LoanError → Prop
  | repaymentShortfall .. | notRepaid .. => True
  | _ => False

/-- A loan has been refused: its fee or a balance is out of bounds, or the reserve is too small. -/
def IsRefusal (x : LoanError) : Prop :=
  ¬x.IsBreach ∧ ¬x.IsShortfall

theorem IsShortfall.not_isBreach {x : LoanError} (h : x.IsShortfall) : ¬x.IsBreach := by
  cases x <;> first | exact id | cases h

theorem isRefusal_ledger (e : LedgerError) : (ledger e).IsRefusal :=
  ⟨id, id⟩

end LoanError

/-! ## Where a loan can fail -/

theorem Ledger.transfer_eq_error {token source target : Address} {amount : Amount} {l l' : Ledger} {x : LedgerError}
    (hle : amount ≤ l.balance token source) (h : transfer token source target amount l = .error x l') :
    x = .overflow token target := by
  rcases Step.bind_eq_error.1 h with h | ⟨_, l₁, -, h⟩
  · obtain ⟨h, -⟩ := Step.write_eq_error.1 h
    unfold debit at h
    dsimp only at h
    split at h
    · rename_i hlt
      exact absurd hle (Nat.not_le.2 hlt)
    · cases h
  · obtain ⟨h, -⟩ := Step.write_eq_error.1 h
    unfold credit at h
    split at h
    · cases h
    · split at h
      · cases h
        rfl
      · cases h

namespace LoanDesk

variable {ε τ : Type} {context : LoanContext} {b b' : Books} {u : Unit} {x : LoanError}

/-- Hands a loan over: the lender checks its reserve and pays, and the desk takes the money in. -/
def handOver (context : LoanContext) : Step LoanError Books Unit := do
  let available := (← get).ledger.balance context.asset context.provider
  if available < context.terms.delivered then
    throw (.insufficientReserve context.provider context.asset available context.terms.delivered)
  (Books.onLedger
    (Ledger.transfer context.asset context.provider context.engine context.terms.delivered)).withError .ledger
  takeIn context

theorem handOver_eq_ok : handOver context b = .ok u b' ↔
    context.terms.delivered ≤ b.ledger.balance context.asset context.provider ∧
      ∃ l, transfer context.asset context.provider context.engine context.terms.delivered b.ledger = .ok () l ∧
        takeIn context ⟨l, b.clearing⟩ = .ok u b' := by
  simp only [handOver, Books.onLedger, Step.bind_eq_ok, Step.get_eq_ok, Step.refuse_eq_ok, Step.withError_eq_ok, Step.on_eq_ok]
  constructor
  · rintro ⟨_, _, ⟨rfl, rfl⟩, hle, _, _, ⟨l, hl, rfl⟩, hin⟩
    exact ⟨Nat.le_of_not_lt hle, l, hl, hin⟩
  · rintro ⟨hle, l, hl, hin⟩
    exact ⟨b, b, ⟨rfl, rfl⟩, Nat.not_lt.2 hle, (), _, ⟨l, hl, rfl⟩, hin⟩

theorem moved_handOver (h : handOver context b = .ok u b') :
    Moved b b' (payment context.asset context.provider (-context.terms.delivered.toNat))
      (receipt context.asset context.terms.delivered.toNat) := by
  obtain ⟨-, l, hl, hin⟩ := handOver_eq_ok.1 h
  exact moved_lent hl hin

theorem takeIn_eq_error (h : takeIn context b = .error x b') : x.IsRefusal := by
  simp only [takeIn, Step.bind_eq_error, Step.withError_eq_error] at h
  rcases h with ⟨e, -, rfl⟩ | ⟨_, _, -, e, -, rfl⟩
  · exact LoanError.isRefusal_ledger e
  · exact LoanError.isRefusal_ledger e

/-- What is owed is set aside unless less than that is held, or an account has no room for it. -/
theorem setAside_eq_error (h : setAside context b = .error x b') :
    x.IsRefusal ∨ x.IsShortfall ∧ b.clearing.held context.asset < context.terms.owed := by
  simp only [setAside, Step.bind_eq_error, Step.refuse_eq_error, Step.withError_eq_error,
    Step.get_eq_ok] at h
  rcases h with h | ⟨_, _, ⟨rfl, rfl⟩, ⟨hlt, rfl, -⟩ | ⟨-, ⟨e, -, rfl⟩ | ⟨_, _, -, e, -, rfl⟩⟩⟩
  · exact absurd h Step.get_ne_error
  · exact .inr ⟨trivial, hlt⟩
  · exact .inl (LoanError.isRefusal_ledger e)
  · exact .inl (LoanError.isRefusal_ledger e)

/-- What has been set aside is there for the lender to take. -/
theorem le_of_setAside (h : setAside context b = .ok u b') :
    context.terms.owed ≤ b'.ledger.balance context.asset context.engine := by
  obtain ⟨-, hm⟩ := moved_setAside h
  have hholds := hm.holds context.asset context.engine
  simp only [payment, and_self, if_true, Ledger.holds] at hholds
  exact Amount.le_def.2 (by omega)

/-- When the money for a loan has been handed over and its work has left the balance of the lender alone, the lender has earned
the fee once it has been paid. -/
theorem fee_earned {b c c' : Books} {context : LoanContext}
    (howed : context.terms.owed.toNat = context.terms.delivered.toNat + context.terms.fee.toNat)
    (hlent : Moved b b' (payment context.asset context.provider (-context.terms.delivered.toNat))
      (receipt context.asset context.terms.delivered.toNat))
    (hsame : c.ledger.holds context.asset context.provider = b'.ledger.holds context.asset context.provider)
    (hrepaid : Moved c c' (payment context.asset context.provider context.terms.owed.toNat)
      (receipt context.asset (-context.terms.owed.toNat))) :
    (c'.ledger.balance context.asset context.provider).toNat =
      (b.ledger.balance context.asset context.provider).toNat + context.terms.fee.toNat := by
  have h₁ := hlent.holds context.asset context.provider
  have h₂ := hrepaid.holds context.asset context.provider
  simp only [payment, and_self, if_true, Ledger.holds] at h₁ h₂ hsame
  omega

section Workspace

variable {α : Type} {embed : LoanError → ε} {w w' : Workspace τ} {e : ε} {a : α}

/-- What the books fail with is embedded. -/
theorem onBooks_eq_error {step : Step LoanError Books α} (h : Workspace.onBooks (step.withError embed) w = .error e w') :
    ∃ x b, step w.books = .error x b ∧ embed x = e := by
  obtain ⟨b, h, -⟩ := Step.on_eq_error.1 h
  obtain ⟨x, hx, he⟩ := Step.withError_eq_error.1 h
  exact ⟨x, b, hx, he⟩

theorem onBooks_eq_ok {step : Step LoanError Books α} :
    Workspace.onBooks (step.withError embed) w = .ok a w' ↔ ∃ b, step w.books = .ok a b ∧ ⟨b, w.notes⟩ = w' := by
  simp only [Workspace.onBooks, Step.on_eq_ok, Step.withError_eq_ok]

/-- What the ledger fails with is blamed on somebody, and embedded. -/
theorem onLedger_eq_error {step : Step LedgerError Ledger α} {blame : LedgerError → LoanError}
    (h : Workspace.onBooks ((Books.onLedger (step.withError blame)).withError embed) w = .error e w') :
    ∃ x l, step w.books.ledger = .error x l ∧ embed (blame x) = e := by
  obtain ⟨_, b, hb, he⟩ := onBooks_eq_error h
  obtain ⟨l, hl, -⟩ := Step.on_eq_error.1 hb
  obtain ⟨x, hx, rfl⟩ := Step.withError_eq_error.1 hl
  exact ⟨x, l, hx, he⟩

theorem onLedger_eq_ok {step : Step LedgerError Ledger α} {blame : LedgerError → LoanError} :
    Workspace.onBooks ((Books.onLedger (step.withError blame)).withError embed) w = .ok a w' ↔
      ∃ l, step w.books.ledger = .ok a l ∧ ⟨⟨l, w.books.clearing⟩, w.notes⟩ = w' := by
  simp only [onBooks_eq_ok, Books.onLedger, Step.on_eq_ok, Step.withError_eq_ok]
  constructor
  · rintro ⟨_, ⟨l, hl, rfl⟩, rfl⟩
    exact ⟨l, hl, rfl⟩
  · rintro ⟨l, hl, rfl⟩
    exact ⟨_, ⟨l, hl, rfl⟩, rfl⟩

/-- Reading the ledger does nothing else. -/
theorem read_bind (f : Ledger → Step ε (Workspace τ) α) (w : Workspace τ) :
    ((Workspace.onBooks (Books.onLedger get) : Step ε (Workspace τ) Ledger) >>= f) w = f w.books.ledger w :=
  rfl

end Workspace

section Serve

variable {work : LoanContext → Step ε (Workspace τ) Unit} {embed : LoanError → ε} {w w' : Workspace τ} {e : ε}

theorem attend_eq_ok (h : attend work embed context w = .ok u w') :
    ∃ b w₂ b₃, takeIn context w.books = .ok () b ∧ work context ⟨b, w.notes⟩ = .ok () w₂ ∧
      setAside context w₂.books = .ok () b₃ ∧ w' = ⟨b₃, w₂.notes⟩ := by
  simp only [attend, Step.bind_eq_ok] at h
  obtain ⟨_, w₁, hin, _, w₂, hwork, hout⟩ := h
  obtain ⟨b, hb, rfl⟩ := onBooks_eq_ok.1 hin
  obtain ⟨b₃, hb₃, rfl⟩ := onBooks_eq_ok.1 hout
  exact ⟨b, w₂, b₃, hb, hwork, hb₃, rfl⟩

/-- An accepted call back comes to nothing when an account has no room for the money, when the work fails, or when the work has
left less than is owed. -/
theorem attend_eq_error (h : attend work embed context w = .error e w') :
    (∃ x, embed x = e ∧ x.IsRefusal) ∨
    ∃ b, takeIn context w.books = .ok () b ∧ (work context ⟨b, w.notes⟩ = .error e w' ∨
      ∃ w₂ x, work context ⟨b, w.notes⟩ = .ok () w₂ ∧ embed x = e ∧ x.IsShortfall ∧
        w₂.books.clearing.held context.asset < context.terms.owed) := by
  rcases Step.bind_eq_error.1 h with h | ⟨_, w₁, hin, h⟩
  · obtain ⟨x, _, hx, rfl⟩ := onBooks_eq_error h
    exact .inl ⟨x, rfl, takeIn_eq_error hx⟩
  obtain ⟨b, hb, rfl⟩ := onBooks_eq_ok.1 hin
  rcases Step.bind_eq_error.1 h with h | ⟨_, w₂, hwork, h⟩
  · exact .inr ⟨b, hb, .inl h⟩
  obtain ⟨x, _, hx, rfl⟩ := onBooks_eq_error h
  rcases setAside_eq_error hx with hx | ⟨hx, hless⟩
  · exact .inl ⟨x, rfl, hx⟩
  · exact .inr ⟨b, hb, .inr ⟨w₂, x, hwork, rfl, hx, hless⟩⟩

/-- How a loan of the reserve lender can fail: it is refused; its work fails, with the error of the work; or the work is done but
has left less than is owed, or a changed balance of the lender. -/
theorem serve_eq_error (howed : context.terms.owed.toNat = context.terms.delivered.toNat + context.terms.fee.toNat)
    (h : serve work embed context w = .error e w') :
    (∃ x, embed x = e ∧ x.IsRefusal) ∨
    ∃ b, handOver context w.books = .ok () b ∧ (work context ⟨b, w.notes⟩ = .error e w' ∨
      ∃ w₂ x, work context ⟨b, w.notes⟩ = .ok () w₂ ∧ embed x = e ∧ x.IsShortfall ∧
        (w₂.books.clearing.held context.asset < context.terms.owed ∨
          w₂.books.ledger.holds context.asset context.provider ≠ b.ledger.holds context.asset context.provider)) := by
  rw [serve, read_bind] at h
  rcases Step.refuse_eq_error.1 h with ⟨-, rfl, -⟩ | ⟨hreserve, h⟩
  · exact .inl ⟨_, rfl, id, id⟩
  rcases Step.bind_eq_error.1 h with h | ⟨_, w₁, hlent, h⟩
  · obtain ⟨x, _, -, rfl⟩ := onLedger_eq_error h
    exact .inl ⟨_, rfl, LoanError.isRefusal_ledger x⟩
  obtain ⟨l, hl, rfl⟩ := onLedger_eq_ok.1 hlent
  have hover : ∀ {b}, takeIn context ⟨l, w.books.clearing⟩ = .ok () b → handOver context w.books = .ok () b := fun hin =>
    handOver_eq_ok.2 ⟨Nat.le_of_not_lt hreserve, l, hl, hin⟩
  rcases Step.bind_eq_error.1 h with h | ⟨_, w₃, hattended, h⟩
  · rcases attend_eq_error h with hrefused | ⟨b, hin, hwork | ⟨w₂, x, hwork, he, hx, hless⟩⟩
    · exact .inl hrefused
    · exact .inr ⟨b, hover hin, .inl hwork⟩
    · exact .inr ⟨b, hover hin, .inr ⟨w₂, x, hwork, he, hx, .inl hless⟩⟩
  obtain ⟨b, w₂, b₃, hin, hwork, hout, rfl⟩ := attend_eq_ok hattended
  rcases Step.bind_eq_error.1 h with h | ⟨_, w₄, hback, h⟩
  · obtain ⟨x, _, hx, rfl⟩ := onLedger_eq_error h
    rw [transfer_eq_error (le_of_setAside hout) hx]
    exact .inl ⟨_, rfl, LoanError.isRefusal_ledger _⟩
  obtain ⟨l', hl', rfl⟩ := onLedger_eq_ok.1 hback
  rw [read_bind] at h
  rcases Step.refuse_eq_error.1 h with ⟨hless, rfl, -⟩ | ⟨-, h⟩
  · refine .inr ⟨b, hover hin, .inr ⟨w₂, _, hwork, rfl, trivial, .inr fun hsame => ?_⟩⟩
    have hfee := fee_earned howed (moved_lent hl hin) hsame (moved_repaid hout hl')
    rw [← hfee, Amount.saturate_toNat] at hless
    exact Nat.lt_irrefl _ hless
  · exact absurd h Step.pure_ne_error

/-- What a loan is for fails with its own error. -/
theorem serve_of_work_error {b : Books} (hover : handOver context w.books = .ok () b)
    (hwork : work context ⟨b, w.notes⟩ = .error e w') : serve work embed context w = .error e w' := by
  obtain ⟨hle, l, hl, hin⟩ := handOver_eq_ok.1 hover
  rw [serve, read_bind]
  refine Step.refuse_eq_error.2 (.inr ⟨Nat.not_lt.2 hle, ?_⟩)
  refine Step.bind_eq_error.2 (.inr ⟨(), _, onLedger_eq_ok.2 ⟨l, hl, rfl⟩, ?_⟩)
  have hattend : attend work embed context ⟨⟨l, w.books.clearing⟩, w.notes⟩ = .error e w' :=
    Step.bind_eq_error.2 (.inr ⟨(), _, onBooks_eq_ok.2 ⟨b, hin, rfl⟩, Step.bind_eq_error.2 (.inl hwork)⟩)
  exact Step.bind_eq_error.2 (.inl hattend)

end Serve

end LoanDesk

/-! ## Errors that are not errors of a loan -/

/-- The error is not one of a loan. -/
def EngineError.Outside : EngineError → Prop
  | .loan _ => False
  | _ => True

theorem Hop.fails_checked (d : Direction) (index : Nat) (h : Hop) : Attempt.Fails EngineError.Outside (h.checked d index) :=
  .bind (.mapError _ fun _ => trivial) fun _ => .refuse trivial (.refuse trivial (.pure _))

theorem Path.fails_checkHops (d : Direction) :
    ∀ (index : Nat) (hops : List Hop), Attempt.Fails EngineError.Outside (Path.checkHops d index hops)
  | _, [] => .pure _
  | index, h :: hops => .bind (h.fails_checked d index) fun _ => fails_checkHops d (index + 1) hops

theorem Path.fails_classify (p : Path) (d : Direction) : Attempt.Fails EngineError.Outside (p.classify d) := by
  unfold classify
  split
  · exact .throw trivial
  · exact .bind (Hop.fails_checked d 0 _) fun _ => .bind (fails_checkHops d 1 _) fun _ => .pure _

namespace Engine

variable (e : Engine) (r : Request) (c : Composition) (mode : Mode) (market : Market) (funding : Funding) (proceeds : Proceeds)
variable (l : Ledger) (start : Amount)

theorem fails_walk (v : VenueBook) (d : Direction) :
    ∀ (legs : List Leg) (cursor : Amount), Step.Fails EngineError.Outside (walk v d legs cursor)
  | [], _ => .pure _
  | _ :: legs, _ => .bind (.withError _ fun _ => trivial) fun _ => .bind (fails_walk v d legs _) fun _ => .pure _

theorem fails_startAmount : Attempt.Fails EngineError.Outside (startAmount l r c mode market funding proceeds) := by
  unfold startAmount
  dsimp only
  split
  · split
    · exact .bind (.pure _) fun _ => .refuse trivial (.pure _)
    · exact .bind (.pure _) fun _ => .refuse trivial (.pure _)
    · exact .bind (.throw trivial) fun _ => .refuse trivial (.pure _)
  · exact .bind (.pure _) fun _ => .refuse trivial (.pure _)

theorem fails_quote (p : Path) (d : Direction) (amount : Amount) :
    Attempt.Fails EngineError.Outside (e.quote l p d amount) := by
  intro x hx
  obtain ⟨b, hb⟩ := Step.outcome_fst_eq_error.1 hx
  exact fails_walk _ _ _ _ hb

theorem fails_loanTerms : Attempt.Fails EngineError.Outside (e.loanTerms l r start) := by
  unfold loanTerms
  dsimp only
  split
  · exact .bind (.mapError _ fun _ => trivial) fun _ => .refuse trivial (.pure _)
  · exact .bind (e.fails_quote l _ _ _) fun _ => .bind (.mapError _ fun _ => trivial) fun _ => .refuse trivial (.pure _)

theorem fails_proceed (outToken : Address) (context : LoanContext) :
    Step.Fails EngineError.Outside (e.proceed market funding proceeds outToken start context) := by
  refine .bind (fails_walk _ _ _ _) fun _ => .bind (.withError _ fun _ => trivial) fun _ => .bind .get fun b => ?_
  dsimp only
  split
  · exact .bind (.withError _ fun _ => trivial) fun _ => .pure _
  · exact .pure _

theorem fails_spot : Step.Fails EngineError.Outside (e.spot r mode) :=
  .refuse trivial (.refuse trivial (.bind (fails_walk _ _ _ _) fun _ => .pure _))

theorem fails_checkSlippage (d : Direction) (settled limit : Amount) :
    Attempt.Fails EngineError.Outside (checkSlippage d settled limit) := by
  unfold checkSlippage
  split
  · split
    · exact .throw trivial
    · exact .pure _
  · split
    · exact .throw trivial
    · exact .pure _

theorem fails_conclude (a : Amount × List Fill × Option LoanReceipt) : Step.Fails EngineError.Outside (conclude r c a) :=
  .bind (.lift (fails_checkSlippage _ _ _)) fun _ => .bind .get fun _ =>
    .bind (.on (.on (.withError _ fun _ => trivial))) fun _ => .pure _

end Engine

/-! ## What is drawn fills up what is owed -/

theorem Proceeds.taken_le (proceeds : Proceeds) (amount : Amount) (p : Position) : proceeds.taken amount p ≤ amount.toNat := by
  cases proceeds with
  | supply => exact Nat.le_refl _
  | repay => exact Nat.min_le_left _ _

namespace Engine

variable {e : Engine} {r : Request} {c : Composition} {mode : Mode} {market : Market} {funding : Funding} {proceeds : Proceeds}
variable {terms : LoanTerms} {start : Amount} {done : Proceedings} {b b₁ b₂ b₃ b₄ : Books}

/-- The swaps spend no more than the loan has delivered: all of it, or what they were quoted to need. -/
theorem Underway.spent_le (h : e.Underway r market funding proceeds terms start done b b₁ b₂ b₃ b₄)
    (hterms : e.loanTerms b.ledger r start = .ok terms) (hpool : ¬e.venues.OnPath r.path r.direction e.lender.address) :
    spent r terms done ≤ terms.delivered := by
  unfold spent
  cases hd : r.direction with
  | exactIn => exact Nat.le_refl _
  | exactOut =>
    obtain ⟨fills, required, hq, hsize⟩ := loanTerms_exactOut hd hterms
    rw [hd] at hpool
    obtain ⟨-, rfl⟩ := h.as_quoted hd hpool hq
    exact (FeeRate.sizeForInput_eq_ok hsize).2

/-- When the swaps have spent no more than was delivered, the clearing account holds in the end what is owed, and exactly that if
anything was drawn from the market, or if the ends of the path differ. -/
theorem Underway.held_loan (h : e.Underway r market funding proceeds terms start done b b₁ b₂ b₃ b₄)
    (hflat : ∀ t, b.clearing.net t = 0) (hproper : b.clearing.Proper) (hspent : spent r terms done ≤ terms.delivered)
    (hdelivered : terms.delivered ≤ terms.owed) :
    terms.owed ≤ b₄.clearing.held (r.path.endpoints r.direction).1 ∧
      (done.funded ≠ 0 ∨ (r.path.endpoints r.direction).1 ≠ (r.path.endpoints r.direction).2 →
        b₄.clearing.held (r.path.endpoints r.direction).1 = terms.owed) := by
  have g₃ := h.gained_brought
  have g₄ := h.gained_drawn
  have hproper₃ := g₃.proper hproper
  have hle := Amount.le_def.1 hspent
  have hle' := Amount.le_def.1 hdelivered
  have htaken := proceeds.taken_le (produced r start done)
    (market.position b.ledger r.caller (r.path.endpoints r.direction).2)
  -- before the market is drawn on nothing is owed in the token of the loan, and what is held there is left of the loan
  have hnet₃ : 0 ≤ b₃.clearing.net (r.path.endpoints r.direction).1 ∧
      ((r.path.endpoints r.direction).1 ≠ (r.path.endpoints r.direction).2 →
        b₃.clearing.net (r.path.endpoints r.direction).1 ≤ terms.owed.toNat) := by
    rw [g₃.net, hflat]
    simp only [Pi.add_apply, receipt]
    refine ⟨by split_ifs <;> omega, fun hne => ?_⟩
    rw [if_pos trivial, if_neg hne]
    omega
  have hnet₄ := g₄.net (r.path.endpoints r.direction).1
  simp only [receipt, if_true] at hnet₄
  have hheld₃ := (hproper₃ (r.path.endpoints r.direction).1).held_eq
  have hheld₄ := (g₄.proper hproper₃ (r.path.endpoints r.direction).1).held_eq
  have hfunded : done.funded.toNat = terms.owed.toNat - (b₃.clearing.held (r.path.endpoints r.direction).1).toNat := by
    rw [h.funded, Amount.toNat_sub]
  simp only [Clearing.net] at hnet₃ hnet₄
  simp only [Clearing.held] at hfunded ⊢
  refine ⟨Amount.le_def.2 (by omega), fun hfull => Amount.ext ?_⟩
  rcases hfull with hne | hne
  · have hpos := mt Amount.eq_zero_iff.2 hne
    omega
  · have hleft := hnet₃.2 hne
    omega

/-! ## The loan of an execution -/

/-- What a leveraged execution of the request goes by on this ledger: what the path does, the market it selects, the amount that
it starts from, and the terms that its loan is sized for. -/
structure Sized (e : Engine) (r : Request) (l : Ledger) (c : Composition) (funding : Funding) (proceeds : Proceeds) (mode : Mode)
    (market : Market) (start : Amount) (terms : LoanTerms) : Prop where
  composed : r.path.classify r.direction = .ok c
  lending : c.lending? = some (funding, proceeds)
  chosen : r.path.mode = .ok mode
  found : e.markets.find mode.lender = .ok market
  started : startAmount l r c mode market funding proceeds = .ok start
  sized : e.loanTerms l r start = .ok terms

/-- The plan of the loan. -/
def loanPlan (r : Request) (terms : LoanTerms) : LoanPlan :=
  ⟨r.caller, (r.path.endpoints r.direction).1, terms.gross, r.path, r.direction⟩

/-- The loan at a desk. -/
def loanContext (e : Engine) (r : Request) (desk : LoanDesk) (terms : LoanTerms) : LoanContext :=
  LoanDesk.contextFor desk e.lender (loanPlan r terms) terms

/-- What the loan is for. -/
def continuation (e : Engine) (r : Request) (funding : Funding) (proceeds : Proceeds) (market : Market) (start : Amount) :
    LoanContext → Step EngineError Books Proceedings :=
  e.proceed market funding proceeds (r.path.endpoints r.direction).2 start

/-- The same, with what has been done noted. -/
def loanWork (e : Engine) (r : Request) (funding : Funding) (proceeds : Proceeds) (market : Market) (start : Amount)
    (context : LoanContext) : Step EngineError (Workspace Proceedings) Unit :=
  noting (e.continuation r funding proceeds market start context)

variable {w w' : World} {x : EngineError}

/-- An execution fails with the error of its loan. -/
theorem execute_of_borrow_error {s : Session Proceedings} (h : e.Sized r w.ledger c funding proceeds mode market start terms)
    (hb : LoanDesk.borrow e.lender (loanPlan r terms) (e.loanWork r funding proceeds market start) .loan (e.session w) =
      .error x s) : e.execute r w = .error x ⟨s.books.ledger, s.desk⟩ := by
  have hleverage : e.leverage r c mode funding proceeds (e.session w) = .error x s := by
    refine Step.lift_bind_eq_error.2 (.inr ⟨market, Attempt.mapError_eq_ok.2 h.found, Step.get_bind_eq_error.2 ?_⟩)
    refine Step.lift_bind_eq_error.2 (.inr ⟨start, h.started, Step.lift_bind_eq_error.2 (.inr ⟨terms, h.sized, ?_⟩)⟩)
    exact Step.bind_eq_error.2 (.inl hb)
  have hprepare : e.prepare r c mode (e.session w) = .error x s := by
    rw [prepare, h.lending]
    exact hleverage
  refine Step.lift_bind_eq_error.2 (.inr ⟨c, h.composed, Step.on_eq_error.2 ⟨s, ?_, rfl⟩⟩)
  rw [settle_eq]
  refine Step.lift_bind_eq_error.2 (.inr ⟨mode, Attempt.mapError_eq_ok.2 h.chosen, ?_⟩)
  exact Step.bind_eq_error.2 (.inl hprepare)

/-- A leveraged execution that fails with an error of a loan has come to its loan. -/
theorem borrow_of_leverage_error {s s' : Session Proceedings} (h : e.leverage r c mode funding proceeds s = .error x s')
    (hx : ¬x.Outside) :
    ∃ market start terms, e.markets.find mode.lender = .ok market ∧
      startAmount s.books.ledger r c mode market funding proceeds = .ok start ∧ e.loanTerms s.books.ledger r start = .ok terms ∧
      LoanDesk.borrow e.lender (loanPlan r terms) (e.loanWork r funding proceeds market start) .loan s = .error x s' := by
  rcases Step.lift_bind_eq_error.1 h with ⟨h, -⟩ | ⟨market, hm, h⟩
  · exact absurd (Attempt.Fails.mapError _ (fun _ => trivial) h) hx
  rcases Step.lift_bind_eq_error.1 (Step.get_bind_eq_error.1 h) with ⟨h, -⟩ | ⟨start, hstart, h⟩
  · exact absurd (fails_startAmount _ _ _ _ _ _ _ h) hx
  rcases Step.lift_bind_eq_error.1 h with ⟨h, -⟩ | ⟨terms, hterms, h⟩
  · exact absurd (fails_loanTerms _ _ _ _ h) hx
  rcases Step.bind_eq_error.1 h with h | ⟨_, _, -, h⟩
  · exact ⟨market, start, terms, Attempt.mapError_eq_ok.1 hm, hstart, hterms, h⟩
  · exact absurd (Step.get_bind_eq_error.1 h) Step.pure_ne_error

/-- An execution that fails with an error of a loan has come to its loan. -/
theorem borrow_of_execute_error (h : e.execute r w = .error x w') (hx : ¬x.Outside) :
    ∃ c funding proceeds mode market start terms s, e.Sized r w.ledger c funding proceeds mode market start terms ∧
      LoanDesk.borrow e.lender (loanPlan r terms) (e.loanWork r funding proceeds market start) .loan (e.session w) =
        .error x s := by
  rcases Step.lift_bind_eq_error.1 h with ⟨h, -⟩ | ⟨c, hc, h⟩
  · exact absurd (Path.fails_classify _ _ h) hx
  obtain ⟨s, hs, -⟩ := Step.on_eq_error.1 h
  rw [settle_eq] at hs
  rcases Step.lift_bind_eq_error.1 hs with ⟨hs, -⟩ | ⟨mode, hmode, hs⟩
  · exact absurd (Attempt.Fails.mapError _ (fun _ => trivial) hs) hx
  rcases Step.bind_eq_error.1 hs with hs | ⟨a, s₁, -, hs⟩
  · unfold prepare at hs
    cases hlend : c.lending? with
    | none =>
      rw [hlend] at hs
      exact absurd (Step.Fails.on (fails_spot _ _ _) hs) hx
    | some legs =>
      rw [hlend] at hs
      obtain ⟨market, start, terms, hm, hstart, hterms, hb⟩ := borrow_of_leverage_error hs hx
      have hsized : e.Sized r w.ledger c legs.1 legs.2 mode market start terms :=
        ⟨hc, hlend, Attempt.mapError_eq_ok.1 hmode, hm, hstart, hterms⟩
      exact ⟨c, legs.1, legs.2, mode, market, start, terms, s, hsized, hb⟩
  · exact absurd (fails_conclude _ _ _ hs) hx

/-! ## The loan does not go wrong -/

/-- The lender has no part in the execution but the loan: it is no pool on the path, and not the market that is selected. -/
def Apart (e : Engine) (r : Request) : Prop :=
  ¬e.venues.OnPath r.path r.direction e.lender.address ∧
    ∀ mode market, r.path.mode = .ok mode → e.markets.find mode.lender = .ok market → e.lender.address ≠ market.address

/-- When the loan of an execution has been used and the lender is apart, what is owed is held, and exactly that if anything was
drawn from the market or the ends of the path differ; and the balances of the lender are what they were. -/
theorem Sized.repayable {desk : LoanDesk} {done : Proceedings} {b b' : Books}
    (h : e.Sized r l c funding proceeds mode market start terms) (hapart : e.Apart r)
    (hover : LoanDesk.handOver (e.loanContext r desk terms) ⟨l, .new e.address⟩ = .ok () b)
    (hdone : e.continuation r funding proceeds market start (e.loanContext r desk terms) b = .ok done b') :
    terms.owed ≤ b'.clearing.held (r.path.endpoints r.direction).1 ∧
      (done.funded ≠ 0 ∨ (r.path.endpoints r.direction).1 ≠ (r.path.endpoints r.direction).2 →
        b'.clearing.held (r.path.endpoints r.direction).1 = terms.owed) ∧
      ∀ t, b'.ledger.holds t e.lender.address = b.ledger.holds t e.lender.address := by
  obtain ⟨b₂, b₃, hwalked, hbrought, hfunded, hdrawn⟩ := proceed_eq_ok hdone
  have hst : e.Underway r market funding proceeds terms start done ⟨l, .new e.address⟩ b b₂ b₃ b' :=
    ⟨LoanDesk.moved_handOver hover, hwalked, hbrought, hfunded, hdrawn⟩
  have hspent := hst.spent_le h.sized hapart.1
  obtain ⟨hheld, hexact⟩ := hst.held_loan (fun t => net_new e.address t) (proper_new e.address) hspent
    (owed_of_loanTerms h.sized).1
  exact ⟨hheld, hexact, hst.holds (hapart.2 mode market h.chosen h.found) hapart.1⟩

theorem noting_eq_error {τ : Type} {step : Step EngineError Books τ} {v v' : Workspace τ} :
    noting step v = .error x v' ↔ ∃ b, step v.books = .error x b ∧ ⟨b, v.notes⟩ = v' := by
  simp only [noting, Workspace.onBooks, Step.bind_eq_error, Step.on_eq_error, Step.modify_ne_error, and_false,
    exists_false, or_false]

/-- The loan of an execution that fails with an error of a loan has been refused, or has been used by a lender that is not
apart. -/
theorem loan_eq_error {address : Address} {rate : FeeRate} {feeMode : FeeMode} {y : LoanError} {s : Session Proceedings}
    (hl : e.lender = .reserve address rate feeMode) (hidle : w.desk.phase = .idle)
    (h : e.Sized r w.ledger c funding proceeds mode market start terms)
    (hb : LoanDesk.borrow e.lender (loanPlan r terms) (e.loanWork r funding proceeds market start) .loan (e.session w) =
      .error (.loan y) s) : y.IsRefusal ∨ y.IsShortfall ∧ ¬e.Apart r := by
  have hterms : rate.terms (loanPlan r terms).gross feeMode = .ok terms := loanTerms_reserve hl h.sized
  have howed := (FeeRate.terms_exact hterms).2
  rw [hl] at hb
  obtain ⟨v, hserve, -⟩ := (LoanDesk.borrow_reserve_eq_error hidle hterms).1 hb
  rw [← hl] at hserve
  rcases LoanDesk.serve_eq_error howed hserve with ⟨y', hy, hrefused⟩ |
    ⟨b, hover, hwork | ⟨v', y', hwork, hy, hshort, hleft⟩⟩
  · cases hy
    exact .inl hrefused
  · obtain ⟨b', hb', -⟩ := noting_eq_error.1 hwork
    exact (fails_proceed _ _ _ _ _ _ _ hb').elim
  · cases hy
    refine .inr ⟨hshort, fun hapart => ?_⟩
    obtain ⟨b', hdone, rfl⟩ := noting_eq_ok hwork
    obtain ⟨hheld, -, hsame⟩ := h.repayable hapart hover hdone
    rcases hleft with hless | hchanged
    · exact absurd hheld (Nat.not_le_of_lt hless)
    · exact hchanged (hsame _)

/-- With the reserve lender, at an idle desk, the loan itself never goes wrong. An execution never fails because the rules of a loan
have been broken, nor, when the lender is apart, because the loan has not been paid back. Once the loan has been handed over, an
error of what it is for is the error of the execution as it is; and when that succeeds and the lender is apart, the clearing
account holds what is owed, topped up to exactly that if anything had to be drawn from the market or the ends of the path
differ. -/
theorem loan_never_at_fault {address : Address} {rate : FeeRate} {feeMode : FeeMode} {w : World}
    (hl : e.lender = .reserve address rate feeMode) (hidle : w.desk.phase = .idle) :
    (∀ x w', e.execute r w = .error (.loan x) w' → ¬x.IsBreach ∧ (e.Apart r → ¬x.IsShortfall)) ∧
    ∀ c funding proceeds mode market start terms b, e.Sized r w.ledger c funding proceeds mode market start terms →
      LoanDesk.handOver (e.loanContext r w.desk terms) ⟨w.ledger, .new e.address⟩ = .ok () b →
      (∀ x b', e.continuation r funding proceeds market start (e.loanContext r w.desk terms) b = .error x b' →
        e.execute r w = .error x ⟨b'.ledger, ⟨w.desk.engine, .idle, w.desk.nonce + 1⟩⟩) ∧
      ∀ done b', e.continuation r funding proceeds market start (e.loanContext r w.desk terms) b = .ok done b' → e.Apart r →
        terms.owed ≤ b'.clearing.held (r.path.endpoints r.direction).1 ∧
        (done.funded ≠ 0 ∨ (r.path.endpoints r.direction).1 ≠ (r.path.endpoints r.direction).2 →
          b'.clearing.held (r.path.endpoints r.direction).1 = terms.owed) := by
  refine ⟨fun y w' h => ?_, fun c funding proceeds mode market start terms b h hover => ⟨fun x b' hfails => ?_, ?_⟩⟩
  · obtain ⟨c, funding, proceeds, mode, market, start, terms, s, hsized, hb⟩ := borrow_of_execute_error h id
    rcases loan_eq_error hl hidle hsized hb with ⟨hbreach, hshort⟩ | ⟨hshort, hpart⟩
    · exact ⟨hbreach, fun _ => hshort⟩
    · exact ⟨hshort.not_isBreach, fun hapart => absurd hapart hpart⟩
  · have hterms : rate.terms (loanPlan r terms).gross feeMode = .ok terms := loanTerms_reserve hl h.sized
    have hserve : LoanDesk.serve (e.loanWork r funding proceeds market start) .loan (e.loanContext r w.desk terms)
        (e.session w).toWorkspace = .error x ⟨b', (e.session w).notes⟩ :=
      LoanDesk.serve_of_work_error hover (noting_eq_error.2 ⟨b', hfails, rfl⟩)
    rw [loanContext, hl] at hserve
    have hb : LoanDesk.borrow e.lender (loanPlan r terms) (e.loanWork r funding proceeds market start) .loan (e.session w) =
        .error x ⟨⟨b', (e.session w).notes⟩, ⟨w.desk.engine, .idle, w.desk.nonce + 1⟩⟩ := by
      rw [hl]
      exact (LoanDesk.borrow_reserve_eq_error hidle hterms).2 ⟨_, hserve, rfl⟩
    exact execute_of_borrow_error h hb
  · intro done b' hdone hapart
    obtain ⟨hheld, hexact, -⟩ := h.repayable hapart hover hdone
    exact ⟨hheld, hexact⟩

end Engine

namespace Sample

/-- Closing the debt with this much of the collateral. -/
def closeWith (budget : UInt64) : Request :=
  ⟨.ofNat 7, path, .ofWord budget, 0, .exactIn⟩

/-- The terms of the loan for that, at a tenth. -/
def closingTerms (budget : UInt64) : LoanTerms :=
  ⟨.ofWord budget, .ofWord (budget / 10), .ofWord (budget - budget / 10), .ofWord budget⟩

theorem apart_closeWith (budget : UInt64) : chargingEngine.Apart (closeWith budget) := by
  refine ⟨?_, fun mode market hmode hm => ?_⟩
  · show ¬chargingEngine.venues.OnPath path .exactIn (.ofNat 2)
    decide +kernel
  · rw [address_of_find hm]
    show Address.ofNat 2 ≠ .ofNat 6
    decide

theorem sized_closeWith (budget : UInt64) (hbudget : Amount.ofWord budget ≠ 0)
    (hterms : chargingEngine.loanTerms ledger (closeWith budget) (.ofWord budget) = .ok (closingTerms budget)) :
    chargingEngine.Sized (closeWith budget) ledger .marginClose .withdraw .repay .default market (.ofWord budget)
      (closingTerms budget) := by
  refine ⟨rfl, rfl, rfl, MarketBook.find_eq_ok.2 (getElem?_markets 0), ?_, hterms⟩
  show (if Amount.ofWord budget = 0 then Except.error EngineError.zeroAmount else .ok (Amount.ofWord budget)) = _
  rw [if_neg hbudget]

/-- The books after the loan for that has been handed over. -/
def lent (budget : UInt64) (b : Books) : Prop :=
  LoanDesk.handOver (chargingEngine.loanContext (closeWith budget) (.new (.ofNat 1)) (closingTerms budget))
    ⟨ledger, .new (.ofNat 1)⟩ = .ok () b

/-- What the loan for that is used for. -/
def closing (budget : UInt64) : Step EngineError Books Proceedings :=
  chargingEngine.continuation (closeWith budget) .withdraw .repay market (.ofWord budget)
    (chargingEngine.loanContext (closeWith budget) (.new (.ofNat 1)) (closingTerms budget))

end Sample

/-- `Engine.loan_never_at_fault` at a debt that is to be closed with more of the collateral than there is, and at one that is closed
with fifty of it: the market's refusal is the error of the execution, and the fifty that are owed are held. -/
theorem Engine.loan_never_at_fault_close :
    (∃ b x b', Sample.lent 150 b ∧ Sample.closing 150 b = .error x b' ∧
      Sample.chargingEngine.execute (Sample.closeWith 150) ⟨Sample.ledger, .new (.ofNat 1)⟩ =
        .error x ⟨b'.ledger, ⟨.ofNat 1, .idle, 1⟩⟩) ∧
    ∃ b done b', Sample.lent 50 b ∧ Sample.closing 50 b = .ok done b' ∧ Sample.chargingEngine.Apart (Sample.closeWith 50) ∧
      b'.clearing.held (.ofNat 10) = .ofWord 50 := by
  constructor
  · have hc : Step.yields (LoanDesk.handOver (Sample.chargingEngine.loanContext (Sample.closeWith 150) (.new (.ofNat 1))
        (Sample.closingTerms 150))) ⟨Sample.ledger, .new (.ofNat 1)⟩
        (fun _ b => !(Sample.closing 150).yields b fun _ _ => true) = true := by decide +kernel
    obtain ⟨_, b, hover, hfails⟩ := Step.exists_ok_of_yields hc
    cases hx : Sample.closing 150 b with
    | ok done b' => simp [Step.yields, hx] at hfails
    | error x b' =>
      have hsized := Sample.sized_closeWith 150 (by decide) rfl
      have hfault := Engine.loan_never_at_fault (e := Sample.chargingEngine) (r := Sample.closeWith 150)
        (w := ⟨Sample.ledger, .new (.ofNat 1)⟩) rfl rfl
      exact ⟨b, x, b', hover, hx, (hfault.2 _ _ _ _ _ _ _ b hsized hover).1 x b' hx⟩
  · have hc : Step.yields (LoanDesk.handOver (Sample.chargingEngine.loanContext (Sample.closeWith 50) (.new (.ofNat 1))
        (Sample.closingTerms 50))) ⟨Sample.ledger, .new (.ofNat 1)⟩
        (fun _ b => (Sample.closing 50).yields b fun _ _ => true) = true := by decide +kernel
    obtain ⟨_, b, hover, hyields⟩ := Step.exists_ok_of_yields hc
    obtain ⟨done, b', hdone, -⟩ := Step.exists_ok_of_yields hyields
    have hapart := Sample.apart_closeWith 50
    have hsized := Sample.sized_closeWith 50 (by decide) rfl
    have hfault := Engine.loan_never_at_fault (e := Sample.chargingEngine) (r := Sample.closeWith 50)
      (w := ⟨Sample.ledger, .new (.ofNat 1)⟩) rfl rfl
    obtain ⟨-, hexact⟩ := (hfault.2 _ _ _ _ _ _ _ b hsized hover).2 done b' hdone hapart
    have hends : (Sample.path.endpoints .exactIn).1 ≠ (Sample.path.endpoints .exactIn).2 := by decide
    exact ⟨b, done, b', hover, hdone, hapart, hexact (.inr hends)⟩

end MarginRouter
