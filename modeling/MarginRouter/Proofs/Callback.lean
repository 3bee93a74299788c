import MarginRouter.Proofs.Loan

/-!
# Calls back of any lender

Whatever a lender does, a loan that is answered with a receipt has had one call back accepted and all others refused without a
trace. The accepted one need not have gone well: the desk looks at the error of the work only when the lender itself fails, and
a lender may ignore the answer to its call back. The loan has been honoured exactly when that answer was not an error.
-/

namespace MarginRouter

open Ledger Clearing Books

/-- A call back as it went: what the lender said, the state before it, the answer, and the state after it. -/
structure Exchange (σ : Type) where
  caller : Address
  callback : LoanCallback
  before : σ
  answer : Except LoanError Unit
  after : σ

namespace Conduct

variable {α σ : Type}

/-- The calls back of a course of action, in order. -/
def exchanges (ledger : σ → Ledger) (put : Ledger → σ → σ) (answer : Address → LoanCallback → Step LoanError σ Unit) :
    Conduct α → σ → List (Exchange σ)
  | done _, _ => []
  | write f next, s => (next (ledger s)).exchanges ledger put answer (put (f (ledger s)) s)
  | callBack caller callback next, s =>
    let (r, s') := (answer caller callback).outcome s
    ⟨caller, callback, s, r, s'⟩ :: (next r).exchanges ledger put answer s'

end Conduct

namespace LoanDesk

variable {ε τ : Type} {lender : FlashLender} {work : LoanContext → Step ε (Workspace τ) Unit} {context : LoanContext}

/-- The call back has been accepted, as the one that this loan waits for. -/
def Accepted (lender : FlashLender) (context : LoanContext) (x : Exchange (Deal ε τ)) : Prop :=
  accept lender.address x.before.desk.engine x.before.desk.phase x.caller x.callback = .ok context

/-- The call back has not been accepted: the lender has been told why, and nothing has changed. -/
def Refused (lender : FlashLender) (x : Exchange (Deal ε τ)) : Prop :=
  ∃ e, accept lender.address x.before.desk.engine x.before.desk.phase x.caller x.callback = .error e ∧
    x.answer = .error e ∧ x.after = x.before

/-- The loan has been honoured: what the lender delivers has been taken in, the work has been done without an error, the
clearing account has then held what is owed, and this much has been spent of it and credited to the engine. -/
def Honoured (work : LoanContext → Step ε (Workspace τ) Unit) (context : LoanContext) (d d' : Deal ε τ) : Prop :=
  ∃ b w b', takeIn context d.books = .ok () b ∧ work context ⟨b, d.notes⟩ = .ok () w ∧
    context.terms.owed ≤ w.books.clearing.held context.asset ∧
    Books.clear (fun c => c.spendHeld context.asset context.terms.owed) w.books = .ok () b' ∧
    Books.credit context.asset context.engine context.terms.owed b' = .ok () d'.books ∧ d'.notes = w.notes

theorem setAside_eq_ok {b b' : Books} {u : Unit} :
    setAside context b = .ok u b' ↔ context.terms.owed ≤ b.clearing.held context.asset ∧
      ∃ b₁, Books.clear (fun c => c.spendHeld context.asset context.terms.owed) b = .ok () b₁ ∧
        Books.credit context.asset context.engine context.terms.owed b₁ = .ok () b' := by
  simp only [setAside, Step.bind_eq_ok, Step.withError_eq_ok, Step.get_eq_ok, Step.refuse_eq_ok]
  constructor
  · rintro ⟨_, _, ⟨rfl, rfl⟩, hle, _, b₁, h₁, h₂⟩
    exact ⟨Nat.le_of_not_lt hle, b₁, h₁, h₂⟩
  · rintro ⟨hle, b₁, h₁, h₂⟩
    exact ⟨b, b, ⟨rfl, rfl⟩, Nat.not_lt.2 hle, (), b₁, h₁, h₂⟩

/-- The step leaves the desk alone, whether it succeeds or fails. -/
def LeavesDesk {α : Type} (step : Step LoanError (Deal ε τ) α) : Prop :=
  ∀ d, (step.outcome d).2.desk = d.desk

theorem LeavesDesk.bind {α β : Type} {x : Step LoanError (Deal ε τ) α} {f : α → Step LoanError (Deal ε τ) β}
    (hx : LeavesDesk x) (hf : ∀ a, LeavesDesk (f a)) : LeavesDesk (x >>= f) := by
  intro d
  have h := hx d
  rw [Step.outcome_bind]
  rcases hd : x.outcome d with ⟨_ | a, d₁⟩
  · rw [hd] at h
    exact h
  · rw [hd] at h
    exact (hf a d₁).trans h

theorem outcome_onBooks {α : Type} (step : Step LoanError Books α) (d : Deal ε τ) :
    (onBooks step).outcome d = ((step.outcome d.books).1, { d with books := (step.outcome d.books).2 }) :=
  Step.outcome_on _ _ step d

theorem leavesDesk_onBooks {α : Type} (step : Step LoanError Books α) :
    LeavesDesk (onBooks step : Step LoanError (Deal ε τ) α) := by
  intro d
  rw [outcome_onBooks]

theorem leavesDesk_carryOut (work : LoanContext → Step ε (Workspace τ) Unit) (context : LoanContext) :
    LeavesDesk (carryOut work context) := by
  intro d
  unfold Step.outcome carryOut
  cases work context d.toWorkspace with
  | ok u w => rfl
  | error e w => rfl

section Answer

variable {caller : Address} {callback : LoanCallback} {d : Deal ε τ}

/-- A call back that is not accepted changes nothing. -/
theorem answer_of_refused (work : LoanContext → Step ε (Workspace τ) Unit) {e : LoanError}
    (h : accept lender.address d.desk.engine d.desk.phase caller callback = .error e) :
    answer lender.address work caller callback d = .error e d := by
  show (Step.lift (accept lender.address d.desk.engine d.desk.phase caller callback) >>= _ : Step _ _ _) d = _
  rw [h]
  rfl

/-- A call back that is accepted sets the desk repaying before anything is done. -/
theorem answer_of_accepted (work : LoanContext → Step ε (Workspace τ) Unit)
    (h : accept lender.address d.desk.engine d.desk.phase caller callback = .ok context) :
    answer lender.address work caller callback d =
      (do onBooks (takeIn context); carryOut work context; onBooks (setAside context) : Step LoanError (Deal ε τ) Unit)
        { d with desk := { d.desk with phase := .repaying context } } := by
  show (Step.lift (accept lender.address d.desk.engine d.desk.phase caller callback) >>= _ : Step _ _ _) d = _
  rw [h]
  rfl

/-- After a call back that is accepted the desk is repaying, however the call back has gone. -/
theorem desk_of_accepted (h : accept lender.address d.desk.engine d.desk.phase caller callback = .ok context) :
    ((answer lender.address work caller callback).outcome d).2.desk = { d.desk with phase := .repaying context } := by
  rw [Step.outcome, answer_of_accepted work h]
  exact (leavesDesk_onBooks _).bind (fun _ => (leavesDesk_carryOut _ _).bind fun _ => leavesDesk_onBooks _) _

/-- An accepted call back is answered without an error exactly when the loan is honoured. -/
theorem answer_ok_iff_honoured (work : LoanContext → Step ε (Workspace τ) Unit)
    (h : accept lender.address d.desk.engine d.desk.phase caller callback = .ok context) :
    ((answer lender.address work caller callback).outcome d).1 = .ok () ↔
      Honoured work context d ((answer lender.address work caller callback).outcome d).2 := by
  constructor
  · intro ho
    unfold Step.outcome at ho ⊢
    cases ha : answer lender.address work caller callback d with
    | error e d' =>
      rw [ha] at ho
      cases ho
    | ok u d' =>
      obtain ⟨context', b, w, b', hc, hb, hw, hs, rfl⟩ := answer_eq_ok ha
      obtain rfl := Except.ok.inj (h.symm.trans hc)
      obtain ⟨hheld, b₁, h₁, h₂⟩ := setAside_eq_ok.1 hs
      exact ⟨b, w, b₁, hb, hw, hheld, h₁, h₂, rfl⟩
  · rintro ⟨b, w, b₁, hb, hw, hheld, h₁, h₂, -⟩
    generalize ((answer lender.address work caller callback).outcome d).2 = d' at h₂
    have ha : ∃ d'', answer lender.address work caller callback d = .ok () d'' := by
      simp only [answer_of_accepted work h, Step.bind_eq_ok, onBooks, Step.on_eq_ok, carryOut_eq_ok]
      exact ⟨_, (), _, ⟨b, hb, rfl⟩, (), _, ⟨w, hw, rfl⟩, d'.books, setAside_eq_ok.2 ⟨hheld, b₁, h₁, h₂⟩, rfl⟩
    obtain ⟨d', ha⟩ := ha
    rw [Step.outcome_of_ok ha]

end Answer

section Course

variable {α : Type} {c : LoanContext}

/-- The state of a deal after a course of action of the lender. -/
def follow (lender : FlashLender) (work : LoanContext → Step ε (Workspace τ) Unit) (x : Conduct α) (d : Deal ε τ) :
    Deal ε τ :=
  (x.run (fun d => d.books.ledger) (fun l d => { d with books := { d.books with ledger := l } })
    (answer lender.address work) d).2

/-- The calls back of a course of action of the lender. -/
def exchanges (lender : FlashLender) (work : LoanContext → Step ε (Workspace τ) Unit) (x : Conduct α) (d : Deal ε τ) :
    List (Exchange (Deal ε τ)) :=
  x.exchanges (fun d => d.books.ledger) (fun l d => { d with books := { d.books with ledger := l } })
    (answer lender.address work) d

/-- A call back that is not accepted comes first in the course of action, which goes on as if it had not been made. -/
theorem course_of_refused (work : LoanContext → Step ε (Workspace τ) Unit) {caller : Address} {callback : LoanCallback}
    (next : Except LoanError Unit → Conduct α) {d : Deal ε τ} {e : LoanError}
    (h : accept lender.address d.desk.engine d.desk.phase caller callback = .error e) :
    exchanges lender work (.callBack caller callback next) d =
        ⟨caller, callback, d, .error e, d⟩ :: exchanges lender work (next (.error e)) d ∧
      follow lender work (.callBack caller callback next) d = follow lender work (next (.error e)) d := by
  have ho : (answer lender.address work caller callback).outcome d = (.error e, d) := by
    rw [Step.outcome, answer_of_refused work h]
  constructor
  · simp only [exchanges, Conduct.exchanges, ho]
  · simp only [follow, Conduct.run, ho]

/-- While the desk is repaying, every call back is refused, and desk and notes stay as they are. -/
theorem refused_of_repaying (lender : FlashLender) (work : LoanContext → Step ε (Workspace τ) Unit) (x : Conduct α) :
    ∀ {d : Deal ε τ}, d.desk.phase = .repaying c →
      (∀ y ∈ exchanges lender work x d, Refused lender y) ∧ (follow lender work x d).desk = d.desk ∧
        (follow lender work x d).notes = d.notes := by
  induction x with
  | done a =>
    intro d _
    exact ⟨fun y hy => absurd hy List.not_mem_nil, rfl, rfl⟩
  | write f next ih =>
    intro d hd
    exact ih d.books.ledger (d := { d with books := { d.books with ledger := f d.books.ledger } }) hd
  | callBack caller callback next ih =>
    intro d hd
    cases ha : accept lender.address d.desk.engine d.desk.phase caller callback with
    | ok context =>
      rw [hd] at ha
      cases (accept_eq_ok ha).2
    | error e =>
      obtain ⟨hexchanges, hfollow⟩ := course_of_refused work next ha
      obtain ⟨hrest, hstay⟩ := ih (.error e) hd
      rw [hexchanges, hfollow]
      refine ⟨fun y hy => ?_, hstay⟩
      rcases List.mem_cons.1 hy with rfl | hy
      · exact ⟨e, ha, rfl, rfl⟩
      · exact hrest y hy

/-- All that a course of action can come to when the desk waits for a call back: all calls back are refused and the desk still
waits, or one is accepted, all others are refused, and the desk is repaying. The induction is on the course of action; after
the accepted call back the desk is repaying. -/
theorem course_cases (lender : FlashLender) (work : LoanContext → Step ε (Workspace τ) Unit) (x : Conduct α) :
    ∀ {d : Deal ε τ}, d.desk.phase = .borrowing context →
      ((∀ y ∈ exchanges lender work x d, Refused lender y) ∧ (follow lender work x d).desk = d.desk ∧
        (follow lender work x d).notes = d.notes) ∨
      ∃ before y after, exchanges lender work x d = before ++ y :: after ∧ Accepted lender context y ∧
        (∀ z ∈ before ++ after, Refused lender z) ∧ y.before.desk = d.desk ∧ y.before.notes = d.notes ∧
        (answer lender.address work y.caller y.callback).outcome y.before = (y.answer, y.after) ∧
        (follow lender work x d).desk = { d.desk with phase := .repaying context } ∧
        (follow lender work x d).notes = y.after.notes := by
  induction x with
  | done a =>
    intro d _
    exact .inl ⟨fun y hy => absurd hy List.not_mem_nil, rfl, rfl⟩
  | write f next ih =>
    intro d hd
    exact ih d.books.ledger (d := { d with books := { d.books with ledger := f d.books.ledger } }) hd
  | callBack caller callback next ih =>
    intro d hd
    cases ha : accept lender.address d.desk.engine d.desk.phase caller callback with
    | ok context' =>
      obtain rfl : context = context' := by
        have hphase := (accept_eq_ok ha).2
        rw [hd] at hphase
        cases hphase
        rfl
      have hdesk : ((answer lender.address work caller callback).outcome d).2.desk =
          { d.desk with phase := .repaying context } := desk_of_accepted ha
      obtain ⟨hrest, hstay, hnotes⟩ := refused_of_repaying lender work
        (next ((answer lender.address work caller callback).outcome d).1) (congrArg LoanDesk.phase hdesk)
      exact .inr ⟨[], _, _, rfl, ha, hrest, rfl, rfl, rfl, hstay.trans hdesk, hnotes⟩
    | error e =>
      obtain ⟨hexchanges, hfollow⟩ := course_of_refused work next ha
      have hfirst : Refused lender (⟨caller, callback, d, .error e, d⟩ : Exchange (Deal ε τ)) := ⟨e, ha, rfl, rfl⟩
      rw [hexchanges, hfollow]
      rcases ih (.error e) hd with ⟨hrest, hstay⟩ | ⟨before, y, after, he, hy, hz, hrest⟩
      · refine .inl ⟨fun y hy => ?_, hstay⟩
        rcases List.mem_cons.1 hy with rfl | hy
        · exact hfirst
        · exact hrest y hy
      · refine .inr ⟨⟨caller, callback, d, .error e, d⟩ :: before, y, after, congrArg _ he, hy, fun z hz' => ?_, hrest⟩
        rcases List.mem_cons.1 hz' with rfl | hz'
        · exact hfirst
        · exact hz z hz'

/-- When the desk waits for a call back and has had one in the end, one call back has been accepted and all others, before it
and after it, have been refused. -/
theorem accepted_once (x : Conduct α) {d : Deal ε τ} (hd : d.desk.phase = .borrowing context)
    (hend : (follow lender work x d).desk.phase = .repaying c) :
    ∃ before y after, exchanges lender work x d = before ++ y :: after ∧ Accepted lender context y ∧
      (∀ z ∈ before ++ after, Refused lender z) ∧ (y.answer = .ok () ↔ Honoured work context y.before y.after) := by
  rcases course_cases lender work x hd with ⟨-, hdesk, -⟩ | ⟨before, y, after, he, hy, hz, -, -, ho, -⟩
  · rw [hdesk, hd] at hend
    cases hend
  · refine ⟨before, y, after, he, hy, hz, ?_⟩
    have hiff := answer_ok_iff_honoured work hy
    rw [ho] at hiff
    exact hiff

end Course

/-- The calls back that the lender of a loan on these terms makes. -/
def callBacks (lender : FlashLender) (plan : LoanPlan) (work : LoanContext → Step ε (Workspace τ) Unit) (terms : LoanTerms)
    (s : Session τ) : List (Exchange (Deal ε τ)) :=
  exchanges lender work (lender.conduct (requestFor (contextFor s.desk lender plan terms))).run
    (opening ε s (contextFor s.desk lender plan terms))

/-- A loan answered with a receipt, whatever the lender does: it was asked for at an idle desk, exactly one call back has been
accepted, all others have been refused and have changed nothing, and the loan has been honoured exactly when the accepted
call back was answered without an error. -/
theorem borrow_honoured_iff {plan : LoanPlan} {embed : LoanError → ε} {s s' : Session τ} {r : LoanReceipt}
    (h : borrow lender plan work embed s = .ok r s') :
    s.desk.phase = .idle ∧ r.provider = lender.address ∧ r.asset = plan.asset ∧ lender.terms plan.gross = .ok r.terms ∧
      ∃ before x after, callBacks lender plan work r.terms s = before ++ x :: after ∧
        Accepted lender (contextFor s.desk lender plan r.terms) x ∧ (∀ y ∈ before ++ after, Refused lender y) ∧
        (x.answer = .ok () ↔ Honoured work (contextFor s.desk lender plan r.terms) x.before x.after) := by
  obtain ⟨hidle, terms, d, hterms, hends, ⟨c, hc⟩, rfl, rfl⟩ := borrow_eq_ok h
  refine ⟨hidle, rfl, rfl, hterms, ?_⟩
  have hend : (follow lender work (lender.conduct (requestFor (contextFor s.desk lender plan terms))).run
      (opening ε s (contextFor s.desk lender plan terms))).desk.phase = .repaying c := by
    rw [follow, hends]
    exact hc
  exact accepted_once _ rfl hend

/-- A session of engine 1 in which it and account 2 have five of token 3 each. -/
def sampleSession : Session Unit :=
  ⟨⟨⟨(Ledger.empty.setBalance (.ofNat 3) (.ofNat 1) ⟨5, by decide⟩).setBalance (.ofNat 3) (.ofNat 2) ⟨5, by decide⟩,
    .new (.ofNat 1)⟩, ()⟩, .new (.ofNat 1)⟩

/-- A loan of five of token 3. -/
def samplePlan : LoanPlan :=
  ⟨.ofNat 4, .ofNat 3, ⟨5, by decide⟩, ⟨[], .ofNat 3, none⟩, .exactIn⟩

/-- `borrow_honoured_iff` holds of a loan of the reserve lender of which nothing is used. -/
theorem borrow_reserve_honoured_iff : ∃ r s',
    borrow (.reserve (.ofNat 2) ⟨0, 1, by decide⟩ .surcharge) samplePlan (fun _ => pure ()) id sampleSession = .ok r s' ∧
      sampleSession.desk.phase = .idle ∧ ∃ before x after,
        callBacks (ε := LoanError) (.reserve (.ofNat 2) ⟨0, 1, by decide⟩ .surcharge) samplePlan (fun _ => pure ()) r.terms
          sampleSession = before ++ x :: after := by
  have hc : Step.yields (borrow (.reserve (.ofNat 2) ⟨0, 1, by decide⟩ .surcharge) samplePlan
      (fun _ => (pure () : Step LoanError (Workspace Unit) Unit)) id) sampleSession (fun _ _ => true) = true := by
    decide +kernel
  obtain ⟨r, s', hs, -⟩ := Step.exists_ok_of_yields hc
  obtain ⟨hidle, -, -, -, before, x, after, he, -⟩ := borrow_honoured_iff hs
  exact ⟨r, s', hs, hidle, before, x, after, he⟩

/-- A lender that calls back as it should, ignores the answer, and charges what it should. -/
def heedless (address : Address) (rate : FeeRate) (mode : FeeMode) : FlashLender where
  address := address
  rate := rate
  mode := mode
  conduct request := do
    let terms ← FlashLender.offer rate mode request.amount
    ExceptT.lift (Conduct.callBack address (FlashLender.callbackFor request terms) fun _ => .done ())
    return terms

/-- A receipt does not mean that the work has been done: with a lender that ignores the answer to its call back, the loan is
answered with a receipt although the work, of which every run fails, has failed. -/
theorem borrow_means_done_false :
    ¬∀ (lender : FlashLender) (plan : LoanPlan) (work : LoanContext → Step LoanError (Workspace Unit) Unit)
      (s s' : Session Unit) (r : LoanReceipt), borrow lender plan work id s = .ok r s' →
      ∃ context w w', work context w = .ok () w' := by
  intro hall
  have hc : Step.yields (borrow (heedless (.ofNat 2) ⟨0, 1, by decide⟩ .surcharge) samplePlan
      (fun _ => (throw .reentrancy : Step LoanError (Workspace Unit) Unit)) id) sampleSession (fun _ _ => true) = true := by
    decide +kernel
  obtain ⟨r, s', hs, -⟩ := Step.exists_ok_of_yields hc
  obtain ⟨context, w, w', hw⟩ := hall _ _ _ _ _ _ hs
  exact Step.throw_ne_ok hw

end LoanDesk

end MarginRouter
