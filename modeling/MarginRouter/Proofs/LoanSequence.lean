import MarginRouter.Proofs.Callback

/-!
# Loans one after the other

A desk takes loan after loan, of lenders that do what they like. Each loan that a lender has terms for counts up the nonce, and
in the end the desk is idle. To say when the work of a loan is run, and for which loan, the work is made to record its runs; the
record is kept beside the notes and changes nothing else. In a loan the work is run at most once, and only when the lender's
own address calls back with the loan that is being borrowed.
-/

namespace MarginRouter

open Ledger Clearing Books

/-- The session without the record of runs. -/
def Session.forget {τ : Type} (s : Session (τ × List LoanContext)) : Session τ :=
  ⟨⟨s.books, s.notes.1⟩, s.desk⟩

/-- The deal without the record of runs. -/
def Deal.forget {ε τ : Type} (d : Deal ε (τ × List LoanContext)) : Deal ε τ :=
  ⟨d.toSession.forget, d.failure⟩

namespace LoanDesk

variable {ε τ : Type} {lender : FlashLender} {plan : LoanPlan} {work : LoanContext → Step ε (Workspace τ) Unit} {context : LoanContext}
variable {embed : LoanError → ε} {terms : LoanTerms}

/-! ## The record of runs -/

/-- The work, recording each loan that it is run for, whether it then succeeds or fails. -/
def recording (work : LoanContext → Step ε (Workspace τ) Unit) (context : LoanContext) :
    Step ε (Workspace (τ × List LoanContext)) Unit := fun w =>
  match work context ⟨w.books, w.notes.1⟩ with
  | .ok u w' => .ok u ⟨w'.books, w'.notes, w.notes.2 ++ [context]⟩
  | .error e w' => .error e ⟨w'.books, w'.notes, w.notes.2 ++ [context]⟩

/-- But for the record, the one step does what the other does. -/
def Records {α : Type} (step : Step LoanError (Deal ε (τ × List LoanContext)) α) (step' : Step LoanError (Deal ε τ) α) :
    Prop :=
  ∀ d, step'.outcome d.forget = ((step.outcome d).1, (step.outcome d).2.forget)

theorem Records.bind {α β : Type} {x : Step LoanError (Deal ε (τ × List LoanContext)) α} {x' : Step LoanError (Deal ε τ) α}
    {f : α → Step LoanError (Deal ε (τ × List LoanContext)) β} {f' : α → Step LoanError (Deal ε τ) β} (hx : Records x x')
    (hf : ∀ a, Records (f a) (f' a)) : Records (x >>= f) (x' >>= f') := by
  intro d
  rw [Step.outcome_bind, Step.outcome_bind, hx d]
  rcases x.outcome d with ⟨_ | a, d₁⟩
  · rfl
  · exact hf a d₁

theorem records_onBooks {α : Type} (step : Step LoanError Books α) :
    Records (onBooks step : Step LoanError (Deal ε (τ × List LoanContext)) α) (onBooks step) := by
  intro d
  rw [outcome_onBooks, outcome_onBooks]
  rfl

theorem records_carryOut (work : LoanContext → Step ε (Workspace τ) Unit) (context : LoanContext) :
    Records (carryOut (recording work) context) (carryOut work context) := by
  intro d
  have hspace : d.forget.toWorkspace = ⟨d.books, d.notes.1⟩ := rfl
  unfold Step.outcome carryOut recording
  rw [hspace]
  cases work context ⟨d.books, d.notes.1⟩ with
  | ok u w => rfl
  | error e w => rfl

theorem records_answer (work : LoanContext → Step ε (Workspace τ) Unit) (caller : Address) (callback : LoanCallback) :
    Records (answer lender.address (recording work) caller callback) (answer lender.address work caller callback) := by
  intro d
  have hdesk : d.forget.desk = d.desk := rfl
  cases ha : accept lender.address d.desk.engine d.desk.phase caller callback with
  | error e =>
    have hr := answer_of_refused (recording work) ha
    have hr' := answer_of_refused (d := d.forget) work (hdesk ▸ ha)
    unfold Step.outcome
    rw [hr, hr']
  | ok context =>
    have hr := answer_of_accepted (recording work) ha
    have hr' := answer_of_accepted (d := d.forget) work (hdesk ▸ ha)
    unfold Step.outcome
    rw [hr, hr']
    exact (records_onBooks _).bind (fun _ => (records_carryOut _ _).bind fun _ => records_onBooks _)
      { d with desk := { d.desk with phase := .repaying context } }

/-! ## One loan -/

/-- The answer of the desk, and what it leaves, when the lender has come to its end. -/
def closing (embed : LoanError → ε) (context : LoanContext) (result : Except LoanError LoanTerms) (d : Deal ε τ) :
    Except ε LoanReceipt × Session τ :=
  (match result, d.desk.phase with
    | .error e, _ => .error (d.failure.getD (embed e))
    | .ok charged, .repaying _ =>
      if charged = context.terms then .ok ⟨context.provider, context.asset, context.terms, context.nonce⟩
      else .error (embed (.contextMismatch .terms))
    | .ok _, _ => .error (embed .callbackMissing),
    { d.toSession with desk := { d.desk with phase := .idle } })

theorem closing_forget (result : Except LoanError LoanTerms) (d : Deal ε (τ × List LoanContext)) :
    closing embed context result d.forget = ((closing embed context result d).1, (closing embed context result d).2.forget) :=
  rfl

/-- How the lender of a loan comes to its end, and in which state. -/
def conducted (lender : FlashLender) (work : LoanContext → Step ε (Workspace τ) Unit) (context : LoanContext) (s : Session τ) :
    Except LoanError LoanTerms × Deal ε τ :=
  (lender.conduct (requestFor context)).run.run (fun d => d.books.ledger)
    (fun l d => { d with books := { d.books with ledger := l } }) (answer lender.address work) (opening ε s context)

/-- A loan that the lender has terms for, asked for at an idle desk: the lender is followed to its end. -/
theorem borrow_outcome {s : Session τ} (hidle : s.desk.phase = .idle) (hterms : lender.terms plan.gross = .ok terms) :
    (borrow lender plan work embed).outcome s =
      closing embed (contextFor s.desk lender plan terms)
        (conducted lender work (contextFor s.desk lender plan terms) s).1
        (conducted lender work (contextFor s.desk lender plan terms) s).2 := by
  unfold Step.outcome borrow
  rw [if_neg (not_not.2 hidle), hterms]
  unfold conducted opening closing
  simp only
  generalize Conduct.run _ _ _ _ _ = run
  obtain ⟨result, d⟩ := run
  cases result with
  | error e => rfl
  | ok charged =>
    cases hphase : d.desk.phase with
    | idle => rfl
    | borrowing c => rfl
    | repaying c =>
      by_cases hc : charged = terms
      · simp only [contextFor, hc, if_true]
      · simp only [contextFor, hc, if_false]

/-- A loan that the lender has no terms for leaves everything as it is. -/
theorem borrow_without_terms {s : Session τ} {e : FeeError} (hidle : s.desk.phase = .idle)
    (hterms : lender.terms plan.gross = .error e) :
    (borrow lender plan work embed).outcome s = (.error (embed (.fee e)), s) := by
  unfold Step.outcome borrow
  rw [if_neg (not_not.2 hidle), hterms]

/-- A loan whose work records its runs is answered as the loan whose work does not, and leaves the same but for the record. -/
theorem borrow_recording {s : Session (τ × List LoanContext)} (hidle : s.desk.phase = .idle) :
    (borrow lender plan work embed).outcome s.forget =
      (((borrow lender plan (recording work) embed).outcome s).1,
        ((borrow lender plan (recording work) embed).outcome s).2.forget) := by
  have hdesk : s.forget.desk = s.desk := rfl
  cases hterms : lender.terms plan.gross with
  | error e =>
    rw [borrow_without_terms hidle hterms, borrow_without_terms (hdesk ▸ hidle) hterms]
  | ok terms =>
    have hrun : conducted lender work (contextFor s.desk lender plan terms) s.forget =
        ((conducted lender (recording work) (contextFor s.desk lender plan terms) s).1,
          (conducted lender (recording work) (contextFor s.desk lender plan terms) s).2.forget) :=
      Conduct.run_map Deal.forget (fun _ => rfl) (fun _ _ => rfl) (records_answer work) _
        (opening ε s (contextFor s.desk lender plan terms))
    rw [borrow_outcome hidle hterms, borrow_outcome (hdesk ▸ hidle) hterms, hdesk, hrun]
    exact closing_forget _ _

theorem record_carryOut (work : LoanContext → Step ε (Workspace τ) Unit) (context : LoanContext)
    (d : Deal ε (τ × List LoanContext)) :
    ((carryOut (recording work) context).outcome d).2.notes.2 = d.notes.2 ++ [context] := by
  unfold Step.outcome carryOut recording
  cases work context ⟨d.books, d.notes.1⟩ with
  | ok u w => rfl
  | error e w => rfl

/-- An accepted call back has the work run for its loan, once at most. -/
theorem record_of_accepted (work : LoanContext → Step ε (Workspace τ) Unit) {caller : Address} {callback : LoanCallback}
    {d : Deal ε (τ × List LoanContext)}
    (h : accept lender.address d.desk.engine d.desk.phase caller callback = .ok context) :
    ((answer lender.address (recording work) caller callback).outcome d).2.notes.2 = d.notes.2 ∨
      ((answer lender.address (recording work) caller callback).outcome d).2.notes.2 = d.notes.2 ++ [context] := by
  have hanswer : (answer lender.address (recording work) caller callback).outcome d =
      (onBooks (takeIn context) >>= fun _ => carryOut (recording work) context >>= fun _ =>
        onBooks (setAside context)).outcome { d with desk := { d.desk with phase := .repaying context } } := by
    unfold Step.outcome
    rw [answer_of_accepted _ h]
  rw [hanswer, Step.outcome_bind, outcome_onBooks]
  rcases (takeIn context).outcome d.books with ⟨_ | u, b⟩
  · exact .inl rfl
  · right
    have hrecord := record_carryOut work context
      { d with books := b, desk := { d.desk with phase := .repaying context } }
    simp only
    rw [Step.outcome_bind]
    rcases hc : (carryOut (recording work) context).outcome
      { d with books := b, desk := { d.desk with phase := .repaying context } } with ⟨_ | u, d₂⟩
    · rw [hc] at hrecord
      exact hrecord
    · rw [hc] at hrecord
      simp only
      rw [outcome_onBooks]
      exact hrecord

/-- If all but one are refused, of any two one is refused. -/
theorem pairwise_refused {σ : Type} {P : Exchange σ → Prop} {before after : List (Exchange σ)} {y : Exchange σ}
    (h : ∀ z ∈ before ++ after, P z) : (before ++ y :: after).Pairwise fun x z => P x ∨ P z := by
  have hbefore : ∀ x ∈ before, P x := fun x hx => h x (List.mem_append_left _ hx)
  have hafter : ∀ x ∈ after, P x := fun x hx => h x (List.mem_append_right _ hx)
  rw [List.pairwise_append, List.pairwise_cons]
  refine ⟨?_, ⟨fun x hx => .inr (hafter x hx), ?_⟩, fun x hx _ _ => .inl (hbefore x hx)⟩
  · exact List.pairwise_of_forall_mem_list fun x hx _ _ => .inl (hbefore x hx)
  · exact List.pairwise_of_forall_mem_list fun x hx _ _ => .inl (hafter x hx)

/-- All that the calls back of a loan can come to, and the record of its runs: of any two calls back one is refused at least, one
that is not refused is the genuine one, and the work is run for the loan once at most, by that one. -/
theorem callBacks_once (lender : FlashLender) (plan : LoanPlan) (work : LoanContext → Step ε (Workspace τ) Unit)
    (terms : LoanTerms) {s : Session (τ × List LoanContext)} (hrecord : s.notes.2 = []) :
    ((conducted lender (recording work) (contextFor s.desk lender plan terms) s).2.notes.2 = [] ∨
      (conducted lender (recording work) (contextFor s.desk lender plan terms) s).2.notes.2 =
        [contextFor s.desk lender plan terms]) ∧
    (callBacks lender plan (recording work) terms s).Pairwise (fun x y => Refused lender x ∨ Refused lender y) ∧
    ∀ x ∈ callBacks lender plan (recording work) terms s, Refused lender x ∨
      (x.caller = lender.address ∧
        x.callback = ⟨s.desk.engine, plan.asset, terms.gross, terms.fee, s.desk.nonce + 1⟩ ∧
        (x.after.notes.2 = x.before.notes.2 ∨
          x.after.notes.2 = x.before.notes.2 ++ [contextFor s.desk lender plan terms])) := by
  have hphase : (opening ε s (contextFor s.desk lender plan terms)).desk.phase =
      .borrowing (contextFor s.desk lender plan terms) := rfl
  rcases course_cases lender (recording work)
    (lender.conduct (requestFor (contextFor s.desk lender plan terms))).run hphase with
    ⟨hall, -, hnotes⟩ | ⟨before, y, after, he, hy, hz, hdesk, hbefore, ho, -, hnotes⟩
  · refine ⟨.inl ?_, List.pairwise_of_forall_mem_list fun x hx _ _ => .inl (hall x hx), fun x hx => .inl (hall x hx)⟩
    exact (congrArg Prod.snd hnotes).trans hrecord
  · have hafter : y.after.notes.2 = y.before.notes.2 ∨
        y.after.notes.2 = y.before.notes.2 ++ [contextFor s.desk lender plan terms] := by
      have h := record_of_accepted work hy
      rw [ho] at h
      exact h
    have hnone : y.before.notes.2 = [] := (congrArg Prod.snd hbefore).trans hrecord
    have hlist : callBacks lender plan (recording work) terms s = before ++ y :: after := he
    rw [hlist]
    refine ⟨?_, pairwise_refused hz, fun x hx => ?_⟩
    · have hend : (conducted lender (recording work) (contextFor s.desk lender plan terms) s).2.notes.2 = y.after.notes.2 :=
        congrArg Prod.snd hnotes
      rw [hend]
      rw [hnone, List.nil_append] at hafter
      exact hafter
    · rw [List.mem_append, List.mem_cons] at hx
      rcases hx with hx | rfl | hx
      · exact .inl (hz x (List.mem_append_left _ hx))
      · have hcallback := callback_of_accept hy
        rw [hdesk] at hcallback
        exact .inr ⟨(accept_eq_ok hy).1, hcallback, hafter⟩
      · exact .inl (hz x (List.mem_append_right _ hx))

end LoanDesk

/-! ## Many loans -/

/-- A loan that is asked for at some desk: of whom, what for, what is done with it, and the books and notes that it starts
from. -/
structure LoanOrder where
  ε : Type
  τ : Type
  lender : FlashLender
  plan : LoanPlan
  work : LoanContext → Step ε (Workspace τ) Unit
  embed : LoanError → ε
  workspace : Workspace τ

namespace LoanOrder

/-- The terms of the lender for the loan. -/
def terms (o : LoanOrder) : Except FeeError LoanTerms :=
  o.lender.terms o.plan.gross

/-- What the loan is answered at a desk, and what it leaves. -/
def outcome (o : LoanOrder) (desk : LoanDesk) : Except o.ε LoanReceipt × Session o.τ :=
  (LoanDesk.borrow o.lender o.plan o.work o.embed).outcome ⟨o.workspace, desk⟩

/-- The session that the loan starts from at a desk, with an empty record of runs. -/
def opened (o : LoanOrder) (desk : LoanDesk) : Session (o.τ × List LoanContext) :=
  ⟨⟨o.workspace.books, o.workspace.notes, []⟩, desk⟩

/-- The loan with its runs recorded. -/
def recorded (o : LoanOrder) (desk : LoanDesk) : Except o.ε LoanReceipt × Session (o.τ × List LoanContext) :=
  (LoanDesk.borrow o.lender o.plan (LoanDesk.recording o.work) o.embed).outcome (o.opened desk)

/-- The loans that the work has been run for. -/
def runs (o : LoanOrder) (desk : LoanDesk) : List LoanContext :=
  (o.recorded desk).2.notes.2

/-- The calls back of the lender in a loan on these terms, with the runs recorded. -/
def callBacks (o : LoanOrder) (desk : LoanDesk) (terms : LoanTerms) : List (Exchange (Deal o.ε (o.τ × List LoanContext))) :=
  LoanDesk.callBacks o.lender o.plan (LoanDesk.recording o.work) terms (o.opened desk)

variable {o : LoanOrder} {desk : LoanDesk}

/-- A loan leaves its desk idle, with the nonce counted up if the lender has terms for it. -/
theorem desk_outcome (hidle : desk.phase = .idle) :
    (o.outcome desk).2.desk = ⟨desk.engine, .idle, desk.nonce + if o.terms.isOk then 1 else 0⟩ := by
  unfold outcome
  cases hterms : o.terms with
  | error e =>
    rw [LoanDesk.borrow_without_terms hidle hterms]
    show desk = ⟨desk.engine, .idle, desk.nonce⟩
    rw [← hidle]
  | ok terms =>
    rw [LoanDesk.borrow_outcome hidle hterms]
    rcases LoanDesk.course_cases o.lender o.work
      (o.lender.conduct (LoanDesk.requestFor (LoanDesk.contextFor desk o.lender o.plan terms))).run
      (d := LoanDesk.opening o.ε ⟨o.workspace, desk⟩ (LoanDesk.contextFor desk o.lender o.plan terms)) rfl with
      ⟨-, hdesk, -⟩ | ⟨-, -, -, -, -, -, -, -, -, hdesk, -⟩
    · exact congrArg (fun d => LoanDesk.mk d.engine .idle d.nonce) hdesk
    · exact congrArg (fun d => LoanDesk.mk d.engine .idle d.nonce) hdesk

end LoanOrder

/-- The desk after a run of loans. -/
def LoanDesk.after (desk : LoanDesk) (orders : List LoanOrder) : LoanDesk :=
  orders.foldl (fun desk o => (o.outcome desk).2.desk) desk

/-- A run of loans leaves its desk idle, with the nonce counted up once for each loan that its lender has terms for. -/
theorem LoanDesk.after_eq : ∀ (orders : List LoanOrder) {desk : LoanDesk}, desk.phase = .idle →
    desk.after orders = ⟨desk.engine, .idle, desk.nonce + orders.countP fun o => o.terms.isOk⟩
  | [], desk, hidle => by
    show desk = ⟨desk.engine, .idle, desk.nonce⟩
    rw [← hidle]
  | o :: orders, desk, hidle => by
    have hfirst := LoanOrder.desk_outcome (o := o) hidle
    have hrest := after_eq orders (congrArg LoanDesk.phase hfirst)
    have hcons : desk.after (o :: orders) = (o.outcome desk).2.desk.after orders := rfl
    rw [hcons, hrest, hfirst, List.countP_cons, Nat.add_assoc, Nat.add_comm (orders.countP _)]

/-- At most one run of the work, only for the genuine loan, and always back to idle. A desk that has lent before, to whatever
lenders, is idle, and its nonce counts the loans that their lenders have had terms for. Recording the runs of the work changes
nothing. Where the lender has no terms the loan leaves everything as it is. Where it has, the work is run once at most, for the
loan with the plan's user, asset, path and direction and the lender's terms; of any two calls back one is refused, without a
trace; one that is not refused comes from the lender's address and says what this loan is, and it alone has the work run; and
one with the nonce of an earlier loan is refused. -/
theorem LoanDesk.runs_once (engine : Address) (earlier : List LoanOrder) (o : LoanOrder) :
    let desk := (new engine).after earlier
    desk = ⟨engine, .idle, earlier.countP fun o => o.terms.isOk⟩ ∧
    o.outcome desk = ((o.recorded desk).1, (o.recorded desk).2.forget) ∧
    (∀ error, o.terms = .error error → o.runs desk = [] ∧ (o.outcome desk).2 = ⟨o.workspace, desk⟩) ∧
    ∀ terms, o.terms = .ok terms →
      let context : LoanContext :=
        ⟨o.plan.user, engine, o.lender.address, o.plan.asset, terms, o.plan.path, o.plan.direction, desk.nonce + 1⟩
      (o.runs desk = [] ∨ o.runs desk = [context]) ∧
      (o.callBacks desk terms).Pairwise (fun x y => Refused o.lender x ∨ Refused o.lender y) ∧
      ∀ x ∈ o.callBacks desk terms,
        (Refused o.lender x ∨
          (x.caller = o.lender.address ∧
            x.callback = ⟨engine, o.plan.asset, terms.gross, terms.fee, desk.nonce + 1⟩ ∧
            (x.after.notes.2 = x.before.notes.2 ∨ x.after.notes.2 = x.before.notes.2 ++ [context]))) ∧
        (x.callback.nonce ≤ desk.nonce → Refused o.lender x) := by
  intro desk
  have hdesk : desk = ⟨engine, .idle, earlier.countP fun o => o.terms.isOk⟩ := by
    have h : (new engine).after earlier = _ := after_eq earlier rfl
    rw [show (new engine).nonce = 0 from rfl, Nat.zero_add] at h
    exact h
  have hidle : desk.phase = .idle := by rw [hdesk]
  have hengine : desk.engine = engine := by rw [hdesk]
  refine ⟨hdesk, borrow_recording (s := o.opened desk) hidle, fun error herror => ?_, fun terms hterms => ?_⟩
  · constructor
    · unfold LoanOrder.runs LoanOrder.recorded
      rw [borrow_without_terms (s := o.opened desk) hidle herror]
      rfl
    · unfold LoanOrder.outcome
      rw [borrow_without_terms (s := ⟨o.workspace, desk⟩) hidle herror]
  · obtain ⟨hruns, hpairs, hcallBacks⟩ := callBacks_once o.lender o.plan o.work terms (s := o.opened desk) rfl
    have hcontext : contextFor desk o.lender o.plan terms =
        ⟨o.plan.user, engine, o.lender.address, o.plan.asset, terms, o.plan.path, o.plan.direction, desk.nonce + 1⟩ := by
      rw [← hengine]
      rfl
    have hend : o.runs desk =
        (conducted o.lender (recording o.work) (contextFor desk o.lender o.plan terms) (o.opened desk)).2.notes.2 := by
      unfold LoanOrder.runs LoanOrder.recorded
      rw [borrow_outcome (s := o.opened desk) hidle hterms]
      rfl
    have hopened : (o.opened desk).desk = desk := rfl
    rw [hopened, hengine] at hcallBacks
    rw [hopened] at hruns
    rw [← hcontext, hend]
    refine ⟨hruns, hpairs, fun x hx => ⟨hcallBacks x hx, fun hold => ?_⟩⟩
    rcases hcallBacks x hx with hrefused | ⟨-, hcallback, -⟩
    · exact hrefused
    · rw [hcallback] at hold
      exact absurd hold (Nat.not_succ_le_self _)

/-- A lender that first repeats the call back of the loan before, then calls back as it should, twice, and heeds no answer. -/
def FlashLender.replaying (address : Address) (rate : FeeRate) (mode : FeeMode) : FlashLender where
  address := address
  rate := rate
  mode := mode
  conduct request := do
    let terms ← FlashLender.offer rate mode request.amount
    let callback := FlashLender.callbackFor request terms
    ExceptT.lift (Conduct.callBack address { callback with nonce := callback.nonce - 1 } fun _ => .done ())
    ExceptT.lift (Conduct.callBack address callback fun _ => .done ())
    ExceptT.lift (Conduct.callBack address callback fun _ => .done ())
    return terms

namespace LoanDesk

/-- A loan of five of token 3 of which nothing is used. -/
def sampleOrder (lender : FlashLender) : LoanOrder :=
  ⟨LoanError, Unit, lender, samplePlan, fun _ => pure (), id, sampleSession.toWorkspace⟩

def sampleTerms : LoanTerms :=
  ⟨samplePlan.gross, 0, samplePlan.gross, samplePlan.gross⟩

/-- `runs_once` at a second loan: a lender that repeats the call back of the first is refused and then has the work run once, and
one without terms has it not run. -/
theorem runs_once_replaying :
    let desk := (new (.ofNat 1)).after [sampleOrder (.reserve (.ofNat 2) ⟨0, 1, by decide⟩ .surcharge)]
    let o := sampleOrder (.replaying (.ofNat 2) ⟨0, 1, by decide⟩ .surcharge)
    let refusing := sampleOrder { o.lender with terms := fun _ => .error .overflow }
    desk.nonce = 1 ∧ o.terms = .ok sampleTerms ∧
      (o.callBacks desk sampleTerms).map (fun x => x.callback.nonce) = [1, 2, 2] ∧
      (∃ x ∈ o.callBacks desk sampleTerms, x.callback.nonce = 1 ∧ Refused o.lender x) ∧
      o.runs desk = [⟨.ofNat 4, .ofNat 1, .ofNat 2, .ofNat 3, sampleTerms, samplePlan.path, .exactIn, 2⟩] ∧
      refusing.terms = .error .overflow ∧ refusing.runs desk = [] := by
  intro desk o refusing
  have hnonce : desk.nonce = 1 := by decide +kernel
  have hterms : o.terms = .ok sampleTerms := Attempt.ok_of_toOption (by decide +kernel)
  have hnonces : (o.callBacks desk sampleTerms).map (fun x => x.callback.nonce) = [1, 2, 2] := by decide +kernel
  have hran : o.runs desk ≠ [] := by decide +kernel
  obtain ⟨-, -, -, hcourse⟩ := runs_once (.ofNat 1) [sampleOrder (.reserve (.ofNat 2) ⟨0, 1, by decide⟩ .surcharge)] o
  obtain ⟨hruns, -, hcallBacks⟩ := hcourse sampleTerms hterms
  obtain ⟨-, -, hwithout, -⟩ :=
    runs_once (.ofNat 1) [sampleOrder (.reserve (.ofNat 2) ⟨0, 1, by decide⟩ .surcharge)] refusing
  have hmem : 1 ∈ (o.callBacks desk sampleTerms).map fun x => x.callback.nonce := by
    rw [hnonces]
    exact List.mem_cons_self
  obtain ⟨x, hx, hold⟩ := List.mem_map.1 hmem
  refine ⟨hnonce, hterms, hnonces, ⟨x, hx, hold, ?_⟩, ?_, rfl, (hwithout .overflow rfl).1⟩
  · exact (hcallBacks x hx).2 (hold.trans_le (Nat.le_of_eq hnonce.symm))
  · have hcontext := hruns.resolve_left hran
    have hnext : ((new (.ofNat 1)).after [sampleOrder (.reserve (.ofNat 2) ⟨0, 1, by decide⟩ .surcharge)]).nonce = 1 := hnonce
    rw [hnext] at hcontext
    exact hcontext

end LoanDesk

end MarginRouter
