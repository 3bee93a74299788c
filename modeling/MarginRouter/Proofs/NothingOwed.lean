import MarginRouter.Loan.Rogue
import MarginRouter.Proofs.LoanSafety

/-!
# Nothing is owed in the end

While the money of a loan is used the clearing account may owe: an exact-out path pays for each hop before it has the money. When
the loan is paid back nothing is owed any more. In the other tokens the walk of the path and the market leave at least what they
take; in the token of the loan the desk has seen that something is held. This takes no more of the lender than that it wants
something back and does not pass over an error of its call back, so the settlement of a leveraged execution only pays out.
-/

namespace MarginRouter

open Ledger Clearing Books

/-! ## Lenders that heed errors -/

namespace Conduct

variable {α β σ : Type} {ledger : σ → Ledger} {put : Ledger → σ → σ} {answer : Address → LoanCallback → Step LoanError σ Unit}

/-- The course of action ends in an error, whatever it reads and however it is answered. -/
def Fails : Conduct (Except LoanError α) → Prop
  | done result => ∃ e, result = .error e
  | write _ next => ∀ l, (next l).Fails
  | callBack _ _ next => ∀ r, (next r).Fails

/-- The course of action ends in an error after every call back that is answered with one. -/
def Heeds : Conduct (Except LoanError α) → Prop
  | done _ => True
  | write _ next => ∀ l, (next l).Heeds
  | callBack _ _ next => (∀ e, (next (.error e)).Fails) ∧ (next (.ok ())).Heeds

theorem Fails.heeds {c : Conduct (Except LoanError α)} (h : c.Fails) : c.Heeds := by
  induction c with
  | done result => trivial
  | write f next ih => exact fun l => ih l (h l)
  | callBack caller callback next ih => exact ⟨fun e => h (.error e), ih _ (h (.ok ()))⟩

theorem Fails.run_ne_ok {c : Conduct (Except LoanError α)} (h : c.Fails) (s : σ) {a : α} {s' : σ} :
    c.run ledger put answer s ≠ (.ok a, s') := by
  induction c generalizing s with
  | done result =>
    obtain ⟨e, rfl⟩ := h
    exact fun hrun => nomatch (Prod.mk.inj hrun).1
  | write f next ih => exact ih _ (h _) _
  | callBack caller callback next ih => exact ih _ (h _) _

theorem Fails.bind {c : Conduct (Except LoanError α)} {k : Except LoanError α → Conduct (Except LoanError β)} (h : c.Fails)
    (hk : ∀ e, (k (.error e)).Fails) : (c.bind k).Fails := by
  induction c with
  | done result =>
    obtain ⟨e, rfl⟩ := h
    exact hk e
  | write f next ih => exact fun l => ih l (h l)
  | callBack caller callback next ih => exact fun r => ih r (h r)

theorem Heeds.bind {c : Conduct (Except LoanError α)} {k : Except LoanError α → Conduct (Except LoanError β)} (h : c.Heeds)
    (hok : ∀ a, (k (.ok a)).Heeds) (herror : ∀ e, (k (.error e)).Fails) : (c.bind k).Heeds := by
  induction c with
  | done result =>
    cases result with
    | ok a => exact hok a
    | error e => exact (herror e).heeds
  | write f next ih => exact fun l => ih l (h l)
  | callBack caller callback next ih => exact ⟨fun e => (h.1 e).bind herror, ih _ h.2⟩

end Conduct

namespace Dealing

variable {α β : Type}

/-- The same of a dealing. -/
def Heeds (x : Dealing α) : Prop :=
  Conduct.Heeds x.run

namespace Heeds

theorem pure (a : α) : Heeds (Pure.pure a : Dealing α) :=
  trivial

theorem throw (e : LoanError) : Heeds (MonadExcept.throw e : Dealing α) :=
  trivial

theorem bind {x : Dealing α} {f : α → Dealing β} (h : Heeds x) (hf : ∀ a, Heeds (f a)) : Heeds (x >>= f) :=
  Conduct.Heeds.bind h hf fun e => ⟨e, rfl⟩

theorem refuse {c : Prop} [Decidable c] (e : LoanError) {f : β → Dealing α} {x : Dealing α} (h : Heeds x) :
    Heeds (if c then MonadExcept.throw e >>= f else x) := by
  split
  · exact throw e
  · exact h

theorem read : Heeds Dealing.read :=
  fun _ => trivial

theorem step (s : Step LedgerError Ledger α) (blame : LedgerError → LoanError) : Heeds (Dealing.step s blame) :=
  fun _ => trivial

theorem callBack (caller : Address) (callback : LoanCallback) : Heeds (Dealing.callBack caller callback) :=
  ⟨fun e => ⟨e, rfl⟩, trivial⟩

theorem offer (rate : FeeRate) (mode : FeeMode) (amount : Amount) : Heeds (FlashLender.offer rate mode amount) := by
  unfold FlashLender.offer
  split
  · exact pure _
  · exact throw _

/-- However a lender that breaks the rules calls back, it stops at the first error. -/
theorem callBacks (m : Misconduct) (address : Address) (callback : LoanCallback) : Heeds (m.callBacks address callback) := by
  unfold Misconduct.callBacks
  cases m
  case skipsCallback => exact pure ()
  case callsTwice => exact bind (callBack _ _) fun _ => callBack _ _
  all_goals exact callBack _ _

end Heeds

end Dealing

namespace FlashLender

/-- The lender wants something back for whatever it lends, and does not pass over an error of its call back. Of the money it
moves, and of whatever else it does, nothing is said. -/
structure Heedful (lender : FlashLender) : Prop where
  owed_ne_zero : ∀ {gross terms}, lender.terms gross = .ok terms → gross ≠ 0 → terms.owed ≠ 0
  heeds : ∀ request, (lender.conduct request).Heeds

theorem heedful_reserve (address : Address) (rate : FeeRate) (mode : FeeMode) : (reserve address rate mode).Heedful where
  owed_ne_zero := FeeRate.owed_ne_zero
  heeds request := by
    refine .bind (.offer rate mode request.amount) fun terms => .bind .read fun _ => .refuse _ <| .bind (.step _ _) fun _ => ?_
    exact .bind (.callBack _ _) fun _ => .bind (.step _ _) fun _ => .bind .read fun _ => .refuse _ (.pure terms)

theorem heedful_rogue (address : Address) (rate : FeeRate) (mode : FeeMode) (m : Misconduct) :
    (rogue address rate mode m).Heedful where
  owed_ne_zero := FeeRate.owed_ne_zero
  heeds request := by
    refine .bind (.offer rate mode request.amount) fun terms => .bind (.step _ _) fun _ => ?_
    exact .bind (.callBacks m _ _) fun _ => .bind (.step _ _) fun _ => .pure _

end FlashLender

/-! ## Loans of such lenders -/

namespace LoanDesk

variable {ε τ α : Type} {lender : FlashLender} {work : LoanContext → Step ε (Workspace τ) Unit} {context c : LoanContext}

/-- While the desk is repaying, nothing a lender does reaches the clearing account. -/
theorem clearing_of_repaying (lender : FlashLender) (work : LoanContext → Step ε (Workspace τ) Unit) (x : Conduct α)
    {d : Deal ε τ} (hd : d.desk.phase = .repaying c) :
    (follow lender work x d).books.clearing = d.books.clearing := by
  induction x generalizing d with
  | done a => rfl
  | write f next ih => exact ih _ (d := { d with books := { d.books with ledger := f d.books.ledger } }) hd
  | callBack caller callback next ih =>
    cases ha : accept lender.address d.desk.engine d.desk.phase caller callback with
    | ok context =>
      rw [hd] at ha
      cases (accept_eq_ok ha).2
    | error e =>
      rw [(course_of_refused work next ha).2]
      exact ih (.error e) hd

/-- A call back that is answered without an error has had the loan honoured, and the desk is repaying after it. -/
theorem honoured_of_answer {caller : Address} {callback : LoanCallback} {d d' : Deal ε τ} {u : Unit}
    (hd : d.desk.phase = .borrowing context) (h : answer lender.address work caller callback d = .ok u d') :
    Honoured work context d d' ∧ d'.desk.phase = .repaying context := by
  obtain ⟨context', b, w, b', hc, hb, hw, hs, rfl⟩ := answer_eq_ok h
  obtain ⟨-, hphase⟩ := accept_eq_ok hc
  rw [hd] at hphase
  cases hphase
  obtain ⟨hheld, b₁, hspent, hcredited⟩ := setAside_eq_ok.1 hs
  exact ⟨⟨b, w, b₁, hb, hw, hheld, hspent, hcredited, rfl⟩, rfl⟩

/-- A course of action that heeds errors, and after which the desk is repaying, has had the loan honoured. Before that and after
it nothing has reached the clearing account. The induction is on the course of action up to the call back that is answered
without an error: after any other it would have ended in an error. -/
theorem honoured_of_heeds (x : Conduct (Except LoanError α)) :
    ∀ {d d' : Deal ε τ} {a : α}, x.Heeds → d.desk.phase = .borrowing context →
      x.run (fun d => d.books.ledger) (fun l d => { d with books := { d.books with ledger := l } })
        (answer lender.address work) d = (.ok a, d') →
      d'.desk.phase = .repaying c →
      ∃ y y', y.books.clearing = d.books.clearing ∧ Honoured work context y y' ∧ d'.books.clearing = y'.books.clearing := by
  induction x with
  | done result =>
    intro d d' a _ hd hrun hd'
    obtain ⟨-, rfl⟩ := Prod.mk.inj hrun
    rw [hd] at hd'
    cases hd'
  | write f next ih =>
    intro d d' a hx hd hrun hd'
    exact ih d.books.ledger (d := { d with books := { d.books with ledger := f d.books.ledger } }) (hx _) hd hrun hd'
  | callBack caller callback next ih =>
    intro d d' a hx hd hrun _
    rw [Conduct.run, Step.outcome] at hrun
    cases ha : answer lender.address work caller callback d with
    | error e d₁ =>
      rw [ha] at hrun
      exact absurd hrun ((hx.1 e).run_ne_ok d₁)
    | ok u d₁ =>
      obtain ⟨hhonoured, hphase⟩ := honoured_of_answer hd ha
      rw [ha] at hrun
      have hend : follow lender work (next (.ok ())) d₁ = d' := congrArg Prod.snd hrun
      rw [← hend]
      exact ⟨d, d₁, rfl, hhonoured, clearing_of_repaying lender work _ hphase⟩

/-- A loan of a lender that heeds errors, when it is answered with a receipt, has been honoured. -/
theorem honoured_of_borrow {plan : LoanPlan} {embed : LoanError → ε} {s s' : Session τ} {r : LoanReceipt}
    (hl : ∀ request, (lender.conduct request).Heeds) (h : borrow lender plan work embed s = .ok r s') :
    lender.terms plan.gross = .ok r.terms ∧ ∃ y y', y.books.clearing = s.books.clearing ∧
      Honoured work (contextFor s.desk lender plan r.terms) y y' ∧ s'.books.clearing = y'.books.clearing := by
  obtain ⟨-, terms, d, hterms, hends, ⟨c, hc⟩, rfl, rfl⟩ := borrow_eq_ok h
  exact ⟨hterms, honoured_of_heeds _ (hl _) rfl hends hc⟩

/-- A loan honoured from a flat clearing account leaves nothing owed in any token, when its work leaves the account not worse off
in the other tokens: in the token of the loan the account has held what is owed for it, so nothing was owed there besides. -/
theorem Honoured.owed_eq_zero {d d' : Deal ε τ} (h : Honoured work context d d') (hflat : ∀ t, d.books.clearing.net t = 0)
    (hproper : d.books.clearing.Proper) (howed : context.terms.owed ≠ 0)
    (hwork : ∀ w u w', work context w = .ok u w' →
      ∃ gained, Gained w.books.clearing w'.books.clearing gained ∧ ∀ t, t ≠ context.asset → 0 ≤ gained t) (t : Address) :
    d'.books.clearing.owed t = 0 := by
  obtain ⟨b, w, b₁, hin, hw, hheld, hspent, hcredited, -⟩ := h
  obtain ⟨gained, hgained, hother⟩ := hwork _ _ _ hw
  have htaken := (moved_takeIn hin).clearing
  have haside : setAside context w.books = .ok () d'.books := setAside_eq_ok.2 ⟨hheld, b₁, hspent, hcredited⟩
  have hout := (moved_setAside haside).2.clearing
  have hproper' := hgained.proper (htaken.proper hproper)
  have hleft : 0 ≤ d'.books.clearing.net t := by
    rw [hout.net]
    by_cases ht : t = context.asset
    · have hpos : context.terms.owed.toNat ≠ 0 := mt Amount.eq_zero_iff.2 howed
      have hnet := (hproper' context.asset).held_eq
      have hle := Amount.le_def.1 hheld
      simp only [Clearing.held] at hle
      rw [ht, receipt, if_pos rfl, Clearing.net]
      omega
    · rw [hgained.net, htaken.net, hflat, receipt, receipt, if_neg ht, if_neg ht]
      have hnonneg := hother t ht
      omega
  have howed' := (hout.proper hproper' t).owed_eq
  refine Amount.eq_zero_iff.2 ?_
  simp only [Clearing.net] at hleft
  simp only [Clearing.owed]
  omega

end LoanDesk

/-- A settlement of an account that owes nothing pulls nothing in, and lowers no balance. -/
theorem Clearing.settle_of_owed_eq_zero {c : Clearing} {counterparty : Address} {l l' : Ledger} {report : SettlementReport}
    (h : c.settle counterparty l = .ok report l') (howed : ∀ t, c.owed t = 0) :
    report.pulledIn = [] ∧ ∀ t k, l.balance t k ≤ l'.balance t k := by
  obtain ⟨rfl, hpaid⟩ := settle_eq_ok h
  refine ⟨amounts_eq_nil rfl howed, fun t k => ?_⟩
  have hholds := hpaid.holds t k
  have hnet : 0 ≤ c.net t := by
    have hzero : (c.exposure t).owed = 0 := howed t
    rw [net, Exposure.net, hzero, Amount.toNat_zero]
    omega
  simp only [Ledger.holds] at hholds
  refine Amount.le_def.2 ?_
  split at hholds <;> omega

/-! ## What is left of an execution -/

namespace Engine

variable {e : Engine} {r : Request} {c : Composition} {mode : Mode} {market : Market} {funding : Funding} {proceeds : Proceeds}

/-- When the money of a loan has been used, whatever the path repeats, the clearing account is not worse off in any token but that
of the loan: what the swaps produce is at least what the market takes of it. -/
theorem gained_proceed {start : Amount} {context : LoanContext} {done : Proceedings} {b b' : Books}
    (hasset : context.asset = (context.path.endpoints context.direction).1)
    (h : e.proceed market funding proceeds (context.path.endpoints context.direction).2 start context b = .ok done b') :
    ∃ gained, Gained b.clearing b'.clearing gained ∧ ∀ t, t ≠ context.asset → 0 ≤ gained t := by
  obtain ⟨b₂, b₃, hwalked, hbrought, -, hdrawn⟩ := proceed_eq_ok h
  obtain ⟨paid, hm, -⟩ := walk_moved context.path.finalToken context.path.hops 0 hwalked
  obtain ⟨-, hf, -⟩ := bring_eq_ok hbrought
  have htaken := proceeds.taken_le (context.direction.pick done.swapped start)
    (market.position b₂.ledger context.user (context.path.endpoints context.direction).2)
  refine ⟨_, (hm.clearing.trans hf.clearing).trans (gained_of_drawn hdrawn), fun t ht => ?_⟩
  have hproduced : context.direction.pick done.swapped (context.direction.pick context.terms.delivered start) =
      context.direction.pick done.swapped start := by
    cases context.direction <;> rfl
  rw [hasset] at ht ⊢
  simp only [Pi.add_apply, crossing_endpoints, hproduced, receipt, if_neg ht]
  split_ifs <;> omega

/-- A leveraged execution that comes to its settlement from a flat clearing account owes nothing. -/
theorem leverage_owed_eq_zero {s s' : Session Proceedings} {a : Amount × List Fill × Option LoanReceipt}
    (hl : e.lender.Heedful) (h : e.leverage r c mode funding proceeds s = .ok a s')
    (hflat : ∀ t, s.books.clearing.net t = 0) (hproper : s.books.clearing.Proper) (t : Address) :
    s'.books.clearing.owed t = 0 := by
  obtain ⟨market, start, terms, receipt, -, -, hterms, hb, -⟩ := borrow_of_leverage h
  obtain ⟨hcharged, y, y', hbefore, hhonoured, hafter⟩ := LoanDesk.honoured_of_borrow hl.heeds hb
  have howed := hl.owed_ne_zero hcharged (loanTerms_eq_ok hterms).2
  rw [hafter]
  rw [← hbefore] at hflat hproper
  refine hhonoured.owed_eq_zero hflat hproper howed (fun w u w' hwork => ?_) t
  obtain ⟨b, hproceeded, hb⟩ := noting_eq_ok hwork
  rw [hb]
  exact gained_proceed rfl hproceeded

/-- A leveraged execution takes nothing from the wallet of the caller. When one succeeds, with a lender that heeds errors, the
clearing account owes nothing in any token when it is settled with the caller; so nothing is pulled in, and the settlement lowers
no balance. Nothing is asked of the path or of the addresses of caller, engine, lender, market and pools: the ends of the path may
be one token, and tokens, pools and addresses may coincide. -/
theorem leveraged_pulls_nothing {w w' : World} {settled : Settled} (hl : e.lender.Heedful)
    (h : e.execute r w = .ok settled w') (hlend : settled.composition.lending? = some (funding, proceeds)) :
    ∃ mode a s, r.path.mode = .ok mode ∧
      e.leverage r settled.composition mode funding proceeds (e.session w) = .ok a s ∧
      s.books.clearing.settle r.caller s.books.ledger = .ok settled.report w'.ledger ∧
      (∀ t, s.books.clearing.owed t = 0) ∧ settled.report.pulledIn = [] ∧
      ∀ t k, s.books.ledger.balance t k ≤ w'.ledger.balance t k := by
  obtain ⟨c, s', -, hs, rfl⟩ := execute_eq_ok h
  obtain ⟨mode, a, s, hmode, hp, hc⟩ := settle_eq_ok hs
  obtain ⟨report, hsettle, rfl, -⟩ := settled_of_conclude hc
  simp only at hlend
  simp only [prepare, hlend] at hp
  have howed := leverage_owed_eq_zero hl hp (net_new e.address) (proper_new e.address)
  obtain ⟨hpulled, hbalances⟩ := Clearing.settle_of_owed_eq_zero hsettle howed
  exact ⟨mode, a, s, hmode, hp, hsettle, howed, hpulled, hbalances⟩

end Engine

namespace Sample

/-- Over the pool and back again with fifty of token 10, for what the action says: the path ends in the token it starts from. -/
def inCircle (a : Action) : Request :=
  ⟨.ofNat 7, ⟨[hop (.ofNat 10) a, hop (.ofNat 11) .swapExactIn], .ofNat 10, none⟩, .ofWord 50, 0, .exactIn⟩

/-- The way in a circle, with a loan on which a fee is charged, takes nothing from the wallet of the caller. -/
def PullsNothing (a : Action) (funding : Funding) (proceeds : Proceeds) : Prop :=
  ∃ settled w', ∃ s : Session Proceedings,
    chargingEngine.execute (inCircle a) ⟨ledger, .new (.ofNat 1)⟩ = .ok settled w' ∧
      settled.composition.lending? = some (funding, proceeds) ∧
      ((inCircle a).path.endpoints .exactIn).1 = ((inCircle a).path.endpoints .exactIn).2 ∧
      s.books.clearing.settle (.ofNat 7) s.books.ledger = .ok settled.report w'.ledger ∧
      (∀ t, s.books.clearing.owed t = 0) ∧ settled.report.pulledIn = []

end Sample

/-- `Engine.leveraged_pulls_nothing` at paths that come back to their first token: with fifty of the collateral a debt is closed in
this token, where there is none, and fifty of it are borrowed to be supplied again. -/
theorem Engine.leveraged_pulls_nothing_circle : Sample.chargingEngine.lender.Heedful ∧
    Sample.PullsNothing .marginClose .withdraw .repay ∧ Sample.PullsNothing .marginOpen .borrow .supply := by
  have hl : Sample.chargingEngine.lender.Heedful := FlashLender.heedful_reserve _ _ _
  have hpulls {a : Action} {funding : Funding} {proceeds : Proceeds}
      (hlending : (Composition.ofAction a).lending? = some (funding, proceeds)) : Sample.PullsNothing a funding proceeds := by
    have hruns : Step.yields (Sample.chargingEngine.execute (Sample.inCircle a)) ⟨Sample.ledger, .new (.ofNat 1)⟩
        (fun settled _ => settled.composition = .ofAction a) = true := by
      cases a with
      | swapExactIn | swapExactOut => cases hlending
      | marginOpen | marginClose | collateralSwap | debtSwap => decide +kernel
    obtain ⟨settled, w', hs, hlend⟩ := Sample.exists_settled hlending hruns
    obtain ⟨-, -, s, -, -, hsettle, howed, hpulled, -⟩ := Engine.leveraged_pulls_nothing hl hs hlend
    exact ⟨settled, w', s, hs, hlend, rfl, hsettle, howed, hpulled⟩
  exact ⟨hl, hpulls rfl, hpulls rfl⟩

end MarginRouter
