import MarginRouter.Proofs.Router

/-!
# Conservation

Every step of an execution keeps the worth of the books: what leaves a balance is gained by the clearing account and the other
way round. An execution starts and ends with nothing held and nothing owed, so it keeps what there is of every token, whatever
the path and whichever accounts coincide.
-/

namespace MarginRouter

open Ledger Clearing Books

theorem VenueBook.swap_sameWorth (v : VenueBook) (s : Swap) (d : Direction) (amount : Amount) :
    Step.Keeps SameWorth (v.swap s d amount) := by
  intro b f b' h
  exact (swap_eq_ok h).2.sameWorth (sum_paid_add_gained s f)

namespace Market

variable (m : Market) (user asset : Address) (amount : Amount)

theorem supply_sameWorth : Step.Keeps SameWorth (m.supply user asset amount) := by
  intro b u b' h
  obtain ⟨-, hf, -⟩ := supply_eq_ok h
  exact hf.sameWorth (sum_payment_add_receipt _ _ (by omega))

theorem withdraw_sameWorth : Step.Keeps SameWorth (m.withdraw user asset amount) := by
  intro b u b' h
  obtain ⟨-, hf, -⟩ := withdraw_eq_ok h
  exact hf.sameWorth (sum_payment_add_receipt _ _ (by omega))

theorem borrow_sameWorth : Step.Keeps SameWorth (m.borrow user asset amount) := by
  intro b u b' h
  obtain ⟨-, hf, -⟩ := borrow_eq_ok h
  exact hf.sameWorth (sum_payment_add_receipt _ _ (by omega))

theorem repay_sameWorth : Step.Keeps SameWorth (m.repay user asset amount) := by
  intro b repaid b' h
  obtain ⟨-, -, hf, -⟩ := repay_eq_ok h
  exact hf.sameWorth (sum_payment_add_receipt _ _ (by omega))

end Market

namespace LoanDesk

theorem takeIn_sameWorth (context : LoanContext) : Step.Keeps SameWorth (takeIn context) := by
  intro b u b' h
  exact (moved_takeIn h).sameWorth (sum_payment_add_receipt _ _ (by omega))

theorem setAside_sameWorth (context : LoanContext) : Step.Keeps SameWorth (setAside context) := by
  intro b u b' h
  exact (moved_setAside h).2.sameWorth (sum_payment_add_receipt _ _ (by omega))

/-- A loan of the reserve lender keeps the worth of the books if the work does that it is for. -/
theorem borrow_reserve_sameWorth {ε τ : Type} {address : Address} {rate : FeeRate} {mode : FeeMode} {plan : LoanPlan}
    {work : LoanContext → Step ε (Workspace τ) Unit} {embed : LoanError → ε}
    (hw : ∀ context, Step.Keeps (fun w w' : Workspace τ => SameWorth w.books w'.books) (work context)) :
    Step.Keeps (fun s s' : Session τ => SameWorth s.books s'.books)
      (borrow (.reserve address rate mode) plan work embed) := by
  intro s r s' h
  obtain ⟨terms, b, w, -, -, hlent, hwork, -, hrepaid, -⟩ := borrow_reserve_eq_ok h
  have h₁ : SameWorth s.books b := hlent.sameWorth (sum_payment_add_receipt _ _ (by omega))
  have h₂ := hw _ hwork
  have h₃ : SameWorth w.books s'.books := hrepaid.sameWorth (sum_payment_add_receipt _ _ (by omega))
  exact SameWorth.chains.trans h₁ (SameWorth.chains.trans h₂ h₃)

end LoanDesk

theorem Ledger.transfer_sum (token source target : Address) (amount : Amount) :
    Step.Keeps (fun l l' : Ledger => ∀ t, l'.sum t = l.sum t) (transfer token source target amount) := by
  intro l u l' h t
  rw [(paid_transfer h).sum t]
  simp only [Pi.add_apply, Finset.sum_add_distrib, sum_payment]
  split_ifs <;> omega

/-- A settlement adds to the balances what was held and takes from them what was owed. -/
theorem Clearing.settle_sum {c : Clearing} {counterparty : Address} {l l' : Ledger} {report : SettlementReport}
    (h : c.settle counterparty l = .ok report l') (t : Address) :
    l'.sum t = l.sum t + (c.held t).toNat - (c.owed t).toNat := by
  rw [(settle_eq_ok h).2.sum t, Finset.sum_ite_eq' Finset.univ counterparty]
  simp only [Finset.mem_univ, if_true, Clearing.net, Exposure.net, held, owed]
  omega

namespace Engine

variable {e : Engine}

theorem keptBy_sameWorth (e : Engine) (user : Address) : e.KeptBy user SameWorth where
  chains := SameWorth.chains
  moved h hz := h.sameWorth hz
  bring := by
    intro id market _ proceeds asset amount b u b' h
    obtain ⟨-, hf, -⟩ := bring_eq_ok h
    exact hf.sameWorth (sum_payment_add_receipt _ _ (by omega))
  fund := by
    intro id market _ funding asset amount b u b' h
    obtain ⟨-, hf, -⟩ := fund_eq_ok h
    exact hf.sameWorth (sum_payment_add_receipt _ _ (by omega))

/-- An execution that succeeds keeps what there is of every token. -/
theorem settle_sum {address : Address} {rate : FeeRate} {mode : FeeMode} {r : Request} {c : Composition} {w : World}
    {settled : Settled} {s : Session Proceedings} (hl : e.lender = .reserve address rate mode)
    (h : e.settle r c (e.session w) = .ok settled s) (t : Address) : s.books.ledger.sum t = w.ledger.sum t := by
  obtain ⟨m, a, s₁, -, hp, hc⟩ := settle_eq_ok h
  have hw : s₁.books.worth t = (e.session w).books.worth t := (e.keptBy_sameWorth r.caller).along.prepare hl hp t
  have hs := (conclude_eq_ok hc).1.sum t
  rw [Finset.sum_ite_eq' Finset.univ r.caller] at hs
  simp only [Finset.mem_univ, if_true] at hs
  rw [hs]
  simpa [worth, session] using hw

end Engine

/-- A call to a router of the built-in parts keeps what there is of every token. -/
theorem Router.BuiltIn.sum_afterCall {r : Router} (hr : r.BuiltIn) (caller : Address) (calldata : List UInt8) (t : Address) :
    (r.afterCall caller calldata).ledger.sum t = r.ledger.sum t := by
  obtain ⟨address, rate, mode, hl⟩ := hr.lender
  rcases hr.ledger_afterCall caller calldata with he | ⟨entry, args, settled, s, -, hs, he⟩
  · rw [he]
  · rw [he]
    exact Engine.settle_sum hl hs t

/-- Conservation. A run of calls to a router of the built-in parts, whether they succeed or fail, keeps the sum of every token
over all holders. Each swap, each dealing with a market, each step of a loan and a loan as a whole keeps the sum of the balances
and of what the clearing account holds less what it owes, and the settlement turns the latter into balances. -/
theorem Router.sum_after :
    (∀ r : Router, r.BuiltIn → ∀ (calls : List (Address × List UInt8)) (t : Address),
      (r.after calls).ledger.sum t = r.ledger.sum t) ∧
    (∀ (v : VenueBook) (s : Swap) (d : Direction) (amount : Amount), Step.Keeps SameWorth (v.swap s d amount)) ∧
    (∀ (m : Market) (user asset : Address) (amount : Amount),
      Step.Keeps SameWorth (m.supply user asset amount) ∧ Step.Keeps SameWorth (m.withdraw user asset amount) ∧
      Step.Keeps SameWorth (m.borrow user asset amount) ∧ Step.Keeps SameWorth (m.repay user asset amount)) ∧
    (∀ token source target amount,
      Step.Keeps (fun l l' => ∀ t, l'.sum t = l.sum t) (Ledger.transfer token source target amount)) ∧
    (∀ context : LoanContext,
      Step.Keeps SameWorth (LoanDesk.takeIn context) ∧ Step.Keeps SameWorth (LoanDesk.setAside context)) ∧
    (∀ (address : Address) (rate : FeeRate) (mode : FeeMode) (plan : LoanPlan) (ε τ : Type)
      (work : LoanContext → Step ε (Workspace τ) Unit) (embed : LoanError → ε),
      (∀ context, Step.Keeps (fun w w' : Workspace τ => SameWorth w.books w'.books) (work context)) →
      Step.Keeps (fun s s' : Session τ => SameWorth s.books s'.books)
        (LoanDesk.borrow (.reserve address rate mode) plan work embed)) ∧
    (∀ (c : Clearing) (counterparty : Address) (l l' : Ledger) (report : SettlementReport),
      c.settle counterparty l = .ok report l' →
      ∀ t, l'.sum t = l.sum t + (c.held t).toNat - (c.owed t).toNat) := by
  refine ⟨?_, VenueBook.swap_sameWorth, ?_, ?_, ?_, ?_, ?_⟩
  · intro r hr calls t
    have hafter : (r.after calls).BuiltIn ∧ (r.after calls).ledger.sum t = r.ledger.sum t := by
      refine after_keeps (P := fun r' => r'.BuiltIn ∧ r'.ledger.sum t = r.ledger.sum t) ?_ calls ⟨hr, rfl⟩
      rintro r' caller calldata ⟨hb, hs⟩
      exact ⟨hb.afterCall caller calldata, (hb.sum_afterCall caller calldata t).trans hs⟩
    exact hafter.2
  · intro m user asset amount
    exact ⟨m.supply_sameWorth user asset amount, m.withdraw_sameWorth user asset amount, m.borrow_sameWorth user asset amount,
      m.repay_sameWorth user asset amount⟩
  · exact transfer_sum
  · intro context
    exact ⟨LoanDesk.takeIn_sameWorth context, LoanDesk.setAside_sameWorth context⟩
  · intro address rate mode plan ε τ work embed hw
    exact LoanDesk.borrow_reserve_sameWorth hw
  · intro c counterparty l l' report h
    exact Clearing.settle_sum h

/-- `Router.sum_after` at a call that closes a position, at a loan of which nothing is used, and at a settlement that pays out
twenty. -/
theorem Router.sum_after_close :
    (∃ output r', call (.ofNat 7) Sample.calldata Sample.router = .ok output r' ∧
      r'.ledger.sum (.ofNat 11) = Sample.router.ledger.sum (.ofNat 11)) ∧
    Step.Keeps (fun s s' : Session Unit => SameWorth s.books s'.books)
      (LoanDesk.borrow (.reserve (.ofNat 2) ⟨0, 1, by decide⟩ .surcharge)
        ⟨.ofNat 7, .ofNat 10, .ofWord 50, Sample.path, .exactIn⟩ (fun _ => pure ()) (id : LoanError → LoanError)) ∧
    ∃ report l', ((Clearing.new (.ofNat 1)).setExposure (.ofNat 11) ⟨.ofWord 20, 0⟩).settle (.ofNat 7) Sample.ledger =
        .ok report l' ∧ l'.sum (.ofNat 11) = Sample.ledger.sum (.ofNat 11) + 20 := by
  refine ⟨?_, ?_, ?_⟩
  · obtain ⟨output, r', hr⟩ := Sample.exists_call
    have hs := Router.sum_after.1 Sample.router Sample.builtIn_router [(.ofNat 7, Sample.calldata)] (.ofNat 11)
    have ha : Sample.router.after [(.ofNat 7, Sample.calldata)] = r' := by
      show (Step.outcome (call _ _) _).2 = _
      rw [Step.outcome_of_ok hr]
    rw [ha] at hs
    exact ⟨output, r', hr, hs⟩
  · refine Router.sum_after.2.2.2.2.2.1 _ _ _ _ _ _ _ _ fun _ => ?_
    exact Step.Keeps.pure (R := fun w w' : Workspace Unit => SameWorth w.books w'.books)
      ⟨fun _ => SameWorth.chains.refl _, fun h h' => SameWorth.chains.trans h h'⟩ ()
  · have hc : Step.yields (((Clearing.new (.ofNat 1)).setExposure (.ofNat 11) ⟨.ofWord 20, 0⟩).settle (.ofNat 7)) Sample.ledger
        (fun _ _ => true) = true := by decide +kernel
    obtain ⟨report, l', hs, -⟩ := Step.exists_ok_of_yields hc
    refine ⟨report, l', hs, ?_⟩
    rw [Router.sum_after.2.2.2.2.2.2 _ _ _ _ _ hs]
    simp [Clearing.held, Clearing.owed, Amount.ofWord]

end MarginRouter
