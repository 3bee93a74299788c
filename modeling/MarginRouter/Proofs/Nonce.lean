import MarginRouter.Proofs.Oblivious
import MarginRouter.Proofs.Router

/-!
# The nonce shows nowhere

A desk numbers its loans, and the number is not taken back when a call fails. With a lender that does not look at it, the number
stands in the receipt of a loan, and nothing else is made to depend on it: two runs of the engine that start alike but for the
numbers on their desks go alike.
-/

namespace MarginRouter

open Step (Twin)

/-- Two worlds that are alike but for the nonces of their desks. -/
def World.Alike (engine : Address) (phase : LoanPhase) (w w' : World) : Prop :=
  ∃ l n n', w = ⟨l, ⟨engine, phase, n⟩⟩ ∧ w' = ⟨l, ⟨engine, phase, n'⟩⟩

/-! ## Executions -/

namespace Engine

variable {e : Engine} {engine : Address} {phase : LoanPhase}

theorem twin_onBooks {τ α : Type} (step : Step EngineError Books α) :
    Twin (Session.Alike (τ := τ) engine phase) Eq (onBooks step) (onBooks step) := by
  rintro _ _ ⟨w, n, n', rfl, rfl⟩
  unfold onBooks
  rw [Step.outcome_on, Step.outcome_on]
  rcases step.outcome w.books with ⟨_ | a, b⟩
  · exact .error ⟨_, n, n', rfl, rfl⟩
  · exact .ok rfl ⟨_, n, n', rfl, rfl⟩

/-- The same amount and the same fills; the receipts of the loans may differ. -/
def SameAmount (a a' : Amount × List Fill × Option LoanReceipt) : Prop :=
  a'.1 = a.1 ∧ a'.2.1 = a.2.1

theorem twin_conclude (r : Request) (c : Composition) {a a' : Amount × List Fill × Option LoanReceipt} (h : SameAmount a a') :
    Twin (Session.Alike engine phase) (fun settled settled' => settled'.amount = settled.amount) (conclude r c a)
      (conclude r c a') := by
  unfold conclude
  rw [h.1]
  refine .bind_eq (.lift _) fun _ => .bind .get ?_
  rintro _ _ ⟨w, n, n', rfl, rfl⟩
  exact .bind_eq (twin_onBooks _) fun report => .pure rfl

/-- A step in a session of its own. -/
theorem twin_inSession {α : Type} {Q : α → α → Prop} {step : Step EngineError (Session Proceedings) α}
    (h : Twin (Session.Alike engine phase) Q step step) :
    Twin (World.Alike engine phase) Q (e.inSession step) (e.inSession step) := by
  refine h.on ?_ ?_
  · rintro _ _ ⟨l, n, n', rfl, rfl⟩
    exact ⟨_, n, n', rfl, rfl⟩
  · rintro _ _ _ _ - ⟨w, m, m', rfl, rfl⟩
    exact ⟨_, m, m', rfl, rfl⟩

theorem twin_leverage (hl : e.lender.Oblivious) (r : Request) (c : Composition) (mode : Mode)
    (funding : Funding) (proceeds : Proceeds) : Twin (Session.Alike engine phase) SameAmount
      (e.leverage r c mode funding proceeds) (e.leverage r c mode funding proceeds) := by
  refine .bind_eq (.lift _) fun market => .bind .get ?_
  rintro _ _ ⟨w, n, n', rfl, rfl⟩
  refine .bind_eq (.lift _) fun start => .bind_eq (.lift _) fun terms => ?_
  refine (LoanDesk.twin_borrow hl _ engine phase fun _ _ => rfl).bind fun _ _ _ => .bind .get ?_
  rintro _ _ ⟨w', m, m', rfl, rfl⟩
  exact .pure ⟨rfl, rfl⟩

theorem twin_prepare (hl : e.lender.Oblivious) (r : Request) (c : Composition) (mode : Mode) :
    Twin (Session.Alike engine phase) SameAmount (e.prepare r c mode) (e.prepare r c mode) := by
  unfold prepare
  split
  · exact twin_leverage hl r c mode _ _
  · exact (twin_onBooks _).mono fun _ _ h => h ▸ ⟨rfl, rfl⟩

theorem twin_settle (hl : e.lender.Oblivious) (r : Request) (c : Composition) :
    Twin (Session.Alike engine phase) (fun settled settled' => settled'.amount = settled.amount) (e.settle r c)
      (e.settle r c) := by
  rw [settle_eq]
  exact .bind_eq (.lift _) fun mode => (twin_prepare hl r c mode).bind fun _ _ h => twin_conclude r c h

theorem twin_executeAs (hl : e.lender.Oblivious) (r : Request) (expected : Composition) :
    Twin (World.Alike engine phase) (fun settled settled' => settled'.amount = settled.amount) (e.executeAs r expected)
      (e.executeAs r expected) := by
  refine .bind_eq (.lift _) fun found => .refuse _ fun _ => twin_inSession (twin_settle hl r found)

/-- Trades whose executions settle the same amounts are answered alike. -/
theorem twin_trade_of {R : World → World → Prop} (call : Call)
    (h : ∀ entry args, TradeEntry.ofOperation? call.operation = some entry →
      TradeArgs.decode call.operation call.args = .ok args →
      Twin R (fun settled settled' => settled'.amount = settled.amount)
        (e.executeAs (args.request call.caller entry.direction) entry.composition)
        (e.executeAs (args.request call.caller entry.direction) entry.composition)) :
    Twin R Eq (e.trade call) (e.trade call) := by
  unfold trade
  split
  · rename_i entry he
    refine .lift_bind _ fun args ha => ((h entry args he ha).withError _).bind fun _ _ hs => .pure ?_
    rw [hs]
  · exact .throw _

/-- A trade is answered alike whatever the nonce. -/
theorem twin_trade (hl : e.lender.Oblivious) (call : Call) :
    Twin (World.Alike engine phase) Eq (e.trade call) (e.trade call) :=
  twin_trade_of call fun _ _ _ _ => twin_executeAs hl _ _

/-- A query is answered alike whatever the nonce. -/
theorem twin_look (call : Call) : Twin (World.Alike engine phase) Eq (e.look call) (e.look call) := by
  unfold look
  split
  · refine .bind_eq (.lift _) fun args => .bind .get ?_
    rintro _ _ ⟨l, n, n', rfl, rfl⟩
    exact .bind_eq (.lift _) fun amount => .pure rfl
  · exact .throw _

end Engine

/-- A trader or a lens answers alike whatever the nonce. -/
theorem Module.BuiltIn.twin_invoke {m : Module} {e : Engine} {engine : Address} {phase : LoanPhase} (hm : m.BuiltIn)
    (hl : e.lender.Oblivious) (call : Call) : Twin (World.Alike engine phase) Eq (m.invoke e call) (m.invoke e call) := by
  obtain ⟨_, rfl | rfl⟩ := hm
  · rw [Module.invoke_trader]
    exact Engine.twin_trade hl call
  · rw [Module.invoke_lens]
    exact Engine.twin_look call

end MarginRouter
