import MarginRouter.Loan.Lender

/-!
# Lenders that break the rules

A lender that moves the money as it should but errs in one respect, so that a desk can be seen to refuse it.
-/

namespace MarginRouter

/-- The one respect in which a lender errs. -/
inductive Misconduct where
  | none
  | foreignCaller
  | foreignInitiator
  | wrongNonce
  | wrongAsset
  | wrongAmount
  | wrongFee
  | skipsCallback
  | callsTwice
  | chargesDifferently
  deriving DecidableEq, Repr

namespace Misconduct

/-- An account that has no part in the loan. -/
def stranger : Address :=
  .ofBytes (List.replicate 20 0x66)

/-- What a lender says in its call back instead of the truth. -/
def distort (m : Misconduct) (c : LoanCallback) : LoanCallback :=
  match m with
  | foreignInitiator => { c with initiator := stranger }
  | wrongNonce => { c with nonce := c.nonce + 1 }
  | wrongAsset => { c with asset := stranger }
  | wrongAmount => { c with amount := .wrap (c.amount.toNat + 1) }
  | wrongFee => { c with fee := .wrap (c.fee.toNat + 1) }
  | _ => c

/-- The calls back a lender makes. -/
def callBacks (m : Misconduct) (address : Address) (c : LoanCallback) : Dealing Unit := do
  let caller := if m = foreignCaller then stranger else address
  let call := Dealing.callBack caller (m.distort c)
  match m with
  | skipsCallback => return
  | callsTwice => do call; call
  | _ => call

end Misconduct

/-- The lender that errs in the given respect. -/
def FlashLender.rogue (address : Address) (rate : FeeRate) (mode : FeeMode) (m : Misconduct) : FlashLender where
  address := address
  rate := rate
  mode := mode
  conduct request := do
    let terms ← offer rate mode request.amount
    Dealing.step (Ledger.transfer request.asset address request.receiver terms.delivered) .ledger
    m.callBacks address (callbackFor request terms)
    Dealing.step (Ledger.transfer request.asset request.receiver address terms.owed) .ledger
    return if m = .chargesDifferently then { terms with fee := .wrap (terms.fee.toNat + 1) } else terms

end MarginRouter
