import MarginRouter.Address
import MarginRouter.Amount
import MarginRouter.Step

/-!
# Errors of the ledger
-/

namespace MarginRouter

/-- Why a ledger or a clearing account refuses a movement. -/
inductive LedgerError where
  | insufficientBalance (token holder : Address) (available required : Amount)
  | insufficientHeld (token : Address) (held required : Amount)
  | overflow (token holder : Address)
  deriving DecidableEq

namespace LedgerError

def message : LedgerError → String
  | insufficientBalance token holder available required =>
    "余额不足: token=" ++ toString token ++ " holder=" ++ toString holder ++ " 可用 " ++ toString available ++ " 需要 " ++
      toString required
  | insufficientHeld token held required =>
    "结算账户持有不足: token=" ++ toString token ++ " 持有 " ++ toString held ++ " 需要 " ++ toString required
  | overflow token holder => "余额运算溢出: token=" ++ toString token ++ " holder=" ++ toString holder

def category : LedgerError → FailureCategory
  | _ => .liquidity

end LedgerError

end MarginRouter
