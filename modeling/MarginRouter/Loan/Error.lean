import MarginRouter.FeeRate
import MarginRouter.Ledger.Error

/-!
# Errors of flash loans
-/

namespace MarginRouter

/-- What about a loan does not match what was asked for. -/
inductive LoanDetail where
  | nonce
  | asset
  | amount
  | terms
  deriving DecidableEq, Repr

def LoanDetail.name : LoanDetail → String
  | nonce => "nonce"
  | asset => "asset"
  | amount => "amount"
  | terms => "provider charged different terms"

/-- Why a flash loan fails. -/
inductive LoanError where
  | fee (error : FeeError)
  | ledger (error : LedgerError)
  | insufficientReserve (provider asset : Address) (available requested : Amount)
  | unauthorizedCallback (expected caller : Address)
  | unauthorizedInitiator (expected initiator : Address)
  | contextMismatch (detail : LoanDetail)
  | repaymentShortfall (asset : Address) (held owed : Amount)
  | notRepaid (provider asset : Address) (owed : Amount)
  | reentrancy
  | callbackMissing
  | continuationFailed
  deriving DecidableEq

namespace LoanError

def message : LoanError → String
  | fee e => e.message
  | ledger e => e.message
  | insufficientReserve provider asset available requested =>
    "闪电贷 provider " ++ toString provider ++ " 的 " ++ toString asset ++ " 储备不足: 可用 " ++ toString available ++ "，请求 " ++
      toString requested
  | unauthorizedCallback expected caller => "回调来源非法: 期望 " ++ toString expected ++ "，实际 " ++ toString caller
  | unauthorizedInitiator expected initiator =>
    "回调发起人非法: 期望 " ++ toString expected ++ "，实际 " ++ toString initiator
  | contextMismatch detail => "回调参数与闪电贷上下文不一致: " ++ detail.name
  | repaymentShortfall asset held owed =>
    "闪电贷归还不足: 资产 " ++ toString asset ++ " 持有 " ++ toString held ++ "，应还 " ++ toString owed
  | notRepaid provider asset owed =>
    "provider " ++ toString provider ++ " 未收到足额归还: 资产 " ++ toString asset ++ " 应还 " ++ toString owed
  | reentrancy => "闪电贷重入"
  | callbackMissing => "provider 未触发回调"
  | continuationFailed => "闪电贷回调内的后续操作失败"

def category : LoanError → FailureCategory
  | fee _ => .malformedInput
  | ledger _ | insufficientReserve .. | repaymentShortfall .. | notRepaid .. | continuationFailed => .liquidity
  | unauthorizedCallback .. | unauthorizedInitiator .. | contextMismatch _ | reentrancy | callbackMissing => .authorization

end LoanError

end MarginRouter
