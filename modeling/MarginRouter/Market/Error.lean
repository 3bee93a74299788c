import MarginRouter.Ledger.Error

/-!
# Errors of lending markets
-/

namespace MarginRouter

/-- Why a lending market refuses. -/
inductive MarketError where
  | unknownLender (lender : UInt8)
  | duplicateLender (lender : UInt8)
  | unsupportedAsset (market asset : Address)
  | insufficientCollateral (asset : Address) (available requested : Amount)
  | insufficientLiquidity (market asset : Address) (available requested : Amount)
  | unhealthy (user : Address) (collateralValue debtValue : Amount)
  | invalidLtv (asset : Address) (ltv : Nat)
  | overflow
  | ledger (error : LedgerError)
  deriving DecidableEq

namespace MarketError

def message : MarketError → String
  | unknownLender lender => "未注册的 lender id: " ++ toString lender
  | duplicateLender lender => "lender id " ++ toString lender ++ " 重复注册"
  | unsupportedAsset market asset => "市场 " ++ toString market ++ " 不支持资产 " ++ toString asset
  | insufficientCollateral asset available requested =>
    "抵押不足: 资产 " ++ toString asset ++ " 可取 " ++ toString available ++ "，请求 " ++ toString requested
  | insufficientLiquidity market asset available requested =>
    "市场 " ++ toString market ++ " 资产 " ++ toString asset ++ " 流动性不足: 可用 " ++ toString available ++ "，请求 " ++
      toString requested
  | unhealthy user collateralValue debtValue =>
    "仓位 " ++ toString user ++ " 健康度不足: 抵押价值 " ++ toString collateralValue ++ " < 债务价值 " ++ toString debtValue
  | invalidLtv asset ltv => "资产 " ++ toString asset ++ " 的 ltv " ++ toString ltv ++ " 超过 10000"
  | overflow => "借贷计算溢出"
  | ledger e => e.message

def category : MarketError → FailureCategory
  | insufficientCollateral .. | insufficientLiquidity .. | unhealthy .. | ledger _ => .liquidity
  | _ => .malformedInput

/-- An amount, or an overflow where the exact value does not fit. -/
def checked (n : Nat) : Except MarketError Amount :=
  match Amount.ofNat? n with
  | some a => .ok a
  | none => .error .overflow

theorem checked_eq_ok {n : Nat} {a : Amount} : checked n = .ok a ↔ a.toNat = n := by
  rw [← Amount.ofNat?_eq_some]
  unfold checked
  split <;> simp_all

end MarketError

end MarginRouter
