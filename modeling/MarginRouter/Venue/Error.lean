import MarginRouter.Ledger.Error

/-!
# Errors of venues
-/

namespace MarginRouter

/-- What a hop asks of a venue: the provider that runs it, the tokens in and out, and the fee that tells the pools of one pair
apart, in millionths. -/
structure Swap where
  provider : UInt8
  tokenIn : Address
  tokenOut : Address
  fee : Nat
  deriving DecidableEq

/-- Why a swap cannot be quoted or made. -/
inductive VenueError where
  | unknownProvider (provider : UInt8)
  | duplicateProvider (provider : UInt8)
  | poolNotFound (swap : Swap)
  | insufficientLiquidity (pool : Address) (reserveIn reserveOut requested : Amount)
  | invalidFee (pool : Address) (fee : Nat)
  /-- A fixed rate with a zero in it. -/
  | invalidRate (pool : Address)
  | zeroAmount
  | overflow
  | ledger (error : LedgerError)
  deriving DecidableEq

namespace VenueError

def message : VenueError → String
  | unknownProvider provider => "未注册的 provider id: " ++ toString provider
  | duplicateProvider provider => "provider id " ++ toString provider ++ " 重复注册"
  | poolNotFound s =>
    "provider " ++ toString s.provider ++ " 下不存在池子 " ++ toString s.tokenIn ++ " -> " ++ toString s.tokenOut ++ " (fee=" ++
      toString s.fee ++ ")"
  | insufficientLiquidity pool reserveIn reserveOut requested =>
    "池子 " ++ toString pool ++ " 流动性不足: 储备 in=" ++ toString reserveIn ++ " out=" ++ toString reserveOut ++ " 请求 " ++
      toString requested
  | invalidFee pool fee => "池子 " ++ toString pool ++ " 的 fee " ++ toString fee ++ " 不小于 1e6"
  | invalidRate pool => "池子 " ++ toString pool ++ " 配置非法: 汇率分子分母必须为正"
  | zeroAmount => "兑换数量为零"
  | overflow => "兑换计算溢出"
  | ledger e => e.message

def category : VenueError → FailureCategory
  | poolNotFound _ | insufficientLiquidity .. | ledger _ => .liquidity
  | _ => .malformedInput

/-- An amount, or an overflow where the exact value does not fit. -/
def checked (n : Nat) : Except VenueError Amount :=
  match Amount.ofNat? n with
  | some a => .ok a
  | none => .error .overflow

theorem checked_eq_ok {n : Nat} {a : Amount} : checked n = .ok a ↔ a.toNat = n := by
  rw [← Amount.ofNat?_eq_some]
  unfold checked
  split <;> simp_all

end VenueError

end MarginRouter
