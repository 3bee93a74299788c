import MarginRouter.Engine.Composition
import MarginRouter.Loan.Error
import MarginRouter.Market.Error
import MarginRouter.Venue.Error

/-!
# Errors of executions
-/

namespace MarginRouter

/-- Why an execution fails. -/
inductive EngineError where
  | path (error : PathError)
  | venue (error : VenueError)
  | market (error : MarketError)
  | loan (error : LoanError)
  | ledger (error : LedgerError)
  | fee (error : FeeError)
  | emptyPath
  | orientationMismatch (index : Nat) (action : Action) (direction : Direction)
  | leveragedHopNotFirst (index : Nat) (action : Action)
  | actionMismatch (expected found : Composition)
  | slippageExceeded (direction : Direction) (settled limit : Amount)
  | amountModeUnsupported (composition : Composition) (direction : Direction)
  | zeroAmount
  deriving DecidableEq

namespace EngineError

def message : EngineError → String
  | path e => "路径解析失败: " ++ e.message
  | venue e => "兑换失败: " ++ e.message
  | market e => "借贷操作失败: " ++ e.message
  | loan e => "闪电贷处理失败: " ++ e.message
  | ledger e => "账本操作失败: " ++ e.message
  | fee e => "费用计算失败: " ++ e.message
  | emptyPath => "路径不包含任何 hop"
  | orientationMismatch index action direction =>
    "hop " ++ toString index ++ " 的操作码 " ++ toString action ++ " 与执行方向 " ++ toString direction ++ " 不符"
  | leveragedHopNotFirst index action =>
    "杠杆操作码 " ++ toString action ++ " 只能出现在第一个 hop，实际位于 hop " ++ toString index
  | actionMismatch expected found => "入口期望 " ++ toString expected ++ "，路径声明的是 " ++ toString found
  | slippageExceeded direction settled limit =>
    "滑点超限 (" ++ toString direction ++ "): 结算 " ++ toString settled ++ "，限制 " ++ toString limit
  | amountModeUnsupported composition direction =>
    toString composition ++ " 在 " ++ toString direction ++ " 方向下不支持 max 数量模式"
  | zeroAmount => "执行数量为零"

def category : EngineError → FailureCategory
  | path e => e.category
  | venue e => e.category
  | market e => e.category
  | loan e => e.category
  | ledger e => e.category
  | fee e => e.category
  | slippageExceeded .. => .slippage
  | _ => .malformedInput

end EngineError

end MarginRouter
