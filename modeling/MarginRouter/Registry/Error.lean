import MarginRouter.Engine.Error
import MarginRouter.Registry.Operation

/-!
# Errors of the registry and of calls
-/

namespace MarginRouter

/-- Why the registry refuses a change. -/
inductive RegistryError where
  | notAdministrator (caller : Address)
  | alreadyOwned (operation : OperationId) (owner : Address)
  | replaceUnowned (operation : OperationId)
  | replaceSame (operation : OperationId) (implementation : Address)
  | missingImplementation
  | removeWithImplementation (implementation : Address)
  | emptyCut
  | invalidOperationId (text : String)
  deriving DecidableEq

namespace RegistryError

def message : RegistryError → String
  | notAdministrator caller => toString caller ++ " 不是管理员"
  | alreadyOwned operation owner => "操作 " ++ toString operation ++ " 已由 " ++ toString owner ++ " 持有"
  | replaceUnowned operation => "操作 " ++ toString operation ++ " 尚无持有者，无法替换"
  | replaceSame operation implementation =>
    "操作 " ++ toString operation ++ " 已由同一实现 " ++ toString implementation ++ " 持有"
  | missingImplementation => "add / replace 必须提供模块实现"
  | removeWithImplementation implementation => "remove 不能携带模块实现 (" ++ toString implementation ++ ")"
  | emptyCut => "变更未列出任何操作"
  | invalidOperationId text => "非法的操作标识: " ++ text

def category : RegistryError → FailureCategory
  | notAdministrator _ => .authorization
  | _ => .malformedInput

end RegistryError

/-- What is wrong with the arguments of a call. -/
inductive ArgumentFault where
  /-- Too short for the two numbers of a trade. -/
  | missingNumbers
  /-- Not the length of a query. -/
  | queryLength
  deriving DecidableEq, Repr

def ArgumentFault.message : ArgumentFault → String
  | missingNumbers => "缺少 amount / limit"
  | queryLength => "查询参数长度不符"

/-- Why a call fails. -/
inductive CallError where
  | unrecognizedOperation (operation : Option OperationId)
  | registry (error : RegistryError)
  | engine (error : EngineError)
  | market (error : MarketError)
  | ledger (error : LedgerError)
  | malformedArguments (operation : OperationId) (fault : ArgumentFault)
  deriving DecidableEq

namespace CallError

def message : CallError → String
  | unrecognizedOperation (some operation) => "无法识别的操作: " ++ toString operation
  | unrecognizedOperation none => "无法识别的操作: <calldata 不足 4 字节>"
  | registry e => e.message
  | engine e => e.message
  | market e => e.message
  | ledger e => e.message
  | malformedArguments operation fault => "操作 " ++ toString operation ++ " 的 calldata 非法: " ++ fault.message

def category : CallError → FailureCategory
  | unrecognizedOperation _ => .routing
  | registry e => e.category
  | engine e => e.category
  | market e => e.category
  | ledger e => e.category
  | malformedArguments .. => .malformedInput

end CallError

end MarginRouter
