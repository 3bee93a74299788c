import MarginRouter.Bytes.Hex
import MarginRouter.Step

/-!
# Errors of paths
-/

namespace MarginRouter

/-- Why something is no path, or no part of one. -/
inductive PathError where
  /-- No path has this many bytes. -/
  | malformed (length : Nat)
  /-- A fee of more than 24 bits, at the hop with this index. -/
  | feeOutOfRange (index : Nat) (fee : Nat)
  | unknownAction (code : UInt8)
  | invalidMode (byte : UInt8)
  | notHex (fault : Hex.Fault)
  deriving DecidableEq, Repr

namespace PathError

/-- The wording of a fault in the hexadecimal text of a path. -/
def hexMessage : Hex.Fault → String
  | .oddLength => "Odd number of digits"
  | .badDigit byte position =>
    "Invalid character " ++ Text.quoted (Text.byteChar byte) ++ " at position " ++ toString position

def message : PathError → String
  | malformed length => "路径长度非法: " ++ toString length ++ " 字节不满足 20 + 25k (+1)"
  | feeOutOfRange index fee => "hop " ++ toString index ++ " 的 fee 超出 24 位: " ++ toString fee
  | unknownAction code => "未知的 action code: " ++ toString code
  | invalidMode byte => "mode flag 非法: " ++ Hex.text [byte]
  | notHex fault => "路径十六进制解析失败: " ++ hexMessage fault

def category : PathError → FailureCategory
  | _ => .malformedInput

end PathError

end MarginRouter
