import MarginRouter.Text.Quoted

/-!
# Numbers as text

Two ways of writing a whole number. A word is decimal, of limited width. A long number may have a radix in front and
underscores anywhere behind it. Where several things are wrong with a number, the first one that its reading meets decides: words
and decimal numbers are read from the left, and numbers with a radix in front from the right.
-/

namespace MarginRouter.Text

/-- The value of a digit of either case in the radices up to thirty-six. -/
def digitValue? (c : Char) : Option Nat :=
  if '0' ≤ c ∧ c ≤ '9' then some (c.toNat - 48)
  else if 'a' ≤ c ∧ c ≤ 'z' then some (c.toNat - 87)
  else if 'A' ≤ c ∧ c ≤ 'Z' then some (c.toNat - 55)
  else none

/-- The value of a digit of a radix. -/
def digitIn? (radix : Nat) (c : Char) : Option Nat :=
  (digitValue? c).filter (· < radix)

/-- Why a text is not a long number. -/
inductive NumberFault where
  /-- A byte that is no digit of the radix. -/
  | badDigit (byte : Nat)
  | tooLarge
  deriving DecidableEq, Repr

def NumberFault.message : NumberFault → String
  | badDigit byte => "invalid digit: " ++ (byteChar byte).toString
  | tooLarge => "the value is too large to fit the target type"

/-- Decimal digits are read in groups of so many. The largest group still fits 64 bits. -/
def groupSize : Nat := 19

/-- Reads decimal digits behind the number read so far, with `left` digits to come in the group. The number must stay below the
bound, which shows only at the end of a group and at the end of the text. -/
def readFromLeft (bound : Nat) : Nat → Nat → List Char → Except NumberFault Nat
  | _, n, [] => if bound ≤ n then .error .tooLarge else .ok n
  | left, n, c :: cs =>
    if c = '_' then readFromLeft bound left n cs
    else match digitIn? 10 c with
      | none => .error (.badDigit (leadByte c))
      | some d =>
        let n := 10 * n + d
        if 1 < left then readFromLeft bound (left - 1) n cs
        else if bound ≤ n then .error .tooLarge
        else readFromLeft bound groupSize n cs

/-- Reads digits of a radix from the last one to the first. Returns the number, which must stay below the bound at every digit,
and what a one would stand for at the next place. -/
def readFromRight (radix bound : Nat) : List Char → Except NumberFault (Nat × Nat)
  | [] => .ok (0, 1)
  | c :: cs => do
    let (n, weight) ← readFromRight radix bound cs
    if c = '_' then .ok (n, weight)
    else match digitIn? radix c with
      | none => .error (.badDigit (lastByte c))
      | some d => if bound ≤ n + d * weight then .error .tooLarge else .ok (n + d * weight, weight * radix)

/-- Reads a long number below a bound. No digits at all are zero. -/
def readNumber (bound : Nat) : List Char → Except NumberFault Nat
  | '0' :: 'x' :: cs | '0' :: 'X' :: cs => (readFromRight 16 bound cs).map Prod.fst
  | '0' :: 'o' :: cs | '0' :: 'O' :: cs => (readFromRight 8 bound cs).map Prod.fst
  | '0' :: 'b' :: cs | '0' :: 'B' :: cs => (readFromRight 2 bound cs).map Prod.fst
  | cs => readFromLeft bound groupSize 0 cs

/-- Why a text is not a word. -/
inductive WordFault where
  | empty
  | badDigit
  | tooLarge
  | tooSmall
  deriving DecidableEq, Repr

def WordFault.message : WordFault → String
  | empty => "cannot parse integer from empty string"
  | badDigit => "invalid digit found in string"
  | tooLarge => "number too large to fit in target type"
  | tooSmall => "number too small to fit in target type"

/-- Reads decimal digits behind the number read so far; `excess` is the fault of a number above the limit. -/
def readDecimal (limit : Nat) (excess : WordFault) : Nat → List Char → Except WordFault Nat
  | n, [] => .ok n
  | n, c :: cs =>
    if c.isDigit then
      let m := n * 10 + (c.toNat - 48)
      if limit < m then .error excess else readDecimal limit excess m cs
    else .error .badDigit

/-- Reads a decimal number up to a limit, with at most one plus sign in front. -/
def readWord (limit : Nat) (cs : List Char) : Except WordFault Nat :=
  match cs with
  | [] => .error .empty
  | ['+'] => .error .badDigit
  | '+' :: digits => readDecimal limit .tooLarge 0 digits
  | digits => readDecimal limit .tooLarge 0 digits

/-- Reads a signed decimal number of 64 bits. -/
def readInteger (cs : List Char) : Except WordFault Int :=
  match cs with
  | ['-'] => .error .badDigit
  | '-' :: digits => (readDecimal (1 <<< 63) .tooSmall 0 digits).map fun n => -(n : Int)
  | _ => (readWord (1 <<< 63 - 1) cs).map Int.ofNat

end MarginRouter.Text
