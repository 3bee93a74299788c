import MarginRouter.Text.Number

/-!
# Listen addresses

The text of a network address and the number of a service there. The address is four numbers with dots, or eight groups of
hexadecimal digits in brackets, of which two colons stand for a run of zero groups and four numbers with dots for the last
two.

Each function returns what follows the part that it reads.
-/

namespace MarginRouter.Config.ListenAddress

/-- Passes one character. -/
def mark? (c : Char) : List Char → Option (List Char)
  | d :: cs => if d = c then some cs else none
  | [] => none

/-- Which numbers a part of an address may hold. -/
structure Field where
  radix : Nat
  limit : Nat
  /-- The largest number of digits, if there is one. -/
  width : Option Nat
  /-- Whether zeros may stand in front of other digits. -/
  zeros : Bool

def Field.octet : Field := ⟨10, 255, some 3, false⟩
def Field.group : Field := ⟨16, UInt16.size - 1, some 4, true⟩
def Field.service : Field := ⟨10, UInt16.size - 1, none, true⟩
def Field.scope : Field := ⟨10, UInt32.size - 1, none, true⟩

/-- The value of a digit below the radix. -/
def Field.digit? (f : Field) (c : Char) : Option Nat :=
  Text.digitIn? f.radix c

/-- Passes a number. -/
def number? (f : Field) (cs : List Char) : Option (List Char) :=
  let digits := cs.takeWhile fun c => (f.digit? c).isSome
  let value := digits.foldl (fun n c => n * f.radix + (f.digit? c).getD 0) 0
  if digits.isEmpty ∨ f.limit < value ∨ f.width.any (· < digits.length) then none
  else if digits.head? = some '0' ∧ digits.length ≠ 1 ∧ !f.zeros then none
  else some (cs.drop digits.length)

/-- Passes four numbers with dots. -/
def dotted? (cs : List Char) : Option (List Char) := do
  let cs ← mark? '.' (← number? .octet cs)
  let cs ← mark? '.' (← number? .octet cs)
  let cs ← mark? '.' (← number? .octet cs)
  number? .octet cs

/-- Passes up to so many groups with colons between them, of which the last two may be written with dots. Also returns their
number, and whether they end in dotted numbers. -/
def groups : Nat → Bool → List Char → Nat × Bool × List Char
  | 0, _, cs => (0, false, cs)
  | left + 1, first, cs =>
    let start := if first then some cs else mark? ':' cs
    match if left = 0 then none else start.bind dotted? with
    | some rest => (2, true, rest)
    | none =>
      match start.bind (number? .group) with
      | none => (0, false, cs)
      | some rest =>
        let (count, endsDotted, rest) := groups left false rest
        (count + 1, endsDotted, rest)

/-- Passes eight groups, or fewer with a run of zero groups that is left out. -/
def grouped? (cs : List Char) : Option (List Char) := do
  let (count, endsDotted, rest) := groups 8 true cs
  if count = 8 then return rest
  else if endsDotted then none
  else
    let rest ← mark? ':' (← mark? ':' rest)
    return (groups (7 - count) true rest).2.2

/-- Passes groups in brackets, with or without the number of a scope. -/
def bracketed? (cs : List Char) : Option (List Char) := do
  let cs ← grouped? (← mark? '[' cs)
  let cs := ((mark? '%' cs).bind (number? .scope)).getD cs
  mark? ']' cs

/-- Passes a colon and the number of a service. -/
def service? (cs : List Char) : Option (List Char) := do
  number? .service (← mark? ':' cs)

/-- The text is an address with the number of a service, and nothing else. -/
def isValid (text : String) : Bool :=
  (dotted? text.toList).bind service? = some [] || (bracketed? text.toList).bind service? = some []

end MarginRouter.Config.ListenAddress
