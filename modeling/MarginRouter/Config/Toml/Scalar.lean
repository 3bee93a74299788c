import MarginRouter.Config.Value
import MarginRouter.Text.Number

/-!
# Bare values of a document

What a value without quotes or brackets means: a truth value, a whole number, a fraction, a date or a time. Of these, settings
take truth values and whole numbers; the others are only told from text that means nothing. A number may also be a bad one: it
has the outer form of a number, and what is wrong inside shows to those who ask for its value.
-/

namespace MarginRouter.Config.Toml

/-- Reads digits of a radix behind the number read so far, with single underscores between digits. -/
def readDigits (radix : Nat) : Nat → Bool → List Char → Option Nat
  | n, behindDigit, [] => if behindDigit then some n else none
  | n, behindDigit, c :: cs =>
    if c = '_' then if behindDigit then readDigits radix n false cs else none
    else do readDigits radix (n * radix + (← Text.digitIn? radix c)) true cs

/-- A number in a radix. -/
def digits? (radix : Nat) (cs : List Char) : Option Nat :=
  readDigits radix 0 false cs

/-- A decimal number without a zero in front. -/
def decimal? : List Char → Option Nat
  | ['0'] => some 0
  | '0' :: _ => none
  | cs => digits? 10 cs

def dropSign : List Char → List Char
  | '+' :: cs | '-' :: cs => cs
  | cs => cs

/-- A whole number: decimal with or without a sign, or in the radix that its first two characters name. -/
def integer? : List Char → Option Int
  | '0' :: 'x' :: cs => (digits? 16 cs).map Int.ofNat
  | '0' :: 'o' :: cs => (digits? 8 cs).map Int.ofNat
  | '0' :: 'b' :: cs => (digits? 2 cs).map Int.ofNat
  | '-' :: cs => (decimal? cs).map fun n => -(n : Int)
  | cs => (decimal? (dropSign cs)).map Int.ofNat

def isExponentMark (c : Char) : Bool :=
  c == 'e' || c == 'E'

def isHexDigit (c : Char) : Bool :=
  (Text.digitIn? 16 c).isSome

/-- Each underscore stands between digits, taken widely. `before` is the character in front of the text. -/
def underscoresFit (before : Char) : List Char → Bool
  | [] => true
  | c :: cs => (c != '_' || (isHexDigit before && cs.head?.any isHexDigit)) && underscoresFit c cs

/-- The outer form of a whole number: a decimal digit other than zero, and from the first underscore on any characters but those
of a fraction. The mark of a radix alone has it too. -/
def isNumberLike : List Char → Bool
  | ['0', 'x'] | ['0', 'o'] | ['0', 'b'] => true
  | cs =>
    let cs := dropSign cs
    let rest := cs.dropWhile Char.isDigit
    cs.head?.any (fun c => c.isDigit && c != '0') && rest.head? == some '_' &&
      rest.all (fun c => c != '.' && !isExponentMark c) && underscoresFit '0' cs

/-- The power of ten of a fraction, with its mark. -/
def exponent? : List Char → Option Int
  | [] => some 0
  | c :: cs => do
    let n ← digits? 10 (dropSign cs)
    if isExponentMark c then return if cs.head? = some '-' then -(n : Int) else n else none

/-- From here on a fraction is too large. The largest one is `2 ^ 1024 - 2 ^ 971`, and this is halfway to the next one. -/
def fractionBound : Nat :=
  1 <<< 1024 - 1 <<< 970

/-- A number times a power of ten is too large for a fraction. What has more decimals than digits is below one, and what has more
than 308 zeros behind it is too large at once. -/
def isTooLarge (n : Nat) : Int → Bool
  | .ofNat zeros => n != 0 && (308 < zeros || fractionBound ≤ n * Nat.pow 10 zeros)
  | .negSucc places => places < n.log2 && fractionBound * Nat.pow 10 (places + 1) ≤ n

/-- The value of a fraction: a whole part with decimals, a power of ten or both, or one of the values that are no number. -/
def fraction? (cs : List Char) : Option Value := do
  let cs := dropSign cs
  if cs = ['i', 'n', 'f'] ∨ cs = ['n', 'a', 'n'] then return .fraction
  let (whole, rest) := cs.span fun c => !(c == '.' || isExponentMark c)
  let n ← decimal? whole
  match rest with
  | [] => none
  | '.' :: rest =>
    let (decimals, rest) := rest.span fun c => !isExponentMark c
    let places := decimals.countP (· ≠ '_')
    let n := n * Nat.pow 10 places + (← digits? 10 decimals)
    return if isTooLarge n ((← exponent? rest) - places) then .badNumber else .fraction
  | rest => return if isTooLarge n (← exponent? rest) then .badNumber else .fraction

/-- A number of exactly so many digits, and what follows it. -/
def fixed? (width : Nat) (cs : List Char) : Option (Nat × List Char) :=
  let digits := cs.take width
  if digits.length = width ∧ digits.all Char.isDigit then (digits? 10 digits).map (·, cs.drop width) else none

def daysIn (year month : Nat) : Nat :=
  if month = 2 then if year % 4 = 0 ∧ (year % 100 ≠ 0 ∨ year % 400 = 0) then 29 else 28
  else if month = 4 ∨ month = 6 ∨ month = 9 ∨ month = 11 then 30 else 31

/-- What follows a day of the calendar, year first. -/
def afterDate? (cs : List Char) : Option (List Char) := do
  let (year, cs) ← fixed? 4 cs
  let '-' :: cs := cs | none
  let (month, cs) ← fixed? 2 cs
  let '-' :: cs := cs | none
  let (day, cs) ← fixed? 2 cs
  if 1 ≤ month ∧ month ≤ 12 ∧ 1 ≤ day ∧ day ≤ daysIn year month then some cs else none

/-- What follows hours and minutes. -/
def afterHour? (cs : List Char) : Option (List Char) := do
  let (hour, cs) ← fixed? 2 cs
  let ':' :: cs := cs | none
  let (minute, cs) ← fixed? 2 cs
  if hour ≤ 23 ∧ minute ≤ 59 then some cs else none

/-- What follows a time of day, down to minutes, seconds or parts of a second. -/
def afterTime? (cs : List Char) : Option (List Char) := do
  let cs ← afterHour? cs
  let ':' :: cs := cs | some cs
  let (second, cs) ← fixed? 2 cs
  if 60 < second then none
  else
    let '.' :: cs := cs | some cs
    let (parts, cs) := cs.span Char.isDigit
    if parts.isEmpty then none else some cs

/-- The distance of a place's time from the common one, or nothing. -/
def isOffset : List Char → Bool
  | [] | ['Z'] | ['z'] => true
  | '+' :: cs | '-' :: cs => afterHour? cs = some []
  | _ => false

def isDate (cs : List Char) : Bool :=
  afterDate? cs = some []

/-- A date, a time of day, or a date and a time with a mark or a blank between them. -/
def isMoment (cs : List Char) : Bool :=
  afterTime? cs = some [] ||
    match afterDate? cs with
    | some [] => true
    | some (c :: cs) => (c == 'T' || c == 't' || c == ' ') && ((afterTime? cs).map isOffset).getD false
    | none => false

/-- The value that a bare text means. Whole numbers have at most 128 bits. -/
def scalar? (cs : List Char) : Option Value :=
  if cs = ['t', 'r', 'u', 'e'] then some (.bool true)
  else if cs = ['f', 'a', 'l', 's', 'e'] then some (.bool false)
  else match integer? cs with
    | some n => some (if -(1 <<< 127) ≤ n ∧ n < 1 <<< 128 then .integer n else .badNumber)
    | none =>
      if isMoment cs then some .moment
      else if isNumberLike cs then some .badNumber
      else fraction? cs

end MarginRouter.Config.Toml
