import MarginRouter.Bytes.Hex

/-!
# Quoted text of a document

A text stands between double marks, where a backslash begins an escape, or between single marks, where nothing does. Three
marks at either end let it run over several lines. A line ends in a line feed, with or without a carriage return in front, and
the text keeps its line ends as they are.
-/

namespace MarginRouter.Config.Toml

/-- The characters that may stand for themselves: all but the control characters, of which the tab alone may. -/
def isPlain (c : Char) : Bool :=
  c == '\t' || (0x20 ≤ c.toNat && c.toNat != 0x7f)

/-- What the letter behind a backslash begins: a character, or the number of a character in so many digits. -/
inductive Escape where
  | char (c : Char)
  | code (digits : Nat)

def escape? : Char → Option Escape
  | 'b' => some (.char '\x08')
  | 't' => some (.char '\t')
  | 'n' => some (.char '\n')
  | 'f' => some (.char '\x0c')
  | 'r' => some (.char '\x0d')
  | 'e' => some (.char '\x1b')
  | '"' => some (.char '"')
  | '\\' => some (.char '\\')
  | 'x' => some (.code 2)
  | 'u' => some (.code 4)
  | 'U' => some (.code 8)
  | _ => none

/-- The character with a number, if there is one. -/
def charOf? (n : Nat) : Option Char :=
  if n < 0xd800 ∨ (0xdfff < n ∧ n < 0x110000) then some (Char.ofNat n) else none

/-- How a text is quoted. -/
structure Quotation where
  mark : Char
  triple : Bool

namespace Quotation

def escapes (q : Quotation) : Bool :=
  q.mark == '"'

/-- The end of the text: what the closing marks leave to the text, and what follows them. Of up to five marks in a row the
last three close a text of several lines. -/
def close? (q : Quotation) (cs : List Char) : Option (List Char × List Char) :=
  let marks := (cs.takeWhile (· == q.mark)).length
  if q.triple then
    if 3 ≤ marks then some (List.replicate (min marks 5 - 3) q.mark, cs.drop (min marks 5)) else none
  else if 1 ≤ marks then some ([], cs.drop 1) else none

/-- Where reading stands between two characters of a text. -/
inductive Place where
  | inside
  /-- Behind a backslash. -/
  | escape
  /-- Within the number of a character: the digits to come, and the value of those before. -/
  | code (left value : Nat)
  /-- Behind a backslash that joins lines: at a blank that is passed over. -/
  | join (ended : Bool)

/-- A text begins with a blank or a line end. -/
def atGap : List Char → Bool
  | ' ' :: _ | '\t' :: _ | '\n' :: _ | '\x0d' :: '\n' :: _ => true
  | _ => false

/-- Where reading goes on behind a blank that is passed over, in front of this text. -/
def afterGap (ended : Bool) (rest : List Char) : Option Place :=
  if atGap rest then some (.join ended) else if ended then some .inside else none

/-- Reads a text from behind its opening marks, up to and including the closing ones. -/
def read (q : Quotation) : Place → List Char → Option (List Char × List Char)
  | _, [] => none
  | .inside, c :: cs =>
    match q.close? (c :: cs) with
    | some ended => some ended
    | none =>
      if c = '\\' ∧ q.escapes then q.read .escape cs
      else if isPlain c ∨ (q.triple ∧ atGap (c :: cs)) then do
        let (text, rest) ← q.read .inside cs
        some (c :: text, rest)
      else none
  | .escape, c :: cs =>
    match escape? c with
    | some (.char d) => do
      let (text, rest) ← q.read .inside cs
      some (d :: text, rest)
    | some (.code digits) => q.read (.code digits 0) cs
    | none => do
      if q.triple ∧ atGap (c :: cs) then q.read (← afterGap (c == '\n') cs) cs else none
  | .code left value, c :: cs => do
    let value := 16 * value + (← Hex.value? c)
    if left = 1 then do
      let d ← charOf? value
      let (text, rest) ← q.read .inside cs
      some (d :: text, rest)
    else q.read (.code (left - 1) value) cs
  | .join ended, c :: cs => do
    q.read (← afterGap (ended || c == '\n') cs) cs

end Quotation

/-- Reads a quoted text of one line, marks included. -/
def readOneLine? : List Char → Option (List Char × List Char)
  | '"' :: cs => Quotation.read ⟨'"', false⟩ .inside cs
  | '\'' :: cs => Quotation.read ⟨'\'', false⟩ .inside cs
  | _ => none

/-- What follows a line end, if a text begins with one. -/
def dropLineEnd : List Char → List Char
  | '\n' :: cs | '\x0d' :: '\n' :: cs => cs
  | cs => cs

/-- Reads a quoted text, marks included. A line end right behind three opening marks is not part of the text. -/
def readText? : List Char → Option (List Char × List Char)
  | '"' :: '"' :: '"' :: cs => Quotation.read ⟨'"', true⟩ .inside (dropLineEnd cs)
  | '\'' :: '\'' :: '\'' :: cs => Quotation.read ⟨'\'', true⟩ .inside (dropLineEnd cs)
  | cs => readOneLine? cs

end MarginRouter.Config.Toml
