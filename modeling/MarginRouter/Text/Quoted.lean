/-!
# Quoted characters

How a message names the character it complains about: between single quotes, with an escape where the character cannot stand
for itself.
-/

namespace MarginRouter.Text

/-- The first byte of a character's UTF-8 form. -/
def leadByte (c : Char) : Nat :=
  let n := c.toNat
  if n < 0x80 then n else if n < 0x800 then 0xc0 + n / 0x40 else if n < 0x10000 then 0xe0 + n / 0x1000 else 0xf0 + n / 0x40000

/-- The last byte of a character's UTF-8 form. -/
def lastByte (c : Char) : Nat :=
  let n := c.toNat
  if n < 0x80 then n else 0x80 + n % 0x40

/-- A byte of a text, shown as the character with that number. -/
def byteChar (n : Nat) : Char :=
  Char.ofNat n

/-- Control characters, the no-break space and the soft hyphen have no shape of their own. -/
def isInvisible (c : Char) : Bool :=
  let n := c.toNat
  n < 0x20 || (0x7f ≤ n && n ≤ 0xa0) || n == 0xad

/-- A character between single quotes. -/
def quoted (c : Char) : String :=
  let inner : String :=
    match c with
    | '\x00' => "\\0"
    | '\t' => "\\t"
    | '\n' => "\\n"
    | '\x0d' => "\\r"
    | '\'' => "\\'"
    | '\\' => "\\\\"
    | c => if isInvisible c then "\\u\x7b" ++ String.ofList (Nat.toDigits 16 c.toNat) ++ "\x7d" else c.toString
  "'" ++ inner ++ "'"

end MarginRouter.Text
