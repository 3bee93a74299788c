import MarginRouter.Text.Quoted

/-!
# Hexadecimal text

Two digits a byte, lower case when written, either case when read. `decode_encode` says that reading undoes writing.
-/

namespace MarginRouter.Hex

/-- The digit for a number below sixteen. -/
def digit (n : Nat) : Char :=
  if n < 10 then Char.ofNat (48 + n) else Char.ofNat (87 + n)

/-- The number a digit of either case stands for. -/
def value? (c : Char) : Option Nat :=
  if '0' ≤ c ∧ c ≤ '9' then some (c.toNat - 48)
  else if 'a' ≤ c ∧ c ≤ 'f' then some (c.toNat - 87)
  else if 'A' ≤ c ∧ c ≤ 'F' then some (c.toNat - 55)
  else none

/-- The two digits of each byte, in lower case. -/
def encode (bytes : List UInt8) : List Char :=
  bytes.flatMap fun b => [digit (b.toNat / 16), digit (b.toNat % 16)]

/-- Hexadecimal text of a byte string, behind the marker. -/
def text (bytes : List UInt8) : String :=
  "0x" ++ String.ofList (encode bytes)

/-- Why a text is not hexadecimal. Positions and lengths count the bytes of its UTF-8 form. -/
inductive Fault where
  /-- An odd number of bytes. -/
  | oddLength
  /-- A byte that is no digit, with its position. -/
  | badDigit (byte : Nat) (position : Nat)
  deriving DecidableEq, Repr

/-- The length in bytes. -/
def byteLength (cs : List Char) : Nat :=
  (cs.map Char.utf8Size).foldr (· + ·) 0

/-- The first character that is no digit, by its first byte and its position. -/
def firstBad (position : Nat) : List Char → Option Fault
  | [] => none
  | c :: cs => if (value? c).isSome then firstBad (position + 1) cs else some (.badDigit (Text.leadByte c) position)

/-- The bytes that pairs of digits stand for. -/
def pairs : List Char → List UInt8
  | a :: b :: cs => UInt8.ofNat (16 * (value? a).getD 0 + (value? b).getD 0) :: pairs cs
  | _ => []

/-- Reads hexadecimal text without a marker. An odd length is found before a bad digit. -/
def decode (cs : List Char) : Except Fault (List UInt8) :=
  if byteLength cs % 2 = 1 then .error .oddLength
  else match firstBad 0 cs with
    | some fault => .error fault
    | none => .ok (pairs cs)

/-- A text without one leading marker `0x` or `0X`. -/
def stripMarker : List Char → List Char
  | '0' :: 'x' :: cs => cs
  | '0' :: 'X' :: cs => cs
  | cs => cs

theorem value?_digit {n : Nat} (h : n < 16) : value? (digit n) = some n := by
  revert n; decide

theorem utf8Size_digit {n : Nat} (h : n < 16) : (digit n).utf8Size = 1 := by
  revert n; decide

theorem encode_cons (b : UInt8) (bytes : List UInt8) :
    encode (b :: bytes) = digit (b.toNat / 16) :: digit (b.toNat % 16) :: encode bytes := rfl

private theorem byteLength_encode (bytes : List UInt8) : byteLength (encode bytes) = 2 * bytes.length := by
  induction bytes with
  | nil => rfl
  | cons b bytes ih =>
    have hb : b.toNat < 256 := b.toNat_lt
    rw [encode_cons]
    simp only [byteLength, List.map_cons, List.foldr_cons, List.length_cons] at ih ⊢
    rw [ih, utf8Size_digit (by omega), utf8Size_digit (by omega)]
    omega

private theorem firstBad_encode (bytes : List UInt8) (position : Nat) : firstBad position (encode bytes) = none := by
  induction bytes generalizing position with
  | nil => rfl
  | cons b bytes ih =>
    have hb : b.toNat < 256 := b.toNat_lt
    simp [encode_cons, firstBad, value?_digit (show b.toNat / 16 < 16 by omega),
      value?_digit (show b.toNat % 16 < 16 by omega), ih]

private theorem pairs_encode (bytes : List UInt8) : pairs (encode bytes) = bytes := by
  induction bytes with
  | nil => rfl
  | cons b bytes ih =>
    have hb : b.toNat < 256 := b.toNat_lt
    rw [encode_cons, pairs, value?_digit (show b.toNat / 16 < 16 by omega), value?_digit (show b.toNat % 16 < 16 by omega),
      ih]
    simp only [Option.getD_some]
    rw [show 16 * (b.toNat / 16) + b.toNat % 16 = b.toNat by omega, UInt8.ofNat_toNat]

/-- Reading undoes writing. -/
theorem decode_encode (bytes : List UInt8) : decode (encode bytes) = .ok bytes := by
  simp [decode, byteLength_encode, firstBad_encode, pairs_encode]

end MarginRouter.Hex
