import MarginRouter.Bytes.BigEndian
import MarginRouter.Bytes.Hex
import MarginRouter.Bytes.Keccak

/-!
# Account addresses

Tokens, pools, markets, lenders and callers are all named by an address of twenty bytes. Addresses are ordered as numbers,
which is the order of their bytes and of their lower-case digits.
-/

namespace MarginRouter

/-- An account address: a natural number below `2 ^ 160`. -/
@[ext] structure Address where
  toNat : Nat
  isLt : toNat < 1 <<< 160
  deriving DecidableEq

namespace Address

instance : Inhabited Address := ⟨⟨0, by decide⟩⟩
instance : LE Address := ⟨fun a b => a.toNat ≤ b.toNat⟩
instance (a b : Address) : Decidable (a ≤ b) := inferInstanceAs (Decidable (a.toNat ≤ b.toNat))
instance : Ord Address := ⟨compareOn toNat⟩

instance : Std.TransOrd Address := inferInstanceAs (Std.TransCmp (compareOn toNat))

instance : Std.LawfulEqOrd Address where
  eq_of_compare h := Address.ext (Std.LawfulEqOrd.eq_of_compare h)

/-- The address with this value, cut to its last twenty bytes. -/
def ofNat (n : Nat) : Address :=
  ⟨n % 1 <<< 160, Nat.mod_lt _ (by decide)⟩

/-- The address in the first twenty bytes. -/
def ofBytes (bytes : List UInt8) : Address :=
  ⟨BigEndian.decode (bytes.take 20), BigEndian.decode_take_lt 20 bytes⟩

/-- The twenty bytes of an address. -/
def toBytes (a : Address) : List UInt8 :=
  BigEndian.encode 20 a.toNat

@[simp] theorem length_toBytes (a : Address) : a.toBytes.length = 20 :=
  BigEndian.length_encode 20 a.toNat

/-- Reading an address undoes writing it, whatever follows. -/
theorem ofBytes_append (a : Address) (rest : List UInt8) : ofBytes (a.toBytes ++ rest) = a := by
  have hlt : a.toNat < 1 <<< (8 * 20) := a.isLt
  exact Address.ext (BigEndian.decode_take_append hlt rest)

/-- The twenty bytes at the front are the written form of the address read from them. -/
theorem toBytes_ofBytes {bytes : List UInt8} (h : 20 ≤ bytes.length) : (ofBytes bytes).toBytes = bytes.take 20 :=
  BigEndian.encode_decode_take h

/-- The address in lower-case digits. -/
def lower (a : Address) : String :=
  Hex.text a.toBytes

/-- The letter case of the digits of an address: a letter is upper case exactly when the digit at the same place in the
digest of all forty lower-case digits is at least eight. -/
def checksumDigits (digits : List Char) : List Char :=
  let digest := Hex.encode (keccak256 (digits.map fun c => UInt8.ofNat c.toNat))
  List.zipWith (fun c h => if 8 ≤ (Hex.value? h).getD 0 then c.toUpper else c) digits digest

/-- The address as people read it, with the checksum in its letter case. -/
def checksummed (a : Address) : String :=
  "0x" ++ String.ofList (checksumDigits (Hex.encode a.toBytes))

instance : ToString Address := ⟨checksummed⟩

/-- Why a text is no address. -/
inductive TextFault where
  | notHex (fault : Hex.Fault)
  /-- Not forty bytes. -/
  | badLength
  deriving DecidableEq, Repr

def TextFault.message : TextFault → String
  | .notHex .oddLength => "odd number of digits"
  | .notHex (.badDigit byte position) =>
    "invalid character " ++ Text.quoted (Text.byteChar byte) ++ " at position " ++ toString position
  | .badLength => "invalid string length"

/-- Reads forty digits of either case behind at most one marker. The letter case is not checked. -/
def ofText (cs : List Char) : Except TextFault Address :=
  let digits := Hex.stripMarker cs
  if Hex.byteLength digits % 2 = 1 then .error (.notHex .oddLength)
  else if Hex.byteLength digits ≠ 40 then .error .badLength
  else match Hex.decode digits with
    | .error fault => .error (.notHex fault)
    | .ok bytes => .ok (ofBytes bytes)

end Address

end MarginRouter
