import MarginRouter.Bytes.BigEndian
import MarginRouter.Bytes.Hex
import MarginRouter.Bytes.Keccak
import MarginRouter.Text.Parts

/-!
# Operation identifiers

An operation is named by the first four bytes of the digest of its signature. A call starts with these bytes.
-/

namespace MarginRouter

/-- An operation identifier: a natural number below `2 ^ 32`. -/
@[ext] structure OperationId where
  toNat : Nat
  isLt : toNat < 1 <<< 32
  deriving DecidableEq

namespace OperationId

instance : Ord OperationId := ⟨compareOn toNat⟩

instance : Std.TransOrd OperationId := inferInstanceAs (Std.TransCmp (compareOn toNat))

instance : Std.LawfulEqOrd OperationId where
  eq_of_compare h := OperationId.ext (Std.LawfulEqOrd.eq_of_compare h)

/-- The identifier in the first four bytes. -/
def ofBytes (bytes : List UInt8) : OperationId :=
  ⟨BigEndian.decode (bytes.take 4), BigEndian.decode_take_lt 4 bytes⟩

def toBytes (op : OperationId) : List UInt8 :=
  BigEndian.encode 4 op.toNat

/-- The identifier of a signature. -/
def ofSignature (signature : String) : OperationId :=
  ofBytes (keccak256 signature.toUTF8.toList)

/-- The identifier a call starts with, if the call is long enough for one. -/
def ofCalldata? (calldata : List UInt8) : Option OperationId :=
  if 4 ≤ calldata.length then some (ofBytes calldata) else none

/-- Reads eight digits of either case; blanks around them and the marker `0x` before them do not count. -/
def ofText? (cs : List Char) : Option OperationId :=
  let digits := match Text.trim cs with
    | '0' :: 'x' :: digits => digits
    | digits => digits
  match Hex.decode digits with
  | .ok bytes => if bytes.length = 4 then some (ofBytes bytes) else none
  | .error _ => none

@[simp] theorem length_toBytes (op : OperationId) : op.toBytes.length = 4 :=
  BigEndian.length_encode 4 op.toNat

/-- Reading an identifier undoes writing it, whatever follows. -/
theorem ofBytes_append (op : OperationId) (rest : List UInt8) : ofBytes (op.toBytes ++ rest) = op := by
  have hlt : op.toNat < 1 <<< (8 * 4) := op.isLt
  exact OperationId.ext (BigEndian.decode_take_append hlt rest)

/-- The four bytes at the front are the written form of the identifier read from them. -/
theorem toBytes_ofBytes {bytes : List UInt8} (h : 4 ≤ bytes.length) : (ofBytes bytes).toBytes = bytes.take 4 :=
  BigEndian.encode_decode_take h

/-- A call starts with an identifier exactly when it is the four bytes of the identifier and something after them. -/
theorem ofCalldata?_eq_some {calldata : List UInt8} {op : OperationId} :
    ofCalldata? calldata = some op ↔ calldata = op.toBytes ++ calldata.drop 4 := by
  unfold ofCalldata?
  constructor
  · intro h
    split at h
    · rename_i hlen
      obtain rfl := Option.some.inj h
      rw [toBytes_ofBytes hlen, List.take_append_drop]
    · cases h
  · intro h
    have hlen : 4 ≤ calldata.length := by
      rw [h, List.length_append, length_toBytes]
      omega
    rw [if_pos hlen, h, ofBytes_append]

/-- What starts with the bytes of an identifier is a call of it. -/
theorem ofCalldata?_append (op : OperationId) (rest : List UInt8) : ofCalldata? (op.toBytes ++ rest) = some op := by
  refine ofCalldata?_eq_some.2 ?_
  rw [List.drop_left' op.length_toBytes]

/-- An identifier is written in lower-case digits. -/
instance : ToString OperationId := ⟨fun op => Hex.text op.toBytes⟩

end OperationId

end MarginRouter
