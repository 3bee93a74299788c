/-!
# Big-endian numbers

A natural number as a fixed count of bytes, most significant first. `decode_encode` and `encode_decode` say that the two
directions are inverse on numbers that fit and on all byte strings.
-/

namespace MarginRouter.BigEndian

/-- The number a byte string stands for, most significant byte first. -/
def decode : List UInt8 → Nat
  | [] => 0
  | b :: bs => b.toNat <<< (8 * bs.length) + decode bs

/-- The last `width` bytes of a number, most significant first. -/
def encode : Nat → Nat → List UInt8
  | 0, _ => []
  | width + 1, n => UInt8.ofNat (n >>> (8 * width)) :: encode width n

@[simp] theorem length_encode (width n : Nat) : (encode width n).length = width := by
  induction width with
  | zero => rfl
  | succ width ih => simp [encode, ih]

/-- One byte more makes 256 times as many numbers. -/
theorem shiftLeft_succ (n width : Nat) : n <<< (8 * (width + 1)) = n <<< (8 * width) * 256 := by
  rw [Nat.mul_succ, Nat.shiftLeft_add, Nat.shiftLeft_eq _ 8]

/-- A byte string stands for a number below `1 <<< (8 * length)`. -/
theorem decode_lt (bs : List UInt8) : decode bs < 1 <<< (8 * bs.length) := by
  induction bs with
  | nil => simp [decode]
  | cons b bs ih =>
    have hb : b.toNat + 1 ≤ 256 := b.toNat_lt
    rw [Nat.one_shiftLeft] at ih
    calc decode (b :: bs) < (b.toNat + 1) * 2 ^ (8 * bs.length) := by
          rw [decode, Nat.shiftLeft_eq, Nat.add_mul]; omega
      _ ≤ 256 * 2 ^ (8 * bs.length) := Nat.mul_le_mul_right _ hb
      _ = 1 <<< (8 * (b :: bs).length) := by
          rw [List.length_cons, shiftLeft_succ, Nat.one_shiftLeft, Nat.mul_comm]

/-- At most `width` bytes stand for a number below `1 <<< (8 * width)`. -/
theorem decode_take_lt (width : Nat) (bs : List UInt8) : decode (bs.take width) < 1 <<< (8 * width) := by
  refine Nat.lt_of_lt_of_le (decode_lt _) ?_
  rw [Nat.one_shiftLeft, Nat.one_shiftLeft]
  exact Nat.pow_le_pow_right (by omega) (Nat.mul_le_mul_left 8 (List.length_take_le width bs))

/-- Writing keeps the number modulo `1 <<< (8 * width)`. -/
theorem decode_encode_mod (width n : Nat) : decode (encode width n) = n % 1 <<< (8 * width) := by
  induction width with
  | zero => simp [encode, decode, Nat.mod_one]
  | succ width ih =>
    rw [encode, decode, length_encode, ih, UInt8.toNat_ofNat', shiftLeft_succ, Nat.mod_mul, Nat.one_shiftLeft,
      Nat.shiftLeft_eq, Nat.shiftRight_eq_div_pow, Nat.mul_comm, Nat.add_comm]

/-- A number that fits reads back as itself. -/
theorem decode_encode {width n : Nat} (h : n < 1 <<< (8 * width)) : decode (encode width n) = n := by
  rw [decode_encode_mod, Nat.mod_eq_of_lt h]

/-- Only the last `width` bytes of a number are written. -/
theorem encode_add_shiftLeft (width k n : Nat) : encode width (k <<< (8 * width) + n) = encode width n := by
  induction width generalizing k with
  | zero => rfl
  | succ width ih =>
    have hpos : 0 < 2 ^ (8 * width) := Nat.pow_pos (by omega)
    have hk : k <<< (8 * (width + 1)) = (k * 256) <<< (8 * width) := by
      rw [shiftLeft_succ, Nat.shiftLeft_eq, Nat.shiftLeft_eq]; ac_rfl
    rw [encode, encode, hk, ih, Nat.shiftLeft_eq, Nat.shiftRight_eq_div_pow, Nat.shiftRight_eq_div_pow, Nat.add_comm,
      Nat.add_mul_div_right _ _ hpos]
    congr 1
    exact UInt8.toNat.inj (by simp [UInt8.toNat_ofNat'])

/-- A byte string is the written form of the number it stands for. -/
theorem encode_decode (bs : List UInt8) : encode bs.length (decode bs) = bs := by
  induction bs with
  | nil => rfl
  | cons b bs ih =>
    have hpos : 0 < 2 ^ (8 * bs.length) := Nat.pow_pos (by omega)
    have hlt : decode bs < 2 ^ (8 * bs.length) := Nat.one_shiftLeft _ ▸ decode_lt bs
    rw [List.length_cons, encode, decode, encode_add_shiftLeft, ih, Nat.shiftLeft_eq, Nat.shiftRight_eq_div_pow,
      Nat.add_comm, Nat.add_mul_div_right _ _ hpos, Nat.div_eq_of_lt hlt, Nat.zero_add, UInt8.ofNat_toNat]

/-- A number that fits reads back from its written form, whatever follows. -/
theorem decode_take_append {width n : Nat} (h : n < 1 <<< (8 * width)) (rest : List UInt8) :
    decode ((encode width n ++ rest).take width) = n := by
  rw [List.take_left' (length_encode width n), decode_encode h]

/-- The first `width` bytes are the written form of the number they stand for. -/
theorem encode_decode_take {width : Nat} {bytes : List UInt8} (h : width ≤ bytes.length) :
    encode width (decode (bytes.take width)) = bytes.take width := by
  have hlen : (bytes.take width).length = width := List.length_take_of_le h
  have hread := encode_decode (bytes.take width)
  rwa [hlen] at hread

end MarginRouter.BigEndian
