import MarginRouter.Bytes.BigEndian

/-!
# Token amounts

A token amount is a natural number below `2 ^ 256`. Addition answers nothing when the exact result does not fit; the lemmas
here say when that is and what the result is otherwise.
-/

namespace MarginRouter

/-- A token amount: a natural number below `2 ^ 256`. -/
@[ext] structure Amount where
  toNat : Nat
  isLt : toNat < 1 <<< 256
  deriving DecidableEq

namespace Amount

instance : Zero Amount := ⟨⟨0, by decide⟩⟩
instance : Inhabited Amount := ⟨0⟩
instance : LE Amount := ⟨fun a b => a.toNat ≤ b.toNat⟩
instance : LT Amount := ⟨fun a b => a.toNat < b.toNat⟩
instance (a b : Amount) : Decidable (a ≤ b) := inferInstanceAs (Decidable (a.toNat ≤ b.toNat))
instance (a b : Amount) : Decidable (a < b) := inferInstanceAs (Decidable (a.toNat < b.toNat))

instance : Min Amount := ⟨fun a b => if a ≤ b then a else b⟩

/-- In messages an amount is written in decimal. -/
instance : ToString Amount := ⟨fun a => toString a.toNat⟩

/-- The largest amount. -/
def max : Amount := ⟨1 <<< 256 - 1, by decide⟩

/-- The amount with this value, if there is one. -/
def ofNat? (n : Nat) : Option Amount :=
  if h : n < 1 <<< 256 then some ⟨n, h⟩ else none

/-- A value cut to the largest amount. -/
def saturate (n : Nat) : Amount :=
  (ofNat? n).getD max

/-- A value modulo `2 ^ 256`. -/
def wrap (n : Nat) : Amount :=
  ⟨n % 1 <<< 256, Nat.mod_lt _ (by decide)⟩

/-- A 64-bit number as an amount. -/
def ofWord (n : UInt64) : Amount :=
  ⟨n.toNat, Nat.lt_trans n.toNat_lt (by decide)⟩

def add? (a b : Amount) : Option Amount :=
  ofNat? (a.toNat + b.toNat)

/-- The difference, or zero where the second amount is the larger one. -/
def sub (a b : Amount) : Amount :=
  ⟨a.toNat - b.toNat, Nat.lt_of_le_of_lt (Nat.sub_le _ _) a.isLt⟩

instance : Sub Amount := ⟨sub⟩

/-- The quotient, rounded down. -/
def div (a b : Amount) : Amount :=
  ⟨a.toNat / b.toNat, Nat.lt_of_le_of_lt (Nat.div_le_self _ _) a.isLt⟩

/-- The quotient, rounded up. -/
def divCeil (a b : Amount) : Amount :=
  if a.toNat % b.toNat = 0 then a.div b else .wrap (a.toNat / b.toNat + 1)

/-- The amount in the first thirty-two bytes. -/
def ofBytes (bytes : List UInt8) : Amount :=
  ⟨BigEndian.decode (bytes.take 32), BigEndian.decode_take_lt 32 bytes⟩

/-- The thirty-two bytes of an amount. -/
def toBytes (a : Amount) : List UInt8 :=
  BigEndian.encode 32 a.toNat

@[simp] theorem length_toBytes (a : Amount) : a.toBytes.length = 32 :=
  BigEndian.length_encode 32 a.toNat

/-- Reading an amount undoes writing it, whatever follows. -/
theorem ofBytes_append (a : Amount) (rest : List UInt8) : ofBytes (a.toBytes ++ rest) = a := by
  have hlt : a.toNat < 1 <<< (8 * 32) := a.isLt
  exact Amount.ext (BigEndian.decode_take_append hlt rest)

/-- The thirty-two bytes at the front are the written form of the amount read from them. -/
theorem toBytes_ofBytes {bytes : List UInt8} (h : 32 ≤ bytes.length) : (ofBytes bytes).toBytes = bytes.take 32 :=
  BigEndian.encode_decode_take h

theorem le_def {a b : Amount} : a ≤ b ↔ a.toNat ≤ b.toNat := Iff.rfl

theorem lt_def {a b : Amount} : a < b ↔ a.toNat < b.toNat := Iff.rfl

@[simp] theorem toNat_zero : (0 : Amount).toNat = 0 := rfl

@[simp] theorem toNat_sub (a b : Amount) : (a - b).toNat = a.toNat - b.toNat := rfl

/-- A value has its amount exactly when it is below `2 ^ 256`. -/
theorem ofNat?_eq_some {n : Nat} {a : Amount} : ofNat? n = some a ↔ a.toNat = n := by
  unfold ofNat?
  constructor
  · intro h
    split at h
    · cases h; rfl
    · cases h
  · rintro rfl
    rw [dif_pos a.isLt]

theorem ofNat?_eq_none {n : Nat} : ofNat? n = none ↔ 1 <<< 256 ≤ n := by
  unfold ofNat?
  split
  · exact iff_of_false nofun (by omega)
  · exact iff_of_true rfl (by omega)

theorem add?_eq_some {a b c : Amount} : a.add? b = some c ↔ c.toNat = a.toNat + b.toNat :=
  ofNat?_eq_some

theorem add?_eq_none {a b : Amount} : a.add? b = none ↔ 1 <<< 256 ≤ a.toNat + b.toNat :=
  ofNat?_eq_none

theorem eq_zero_iff {a : Amount} : a = 0 ↔ a.toNat = 0 := by
  rw [Amount.ext_iff, toNat_zero]

theorem toNat_pos {a : Amount} : 0 < a.toNat ↔ a ≠ 0 := by
  rw [Nat.pos_iff_ne_zero, ne_eq, ne_eq, eq_zero_iff]

end Amount

end MarginRouter
