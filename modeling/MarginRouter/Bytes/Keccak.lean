/-!
# Keccak-256

The sponge with rate 136 and the padding `0x01 … 0x80`. Addresses take their letter case from it and operations their
identifiers.
-/

namespace MarginRouter

namespace Keccak

/-- Five lanes with one `y` coordinate, in order of `x`. -/
structure Plane where
  a : UInt64
  b : UInt64
  c : UInt64
  d : UInt64
  e : UInt64

namespace Plane

/-- Lane by lane. -/
def zip (f : UInt64 → UInt64 → UInt64) (s t : Plane) : Plane :=
  ⟨f s.a t.a, f s.b t.b, f s.c t.c, f s.d t.d, f s.e t.e⟩

def xor (s t : Plane) : Plane :=
  s.zip (· ^^^ ·) t

/-- The step that combines each lane with the two after it. -/
def chi (s : Plane) : Plane :=
  ⟨s.a ^^^ (~~~s.b &&& s.c), s.b ^^^ (~~~s.c &&& s.d), s.c ^^^ (~~~s.d &&& s.e), s.d ^^^ (~~~s.e &&& s.a),
    s.e ^^^ (~~~s.a &&& s.b)⟩

end Plane

/-- The five planes of the permutation's state, in order of `y`. -/
structure State where
  p : Plane
  q : Plane
  r : Plane
  s : Plane
  t : Plane

def rotl (x : UInt64) (k : UInt64) : UInt64 :=
  (x <<< k) ||| (x >>> (64 - k))

/-- Adds to every lane the parities of two neighbouring columns. -/
def theta (x : State) : State :=
  let c := x.p.xor (x.q.xor (x.r.xor (x.s.xor x.t)))
  let d : Plane :=
    ⟨c.e ^^^ rotl c.b 1, c.a ^^^ rotl c.c 1, c.b ^^^ rotl c.d 1, c.c ^^^ rotl c.e 1, c.d ^^^ rotl c.a 1⟩
  ⟨x.p.xor d, x.q.xor d, x.r.xor d, x.s.xor d, x.t.xor d⟩

/-- Rotates each lane by its own distance and moves it to its new place. -/
def rhoPi (x : State) : State where
  p := ⟨x.p.a, rotl x.q.b 44, rotl x.r.c 43, rotl x.s.d 21, rotl x.t.e 14⟩
  q := ⟨rotl x.p.d 28, rotl x.q.e 20, rotl x.r.a 3, rotl x.s.b 45, rotl x.t.c 61⟩
  r := ⟨rotl x.p.b 1, rotl x.q.c 6, rotl x.r.d 25, rotl x.s.e 8, rotl x.t.a 18⟩
  s := ⟨rotl x.p.e 27, rotl x.q.a 36, rotl x.r.b 10, rotl x.s.c 15, rotl x.t.d 56⟩
  t := ⟨rotl x.p.c 62, rotl x.q.d 55, rotl x.r.e 39, rotl x.s.a 41, rotl x.t.b 2⟩

/-- One round, with the constant that tells it from the others. -/
def round (x : State) (constant : UInt64) : State :=
  let y := rhoPi (theta x)
  let p := y.p.chi
  ⟨{ p with a := p.a ^^^ constant }, y.q.chi, y.r.chi, y.s.chi, y.t.chi⟩

def roundConstants : List UInt64 :=
  [0x0000000000000001, 0x0000000000008082, 0x800000000000808a, 0x8000000080008000,
   0x000000000000808b, 0x0000000080000001, 0x8000000080008081, 0x8000000000008009,
   0x000000000000008a, 0x0000000000000088, 0x0000000080008009, 0x000000008000000a,
   0x000000008000808b, 0x800000000000008b, 0x8000000000008089, 0x8000000000008003,
   0x8000000000008002, 0x8000000000000080, 0x000000000000800a, 0x800000008000000a,
   0x8000000080008081, 0x8000000000008080, 0x0000000080000001, 0x8000000080008008]

def permute (x : State) : State :=
  roundConstants.foldl round x

/-- Eight bytes as a lane, least significant first. -/
def lane (bytes : List UInt8) : UInt64 :=
  bytes.foldr (fun b acc => (acc <<< 8) ||| b.toUInt64) 0

/-- Mixes one block of 136 bytes into the state. -/
def absorb (x : State) (block : List UInt8) : State :=
  let l (i : Nat) : UInt64 := lane ((block.drop (8 * i)).take 8)
  permute ⟨x.p.xor ⟨l 0, l 1, l 2, l 3, l 4⟩, x.q.xor ⟨l 5, l 6, l 7, l 8, l 9⟩,
    x.r.xor ⟨l 10, l 11, l 12, l 13, l 14⟩, x.s.xor ⟨l 15, l 16, 0, 0, 0⟩, x.t⟩

/-- The bytes a block takes. -/
def rate : Nat := 136

/-- Mixes in `count` blocks, one after the other. -/
def absorbBlocks : Nat → State → List UInt8 → State
  | 0, x, _ => x
  | count + 1, x, bytes => absorbBlocks count (absorb x (bytes.take rate)) (bytes.drop rate)

/-- Fills the last block: a one bit after the message and a one bit at the end. -/
def pad (message : List UInt8) : List UInt8 :=
  match rate - message.length % rate - 1 with
  | 0 => message ++ [0x81]
  | gap + 1 => message ++ 0x01 :: List.replicate gap 0x00 ++ [0x80]

/-- The eight bytes of a lane, least significant first. -/
def laneBytes (x : UInt64) : List UInt8 :=
  [x.toUInt8, (x >>> 8).toUInt8, (x >>> 16).toUInt8, (x >>> 24).toUInt8, (x >>> 32).toUInt8, (x >>> 40).toUInt8,
    (x >>> 48).toUInt8, (x >>> 56).toUInt8]

end Keccak

/-- The Keccak-256 digest of a byte string: 32 bytes. -/
def keccak256 (message : List UInt8) : List UInt8 :=
  let zero : Keccak.Plane := ⟨0, 0, 0, 0, 0⟩
  let x := Keccak.absorbBlocks (message.length / Keccak.rate + 1) ⟨zero, zero, zero, zero, zero⟩ (Keccak.pad message)
  Keccak.laneBytes x.p.a ++ Keccak.laneBytes x.p.b ++ Keccak.laneBytes x.p.c ++ Keccak.laneBytes x.p.d

theorem length_keccak256 (message : List UInt8) : (keccak256 message).length = 32 := rfl

end MarginRouter
