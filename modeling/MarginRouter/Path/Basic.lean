import MarginRouter.Address
import MarginRouter.Path.Action
import MarginRouter.Path.Mode

/-!
# Paths

A path leads from a first token over hops to a final token. Each hop holds the token it starts from; where it ends is the
token of the next hop, or the final token. `Path.legs` puts the two together.
-/

namespace MarginRouter

/-- One hop: the token it starts from, and the pool it uses, by provider and fee. The action is a raw byte, since any byte can
be written; `Hop.action` reads it. -/
structure Hop where
  token : Address
  fee : Nat
  provider : UInt8
  code : UInt8
  fee_lt : fee < 1 <<< 24 := by omega
  deriving DecidableEq

/-- The action of a hop. -/
def Hop.action (h : Hop) : Except PathError Action :=
  match Action.ofCode? h.code with
  | some a => .ok a
  | none => .error (.unknownAction h.code)

/-- A hop together with the token it leads to. -/
structure Leg where
  index : Nat
  hop : Hop
  tail : Address
  deriving DecidableEq

namespace Leg

/-- The token a leg starts from, in the order of the path. -/
def head (l : Leg) : Address :=
  l.hop.token

/-- The tokens that go into and come out of the pool. -/
def oriented (l : Leg) : Direction → Address × Address
  | .exactIn => (l.head, l.tail)
  | .exactOut => (l.tail, l.head)

end Leg

/-- A path: hops, the token after the last one, and the optional mode byte. -/
structure Path where
  hops : List Hop
  finalToken : Address
  modeByte : Option UInt8
  deriving DecidableEq

namespace Path

/-- The first token of hops that lead to `final`. -/
def firstOf (hops : List Hop) (final : Address) : Address :=
  match hops with
  | [] => final
  | h :: _ => h.token

/-- The legs of hops that lead to `final`, numbered from `index`. -/
def legsFrom (final : Address) : Nat → List Hop → List Leg
  | _, [] => []
  | index, h :: hops => ⟨index, h, firstOf hops final⟩ :: legsFrom final (index + 1) hops

def firstToken (p : Path) : Address :=
  firstOf p.hops p.finalToken

def legs (p : Path) : List Leg :=
  legsFrom p.finalToken 0 p.hops

/-- All tokens, one more than there are hops. -/
def tokens (p : Path) : List Address :=
  p.hops.map Hop.token ++ [p.finalToken]

/-- The tokens that go into and come out of the path as a whole. -/
def endpoints (p : Path) : Direction → Address × Address
  | .exactIn => (p.firstToken, p.finalToken)
  | .exactOut => (p.finalToken, p.firstToken)

/-- What the mode byte says; without one, the default. -/
def mode (p : Path) : Except PathError Mode :=
  match p.modeByte with
  | none => .ok .default
  | some byte => Mode.ofByte byte

/-- A hop to be: the token it leads to, and a fee that may not fit. -/
structure Step where
  fee : Nat
  provider : UInt8
  code : UInt8
  next : Address

/-- The hops that walk `steps` from the token `current`, with the token reached; the first fee that does not fit is an
error. -/
def walk (current : Address) (index : Nat) : List Step → Except PathError (List Hop × Address)
  | [] => .ok ([], current)
  | s :: steps =>
    if h : s.fee < 1 <<< 24 then
      (walk s.next (index + 1) steps).map fun (hops, last) => (⟨current, s.fee, s.provider, s.code, h⟩ :: hops, last)
    else .error (.feeOutOfRange index s.fee)

/-- The path that starts at `start` and takes these steps. -/
def ofSteps (start : Address) (steps : List Step) (modeByte : Option UInt8) : Except PathError Path :=
  (walk start 0 steps).map fun (hops, last) => ⟨hops, last, modeByte⟩

end Path

end MarginRouter
