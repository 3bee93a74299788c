import MarginRouter.Path.Basic

/-!
# Reversed paths

The same pools walked from the other end, for an execution in the other direction. Plain swaps change their action; an action
that changes a position stays at the first hop, where it must be.
-/

namespace MarginRouter

/-- A leg walked from its tail. -/
def Leg.turned (l : Leg) : Hop :=
  { l.hop with token := l.tail }

namespace Path

/-- The action of the first hop, if it is no plain swap. -/
def leading (p : Path) : Option Action :=
  match p.hops with
  | [] => none
  | h :: _ => (Action.ofCode? h.code).filter fun a => !a.isSpot

/-- The first plain swap among the hops; without one, the action of exact-in paths. -/
def firstSpot (p : Path) : Action :=
  ((p.hops.filterMap fun h => Action.ofCode? h.code).find? Action.isSpot).getD .swapExactIn

/-- The code a plain swap gets at the other end; a byte that is no code stays. -/
def flippedCode (code : UInt8) : UInt8 :=
  match Action.ofCode? code with
  | some a => a.flip.code
  | none => code

/-- Writes new actions on hops that have been turned around. -/
def relabel (leading : Option Action) (spot : Action) (hops : List Hop) : List Hop :=
  match leading, hops with
  | some a, h :: hops => { h with code := a.code } :: hops.map fun h => { h with code := spot.code }
  | _, hops => hops.map fun h => { h with code := flippedCode h.code }

/-- The path from the final token to the first. -/
def reversed (p : Path) : Path where
  hops := relabel p.leading p.firstSpot.flip (p.legs.reverse.map Leg.turned)
  finalToken := p.firstToken
  modeByte := p.modeByte

end Path

end MarginRouter
