import MarginRouter.Engine.Error

/-!
# Which composition a path is

The first hop decides. A hop that does not belong is reported, the first one first: only the first hop may be leveraged, and
plain swaps must carry the action of the direction.
-/

namespace MarginRouter

/-- The action of the hop with this index, if the hop may stand there. -/
def Hop.checked (d : Direction) (index : Nat) (h : Hop) : Except EngineError Action := do
  let a ← h.action.mapError .path
  if index ≠ 0 ∧ ¬a.isSpot then throw (.leveragedHopNotFirst index a)
  if a.isSpot ∧ a ≠ d.spotAction then throw (.orientationMismatch index a d)
  return a

namespace Path

/-- Checks hops one after the other, the first of them with this index. -/
def checkHops (d : Direction) : Nat → List Hop → Except EngineError Unit
  | _, [] => .ok ()
  | index, h :: hops => do
    let _ ← h.checked d index
    checkHops d (index + 1) hops

/-- What a path does in this direction. -/
def classify (p : Path) (d : Direction) : Except EngineError Composition :=
  match p.hops with
  | [] => .error .emptyPath
  | h :: hops => do
    let a ← h.checked d 0
    checkHops d 1 hops
    return .ofAction a

end Path

end MarginRouter
