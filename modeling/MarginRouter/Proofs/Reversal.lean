import MarginRouter.Engine.Execute
import MarginRouter.Path.Reverse

/-!
# The swaps of reversed paths

A path and its reversal ask for the same swaps, in the opposite order, when they are walked in opposite directions. Which action
a hop carries has no part in this.
-/

namespace MarginRouter

/-- All of a hop but its action. -/
def Hop.place (h : Hop) : Address × Nat × UInt8 :=
  (h.token, h.fee, h.provider)

namespace Path

/-- The swaps that the legs of a path ask for, in the order of the path. -/
def swaps (p : Path) (d : Direction) : List Swap :=
  p.legs.map fun leg => leg.swap d

theorem firstOf_append (hops rest : List Hop) (final : Address) :
    firstOf (hops ++ rest) final = firstOf hops (firstOf rest final) := by
  cases hops with
  | nil => rfl
  | cons h hops => rfl

theorem legsFrom_append (final : Address) (rest : List Hop) (hops : List Hop) (index : Nat) :
    legsFrom final index (hops ++ rest) =
      legsFrom (firstOf rest final) index hops ++ legsFrom final (index + hops.length) rest := by
  induction hops generalizing index with
  | nil => rfl
  | cons h hops ih =>
    rw [List.cons_append, legsFrom, legsFrom, ih, firstOf_append, List.cons_append, List.length_cons, Nat.add_assoc,
      Nat.add_comm 1]

/-- Hops at the same places lead on to the same token. -/
theorem firstOf_congr {hops hops' : List Hop} (h : hops.map Hop.place = hops'.map Hop.place) (final : Address) :
    firstOf hops final = firstOf hops' final := by
  cases hops with
  | nil =>
    obtain rfl := List.map_eq_nil_iff.1 h.symm
    rfl
  | cons hop hops =>
    obtain ⟨hop', hops', rfl, hplace, -⟩ := List.map_eq_cons_iff.1 h.symm
    exact (congrArg Prod.fst hplace).symm

/-- Hops at the same places ask for the same swaps, however they are numbered. -/
theorem swaps_congr (d : Direction) (final : Address) {hops hops' : List Hop} (index index' : Nat)
    (h : hops.map Hop.place = hops'.map Hop.place) :
    (legsFrom final index hops).map (fun leg => leg.swap d) = (legsFrom final index' hops').map fun leg => leg.swap d := by
  induction hops generalizing hops' index index' with
  | nil =>
    obtain rfl := List.map_eq_nil_iff.1 h.symm
    rfl
  | cons hop hops ih =>
    obtain ⟨hop', hops', rfl, hplace, hrest⟩ := List.map_eq_cons_iff.1 h.symm
    have hnext := firstOf_congr hrest.symm final
    obtain ⟨htoken, hfee, hprovider⟩ : hop'.token = hop.token ∧ hop'.fee = hop.fee ∧ hop'.provider = hop.provider := by
      simpa [Hop.place] using hplace
    rw [legsFrom, legsFrom, List.map_cons, List.map_cons, ih (index + 1) (index' + 1) hrest.symm]
    cases d with
    | exactIn => simp [Leg.swap, Leg.oriented, Leg.head, htoken, hfee, hprovider, hnext]
    | exactOut => simp [Leg.swap, Leg.oriented, Leg.head, htoken, hfee, hprovider, hnext]

/-- New actions leave hops at their places. -/
theorem place_relabel (leading : Option Action) (spot : Action) (hops : List Hop) :
    (relabel leading spot hops).map Hop.place = hops.map Hop.place := by
  have hmap : ∀ (code : Hop → UInt8) (hops : List Hop),
      (hops.map fun h => { h with code := code h }).map Hop.place = hops.map Hop.place := by
    intro code hops
    rw [List.map_map]
    rfl
  cases leading with
  | none => exact hmap _ hops
  | some a =>
    cases hops with
    | nil => rfl
    | cons h hops => exact congrArg (h.place :: ·) (hmap _ hops)

/-- A leg that has been turned around asks for the same swap in the other direction. -/
theorem swap_turned (leg : Leg) (index : Nat) (d : Direction) :
    Leg.swap ⟨index, leg.turned, leg.head⟩ d.flip = leg.swap d := by
  cases d with
  | exactIn => rfl
  | exactOut => rfl

/-- Hops that have been turned around ask for the same swaps in the opposite order. The induction is on the hops: the first one
comes last, and leads to the token it started from. -/
theorem swaps_turned (d : Direction) (final : Address) (hops : List Hop) (index index' : Nat) :
    (legsFrom (firstOf hops final) index' ((legsFrom final index hops).reverse.map Leg.turned)).map (fun leg => leg.swap d.flip) =
      ((legsFrom final index hops).map fun leg => leg.swap d).reverse := by
  induction hops generalizing index with
  | nil => rfl
  | cons hop hops ih =>
    have hlast := swap_turned ⟨index, hop, firstOf hops final⟩
      (index' + ((legsFrom final (index + 1) hops).reverse.map Leg.turned).length) d
    rw [legsFrom, List.reverse_cons, List.map_append, legsFrom_append, List.map_append, List.map_cons, List.map_cons,
      List.reverse_cons, ← ih (index + 1), ← hlast]
    rfl

/-- The reversal asks for the same swaps in the opposite order. -/
theorem swaps_reversed (p : Path) (d : Direction) : p.reversed.swaps d.flip = (p.swaps d).reverse := by
  calc p.reversed.swaps d.flip
      = (legsFrom p.firstToken 0 (p.legs.reverse.map Leg.turned)).map fun leg => leg.swap d.flip :=
        swaps_congr d.flip p.firstToken 0 0 (place_relabel _ _ _)
    _ = (p.swaps d).reverse := swaps_turned d p.finalToken p.hops 0 0

end Path

end MarginRouter
