import MarginRouter.Proofs.Quote
import MarginRouter.Proofs.Reversal
import MarginRouter.Proofs.TightQuotes

/-!
# Quotes along paths

Where no pool serves two swaps of a path, each swap finds its pool as the quote of the whole path found it, so the quotes of the
swaps can all be read on one ledger, in whichever order they are made. Then what an exact-out quote asks for suffices, when it is
put in at the other end, for what it has been asked for.
-/

namespace MarginRouter

namespace VenueBook

variable {v : VenueBook} {l l' : Ledger} {d : Direction} {s : Swap} {swaps : List Swap} {amount last : Amount} {f g : Fill}

/-- A swap that is given at least what it has been quoted to need, on the same ledger, comes to at least its target. -/
theorem target_le (hin : v.quote l s .exactOut amount = .ok f) (hout : v.quote l s .exactIn last = .ok g)
    (hle : f.amountIn ≤ last) : amount ≤ g.amountOut := by
  obtain ⟨⟨venue, pool, reserves⟩, hr, hin⟩ := Attempt.bind_eq_ok.1 hin
  obtain ⟨asked, hasked, hf⟩ := Attempt.bind_eq_ok.1 hin
  obtain ⟨resolved, hr', hout⟩ := Attempt.bind_eq_ok.1 hout
  obtain rfl := Except.ok.inj (hr.symm.trans hr')
  obtain ⟨output, houtput, hg⟩ := Attempt.bind_eq_ok.1 hout
  obtain rfl := Attempt.pure_eq_ok.1 hf
  obtain rfl := Attempt.pure_eq_ok.1 hg
  exact Venue.target_le hasked houtput hle

/-! ## Quotes on one ledger -/

/-- No pool serves two of the swaps. -/
def Apart (v : VenueBook) (swaps : List Swap) : Prop :=
  swaps.Pairwise fun s s' => ∀ pool, v.Serves s pool → ¬v.Serves s' pool

instance (v : VenueBook) (swaps : List Swap) : Decidable (v.Apart swaps) :=
  decidable_of_iff (swaps.Pairwise fun s s' => v.poolFor s = none ∨ v.poolFor s ≠ v.poolFor s') <| by
    refine List.Pairwise.iff fun s s' => ?_
    simp only [serves_iff]
    cases v.poolFor s with
    | none => simp
    | some pool => simp [eq_comm]

/-- Quoted one after another on the same ledger, the swaps come from one amount to another. -/
inductive Comes (v : VenueBook) (l : Ledger) (d : Direction) : List Swap → Amount → Amount → Prop where
  | nil (amount : Amount) : Comes v l d [] amount amount
  | cons {s : Swap} {swaps : List Swap} {amount last : Amount} {f : Fill} (hq : v.quote l s d amount = .ok f)
      (h : Comes v l d swaps (f.cursor d) last) : Comes v l d (s :: swaps) amount last

namespace Comes

/-- Only what the pools hold that serve the swaps is looked at. -/
theorem congr (h : v.Comes l d swaps amount last)
    (hpools : ∀ s ∈ swaps, ∀ pool, v.Serves s pool → ∀ t, l'.balance t pool = l.balance t pool) :
    v.Comes l' d swaps amount last := by
  induction h with
  | nil amount => exact .nil amount
  | cons hq _ ih =>
    refine .cons ((quote_congr d _ (hpools _ List.mem_cons_self)).trans hq) (ih ?_)
    intro s hs
    exact hpools s (List.mem_cons_of_mem _ hs)

/-- The last of the swaps is quoted for what those before it come to. -/
theorem concat (h : v.Comes l d (swaps ++ [s]) amount last) :
    ∃ reached f, v.Comes l d swaps amount reached ∧ v.quote l s d reached = .ok f ∧ f.cursor d = last := by
  induction swaps generalizing amount with
  | nil =>
    cases h with
    | @cons _ _ _ _ f hq hrest =>
      cases hrest
      exact ⟨amount, f, .nil amount, hq, rfl⟩
  | cons first swaps ih =>
    cases h with
    | cons hq hrest =>
      obtain ⟨reached, f, hreached, hlast, hcursor⟩ := ih hrest
      exact ⟨reached, f, .cons hq hreached, hlast, hcursor⟩

/-- What is asked for by quotes in the opposite order suffices. The induction is on the swaps from the input on: the quotes for
the output end at the first of them, and ask there for what suffices to reach what they have asked of the second. -/
theorem target_le {target asked given output : Amount} (hout : v.Comes l .exactOut swaps.reverse target asked)
    (hin : v.Comes l .exactIn swaps given output) (hle : asked ≤ given) : target ≤ output := by
  induction swaps generalizing asked given with
  | nil =>
    cases hout
    cases hin
    exact hle
  | cons s swaps ih =>
    rw [List.reverse_cons] at hout
    obtain ⟨reached, f, hreached, hf, rfl⟩ := hout.concat
    cases hin with
    | cons hg hrest => exact ih hreached hrest (VenueBook.target_le hf hg hle)

end Comes

end VenueBook

namespace Engine

variable {v : VenueBook} {e : Engine} {d : Direction} {l : Ledger} {p : Path}

/-- Where no pool serves two legs, each leg of a walk is quoted as on the books from which the walk starts. The induction is on
the legs: the first swap changes what its own pool holds, and that pool serves no other. -/
theorem walk_comes {legs : List Leg} {cursor last : Amount} {fills : List Fill} {b b' : Books}
    (hapart : v.Apart (legs.map fun leg => leg.swap d)) (h : walk v d legs cursor b = .ok (fills, last) b') :
    v.Comes b.ledger d (legs.map fun leg => leg.swap d) cursor last := by
  induction legs generalizing cursor fills b with
  | nil =>
    obtain ⟨he, -⟩ := Step.pure_eq_ok.1 h
    cases he
    exact .nil _
  | cons leg legs ih =>
    obtain ⟨f, rest, b₁, hf, hrest, -⟩ := walk_cons_eq_ok h
    obtain ⟨hq, hm⟩ := VenueBook.swap_eq_ok hf
    obtain ⟨-, hserves⟩ := VenueBook.quote_eq_ok hq
    obtain ⟨hfirst, hothers⟩ := List.pairwise_cons.1 hapart
    refine .cons hq ((ih hothers hrest).congr ?_)
    intro s hs pool hpool t
    have hne : f.pool ≠ pool := by
      rintro rfl
      exact hfirst s hs f.pool hserves hpool
    refine Ledger.balance_eq_of_holds ?_
    rw [hm.holds, VenueBook.paid_eq_zero hne, Int.add_zero]

theorem quote_comes {amount last : Amount} {fills : List Fill} (hapart : e.venues.Apart (p.swaps d))
    (h : e.quote l p d amount = .ok (fills, last)) : e.venues.Comes l d (p.swaps d) amount last := by
  obtain ⟨b, hw⟩ := quote_eq_ok.1 h
  exact walk_comes hapart hw

/-- Quotes in the two directions agree along whole paths. Where no pool serves two legs of a path, whatever the kinds of its
venues and its length: if the reversed path is quoted to need `asked` for the target, and the path is quoted to come to `output`
from `asked` or more, then `output` is at least the target. -/
theorem quotes_agree {asked given target output : Amount} {fills fills' : List Fill}
    (hapart : e.venues.Apart (p.swaps .exactIn)) (hout : e.quote l p.reversed .exactOut target = .ok (fills, asked))
    (hin : e.quote l p .exactIn given = .ok (fills', output)) (hle : asked ≤ given) : target ≤ output := by
  have hswaps : p.reversed.swaps .exactOut = (p.swaps .exactIn).reverse := p.swaps_reversed .exactIn
  have hreversed : e.venues.Apart (p.reversed.swaps .exactOut) := by
    rw [hswaps]
    refine List.pairwise_reverse.2 (hapart.imp ?_)
    intro s s' hss' pool hs' hs
    exact hss' pool hs hs'
  have hcomes := quote_comes hreversed hout
  rw [hswaps] at hcomes
  exact hcomes.target_le (quote_comes hapart hin) hle

end Engine

namespace Sample

/-- The small engine with a second venue, which has a constant-product pool of tokens 11 and 12. -/
def twoPools : Engine :=
  { engine with venues := engine.venues.insert 1 (.constantProduct
      ((∅ : Std.ExtTreeMap PoolKey Address).insert (.of (.ofNat 11) (.ofNat 12) 3000) (.ofNat 4))) }

/-- The second pool has a thousand of both tokens. -/
def twoPoolsLedger : Ledger :=
  (ledger.setBalance (.ofNat 11) (.ofNat 4) (.ofWord 1000)).setBalance (.ofNat 12) (.ofNat 4) (.ofWord 1000)

/-- A swap from token 11 at the second pool. -/
def secondHop : Hop :=
  ⟨.ofNat 11, 3000, 1, Action.swapExactIn.code, by decide⟩

/-- From token 10 over token 11 to token 12. -/
def longPath : Path :=
  ⟨[hop (.ofNat 10) .swapExactIn, secondHop], .ofNat 12, none⟩

end Sample

/-- `Engine.quotes_agree` for a hundred of token 12, which need a hundred and twelve of token 10, over a fixed-rate pool and a
constant-product pool. -/
theorem Engine.quotes_agree_two_pools : ∃ fills fills' output,
    Sample.twoPools.venues.Apart (Sample.longPath.swaps .exactIn) ∧
    Sample.twoPools.quote Sample.twoPoolsLedger Sample.longPath.reversed .exactOut (.ofWord 100) = .ok (fills, .ofWord 112) ∧
    Sample.twoPools.quote Sample.twoPoolsLedger Sample.longPath .exactIn (.ofWord 112) = .ok (fills', output) ∧
    .ofWord 100 ≤ output := by
  have hapart : Sample.twoPools.venues.Apart (Sample.longPath.swaps .exactIn) := by decide +kernel
  have hout : (Sample.twoPools.quote Sample.twoPoolsLedger Sample.longPath.reversed .exactOut (.ofWord 100)).toOption.map
      Prod.snd = some (.ofWord 112) := by decide +kernel
  have hin : (Sample.twoPools.quote Sample.twoPoolsLedger Sample.longPath .exactIn (.ofWord 112)).toOption.isSome = true := by
    decide +kernel
  obtain ⟨⟨fills, asked⟩, hout, rfl⟩ := Option.map_eq_some_iff.1 hout
  obtain ⟨⟨fills', output⟩, hin⟩ := Option.isSome_iff_exists.1 hin
  have hout := Attempt.ok_of_toOption hout
  have hin := Attempt.ok_of_toOption hin
  exact ⟨fills, fills', output, hapart, hout, hin, Engine.quotes_agree hapart hout hin (Amount.le_def.2 (Nat.le_refl _))⟩

end MarginRouter
