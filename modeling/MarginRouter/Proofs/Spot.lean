import MarginRouter.Proofs.Accounting
import MarginRouter.Proofs.Pricing

/-!
# What a spot execution settles

The fills of a walk are chained, so along a path everything between the two ends cancels, whichever tokens and pools it comes
back to. What is settled is the input of the whole path and its output, each an entry of its own if the ends differ and their
difference if they are the same token.
-/

namespace MarginRouter

open Ledger Clearing Books

namespace Clearing

variable {c : Clearing} {first last : Address} {input output : Amount}

/-- An account that has gained an output and spent an input in another token pays the one out and pulls the other in. -/
theorem report_of_ends_ne (hc : c.Proper) (hn : ∀ t, c.net t = receipt last output.toNat t + receipt first (-input.toNat) t)
    (hne : first ≠ last) (hin : input ≠ 0) (hout : output ≠ 0) :
    c.holdings = [(last, output)] ∧ c.debts = [(first, input)] := by
  constructor
  · refine (holdings_of_net hc last output fun t => ?_).trans (if_neg hout)
    by_cases ht : t = last
    · have hother : t ≠ first := fun he => hne (he.symm.trans ht)
      simp only [hn, receipt, if_pos ht, if_neg hother]
      omega
    · simp only [hn, receipt, if_neg ht]
      split_ifs <;> omega
  · refine (debts_of_net hc first input fun t => ?_).trans (if_neg hin)
    by_cases ht : t = first
    · have hother : t ≠ last := fun he => hne (ht.symm.trans he)
      simp only [hn, receipt, if_pos ht, if_neg hother]
      omega
    · simp only [hn, receipt, if_neg ht]
      split_ifs <;> omega

/-- In one token, the account pays out or pulls in the difference. -/
theorem report_of_ends_eq (hc : c.Proper) (hn : ∀ t, c.net t = receipt last output.toNat t + receipt first (-input.toNat) t)
    (he : first = last) :
    c.holdings = (if output - input = 0 then [] else [(last, output - input)]) ∧
      c.debts = if input - output = 0 then [] else [(first, input - output)] := by
  subst he
  constructor
  · refine holdings_of_net hc _ _ fun t => ?_
    rw [hn, receipt, receipt, receipt, Amount.toNat_sub]
    split_ifs <;> omega
  · refine debts_of_net hc _ _ fun t => ?_
    rw [hn, receipt, receipt, receipt, Amount.toNat_sub]
    split_ifs <;> omega

end Clearing

namespace Engine

variable {e : Engine} {r : Request}

/-- A walk with swaps does not come to nothing. -/
theorem walk_ne_zero {v : VenueBook} {d : Direction} {legs : List Leg} {cursor last : Amount} {fills : List Fill}
    {b b' : Books} (h : walk v d legs cursor b = .ok (fills, last) b') (hne : fills ≠ []) : last ≠ 0 := by
  obtain ⟨-, hchain⟩ := walk_fills h
  have hfinal := hchain.final
  rw [List.getLast?_eq_some_getLast hne] at hfinal
  obtain ⟨leg, -, l, amount, hq⟩ := walk_quoted h _ (List.getLast_mem hne)
  obtain ⟨hin, hout⟩ := VenueBook.quote_ne_zero hq
  rw [← hfinal]
  cases d with
  | exactIn => exact hout
  | exactOut => exact hin

/-- A path that can be classified has hops, so that a walk of it has fills. -/
theorem fills_ne_nil {v : VenueBook} {p : Path} {d d' : Direction} {c : Composition} {cursor last : Amount}
    {fills : List Fill} {b b' : Books} (hc : p.classify d' = .ok c)
    (h : walk v d p.legs cursor b = .ok (fills, last) b') : fills ≠ [] := by
  have hlength := (walk_fills h).1.length_eq
  rintro rfl
  have hlegs : p.legs = [] := List.length_eq_zero_iff.1 hlength
  unfold Path.legs at hlegs
  unfold Path.classify at hc
  cases hp : p.hops with
  | nil =>
    rw [hp] at hc
    cases hc
  | cons hop hops =>
    rw [hp] at hlegs
    cases hlegs

/-- A spot execution that succeeds settles exactly the two ends of the path. The fills are made at the pools that serve the legs,
and are chained from the amount of the request to the amount settled, which is within the limit. With the input and the output
of the whole path: if its ends differ the input has been pulled in and the output paid out, if they are the same token the
difference has been, and nothing in any other token. A caller that is no pool on the path has paid the input and got the
output, and nothing else. -/
theorem spot_settles_ends {w w' : World} {settled : Settled} (h : e.execute r w = .ok settled w')
    (hspot : settled.composition = .spot) :
    settled.fills ≠ [] ∧
    List.Forall₂ (fun leg f => e.venues.Serves (leg.swap r.direction) f.pool) r.path.legs settled.fills ∧
    Fill.Chained r.direction settled.fills r.amount settled.amount ∧
    r.direction.pick (r.limit ≤ settled.amount) (settled.amount ≤ r.limit) ∧
    ∃ input output, input = r.direction.pick r.amount settled.amount ∧ output = r.direction.pick settled.amount r.amount ∧
      ((r.path.endpoints r.direction).1 ≠ (r.path.endpoints r.direction).2 →
        settled.report = ⟨[((r.path.endpoints r.direction).2, output)], [((r.path.endpoints r.direction).1, input)]⟩) ∧
      ((r.path.endpoints r.direction).1 = (r.path.endpoints r.direction).2 →
        settled.report = ⟨if output - input = 0 then [] else [((r.path.endpoints r.direction).2, output - input)],
          if input - output = 0 then [] else [((r.path.endpoints r.direction).1, input - output)]⟩) ∧
      (¬e.venues.OnPath r.path r.direction r.caller → ∀ t, w'.ledger.holds t r.caller = w.ledger.holds t r.caller +
        receipt (r.path.endpoints r.direction).2 output.toNat t +
          receipt (r.path.endpoints r.direction).1 (-input.toNat) t) := by
  obtain ⟨c, s, hclass, hs, rfl⟩ := execute_eq_ok h
  have hc : c.lending? = none := by
    rw [← composition_of_settle hs, hspot]
    rfl
  obtain ⟨fills, amount, b', hw, hne, hlimit, hpaid, rfl⟩ := settle_spot hc hs
  obtain ⟨hserved, hchain⟩ := walk_fills hw
  have hfills := fills_ne_nil hclass hw
  have hlast := walk_ne_zero hw hfills
  refine ⟨hfills, hserved.imp fun leg f ⟨l, amount, hq⟩ => (VenueBook.quote_eq_ok hq).2, hchain, hlimit, _, _, rfl, rfl, ?_⟩
  generalize hinput : r.direction.pick r.amount amount = input
  generalize houtput : r.direction.pick amount r.amount = output
  have hnonzero : input ≠ 0 ∧ output ≠ 0 := by
    rw [← hinput, ← houtput]
    cases r.direction with
    | exactIn => exact ⟨hne, hlast⟩
    | exactOut => exact ⟨hlast, hne⟩
  -- the net position of the clearing account after the walk
  obtain ⟨paid, hm, -⟩ := walk_moved r.path.finalToken r.path.hops 0 hw
  have hproper := hm.clearing.proper (proper_new e.address)
  have hnet : ∀ t, b'.clearing.net t = receipt (r.path.endpoints r.direction).2 output.toNat t +
      receipt (r.path.endpoints r.direction).1 (-input.toNat) t := by
    intro t
    rw [hm.clearing.net, net_new, Int.zero_add, crossing_endpoints, hinput, houtput]
  refine ⟨fun hends => ?_, fun hends => ?_, fun hcaller t => ?_⟩
  · obtain ⟨hout, hin⟩ := report_of_ends_ne hproper hnet hends hnonzero.1 hnonzero.2
    rw [hout, hin]
  · obtain ⟨hout, hin⟩ := report_of_ends_eq hproper hnet hends
    rw [hout, hin]
  · rw [hpaid.holds, if_pos rfl, walk_holds hw hcaller, hnet, Int.add_assoc]

end Engine

namespace Sample

/-- The lender swaps fifty of token 10 for at least forty of token 11. -/
def swap : Request :=
  ⟨.ofNat 2, ⟨[hop (.ofNat 10) .swapExactIn], .ofNat 11, none⟩, .ofWord 50, .ofWord 40, .exactIn⟩

/-- There and back at the same pool. -/
def roundTrip : Request :=
  { swap with path := ⟨[hop (.ofNat 10) .swapExactIn, hop (.ofNat 11) .swapExactIn], .ofNat 10, none⟩ }

end Sample

/-- `Engine.spot_settles_ends` at a swap, and at a round trip. -/
theorem Engine.spot_settles_ends_swap :
    (∃ settled w', Sample.engine.execute Sample.swap ⟨Sample.ledger, .new (.ofNat 1)⟩ = .ok settled w' ∧
      settled.composition = .spot ∧ .ofWord 40 ≤ settled.amount ∧
      settled.report = ⟨[(.ofNat 11, settled.amount)], [(.ofNat 10, .ofWord 50)]⟩ ∧
      w'.ledger.holds (.ofNat 10) (.ofNat 2) = Sample.ledger.holds (.ofNat 10) (.ofNat 2) - 50) ∧
    ∃ settled w', Sample.engine.execute Sample.roundTrip ⟨Sample.ledger, .new (.ofNat 1)⟩ = .ok settled w' ∧
      settled.composition = .spot ∧ Fill.Chained .exactIn settled.fills (.ofWord 50) settled.amount ∧
      settled.report.paidOut =
        if settled.amount - .ofWord 50 = 0 then [] else [(.ofNat 10, settled.amount - .ofWord 50)] := by
  have hswap : Step.yields (Sample.engine.execute Sample.swap) ⟨Sample.ledger, .new (.ofNat 1)⟩
      (fun settled _ => settled.composition = .spot) = true := by decide +kernel
  have htrip : Step.yields (Sample.engine.execute Sample.roundTrip) ⟨Sample.ledger, .new (.ofNat 1)⟩
      (fun settled _ => settled.composition = .spot) = true := by decide +kernel
  constructor
  · obtain ⟨settled, w', hs, hcomp⟩ := Step.exists_ok_of_yields hswap
    obtain ⟨-, -, -, hlimit, _, _, rfl, rfl, hends, -, hcaller⟩ :=
      Engine.spot_settles_ends hs (of_decide_eq_true hcomp)
    have hpool : ¬Sample.engine.venues.OnPath Sample.swap.path .exactIn (.ofNat 2) := by decide +kernel
    refine ⟨settled, w', hs, of_decide_eq_true hcomp, hlimit, hends (by decide), ?_⟩
    have hout : receipt (.ofNat 11) settled.amount.toNat (.ofNat 10) = 0 := rfl
    have hin : receipt (.ofNat 10) (-(Amount.ofWord 50).toNat) (.ofNat 10) = -50 := rfl
    have hpaid : w'.ledger.holds (.ofNat 10) (.ofNat 2) = Sample.ledger.holds (.ofNat 10) (.ofNat 2) +
        receipt (.ofNat 11) settled.amount.toNat (.ofNat 10) +
          receipt (.ofNat 10) (-(Amount.ofWord 50).toNat) (.ofNat 10) := hcaller hpool (.ofNat 10)
    rw [hpaid, hout, hin, Int.add_zero, Int.sub_eq_add_neg]
  · obtain ⟨settled, w', hs, hcomp⟩ := Step.exists_ok_of_yields htrip
    obtain ⟨-, -, hchain, -, _, _, rfl, rfl, -, hends, -⟩ := Engine.spot_settles_ends hs (of_decide_eq_true hcomp)
    refine ⟨settled, w', hs, of_decide_eq_true hcomp, hchain, ?_⟩
    rw [hends rfl]
    rfl

end MarginRouter
