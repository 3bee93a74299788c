import MarginRouter.Proofs.Classification
import MarginRouter.Proofs.Reversal

/-!
# Paths that are reversed

A path that can be executed in one direction, reversed, can be executed in the other and does the same: it leads between the same
ends over the same legs, written in the opposite order. Reversed once more it is the path it was. What the hops are besides their
codes turns around as a whole; the codes do not, since the action that says what the path does stays at the first hop.
-/

namespace MarginRouter

namespace Direction

@[simp] theorem flip_flip (d : Direction) : d.flip.flip = d := by
  cases d <;> rfl

theorem spotAction_flip (d : Direction) : d.flip.spotAction = d.spotAction.flip := by
  cases d <;> rfl

end Direction

namespace Action

variable {a : Action} {d : Direction}

theorem flip_of_not_isSpot (h : ¬a.isSpot = true) : a.flip = a := by
  cases a with
  | swapExactIn => exact absurd rfl h
  | swapExactOut => exact absurd rfl h
  | marginOpen | marginClose | collateralSwap | debtSwap => rfl

theorem isSpot_flip (a : Action) : a.flip.isSpot = a.isSpot := by
  cases a <;> rfl

theorem Leads.flip (h : a.Leads d) : a.flip.Leads d.flip := by
  intro hspot
  rw [h (isSpot_flip a ▸ hspot), Direction.spotAction_flip]

end Action

theorem Composition.ofAction_flip (a : Action) : Composition.ofAction a.flip = .ofAction a := by
  cases a <;> rfl

/-- A hop is its place and its code. -/
theorem Hop.ext_place {h h' : Hop} (hplace : h.place = h'.place) (hcode : h.code = h'.code) : h = h' := by
  cases h
  cases h'
  simp only [Hop.place, Prod.mk.injEq] at hplace
  obtain ⟨rfl, rfl, rfl⟩ := hplace
  cases hcode
  rfl

namespace Path

variable {p : Path} {d : Direction} {c : Composition} {a : Action} {n : Nat}

/-- Hops are their places and their codes. -/
theorem hops_ext {hops hops' : List Hop} (hplaces : hops.map Hop.place = hops'.map Hop.place)
    (hcodes : hops.map Hop.code = hops'.map Hop.code) : hops = hops' := by
  induction hops generalizing hops' with
  | nil => exact (List.map_eq_nil_iff.1 hplaces.symm).symm
  | cons h hops ih =>
    obtain ⟨h', hops', rfl, hplace, hrest⟩ := List.map_eq_cons_iff.1 hplaces.symm
    obtain ⟨hcode, hcodes⟩ := List.cons.inj hcodes
    rw [Hop.ext_place hplace.symm hcode, ih hrest.symm hcodes]

/-! ## Codes -/

theorem flippedCode_code (a : Action) : flippedCode a.code = a.flip.code := by
  rw [flippedCode, Action.ofCode?_code]

/-- A leg that has been turned around keeps its code. -/
theorem codes_turned (final : Address) (index : Nat) (hops : List Hop) :
    ((legsFrom final index hops).map Leg.turned).map Hop.code = hops.map Hop.code := by
  induction hops generalizing index with
  | nil => rfl
  | cons h hops ih =>
    rw [legsFrom, List.map_cons, List.map_cons, ih]
    rfl

/-- The action at the first hop is the leading one, unless it is a plain swap. -/
theorem leading_eq {codes : List UInt8} (h : p.hops.map Hop.code = a.code :: codes) :
    p.leading = if a.isSpot then none else some a := by
  obtain ⟨hop, hops, hp, hcode, -⟩ := List.map_eq_cons_iff.1 h
  rw [leading, hp]
  show (Action.ofCode? hop.code).filter _ = _
  rw [hcode, Action.ofCode?_code, Option.filter_some]
  cases a.isSpot <;> rfl

/-- Where there is a second hop, the first plain swap is the one of the direction. -/
theorem firstSpot_eq (hleads : a.Leads d) (h : p.hops.map Hop.code = a.code :: List.replicate (n + 1) d.spotAction.code) :
    p.firstSpot = d.spotAction := by
  have hactions : p.hops.filterMap (fun h => Action.ofCode? h.code) = a :: List.replicate (n + 1) d.spotAction := by
    have hmap : p.hops.filterMap (fun h => Action.ofCode? h.code) = (p.hops.map Hop.code).filterMap Action.ofCode? := by
      rw [List.filterMap_map]
      rfl
    rw [hmap, h, List.filterMap_cons_some (Action.ofCode?_code a),
      List.filterMap_replicate_of_some (Action.ofCode?_code d.spotAction)]
  rw [firstSpot, hactions]
  by_cases hspot : a.isSpot = true
  · rw [List.find?_cons_of_pos hspot, Option.getD_some, hleads hspot]
  · rw [List.find?_cons_of_neg hspot, List.replicate_succ, List.find?_cons_of_pos (Action.isSpot_spotAction d),
      Option.getD_some]

/-- Without a leading action every code is flipped. -/
theorem codes_relabel_none (spot : Action) (hops : List Hop) :
    (relabel none spot hops).map Hop.code = (hops.map Hop.code).map flippedCode := by
  show (hops.map fun h => { h with code := flippedCode h.code }).map Hop.code = _
  rw [List.map_map, List.map_map]
  rfl

/-- A leading action stands at the first hop, with plain swaps of one kind behind it. -/
theorem codes_relabel_some {spot : Action} {hops : List Hop} (h : hops.length = n + 1) :
    (relabel (some a) spot hops).map Hop.code = a.code :: List.replicate n spot.code := by
  obtain ⟨first, rest, rfl⟩ := List.exists_cons_of_length_eq_add_one h
  obtain rfl : rest.length = n := Nat.succ.inj h
  rw [relabel, List.map_cons, List.map_map]
  exact congrArg (a.code :: ·) List.map_const'

/-- The codes of a path that can be executed, reversed: what the first hop says stays in front, as it is said in the other direction,
and the others are the plain swaps of the other direction. -/
theorem codes_reversed (hleads : a.Leads d) (h : p.hops.map Hop.code = a.code :: List.replicate n d.spotAction.code) :
    p.reversed.hops.map Hop.code = a.flip.code :: List.replicate n d.flip.spotAction.code := by
  have hturned : (p.legs.reverse.map Leg.turned).map Hop.code = (p.hops.map Hop.code).reverse := by
    rw [List.map_reverse, List.map_reverse, legs, codes_turned]
  rw [reversed, leading_eq h, Direction.spotAction_flip]
  by_cases hspot : a.isSpot = true
  · -- all hops carry the plain swap of the direction, so that their order does not matter
    obtain rfl := hleads hspot
    have hall : p.hops.map Hop.code = List.replicate (n + 1) d.spotAction.code := h
    rw [if_pos hspot, codes_relabel_none, hturned, hall, List.reverse_replicate, List.map_replicate, flippedCode_code]
    rfl
  · have hlength : (p.legs.reverse.map Leg.turned).length = n + 1 := by
      have hlengths := congrArg List.length hturned
      rwa [h, List.length_map, List.length_reverse, List.length_cons, List.length_replicate] at hlengths
    rw [if_neg hspot, codes_relabel_some hlength, Action.flip_of_not_isSpot hspot]
    cases n with
    | zero => rfl
    | succ n => rw [firstSpot_eq hleads h]

/-! ## Tokens -/

/-- The tokens of hops are the first one and those that their legs lead to. -/
theorem firstOf_cons_tails (final : Address) (index : Nat) (hops : List Hop) :
    firstOf hops final :: (legsFrom final index hops).map Leg.tail = hops.map Hop.token ++ [final] := by
  induction hops generalizing index with
  | nil => rfl
  | cons h hops ih =>
    rw [legsFrom, List.map_cons, ih]
    rfl

theorem tokens_eq (p : Path) : p.tokens = p.firstToken :: p.legs.map Leg.tail :=
  (firstOf_cons_tails p.finalToken 0 p.hops).symm

theorem tokens_reversed (p : Path) : p.reversed.tokens = p.tokens.reverse := by
  have hplaces : p.reversed.hops.map Hop.place = (p.legs.reverse.map Leg.turned).map Hop.place := place_relabel _ _ _
  have htokens : p.reversed.hops.map Hop.token = p.legs.reverse.map Leg.tail := by
    have hfirst := congrArg (List.map Prod.fst) hplaces
    simp only [List.map_map] at hfirst
    exact hfirst
  rw [tokens, htokens, tokens_eq, List.reverse_cons, List.map_reverse]
  rfl

/-- The reversed path starts where the path ends. -/
theorem firstToken_reversed (p : Path) : p.reversed.firstToken = p.finalToken := by
  have hhead := congrArg List.head? p.tokens_reversed
  rw [p.reversed.tokens_eq, tokens, List.reverse_append] at hhead
  exact Option.some.inj hhead

theorem endpoints_reversed (p : Path) (d : Direction) : p.reversed.endpoints d.flip = p.endpoints d := by
  cases d with
  | exactIn => exact congrArg (p.firstToken, ·) p.firstToken_reversed
  | exactOut => exact congrArg (·, p.firstToken) p.firstToken_reversed

/-! ## Places -/

/-- The place of a hop is read off the swap that it asks for. -/
theorem places_eq (p : Path) : p.hops.map Hop.place = (p.swaps .exactIn).map fun s => (s.tokenIn, s.fee, s.provider) := by
  have hlegs : ∀ (index : Nat) (hops : List Hop), hops.map Hop.place =
      ((legsFrom p.finalToken index hops).map fun leg => leg.swap .exactIn).map fun s => (s.tokenIn, s.fee, s.provider) := by
    intro index hops
    induction hops generalizing index with
    | nil => rfl
    | cons h hops ih =>
      rw [legsFrom, List.map_cons, List.map_cons, List.map_cons, ← ih]
      rfl
  exact hlegs 0 p.hops

/-- Twice reversed, the hops are at their places. -/
theorem places_reversed_reversed (p : Path) : p.reversed.reversed.hops.map Hop.place = p.hops.map Hop.place := by
  have hswaps : p.reversed.reversed.swaps .exactIn = p.swaps .exactIn := by
    have houter : p.reversed.reversed.swaps .exactIn = (p.reversed.swaps .exactOut).reverse :=
      p.reversed.swaps_reversed .exactOut
    have hinner : p.reversed.swaps .exactOut = (p.swaps .exactIn).reverse := p.swaps_reversed .exactIn
    rw [houter, hinner, List.reverse_reverse]
  rw [places_eq, hswaps, ← places_eq]

/-! ## Reversal -/

theorem reversed_reversed (hleads : a.Leads d) (h : p.hops.map Hop.code = a.code :: List.replicate n d.spotAction.code) :
    p.reversed.reversed = p := by
  have hhops : p.reversed.reversed.hops = p.hops := by
    refine hops_ext p.places_reversed_reversed ?_
    rw [codes_reversed hleads.flip (codes_reversed hleads h), Action.flip_flip, Direction.flip_flip, h]
  have hfinal : p.reversed.reversed.finalToken = p.finalToken := p.firstToken_reversed
  have hmode : p.reversed.reversed.modeByte = p.modeByte := rfl
  generalize p.reversed.reversed = q at hhops hfinal hmode
  cases p
  cases q
  cases hhops
  cases hfinal
  cases hmode
  rfl

/-- A leg of the reversed path, counted from the front, and the leg of the path counted as far from the back ask for the same swap. -/
theorem legs_reversed (p : Path) (d : Direction) {i : Nat} (hi : i < p.legs.length) :
    ∃ leg leg', p.reversed.legs[i]? = some leg ∧ p.legs[p.legs.length - 1 - i]? = some leg' ∧ leg.swap d.flip = leg'.swap d := by
  have hswaps := p.swaps_reversed d
  have hlength : p.reversed.legs.length = p.legs.length := by
    have hlengths := congrArg List.length hswaps
    simpa only [swaps, List.length_reverse, List.length_map] using hlengths
  have hi' : i < p.reversed.legs.length := hlength ▸ hi
  have hback : p.legs.length - 1 - i < p.legs.length := by omega
  refine ⟨_, _, List.getElem?_eq_getElem hi', List.getElem?_eq_getElem hback, ?_⟩
  have hat := congrArg (fun swaps => swaps[i]?) hswaps
  simp only [swaps, List.getElem?_map, List.getElem?_eq_getElem hi', Option.map_some] at hat
  rw [List.getElem?_reverse (by rwa [List.length_map]), List.length_map, List.getElem?_map,
    List.getElem?_eq_getElem hback, Option.map_some] at hat
  exact Option.some.inj hat

/-- Reversal is faithful. A path of any length that can be classified in a direction can, reversed, be classified in the other one as
the same composition, and reversed once more it is the path it was. Its tokens stand in the opposite order, it leads between the
same ends, and it keeps its mode byte. Each of its legs, counted from the front, has the provider, the fee and the two tokens of the
leg of the path counted as far from the back; but the code of a leveraged path stays at the first hop. -/
theorem reversal_faithful (h : p.classify d = .ok c) :
    p.reversed.classify d.flip = .ok c ∧ p.reversed.reversed = p ∧ p.reversed.tokens = p.tokens.reverse ∧
      p.reversed.endpoints d.flip = p.endpoints d ∧ p.reversed.modeByte = p.modeByte ∧
      p.reversed.legs.length = p.legs.length ∧
      (∀ i < p.legs.length, ∃ leg leg', p.reversed.legs[i]? = some leg ∧ p.legs[p.legs.length - 1 - i]? = some leg' ∧
        leg.hop.provider = leg'.hop.provider ∧ leg.hop.fee = leg'.hop.fee ∧ leg.oriented d.flip = leg'.oriented d) ∧
      (c.isLeveraged = true → p.reversed.hops.head?.map Hop.code = p.hops.head?.map Hop.code) := by
  obtain ⟨a, n, hleads, hcodes, rfl⟩ := classify_eq_ok.1 h
  have hreversed := codes_reversed hleads hcodes
  refine ⟨?_, reversed_reversed hleads hcodes, p.tokens_reversed, p.endpoints_reversed d, rfl, ?_, fun i hi => ?_, fun hc => ?_⟩
  · exact classify_eq_ok.2 ⟨a.flip, n, hleads.flip, hreversed, (Composition.ofAction_flip a).symm⟩
  · have hlengths := congrArg List.length (p.swaps_reversed d)
    simpa only [swaps, List.length_reverse, List.length_map] using hlengths
  · obtain ⟨leg, leg', hleg, hleg', hswap⟩ := p.legs_reversed d hi
    obtain ⟨hprovider, hin, hout, hfee⟩ := Swap.mk.inj hswap
    exact ⟨leg, leg', hleg, hleg', hprovider, hfee, Prod.ext hin hout⟩
  · have hspot : ¬a.isSpot = true := by
      cases a with
      | swapExactIn | swapExactOut => cases hc
      | marginOpen | marginClose | collateralSwap | debtSwap => exact nofun
    rw [← List.head?_map, ← List.head?_map, hreversed, hcodes, Action.flip_of_not_isSpot hspot]
    rfl

end Path

namespace Sample

/-- A position that is opened with two hops, at pools of two providers and two fees. -/
def marginPath : Path :=
  ⟨[⟨.ofNat 10, 2500, 1, Action.marginOpen.code, by decide⟩, ⟨.ofNat 11, 600, 2, Action.swapExactIn.code, by decide⟩],
    .ofNat 12, some 16⟩

end Sample

/-- `Path.reversal_faithful` where a position is opened: the code that says so stays at the first hop, the pool of that hop comes
last. -/
theorem Path.reversal_faithful_margin :
    Sample.marginPath.classify .exactIn = .ok .marginOpen ∧ Sample.marginPath.reversed.classify .exactOut = .ok .marginOpen ∧
      Sample.marginPath.reversed.reversed = Sample.marginPath ∧
      Sample.marginPath.reversed.hops.head?.map Hop.code = some Action.marginOpen.code ∧
      ∃ leg, Sample.marginPath.reversed.legs[1]? = some leg ∧ leg.hop.provider = 1 ∧ leg.hop.fee = 2500 ∧
        leg.oriented .exactOut = (.ofNat 10, .ofNat 11) := by
  have hc : Sample.marginPath.classify .exactIn = .ok .marginOpen := Attempt.ok_of_toOption (by decide +kernel)
  obtain ⟨hclassify, htwice, -, -, -, -, hlegs, hleading⟩ := Path.reversal_faithful hc
  obtain ⟨leg, leg', hleg, hleg', hprovider, hfee, htokens⟩ := hlegs 1 (by decide +kernel)
  cases hleg'
  exact ⟨hc, hclassify, htwice, hleading rfl, leg, hleg, hprovider, hfee, htokens⟩

end MarginRouter
