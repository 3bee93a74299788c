import MarginRouter.Engine.Execute
import MarginRouter.Proofs.Clearing

/-!
# Money in swaps

A swap moves what goes in and what comes out between the pool and the clearing account. Along a path the tokens between the
two ends cancel: whatever the path repeats, a walk leaves the clearing account with the input gone and the output gained.
-/

namespace MarginRouter

open Ledger Clearing Books

/-- The amount a fill is quoted for; `Fill.cursor` is the other one. -/
def Fill.given (f : Fill) : Direction → Amount
  | .exactIn => f.amountIn
  | .exactOut => f.amountOut

/-- The fills are chained from the amount `cursor` to the amount `last`: the first is quoted for `cursor`, each of the others for
what the one before it has come to, and the last comes to `last`. Without fills the two amounts are the same. -/
structure Fill.Chained (d : Direction) (fills : List Fill) (cursor last : Amount) : Prop where
  first : ∀ f ∈ fills.head?, f.given d = cursor
  next : fills.IsChain fun f g => g.given d = f.cursor d
  final : (fills.getLast?.elim cursor fun f => f.cursor d) = last

theorem Fill.Chained.nil (d : Direction) (cursor : Amount) : Fill.Chained d [] cursor cursor :=
  ⟨fun _ hf => (nomatch hf), .nil, rfl⟩

/-- A fill and a chain that starts from what it comes to. -/
theorem Fill.Chained.cons {d : Direction} {f : Fill} {fills : List Fill} {last : Amount}
    (h : Fill.Chained d fills (f.cursor d) last) : Fill.Chained d (f :: fills) (f.given d) last := by
  refine ⟨fun g hg => ?_, List.isChain_cons.2 ⟨h.first, h.next⟩, ?_⟩
  · rw [Option.some.inj hg]
  · have hfinal := h.final
    rw [List.getLast?_cons]
    cases hlast : fills.getLast? with
    | none =>
      rw [hlast] at hfinal
      exact hfinal
    | some g =>
      rw [hlast] at hfinal
      exact hfinal

/-- What a fill pays to the pool: the input, less the output. -/
def Swap.paid (s : Swap) (f : Fill) : Address → Address → Int :=
  payment s.tokenOut f.pool (-f.amountOut.toNat) + payment s.tokenIn f.pool f.amountIn.toNat

/-- What the clearing account gains from a fill: the output, less the input. -/
def Swap.gained (s : Swap) (f : Fill) : Address → Int :=
  receipt s.tokenOut f.amountOut.toNat + receipt s.tokenIn (-f.amountIn.toNat)

/-- The venue prices the fill for a pool with these reserves: its output is what the venue gives for its input, or its input is
what the venue asks for its output. -/
def Venue.Prices (venue : Venue) (s : Swap) (r : Reserves) (f : Fill) : Prop :=
  venue.amountOut f.pool r s f.amountIn = .ok f.amountOut ∨ venue.amountIn f.pool r s f.amountOut = .ok f.amountIn

namespace VenueBook

variable {v : VenueBook} {s : Swap} {d : Direction} {amount : Amount} {f : Fill} {b b' : Books}

/-- The provider's venue has this pool for the swap. -/
def Serves (v : VenueBook) (s : Swap) (pool : Address) : Prop :=
  ∃ venue, v[s.provider]? = some venue ∧ venue.pool s = .ok pool

/-- One of the legs of the path is swapped at this pool. -/
def OnPath (v : VenueBook) (p : Path) (d : Direction) (pool : Address) : Prop :=
  ∃ leg ∈ p.legs, v.Serves (leg.swap d) pool

/-- The pool of a swap, looked up. -/
def poolFor (v : VenueBook) (s : Swap) : Option Address :=
  v[s.provider]?.bind fun venue => (venue.pool s).toOption

theorem serves_iff {pool : Address} : v.Serves s pool ↔ v.poolFor s = some pool := by
  rw [poolFor, Option.bind_eq_some_iff]
  exact exists_congr fun venue => and_congr_right fun _ => Attempt.toOption_eq_some.symm

instance (v : VenueBook) (s : Swap) (pool : Address) : Decidable (v.Serves s pool) :=
  decidable_of_iff (v.poolFor s = some pool) serves_iff.symm

instance (v : VenueBook) (p : Path) (d : Direction) (pool : Address) : Decidable (v.OnPath p d pool) :=
  inferInstanceAs (Decidable (∃ leg ∈ p.legs, v.Serves (leg.swap d) pool))

/-- Where one provider is the only one, its venue serves all swaps that are served. -/
theorem serves_insert {provider : UInt8} {venue : Venue} {pool : Address} :
    Serves ((∅ : VenueBook).insert provider venue) s pool ↔ s.provider = provider ∧ venue.pool s = .ok pool := by
  simp only [Serves, Std.ExtTreeMap.getElem?_insert, Std.LawfulEqCmp.compare_eq_iff_eq]
  by_cases hp : provider = s.provider
  · simp [hp]
  · simp [hp, Ne.symm hp]

/-- A swap is priced by its provider's venue, with what the pool that serves it holds. -/
theorem resolve_eq_ok {l : Ledger} {venue : Venue} {pool : Address} {reserves : Reserves}
    (h : v.resolve l s = .ok (venue, pool, reserves)) :
    v[s.provider]? = some venue ∧ venue.pool s = .ok pool ∧
      reserves = ⟨l.balance s.tokenIn pool, l.balance s.tokenOut pool⟩ := by
  unfold resolve at h
  split at h
  · cases h
  · rename_i found hv
    obtain ⟨served, hp, he⟩ := Attempt.bind_eq_ok.1 h
    cases he
    exact ⟨hv, hp, rfl⟩

/-- A quote is for the amount asked, and the provider's venue prices it with what its pool for the swap holds. -/
theorem quote_priced {l : Ledger} (h : v.quote l s d amount = .ok f) :
    f.given d = amount ∧ ∃ venue, v[s.provider]? = some venue ∧ venue.pool s = .ok f.pool ∧
      venue.Prices s ⟨l.balance s.tokenIn f.pool, l.balance s.tokenOut f.pool⟩ f := by
  simp only [quote, Attempt.bind_eq_ok] at h
  obtain ⟨⟨venue, pool, reserves⟩, hr, hd⟩ := h
  obtain ⟨hv, hp, rfl⟩ := resolve_eq_ok hr
  cases d with
  | exactIn =>
    obtain ⟨out, ho, hf⟩ := Attempt.bind_eq_ok.1 hd
    cases hf
    exact ⟨rfl, venue, hv, hp, .inl ho⟩
  | exactOut =>
    obtain ⟨input, hi, hf⟩ := Attempt.bind_eq_ok.1 hd
    cases hf
    exact ⟨rfl, venue, hv, hp, .inr hi⟩

/-- A quote is for the amount asked, at the pool that serves the swap. -/
theorem quote_eq_ok {l : Ledger} (h : v.quote l s d amount = .ok f) : f.given d = amount ∧ v.Serves s f.pool := by
  obtain ⟨hg, venue, hv, hp, -⟩ := quote_priced h
  exact ⟨hg, venue, hv, hp⟩

/-- A swap moves the tokens of its fill. -/
theorem moved_apply {u : Unit} (h : apply s f b = .ok u b') : Moved b b' (s.paid f) (s.gained f) := by
  simp only [apply, Step.bind_eq_ok, Step.withError_eq_ok, Step.get_eq_ok] at h
  obtain ⟨_, _, ⟨rfl, rfl⟩, _, b₁, h₁, _, b₂, h₂, _, b₃, h₃, h₄⟩ := h
  have hm := (((moved_debit h₁).trans (moved_clear_credit h₂)).trans (moved_clear_debit h₃)).trans (moved_credit h₄)
  refine hm.congr (fun t k => ?_) fun t => ?_
  · simp [Swap.paid]
  · simp [Swap.gained]

theorem swap_eq_ok (h : v.swap s d amount b = .ok f b') :
    v.quote b.ledger s d amount = .ok f ∧ Moved b b' (s.paid f) (s.gained f) := by
  simp only [swap, Step.bind_eq_ok, Step.get_eq_ok, Step.lift_eq_ok, Step.pure_eq_ok] at h
  obtain ⟨_, _, ⟨rfl, rfl⟩, _, _, ⟨hq, rfl⟩, _, _, ha, rfl, rfl⟩ := h
  exact ⟨hq, moved_apply ha⟩

/-- What a fill pays and what the clearing account gains cancel. -/
theorem sum_paid_add_gained (s : Swap) (f : Fill) (t : Address) :
    (∑ k : Address, s.paid f t k) + s.gained f t = 0 := by
  simp only [Swap.paid, Swap.gained, Pi.add_apply, Finset.sum_add_distrib, sum_payment, receipt]
  split_ifs <;> omega

/-- A fill pays nobody but its pool. -/
theorem paid_eq_zero {k : Address} (hk : f.pool ≠ k) (t : Address) : s.paid f t k = 0 := by
  simp [Swap.paid, payment, hk.symm]

end VenueBook

namespace Engine

variable {v : VenueBook} {d : Direction} {b b' : Books} {fills : List Fill} {cursor last : Amount}

theorem walk_cons_eq_ok {leg : Leg} {legs : List Leg}
    (h : walk v d (leg :: legs) cursor b = .ok (fills, last) b') :
    ∃ f rest b₁, v.swap (leg.swap d) d cursor b = .ok f b₁ ∧ walk v d legs (f.cursor d) b₁ = .ok (rest, last) b' ∧
      fills = f :: rest := by
  simp only [walk, Step.bind_eq_ok, Step.withError_eq_ok] at h
  obtain ⟨f, b₁, hf, ⟨rest, l⟩, b₂, hr, hp⟩ := h
  obtain ⟨he, rfl⟩ := Step.pure_eq_ok.1 hp
  cases he
  exact ⟨f, rest, b₁, hf, hr, rfl⟩

/-- The fills of a walk are quoted leg by leg, and chained. -/
theorem walk_fills :
    ∀ {legs : List Leg} {cursor last : Amount} {fills : List Fill} {b b' : Books},
      walk v d legs cursor b = .ok (fills, last) b' →
      List.Forall₂ (fun leg f => ∃ l amount, v.quote l (leg.swap d) d amount = .ok f) legs fills ∧
        Fill.Chained d fills cursor last
  | [], cursor, last, fills, b, b', h => by
    obtain ⟨he, -⟩ := Step.pure_eq_ok.1 h
    cases he
    exact ⟨.nil, .nil d cursor⟩
  | leg :: legs, cursor, last, fills, b, b', h => by
    obtain ⟨f, rest, b₁, hf, hr, rfl⟩ := walk_cons_eq_ok h
    obtain ⟨hq, -⟩ := VenueBook.swap_eq_ok hf
    obtain ⟨hall, hchain⟩ := walk_fills hr
    refine ⟨.cons ⟨_, _, hq⟩ hall, ?_⟩
    rw [← (VenueBook.quote_eq_ok hq).1]
    exact hchain.cons

/-- Each fill of a walk has been quoted for one of the legs. -/
theorem walk_quoted {legs : List Leg} (h : walk v d legs cursor b = .ok (fills, last) b') :
    ∀ f ∈ fills, ∃ leg ∈ legs, ∃ l amount, v.quote l (leg.swap d) d amount = .ok f := by
  obtain ⟨hall, -⟩ := walk_fills h
  clear h
  induction hall with
  | nil => exact fun f hf => absurd hf List.not_mem_nil
  | cons hq _ ih =>
    intro f hf
    rcases List.mem_cons.1 hf with rfl | hf
    · exact ⟨_, List.mem_cons_self, hq⟩
    · obtain ⟨leg, hleg, hq⟩ := ih f hf
      exact ⟨leg, List.mem_cons_of_mem _ hleg, hq⟩

/-- What every swap keeps, a walk keeps. -/
theorem walk_keeps {R : Books → Books → Prop} (hR : Step.Chains R) (hs : ∀ s amount, Step.Keeps R (v.swap s d amount)) :
    ∀ (legs : List Leg) (cursor : Amount), Step.Keeps R (walk v d legs cursor)
  | [], _ => Step.Keeps.pure hR _
  | leg :: legs, cursor => by
    rintro b ⟨fills, last⟩ b' h
    obtain ⟨f, rest, b₁, hf, hr, -⟩ := walk_cons_eq_ok h
    exact hR.trans (hs _ _ hf) (walk_keeps hR hs legs _ hr)

/-- What the clearing account gains from a walk between the token `first` and the token `final` of hops that starts from
`cursor` and comes to `last`. -/
def crossing (d : Direction) (first final : Address) (cursor last : Amount) : Address → Int :=
  match d with
  | .exactIn => receipt final last.toNat + receipt first (-cursor.toNat)
  | .exactOut => receipt first cursor.toNat + receipt final (-last.toNat)

/-- A walk along hops gains the output of the whole and spends the input of the whole; nobody but the pools is paid. The
induction is on the hops: each hop starts from the token and the amount at which the one before it has ended. -/
theorem walk_moved (final : Address) :
    ∀ (hops : List Hop) (index : Nat) {cursor last : Amount} {fills : List Fill} {b b' : Books},
      walk v d (Path.legsFrom final index hops) cursor b = .ok (fills, last) b' →
      ∃ paid, Moved b b' paid (crossing d (Path.firstOf hops final) final cursor last) ∧
        ∀ k, (∀ f ∈ fills, f.pool ≠ k) → ∀ t, paid t k = 0
  | [], index, cursor, last, fills, b, b', h => by
    obtain ⟨he, rfl⟩ := Step.pure_eq_ok.1 h
    cases he
    refine ⟨0, ⟨⟨fun _ _ => (Int.add_zero _).symm, ?_⟩, rfl⟩, fun _ _ _ => rfl⟩
    have hz : crossing d (Path.firstOf [] final) final cursor cursor = 0 := by
      funext t
      by_cases ht : t = final <;> cases d <;> simp [crossing, Path.firstOf, receipt, ht]
    rw [hz]
    exact Gained.refl _
  | hop :: hops, index, cursor, last, fills, b, b', h => by
    obtain ⟨f, rest, b₁, hf, hr, rfl⟩ := walk_cons_eq_ok h
    obtain ⟨hq, hm⟩ := VenueBook.swap_eq_ok hf
    obtain ⟨paid, hw, hz⟩ := walk_moved final hops (index + 1) hr
    have hg := (VenueBook.quote_eq_ok hq).1
    refine ⟨_, (hm.trans hw).congr (fun _ _ => rfl) fun t => ?_, fun k hk t => ?_⟩
    · cases d with
      | exactIn =>
        simp only [Fill.given] at hg
        simp only [Swap.gained, crossing, Leg.swap, Leg.oriented, Leg.head, Fill.cursor, Path.firstOf, receipt, hg,
          Pi.add_apply]
        split_ifs <;> omega
      | exactOut =>
        simp only [Fill.given] at hg
        simp only [Swap.gained, crossing, Leg.swap, Leg.oriented, Leg.head, Fill.cursor, Path.firstOf, receipt, hg,
          Pi.add_apply]
        split_ifs <;> omega
    · rw [Pi.add_apply, Pi.add_apply, VenueBook.paid_eq_zero (hk f (List.mem_cons_self ..)),
        hz k (fun g hg => hk g (List.mem_cons_of_mem f hg)), Int.add_zero]

/-- A walk of a path leaves whoever is no pool on it with what they have. -/
theorem walk_holds {p : Path} {k : Address} (h : walk v d p.legs cursor b = .ok (fills, last) b') (hk : ¬v.OnPath p d k)
    (t : Address) : b'.ledger.holds t k = b.ledger.holds t k := by
  obtain ⟨paid, hm, hz⟩ := walk_moved p.finalToken p.hops 0 h
  have hpools : ∀ f ∈ fills, f.pool ≠ k := by
    rintro f hf rfl
    obtain ⟨leg, hleg, l, amount, hq⟩ := walk_quoted h f hf
    exact hk ⟨leg, hleg, (VenueBook.quote_eq_ok hq).2⟩
  rw [hm.holds, hz k hpools, Int.add_zero]

end Engine

end MarginRouter
