import MarginRouter.Proofs.Registry

/-!
# Where operations lead

Which module an operation leads to, read off the history of the cuts alone. The last cut that lists the operation decides which
address owns it; the module that is called there is the one with which that address came to own anything. Modules are told
apart by their addresses, so this is the module of that last cut unless two modules share an address.
-/

namespace MarginRouter

namespace Registry

variable {admin : Address} {cuts : List Cut} {c : Cut} {r r' : Registry} {op : OperationId} {m : Module} {a : Address}

/-! ## Histories of cuts -/

/-- The registry has been reached from an empty one by batches that were accepted, whoever was the administrator. The cuts of
the batches are listed with the latest first. -/
inductive Reached (admin : Address) : List Cut → Registry → Prop where
  | new : Reached admin [] (.new admin)
  | configure {cuts batch : List Cut} {r r' : Registry} {caller : Address} (h : Reached admin cuts r)
      (hb : r.configure caller batch = .ok r') : Reached admin (batch.reverse ++ cuts) r'
  | transferAdmin {cuts : List Cut} {r r' : Registry} {caller next : Address} (h : Reached admin cuts r)
      (ht : r.transferAdmin caller next = .ok r') : Reached admin cuts r'

/-- The module that the last cut which lists the operation has given it to: none if that cut takes it, or if no cut lists it. -/
def givenTo (cuts : List Cut) (op : OperationId) : Option Module :=
  (cuts.find? fun c => op ∈ c.operations).bind Cut.module

/-- After these cuts the address owns an operation. -/
def Owns (cuts : List Cut) (a : Address) : Prop :=
  ∃ op m, givenTo cuts op = some m ∧ m.address = a

/-- The module that holds the seat at an address after these cuts: the module of the cut with which the address came to own an
operation, as long as the address has owned one ever since. -/
inductive Seated : List Cut → Address → Module → Prop where
  | founded {cuts : List Cut} {c : Cut} {m : Module} (hfree : ¬Owns cuts m.address) (hm : c.module = some m)
      (howns : Owns (c :: cuts) m.address) : Seated (c :: cuts) m.address m
  | kept {cuts : List Cut} {c : Cut} {a : Address} {m : Module} (h : Seated cuts a m) (howns : Owns (c :: cuts) a) :
      Seated (c :: cuts) a m

theorem givenTo_cons (c : Cut) (cuts : List Cut) (op : OperationId) :
    givenTo (c :: cuts) op = if op ∈ c.operations then c.module else givenTo cuts op := by
  unfold givenTo
  rw [List.find?_cons]
  by_cases ho : op ∈ c.operations
  · simp [ho]
  · simp [ho]

/-- An operation has been given to the module of one of the cuts. -/
theorem mem_of_givenTo (h : givenTo cuts op = some m) : ∃ c ∈ cuts, c.module = some m := by
  obtain ⟨c, hc, hm⟩ := Option.bind_eq_some_iff.1 h
  exact ⟨c, List.mem_of_find?_eq_some hc, hm⟩

namespace Seated

theorem address_eq (h : Seated cuts a m) : m.address = a := by
  induction h with
  | founded => rfl
  | kept _ _ ih => exact ih

theorem mem (h : Seated cuts a m) : ∃ c ∈ cuts, c.module = some m := by
  induction h with
  | founded hfree hm howns => exact ⟨_, List.mem_cons_self, hm⟩
  | kept _ _ ih =>
    obtain ⟨c, hc, hm⟩ := ih
    exact ⟨c, List.mem_cons_of_mem _ hc, hm⟩

end Seated

/-! ## The registry and its history -/

/-- The registry says what its history says: who owns which operation, and who is called where. -/
structure Follows (cuts : List Cut) (r : Registry) : Prop where
  consistent : r.Consistent
  moduleOf : ∀ op, r.moduleOf op = (givenTo cuts op).map Module.address
  seated : ∀ a m, r.seated a = some m ↔ Seated cuts a m

namespace Follows

theorem owns_iff (h : Follows cuts r) : Owns cuts a ↔ r.seated a ≠ none := by
  rw [h.consistent.seated_ne_none]
  refine exists_congr fun op => ?_
  rw [h.moduleOf, Option.map_eq_some_iff]

theorem new (admin : Address) : Follows [] (.new admin) := by
  refine ⟨consistent_new admin, fun op => ?_, fun a m => ⟨fun h => ?_, nofun⟩⟩
  · simp [Registry.moduleOf, Registry.new, givenTo]
  · simp [Registry.seated, Registry.new] at h

/-- A cut that is accepted is the latest of the history. Of the three things that a cut may do to the seat at an address, the
first and the second are told apart by whether the address owned an operation before. -/
theorem apply (h : Follows cuts r) (ha : r.apply c = .ok r') : Follows (c :: cuts) r' := by
  have hg := Gives.apply ha
  have hc := hg.consistent h.consistent
  have hm : ∀ op, r'.moduleOf op = (givenTo (c :: cuts) op).map Module.address := by
    intro op
    rw [hg.moduleOf, givenTo_cons, h.moduleOf]
    split <;> rfl
  have howns : ∀ a, Owns (c :: cuts) a ↔ r'.seated a ≠ none := by
    intro a
    rw [hc.seated_ne_none]
    refine exists_congr fun op => ?_
    rw [hm, Option.map_eq_some_iff]
  refine ⟨hc, hm, fun a m => ⟨fun hs => ?_, fun hs => ?_⟩⟩
  · have hown : Owns (c :: cuts) a := (howns a).2 (by rw [hs]; nofun)
    rcases hg.seated a with he | ⟨haddress, he⟩ | ⟨-, he⟩
    · exact .kept ((h.seated a m).1 (he.symm.trans hs)) hown
    · rcases Option.or_eq_some_iff.1 (he.symm.trans hs) with hold | ⟨hnone, hnew⟩
      · exact .kept ((h.seated a m).1 hold) hown
      · rw [hnew] at haddress
        obtain rfl := Option.some.inj haddress
        exact .founded (fun ho => h.owns_iff.1 ho hnone) hnew hown
    · rw [he] at hs
      cases hs
  · cases hs with
    | founded hfree hmodule hown =>
      have hnone : r.seated m.address = none := not_not.1 (mt h.owns_iff.2 hfree)
      have hsome := (howns m.address).1 hown
      rcases hg.seated m.address with he | ⟨-, he⟩ | ⟨hne, -⟩
      · exact absurd (he.trans hnone) hsome
      · rw [he, hnone, hmodule, Option.none_or]
      · exact absurd (by rw [hmodule]; rfl) hne
    | kept hold hown =>
      have hseat := (h.seated a m).2 hold
      have hsome := (howns a).1 hown
      rcases hg.seated a with he | ⟨-, he⟩ | ⟨-, he⟩
      · exact he.trans hseat
      · rw [he, hseat, Option.some_or]
      · exact absurd he hsome

theorem applyAll : ∀ (batch : List Cut) {cuts : List Cut} {r r' : Registry}, Follows cuts r →
    batch.foldlM Registry.apply r = .ok r' → Follows (batch.reverse ++ cuts) r'
  | [], cuts, r, r', h, hb => by
    obtain rfl := Attempt.pure_eq_ok.1 hb
    exact h
  | c :: batch, cuts, r, r', h, hb => by
    obtain ⟨r₁, h₁, hb⟩ := Attempt.bind_eq_ok.1 hb
    rw [List.reverse_cons, List.append_assoc]
    exact applyAll batch (h.apply h₁) hb

/-- An operation that the history leaves without an owner leads nowhere; any other leads to the module that holds the seat at the
owner's address. -/
theorem resolve_eq_some (h : Follows cuts r) :
    r.resolve op = some m ↔ ∃ given, givenTo cuts op = some given ∧ Seated cuts given.address m := by
  rw [resolve_eq, h.moduleOf, Option.bind_map, Option.bind_eq_some_iff]
  exact exists_congr fun given => and_congr_right fun _ => h.seated given.address m

theorem resolve_eq_none (h : Follows cuts r) : r.resolve op = none ↔ givenTo cuts op = none := by
  rw [resolve_eq, h.moduleOf]
  cases hg : givenTo cuts op with
  | none => simp
  | some given =>
    simp only [Option.map_some, Option.bind_some, reduceCtorEq, iff_false]
    exact h.owns_iff.1 ⟨op, given, hg, rfl⟩

/-- Where no two modules share an address, the module that is called is the one that the operation has been given to. -/
theorem resolve_eq_givenTo (h : Follows cuts r)
    (hinj : ∀ c ∈ cuts, ∀ c' ∈ cuts, ∀ m ∈ c.module, ∀ m' ∈ c'.module, m.address = m'.address → m = m')
    (op : OperationId) : r.resolve op = givenTo cuts op := by
  cases hr : r.resolve op with
  | none => exact (h.resolve_eq_none.1 hr).symm
  | some m =>
    obtain ⟨given, hg, hs⟩ := h.resolve_eq_some.1 hr
    obtain ⟨c, hc, hm⟩ := hs.mem
    obtain ⟨c', hc', hm'⟩ := mem_of_givenTo hg
    rw [hg, hinj c hc c' hc' m hm given hm' hs.address_eq]

end Follows

theorem Reached.follows (h : Reached admin cuts r) : Follows cuts r := by
  induction h with
  | new => exact .new admin
  | configure _ hb ih =>
    obtain ⟨-, -, hb⟩ := Attempt.bind_eq_ok.1 hb
    exact ih.applyAll _ hb
  | transferAdmin _ ht ih =>
    obtain ⟨-, -, ht⟩ := Attempt.bind_eq_ok.1 ht
    obtain rfl := Attempt.pure_eq_ok.1 ht
    exact ⟨⟨ih.consistent.listed, ih.consistent.used⟩, ih.moduleOf, ih.seated⟩

end Registry

/-! ## The router that settings launch -/

namespace Config.Settings

open Registry

variable {s : Settings} {r : Router}

/-- The cuts of a launch, the latest first: all operations of the lens, then all of the trader. -/
def cuts (s : Settings) : List Cut :=
  [(Module.lens s.accounts.lens).addAll, (Module.trader s.accounts.trader).addAll]

theorem reached_launch (h : s.launch = .ok r) : Reached s.accounts.admin s.cuts r.registry := by
  obtain ⟨venues, markets, balances, ledger, rate, registry, -, -, -, -, -, hr, rfl⟩ := launch_eq_ok.1 h
  exact .configure .new hr

/-- No entry of the trader is a query of the lens. -/
theorem operation_notMem_lens (entry : TradeEntry) (a : Address) : entry.operation ∉ (Module.lens a).addAll.operations := by
  have hall : ∀ entry ∈ TradeEntry.all, entry.operation ∉ Query.all.map Query.operation := by decide +kernel
  refine hall entry ?_
  obtain ⟨c, d⟩ := entry
  cases c <;> cases d <;> decide

theorem operation_mem_trader (entry : TradeEntry) (a : Address) : entry.operation ∈ (Module.trader a).addAll.operations := by
  refine List.mem_map_of_mem (f := TradeEntry.operation) (l := TradeEntry.all) ?_
  obtain ⟨c, d⟩ := entry
  cases c <;> cases d <;> decide

theorem operation_mem_lens (query : Query) (a : Address) : query.operation ∈ (Module.lens a).addAll.operations := by
  refine List.mem_map_of_mem (f := Query.operation) (l := Query.all) ?_
  cases query <;> decide

theorem givenTo_entry (s : Settings) (entry : TradeEntry) :
    givenTo s.cuts entry.operation = some (.trader s.accounts.trader) := by
  rw [cuts, givenTo_cons, if_neg (operation_notMem_lens entry _), givenTo_cons, if_pos (operation_mem_trader entry _)]
  rfl

theorem givenTo_query (s : Settings) (query : Query) : givenTo s.cuts query.operation = some (.lens s.accounts.lens) := by
  rw [cuts, givenTo_cons, if_pos (operation_mem_lens query _)]
  rfl

/-- The trader holds the seat at its address from the first cut on. -/
theorem seated_trader (s : Settings) : Seated s.cuts s.accounts.trader (.trader s.accounts.trader) := by
  have hfirst : givenTo [(Module.trader s.accounts.trader).addAll] (TradeEntry.operation ⟨.spot, .exactIn⟩) =
      some (.trader s.accounts.trader) := by
    rw [givenTo_cons, if_pos (operation_mem_trader _ _)]
    rfl
  refine .kept (.founded (m := .trader s.accounts.trader) ?_ rfl ⟨_, _, hfirst, rfl⟩) ⟨_, _, givenTo_entry s ⟨.spot, .exactIn⟩, rfl⟩
  rintro ⟨op, m, hm, -⟩
  cases hm

/-- The lens holds the seat at its address, if that is an address of its own. -/
theorem seated_lens (hne : s.accounts.lens ≠ s.accounts.trader) : Seated s.cuts s.accounts.lens (.lens s.accounts.lens) := by
  refine .founded (m := .lens s.accounts.lens) ?_ rfl ⟨_, _, givenTo_query s .balanceOf, rfl⟩
  rintro ⟨op, m, hm, ha⟩
  rw [givenTo_cons] at hm
  split at hm
  · cases hm
    exact hne ha.symm
  · cases hm

/-- The operations of the trader lead to it. Those of the lens lead to it if its address is not the trader's, and otherwise to the
trader. -/
theorem resolve_launch (h : s.launch = .ok r) :
    (∀ entry : TradeEntry, r.registry.resolve entry.operation = some (.trader s.accounts.trader)) ∧
      ∀ query : Query, r.registry.resolve query.operation =
        some (if s.accounts.lens = s.accounts.trader then .trader s.accounts.trader else .lens s.accounts.lens) := by
  have hf := (reached_launch h).follows
  refine ⟨fun entry => hf.resolve_eq_some.2 ⟨_, givenTo_entry s entry, seated_trader s⟩, fun query => ?_⟩
  refine hf.resolve_eq_some.2 ⟨_, givenTo_query s query, ?_⟩
  by_cases heq : s.accounts.lens = s.accounts.trader
  · rw [if_pos heq]
    show Seated s.cuts s.accounts.lens _
    rw [heq]
    exact seated_trader s
  · rw [if_neg heq]
    exact seated_lens heq

end Config.Settings

namespace Registry

/-- Routing follows the last cut. In a registry reached by accepted batches, an operation leads nowhere exactly when the last
cut that lists it takes it or no cut lists it, and otherwise to the module that holds the seat at the address it was given to;
that is the very module it was given to, when no two modules of the history share an address. So in a launched router every
entry leads to the trader, and every query to the lens, or to the trader if the lens has been put at the same address. -/
theorem resolve_last_cut :
    (∀ {admin : Address} {cuts : List Cut} {r : Registry}, Reached admin cuts r →
      (∀ op, r.resolve op = none ↔ givenTo cuts op = none) ∧
      (∀ op m, r.resolve op = some m ↔ ∃ given, givenTo cuts op = some given ∧ Seated cuts given.address m) ∧
      ((∀ c ∈ cuts, ∀ c' ∈ cuts, ∀ m ∈ c.module, ∀ m' ∈ c'.module, m.address = m'.address → m = m') →
        ∀ op, r.resolve op = givenTo cuts op)) ∧
    ∀ {s : Config.Settings} {r : Router}, s.launch = .ok r →
      (∀ entry : TradeEntry, r.registry.resolve entry.operation = some (.trader s.accounts.trader)) ∧
      ∀ query : Query, r.registry.resolve query.operation =
        some (if s.accounts.lens = s.accounts.trader then .trader s.accounts.trader else .lens s.accounts.lens) := by
  refine ⟨fun h => ⟨fun op => ?_, fun op m => ?_, fun hinj op => ?_⟩, fun h => Config.Settings.resolve_launch h⟩
  · exact h.follows.resolve_eq_none
  · exact h.follows.resolve_eq_some
  · exact h.follows.resolve_eq_givenTo hinj op

/-- Settings in which the lens has been put at the address of the trader. -/
def sharedSettings : Config.Settings :=
  { Config.Settings.default with accounts := { Config.Accounts.default with lens := Config.Accounts.default.trader } }

theorem exists_launch : (∃ r, Config.Settings.default.launch = .ok r) ∧ ∃ r, sharedSettings.launch = .ok r := by
  have hdefault : (Config.Settings.default.launch.toOption).isSome = true := by decide +kernel
  have hshared : (sharedSettings.launch.toOption).isSome = true := by decide +kernel
  obtain ⟨r, hr⟩ := Option.isSome_iff_exists.1 hdefault
  obtain ⟨r', hr'⟩ := Option.isSome_iff_exists.1 hshared
  exact ⟨⟨r, Attempt.ok_of_toOption hr⟩, ⟨r', Attempt.ok_of_toOption hr'⟩⟩

/-- By default the two modules have addresses of their own. -/
theorem addresses_default : ∀ c ∈ Config.Settings.default.cuts, ∀ c' ∈ Config.Settings.default.cuts,
    ∀ m ∈ c.module, ∀ m' ∈ c'.module, m.address = m'.address → m = m' := by
  have hne : Config.Accounts.default.lens ≠ Config.Accounts.default.trader := by decide
  intro c hc c' hc' m hm m' hm' he
  simp only [Config.Settings.cuts, List.mem_cons, List.not_mem_nil, or_false] at hc hc'
  rcases hc with rfl | rfl
  · rcases hc' with rfl | rfl
    · exact Option.some.inj (hm.symm.trans hm')
    · cases hm
      cases hm'
      exact absurd he hne
  · rcases hc' with rfl | rfl
    · cases hm
      cases hm'
      exact absurd he.symm hne
    · exact Option.some.inj (hm.symm.trans hm')

/-- `resolve_last_cut` at a launch: with the addresses that settings have by default every operation leads to the module that it
was given to, and the queries to the lens; with one address for both modules the queries lead to the trader. -/
theorem resolve_last_cut_launch :
    (∃ r, Config.Settings.default.launch = .ok r ∧
      Reached Config.Accounts.default.admin Config.Settings.default.cuts r.registry ∧
      (∀ op, r.registry.resolve op = givenTo Config.Settings.default.cuts op) ∧
      ∀ query : Query, r.registry.resolve query.operation = some (.lens (.ofNat 0x22))) ∧
    ∃ r, sharedSettings.launch = .ok r ∧ ∀ query : Query, r.registry.resolve query.operation = some (.trader (.ofNat 0x21)) := by
  obtain ⟨⟨r, hr⟩, r', hr'⟩ := exists_launch
  have hreached := Config.Settings.reached_launch hr
  refine ⟨⟨r, hr, hreached, (resolve_last_cut.1 hreached).2.2 addresses_default, fun query => ?_⟩, r', hr', fun query => ?_⟩
  · exact (resolve_last_cut.2 hr).2 query
  · exact (resolve_last_cut.2 hr').2 query

/-- An operation need not lead to the module that it was last given to, and not all settings that launch make queries lead to a
lens: where the lens has the address of the trader, the trader stays the one that is called there. -/
theorem resolve_given_false :
    (¬∀ (admin : Address) (cuts : List Cut) (r : Registry), Reached admin cuts r → ∀ op, r.resolve op = givenTo cuts op) ∧
    ¬∀ (s : Config.Settings) (r : Router), s.launch = .ok r →
      ∀ query : Query, r.registry.resolve query.operation = some (.lens s.accounts.lens) := by
  obtain ⟨-, r, hr⟩ := exists_launch
  have htrader : r.registry.resolve Query.balanceOf.operation = some (.trader (.ofNat 0x21)) :=
    (Config.Settings.resolve_launch hr).2 .balanceOf
  have hnot : r.registry.resolve Query.balanceOf.operation ≠ some (.lens (.ofNat 0x21)) := by
    intro he
    have hname := congrArg (Option.map Module.name) (htrader.symm.trans he)
    exact absurd hname (by decide)
  refine ⟨fun hall => hnot ?_, fun hall => hnot (hall _ _ hr .balanceOf)⟩
  rw [hall _ _ _ (Config.Settings.reached_launch hr), Config.Settings.givenTo_query]
  rfl

end Registry

end MarginRouter
