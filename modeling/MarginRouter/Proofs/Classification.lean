import MarginRouter.Engine.Classify
import MarginRouter.Proofs.Step

/-!
# Paths that can be classified

A path can be classified in a direction exactly when its hops carry the codes of an execution in that direction: first the action
that says what the path does, which may be a plain swap of this direction but not of the other, then plain swaps of this direction.
Of any other path the first hop that does not belong there is reported.
-/

namespace MarginRouter

namespace Action

variable {a : Action} {d : Direction} {code : UInt8}

theorem ofCode?_eq_some : ofCode? code = some a ↔ code = a.code := by
  constructor
  · intro h
    unfold ofCode? at h
    split at h <;> cases h <;> rfl
  · rintro rfl
    exact ofCode?_code a

/-- The action may stand at the first hop of a path that is executed in this direction. -/
def Leads (a : Action) (d : Direction) : Prop :=
  a.isSpot = true → a = d.spotAction

theorem leads_spotAction (d : Direction) : d.spotAction.Leads d :=
  fun _ => rfl

theorem leads_of_not_isSpot (h : a.isSpot = false) (d : Direction) : a.Leads d :=
  fun hspot => absurd (h.symm.trans hspot) Bool.false_ne_true

/-- There are four leveraged actions. -/
theorem exists_leveraged_iff {P : Action → Prop} : (∃ a : Action, a.isSpot = false ∧ P a) ↔
    P .marginOpen ∨ P .marginClose ∨ P .collateralSwap ∨ P .debtSwap := by
  constructor
  · rintro ⟨a, ha, hP⟩
    cases a with
    | swapExactIn | swapExactOut => cases ha
    | marginOpen => exact .inl hP
    | marginClose => exact .inr (.inl hP)
    | collateralSwap => exact .inr (.inr (.inl hP))
    | debtSwap => exact .inr (.inr (.inr hP))
  · rintro (hP | hP | hP | hP)
    · exact ⟨_, rfl, hP⟩
    · exact ⟨_, rfl, hP⟩
    · exact ⟨_, rfl, hP⟩
    · exact ⟨_, rfl, hP⟩

theorem isSpot_spotAction (d : Direction) : d.spotAction.isSpot = true := by
  cases d <;> rfl

/-- A plain swap that is not the one of a direction is the one of the other. -/
theorem isSpot_and_ne_iff : a.isSpot = true ∧ a ≠ d.spotAction ↔ a = d.flip.spotAction := by
  cases a <;> cases d <;> decide

end Action

theorem Composition.ofAction_spotAction (d : Direction) : Composition.ofAction d.spotAction = .spot := by
  cases d <;> rfl

namespace Hop

variable {h : Hop} {a : Action} {d : Direction} {index : Nat}

theorem action_eq_ok : h.action = .ok a ↔ h.code = a.code := by
  rw [← Action.ofCode?_eq_some, action]
  split
  · rename_i found hfound
    rw [hfound, Except.ok.injEq, Option.some.injEq]
  · rename_i hfound
    rw [hfound]
    exact ⟨nofun, nofun⟩

/-- After the first hop only plain swaps may stand, and everywhere no plain swap of the other direction. -/
theorem checked_eq_ok : h.checked d index = .ok a ↔ h.code = a.code ∧ (index ≠ 0 → a.isSpot = true) ∧ a.Leads d := by
  simp only [checked, Attempt.bind_eq_ok, Attempt.mapError_eq_ok, Attempt.refuse_eq_ok, Attempt.pure_eq_ok, action_eq_ok,
    Action.Leads, not_and, Decidable.not_not]
  constructor
  · rintro ⟨_, hcode, hfirst, hspot, rfl⟩
    exact ⟨hcode, hfirst, hspot⟩
  · rintro ⟨hcode, hfirst, hspot⟩
    exact ⟨a, hcode, hfirst, hspot, rfl⟩

theorem action_eq_error {e : PathError} : h.action = .error e ↔ (∀ a : Action, h.code ≠ a.code) ∧ e = .unknownAction h.code := by
  rw [action]
  split
  · rename_i found hfound
    refine iff_of_false nofun ?_
    rintro ⟨hnone, -⟩
    exact hnone found (Action.ofCode?_eq_some.1 hfound)
  · rename_i hfound
    have hnone : ∀ a : Action, h.code ≠ a.code := by
      intro a ha
      rw [Action.ofCode?_eq_some.2 ha] at hfound
      cases hfound
    simp only [Except.error.injEq, hnone, ne_eq, not_false_eq_true, implies_true, true_and, eq_comm]

/-- The hop may have this index on a path that is executed in this direction. -/
def Fits (h : Hop) (d : Direction) (index : Nat) : Prop :=
  h.code = d.spotAction.code ∨ index = 0 ∧ ∃ a : Action, a.isSpot = false ∧ h.code = a.code

/-- What is reported of a hop that may not have its index: its byte is no code, or it is leveraged and not the first, or it is the
plain swap of the other direction. -/
inductive Offends (h : Hop) (d : Direction) (index : Nat) : EngineError → Prop where
  | unknown (hcode : ∀ a : Action, h.code ≠ a.code) : Offends h d index (.path (.unknownAction h.code))
  | notFirst {a : Action} (hcode : h.code = a.code) (ha : a.isSpot = false) (hindex : index ≠ 0) :
    Offends h d index (.leveragedHopNotFirst index a)
  | opposite (hcode : h.code = d.flip.spotAction.code) :
    Offends h d index (.orientationMismatch index d.flip.spotAction d)

theorem exists_checked : (∃ a, h.checked d index = .ok a) ↔ h.Fits d index := by
  simp only [checked_eq_ok]
  constructor
  · rintro ⟨a, hcode, hfirst, hleads⟩
    cases ha : a.isSpot with
    | true => exact .inl (hleads ha ▸ hcode)
    | false =>
      have hindex : index = 0 :=
        Decidable.byContradiction fun hne => Bool.false_ne_true (ha.symm.trans (hfirst hne))
      exact .inr ⟨hindex, a, ha, hcode⟩
  · rintro (hcode | ⟨rfl, a, ha, hcode⟩)
    · exact ⟨_, hcode, fun _ => Action.isSpot_spotAction d, Action.leads_spotAction d⟩
    · exact ⟨a, hcode, fun hne => absurd rfl hne, Action.leads_of_not_isSpot ha d⟩

theorem checked_eq_error {e : EngineError} : h.checked d index = .error e ↔ h.Offends d index e := by
  simp only [checked, Attempt.bind_eq_error, Attempt.mapError_eq_error, Attempt.mapError_eq_ok, Attempt.refuse_eq_error,
    Attempt.pure_ne_error, and_false, or_false, action_eq_ok, action_eq_error, Action.isSpot_and_ne_iff, Bool.not_eq_true]
  constructor
  · rintro (⟨_, ⟨hcode, rfl⟩, rfl⟩ | ⟨a, hcode, ⟨⟨hindex, ha⟩, rfl⟩ | ⟨-, rfl, rfl⟩⟩)
    · exact .unknown hcode
    · exact .notFirst hcode ha hindex
    · exact .opposite hcode
  · rintro (hcode | ⟨hcode, ha, hindex⟩ | hcode)
    · exact .inl ⟨_, ⟨hcode, rfl⟩, rfl⟩
    · exact .inr ⟨_, hcode, .inl ⟨⟨hindex, ha⟩, rfl⟩⟩
    · have hspot : d.flip.spotAction.isSpot = true := Action.isSpot_spotAction d.flip
      exact .inr ⟨_, hcode, .inr ⟨fun hnot => absurd (hnot.2.symm.trans hspot) Bool.false_ne_true, rfl, rfl⟩⟩

end Hop

namespace Path

variable {p : Path} {d : Direction} {c : Composition}

/-- Behind the first hop every hop must carry the plain swap of the direction. -/
theorem checkHops_eq_ok {index : Nat} {hops : List Hop} (hindex : index ≠ 0) :
    checkHops d index hops = .ok () ↔ ∀ h ∈ hops, h.code = d.spotAction.code := by
  induction hops generalizing index with
  | nil => simp [checkHops]
  | cons h hops ih =>
    simp only [checkHops, Attempt.bind_eq_ok, Hop.checked_eq_ok, ih (Nat.succ_ne_zero index), List.forall_mem_cons]
    constructor
    · rintro ⟨a, ⟨hcode, hspot, hleads⟩, hrest⟩
      rw [hcode, hleads (hspot hindex)]
      exact ⟨rfl, hrest⟩
    · rintro ⟨hcode, hrest⟩
      exact ⟨d.spotAction, ⟨hcode, fun _ => Action.isSpot_spotAction d, Action.leads_spotAction d⟩, hrest⟩

/-- What a path does is said by the code of its first hop, and the other hops carry the plain swap of the direction. -/
theorem classify_eq_ok : p.classify d = .ok c ↔
    ∃ a n, a.Leads d ∧ p.hops.map Hop.code = a.code :: List.replicate n d.spotAction.code ∧ c = .ofAction a := by
  unfold classify
  cases hp : p.hops with
  | nil =>
    refine ⟨nofun, ?_⟩
    rintro ⟨a, n, -, hcodes, -⟩
    cases hcodes
  | cons h hops =>
    simp only [Attempt.bind_eq_ok, Attempt.pure_eq_ok, Hop.checked_eq_ok, checkHops_eq_ok Nat.one_ne_zero, List.map_cons,
      List.cons.injEq, List.eq_replicate_iff, List.forall_mem_map]
    constructor
    · rintro ⟨a, ⟨hcode, -, hleads⟩, -, hrest, rfl⟩
      exact ⟨a, _, hleads, ⟨hcode, rfl, hrest⟩, rfl⟩
    · rintro ⟨a, n, hleads, ⟨hcode, -, hrest⟩, rfl⟩
      exact ⟨a, ⟨hcode, fun hne => absurd rfl hne, hleads⟩, (), hrest, rfl⟩

/-- A path can be classified exactly when its first hop says what it does and the others carry the plain swap of the direction. -/
theorem classify_eq_ok_iff_first : p.classify d = .ok c ↔ ∃ first hops, p.hops = first :: hops ∧
    (first.code = d.spotAction.code ∧ c = .spot ∨ first.code = Action.marginOpen.code ∧ c = .marginOpen ∨
      first.code = Action.marginClose.code ∧ c = .marginClose ∨
      first.code = Action.collateralSwap.code ∧ c = .collateralSwap ∨ first.code = Action.debtSwap.code ∧ c = .debtSwap) ∧
    ∀ h ∈ hops, h.code = d.spotAction.code := by
  rw [classify_eq_ok]
  constructor
  · rintro ⟨a, n, hleads, hcodes, rfl⟩
    obtain ⟨first, hops, hp, hfirst, hrest⟩ := List.map_eq_cons_iff.1 hcodes
    refine ⟨first, hops, hp, ?_, fun h hh => ?_⟩
    · cases ha : a.isSpot with
      | true =>
        obtain rfl := hleads ha
        exact .inl ⟨hfirst, Composition.ofAction_spotAction d⟩
      | false =>
        exact .inr (Action.exists_leveraged_iff (P := fun a' => first.code = a'.code ∧ Composition.ofAction a = .ofAction a').1
          ⟨a, ha, hfirst, rfl⟩)
    · exact List.eq_of_mem_replicate (hrest ▸ List.mem_map_of_mem hh)
  · rintro ⟨first, hops, hp, hfirst, hrest⟩
    have hcodes : hops.map Hop.code = List.replicate hops.length d.spotAction.code := by
      rw [List.eq_replicate_iff, List.length_map]
      exact ⟨rfl, List.forall_mem_map.2 hrest⟩
    rw [hp, List.map_cons, hcodes]
    rcases hfirst with ⟨hcode, rfl⟩ | hleveraged
    · exact ⟨d.spotAction, _, Action.leads_spotAction d, by rw [hcode], (Composition.ofAction_spotAction d).symm⟩
    · obtain ⟨a, ha, hcode, rfl⟩ :=
        Action.exists_leveraged_iff (P := fun a => first.code = a.code ∧ c = .ofAction a).2 hleveraged
      exact ⟨a, _, Action.leads_of_not_isSpot ha d, by rw [hcode], rfl⟩

/-! ## Refusals -/

/-- Hops fit from an index on when the first one fits there and the others from the next index on. -/
theorem fits_cons_iff {index : Nat} {first : Hop} {hops : List Hop} :
    (∀ (i : Nat) (h : Hop), (first :: hops)[i]? = some h → h.Fits d (index + i)) ↔
      first.Fits d index ∧ ∀ (i : Nat) (h : Hop), hops[i]? = some h → h.Fits d (index + 1 + i) := by
  have hshift : ∀ i, index + 1 + i = index + (i + 1) := fun i => by rw [Nat.add_assoc, Nat.add_comm 1]
  constructor
  · intro hfits
    refine ⟨hfits 0 first rfl, fun i h hi => ?_⟩
    rw [hshift]
    exact hfits (i + 1) h hi
  · rintro ⟨hfirst, hrest⟩ i h hi
    cases i with
    | zero =>
      cases hi
      exact hfirst
    | succ i =>
      rw [← hshift]
      exact hrest i h hi

/-- Of hops that are checked one after the other, the first one that may not have its index is reported. -/
theorem checkHops_eq_error {index : Nat} {hops : List Hop} {e : EngineError} :
    checkHops d index hops = .error e ↔ ∃ before h after, hops = before ++ h :: after ∧
      (∀ (i : Nat) (h' : Hop), before[i]? = some h' → h'.Fits d (index + i)) ∧ h.Offends d (index + before.length) e := by
  induction hops generalizing index with
  | nil =>
    refine iff_of_false nofun ?_
    rintro ⟨before, h, after, hsplit, -⟩
    cases before <;> cases hsplit
  | cons first hops ih =>
    have hlength : ∀ before : List Hop, index + (first :: before).length = index + 1 + before.length := fun before => by
      rw [List.length_cons, Nat.add_assoc, Nat.add_comm 1]
    simp only [checkHops, Attempt.bind_eq_error, Hop.checked_eq_error, ih, List.cons_eq_append_iff]
    constructor
    · rintro (hfirst | ⟨a, hfirst, before, h, after, rfl, hbefore, hoffends⟩)
      · exact ⟨[], first, hops, .inl ⟨rfl, rfl⟩, (fun _ _ hi => nomatch hi), hfirst⟩
      · refine ⟨first :: before, h, after, .inr ⟨before, rfl, rfl⟩, ?_, ?_⟩
        · exact fits_cons_iff.2 ⟨Hop.exists_checked.1 ⟨a, hfirst⟩, hbefore⟩
        · rwa [hlength]
    · rintro ⟨before, h, after, ⟨rfl, hsplit⟩ | ⟨before, rfl, rfl⟩, hbefore, hoffends⟩
      · cases hsplit
        exact .inl hoffends
      · obtain ⟨hfirst, hbefore⟩ := fits_cons_iff.1 hbefore
        obtain ⟨a, ha⟩ := Hop.exists_checked.2 hfirst
        refine .inr ⟨a, ha, before, h, after, rfl, hbefore, ?_⟩
        rwa [hlength] at hoffends

/-- A path that has hops is refused as its hops are, the first of them with the index zero. -/
theorem classify_eq_error_iff_checkHops {e : EngineError} (hp : p.hops ≠ []) :
    p.classify d = .error e ↔ checkHops d 0 p.hops = .error e := by
  obtain ⟨first, hops, hcons⟩ := List.exists_cons_of_ne_nil hp
  unfold classify
  rw [hcons]
  simp only [checkHops, Attempt.bind_eq_error, Attempt.pure_ne_error, and_false, exists_false, or_false, Nat.zero_add]

/-- A path is refused for having no hops, or for the first of them that may not have its index. -/
theorem classify_eq_error {e : EngineError} : p.classify d = .error e ↔ p.hops = [] ∧ e = .emptyPath ∨
    ∃ before h after, p.hops = before ++ h :: after ∧ (∀ (i : Nat) (h' : Hop), before[i]? = some h' → h'.Fits d i) ∧
      h.Offends d before.length e := by
  by_cases hp : p.hops = []
  · rw [classify, hp]
    constructor
    · intro he
      cases he
      exact .inl ⟨rfl, rfl⟩
    · rintro (⟨-, rfl⟩ | ⟨before, h, after, hsplit, -⟩)
      · rfl
      · cases before <;> cases hsplit
  · simp only [classify_eq_error_iff_checkHops hp, checkHops_eq_error, hp, false_and, false_or, Nat.zero_add]

/-- Classification is exact. A path can be classified exactly when it has a first hop, which carries the plain swap of the direction,
and then the path is spot, or one of the four leveraged actions, and then the path is what this action says, and every later hop
carries the plain swap of the direction. Of any other path the first hop that breaks these rules is reported, and why it does, or
that there is no hop. -/
theorem classify_exact (p : Path) (d : Direction) :
    (∀ c, p.classify d = .ok c ↔ ∃ first hops, p.hops = first :: hops ∧
      (first.code = d.spotAction.code ∧ c = .spot ∨ first.code = Action.marginOpen.code ∧ c = .marginOpen ∨
        first.code = Action.marginClose.code ∧ c = .marginClose ∨
        first.code = Action.collateralSwap.code ∧ c = .collateralSwap ∨ first.code = Action.debtSwap.code ∧ c = .debtSwap) ∧
      ∀ h ∈ hops, h.code = d.spotAction.code) ∧
    ∀ e, p.classify d = .error e ↔
      p.hops = [] ∧ e = .emptyPath ∨
        ∃ before h after, p.hops = before ++ h :: after ∧ (∀ (i : Nat) (h' : Hop), before[i]? = some h' → h'.Fits d i) ∧
          h.Offends d before.length e := by
  refine ⟨fun c => ?_, fun e => ?_⟩
  · exact classify_eq_ok_iff_first
  · exact classify_eq_error

/-- A position is opened and what is bought swapped on with this code. -/
def openThen (code : UInt8) : Path :=
  ⟨[⟨.ofNat 10, 100, 0, Action.marginOpen.code, by decide⟩, ⟨.ofNat 11, 100, 0, code, by decide⟩], .ofNat 12, none⟩

/-- `classify_exact` where a position is opened: the second hop may only be a plain swap of the direction. -/
theorem classify_exact_open :
    (openThen Action.swapExactIn.code).classify .exactIn = .ok .marginOpen ∧
    (openThen Action.swapExactOut.code).classify .exactIn = .error (.orientationMismatch 1 .swapExactOut .exactIn) ∧
    (openThen Action.debtSwap.code).classify .exactIn = .error (.leveragedHopNotFirst 1 .debtSwap) ∧
    (openThen 99).classify .exactIn = .error (.path (.unknownAction 99)) := by
  have hfirst (i : Nat) (h' : Hop) (hi : [(⟨.ofNat 10, 100, 0, Action.marginOpen.code, by decide⟩ : Hop)][i]? = some h') :
      h'.Fits .exactIn i := by
    cases i with
    | zero =>
      cases hi
      exact .inr ⟨rfl, .marginOpen, rfl, rfl⟩
    | succ i => cases hi
  have hrefused {code : UInt8} {e : EngineError}
      (h : Hop.Offends ⟨.ofNat 11, 100, 0, code, by decide⟩ .exactIn 1 e) : (openThen code).classify .exactIn = .error e :=
    ((classify_exact (openThen code) .exactIn).2 e).2 (.inr ⟨[_], _, [], rfl, hfirst, h⟩)
  refine ⟨?_, hrefused (.opposite rfl), hrefused (.notFirst rfl rfl Nat.one_ne_zero), hrefused (.unknown ?_)⟩
  · refine ((classify_exact _ .exactIn).1 _).2 ⟨_, _, rfl, .inr (.inl ⟨rfl, rfl⟩), fun h hh => ?_⟩
    rw [List.mem_singleton.1 hh]
    rfl
  · intro a
    cases a <;> decide

end Path

end MarginRouter
