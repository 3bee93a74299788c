import MarginRouter.Proofs.Routing

/-!
# Which batches are accepted

The registry is a partial map from operations to owners. Whether a batch of cuts is accepted, and what it leaves, can be read off
this map alone: each cut is held against the owners that the cuts before it leave. A cut is carried out operation by operation,
so an operation that is listed twice is refused at its second turn, when it belongs to the module of the cut already.
-/

namespace MarginRouter

/-- The address to which a cut gives the operations that it lists, if it does not take them. -/
def Cut.owner (c : Cut) : Option Address :=
  match c.action with
  | .remove => none
  | .add | .replace => c.module.map Module.address

/-- Who owns which operation after a cut. -/
def Cut.update (c : Cut) (owners : OperationId → Option Address) : OperationId → Option Address :=
  fun op => if op ∈ c.operations then c.owner else owners op

/-- The cuts that may be made where operations have these owners. -/
inductive Cut.Fits (owners : OperationId → Option Address) : Cut → Prop where
  | add {m : Module} {operations : List OperationId} (hsome : operations ≠ []) (honce : operations.Nodup)
      (hfree : ∀ op ∈ operations, owners op = none) : Fits owners ⟨.add, some m, operations⟩
  | replace {m : Module} {operations : List OperationId} (hsome : operations ≠ []) (honce : operations.Nodup)
      (howned : ∀ op ∈ operations, ∃ a, owners op = some a ∧ a ≠ m.address) : Fits owners ⟨.replace, some m, operations⟩
  | remove {operations : List OperationId} (hsome : operations ≠ []) : Fits owners ⟨.remove, none, operations⟩

/-- Who owns which operation after a batch of cuts. -/
def ownersAfter (batch : List Cut) (owners : OperationId → Option Address) : OperationId → Option Address :=
  batch.foldl (fun owners c => c.update owners) owners

/-- Every cut of the batch may be made where the cuts before it have been made. -/
def AllFit (owners : OperationId → Option Address) (batch : List Cut) : Prop :=
  ∀ before c after, batch = before ++ c :: after → c.Fits (ownersAfter before owners)

theorem allFit_nil (owners : OperationId → Option Address) : AllFit owners [] := by
  intro before c after hb
  simp at hb

theorem allFit_cons {owners : OperationId → Option Address} {c : Cut} {batch : List Cut} :
    AllFit owners (c :: batch) ↔ c.Fits owners ∧ AllFit (c.update owners) batch := by
  constructor
  · intro h
    refine ⟨h [] c batch rfl, ?_⟩
    intro before c' after hb
    exact h (c :: before) c' after (by rw [hb, List.cons_append])
  · rintro ⟨hc, h⟩ before c' after hb
    cases before with
    | nil =>
      obtain ⟨rfl, -⟩ := List.cons.inj hb
      exact hc
    | cons first before =>
      obtain ⟨rfl, rfl⟩ := List.cons.inj hb
      exact h before c' after rfl

namespace Registry

variable {admin caller a b : Address} {cuts batch : List Cut} {c : Cut} {r r' : Registry} {op : OperationId} {m : Module}

/-! ## One operation after another -/

theorem addOne_iff (m : Module) (r : Registry) (op : OperationId) :
    (∃ r', r.addOne m op = .ok r') ↔ r.moduleOf op = none := by
  unfold addOne moduleOf
  cases r.owners[op]? with
  | none => simp
  | some owner => simp

theorem replaceOne_iff (m : Module) (r : Registry) (op : OperationId) :
    (∃ r', r.replaceOne m op = .ok r') ↔ ∃ a, r.moduleOf op = some a ∧ a ≠ m.address := by
  unfold replaceOne moduleOf
  cases r.owners[op]? with
  | none => simp
  | some owner =>
    by_cases ho : owner = m.address
    · simp [ho]
    · simp [ho]

/-- Where it depends on the owner whether an operation may be given to a module, and what the module has may not be given to it
again, operations are given one after another exactly when each of them may be given and none is listed twice. -/
theorem foldlM_iff {f : Registry → OperationId → Except RegistryError Registry} (free : Option Address → Prop)
    (hiff : ∀ r op, (∃ r', f r op = .ok r') ↔ free (r.moduleOf op))
    (hgives : ∀ op r r', f r op = .ok r' → Gives (some m) [op] r r') (hagain : ¬free (some m.address))
    (operations : List OperationId) (r : Registry) :
    (∃ r', operations.foldlM f r = .ok r') ↔ operations.Nodup ∧ ∀ op ∈ operations, free (r.moduleOf op) := by
  induction operations generalizing r with
  | nil => exact ⟨fun _ => ⟨List.nodup_nil, nofun⟩, fun _ => ⟨r, rfl⟩⟩
  | cons op operations ih =>
    have hafter : ∀ r₁, f r op = .ok r₁ → ∀ op', r₁.moduleOf op' = if op' = op then some m.address else r.moduleOf op' := by
      intro r₁ h₁ op'
      rw [(hgives op r r₁ h₁).moduleOf]
      simp only [List.mem_singleton, Option.map_some]
    rw [List.nodup_cons]
    constructor
    · rintro ⟨r', h⟩
      obtain ⟨r₁, h₁, h⟩ := Attempt.bind_eq_ok.1 h
      obtain ⟨honce, hfree⟩ := (ih r₁).1 ⟨r', h⟩
      -- in the registry after the first operation, that operation could not be given again
      have hnot : op ∉ operations := by
        intro hmem
        have hleft := hfree op hmem
        rw [hafter r₁ h₁, if_pos rfl] at hleft
        exact hagain hleft
      refine ⟨⟨hnot, honce⟩, ?_⟩
      intro op' hmem
      rcases List.mem_cons.1 hmem with rfl | hmem
      · exact (hiff r _).1 ⟨r₁, h₁⟩
      · have hleft := hfree op' hmem
        rwa [hafter r₁ h₁, if_neg (ne_of_mem_of_not_mem hmem hnot)] at hleft
    · rintro ⟨⟨hnot, honce⟩, hfree⟩
      obtain ⟨r₁, h₁⟩ := (hiff r op).2 (hfree op List.mem_cons_self)
      have hrest : ∀ op' ∈ operations, free (r₁.moduleOf op') := by
        intro op' hmem
        rw [hafter r₁ h₁, if_neg (ne_of_mem_of_not_mem hmem hnot)]
        exact hfree op' (List.mem_cons_of_mem op hmem)
      obtain ⟨r', h⟩ := (ih r₁).2 ⟨honce, hrest⟩
      exact ⟨r', Attempt.bind_eq_ok.2 ⟨r₁, h₁, h⟩⟩

/-! ## Cuts and batches -/

/-- A cut is accepted exactly when it fits the owners. -/
theorem apply_iff : (∃ r', r.apply c = .ok r') ↔ c.Fits r.moduleOf := by
  have hadd : ∀ m (operations : List OperationId), (∃ r', operations.foldlM (addOne m) r = .ok r') ↔
      operations.Nodup ∧ ∀ op ∈ operations, r.moduleOf op = none := by
    intro m operations
    exact foldlM_iff (· = none) (addOne_iff m) (fun _ _ _ ho => .addOne ho) (Option.some_ne_none _)
      operations r
  have hreplace : ∀ m (operations : List OperationId), (∃ r', operations.foldlM (replaceOne m) r = .ok r') ↔
      operations.Nodup ∧ ∀ op ∈ operations, ∃ a, r.moduleOf op = some a ∧ a ≠ m.address := by
    intro m operations
    refine foldlM_iff (fun owner => ∃ a, owner = some a ∧ a ≠ m.address) (replaceOne_iff m)
      (fun _ _ _ ho => .replaceOne ho) ?_ operations r
    rintro ⟨a, ha, hne⟩
    exact hne (Option.some.inj ha).symm
  have hrefused : ∀ {e : RegistryError} {p : Prop}, ¬p → ((∃ r' : Registry, Except.error e = .ok r') ↔ p) := by
    intro e p hp
    simp [hp]
  obtain ⟨action, module, operations⟩ := c
  unfold apply
  by_cases hsome : operations = []
  · rw [if_pos hsome]
    refine hrefused ?_
    rintro (⟨h, -, -⟩ | ⟨h, -, -⟩ | ⟨h⟩) <;> exact absurd hsome h
  · rw [if_neg hsome]
    cases action with
    | add =>
      cases module with
      | none => exact hrefused nofun
      | some m =>
        refine (hadd m operations).trans ⟨fun h => .add hsome h.1 h.2, ?_⟩
        rintro ⟨-, honce, hfree⟩
        exact ⟨honce, hfree⟩
    | replace =>
      cases module with
      | none => exact hrefused nofun
      | some m =>
        refine (hreplace m operations).trans ⟨fun h => .replace hsome h.1 h.2, ?_⟩
        rintro (_ | ⟨-, honce, howned⟩)
        exact ⟨honce, howned⟩
    | remove =>
      cases module with
      | none => exact ⟨fun _ => .remove hsome, fun _ => ⟨_, rfl⟩⟩
      | some m => exact hrefused nofun

/-- An accepted cut updates the owners. -/
theorem moduleOf_apply (h : r.apply c = .ok r') : r'.moduleOf = c.update r.moduleOf := by
  have howner : c.module.map Module.address = c.owner := by
    cases apply_iff.1 ⟨r', h⟩ with
    | add => rfl
    | replace => rfl
    | remove => rfl
  funext op
  rw [(Gives.apply h).moduleOf, howner, Cut.update]

theorem applyAll_iff (batch : List Cut) (r : Registry) :
    (∃ r', batch.foldlM Registry.apply r = .ok r') ↔ AllFit r.moduleOf batch := by
  induction batch generalizing r with
  | nil => exact ⟨fun _ => allFit_nil r.moduleOf, fun _ => ⟨r, rfl⟩⟩
  | cons c batch ih =>
    rw [allFit_cons, ← apply_iff]
    constructor
    · rintro ⟨r', h⟩
      obtain ⟨r₁, h₁, h⟩ := Attempt.bind_eq_ok.1 h
      refine ⟨⟨r₁, h₁⟩, ?_⟩
      rw [← moduleOf_apply h₁]
      exact (ih r₁).1 ⟨r', h⟩
    · rintro ⟨⟨r₁, h₁⟩, hrest⟩
      rw [← moduleOf_apply h₁] at hrest
      obtain ⟨r', h⟩ := (ih r₁).2 hrest
      exact ⟨r', Attempt.bind_eq_ok.2 ⟨r₁, h₁, h⟩⟩

theorem moduleOf_applyAll (batch : List Cut) {r r' : Registry} (h : batch.foldlM Registry.apply r = .ok r') :
    r'.moduleOf = ownersAfter batch r.moduleOf := by
  induction batch generalizing r with
  | nil =>
    obtain rfl := Attempt.pure_eq_ok.1 h
    rfl
  | cons c batch ih =>
    obtain ⟨r₁, h₁, h⟩ := Attempt.bind_eq_ok.1 h
    rw [ih h, moduleOf_apply h₁]
    rfl

theorem checkAdmin_eq_ok : r.checkAdmin caller = .ok () ↔ caller = r.admin := by
  unfold checkAdmin
  by_cases h : caller = r.admin
  · simp [h]
  · simp [h]

/-- A batch is accepted exactly when the administrator asks for it and every cut fits. -/
theorem configure_iff : (∃ r', r.configure caller batch = .ok r') ↔ caller = r.admin ∧ AllFit r.moduleOf batch := by
  rw [← checkAdmin_eq_ok, ← applyAll_iff]
  constructor
  · rintro ⟨r', h⟩
    obtain ⟨⟨⟩, hadmin, h⟩ := Attempt.bind_eq_ok.1 h
    exact ⟨hadmin, r', h⟩
  · rintro ⟨hadmin, r', h⟩
    exact ⟨r', Attempt.bind_eq_ok.2 ⟨(), hadmin, h⟩⟩

theorem moduleOf_configure (h : r.configure caller batch = .ok r') : r'.moduleOf = ownersAfter batch r.moduleOf := by
  obtain ⟨-, -, h⟩ := Attempt.bind_eq_ok.1 h
  exact moduleOf_applyAll batch h

/-! ## The two tables -/

namespace Consistent

/-- The modules on record are those that own an operation. -/
theorem mem_modules (h : r.Consistent) : a ∈ r.modules ↔ r.operationsOf a ≠ [] := by
  have hkey : a ∈ r.modules ↔ r.seated a ≠ none := by
    rw [modules, Std.ExtTreeMap.mem_keys, Std.ExtTreeMap.mem_iff_isSome_getElem?, seated, ne_eq, Option.map_eq_none_iff,
      Option.isSome_iff_ne_none]
  have hlisted : r.operationsOf a ≠ [] ↔ ∃ op, op ∈ r.operationsOf a := by
    constructor
    · exact List.exists_mem_of_ne_nil _
    · rintro ⟨op, hmem⟩
      exact List.ne_nil_of_mem hmem
  rw [hkey, h.seated_ne_none, hlisted]
  exact exists_congr fun op => (h.listed op a).symm

/-- No operation is listed with two modules. -/
theorem address_unique (h : r.Consistent) (ha : op ∈ r.operationsOf a) (hb : op ∈ r.operationsOf b) : a = b := by
  rw [h.listed] at ha hb
  exact Option.some.inj (ha.symm.trans hb)

/-- An operation leads to a module exactly when somebody owns it. -/
theorem isSome_resolve (h : r.Consistent) (op : OperationId) : (r.resolve op).isSome ↔ (r.moduleOf op).isSome := by
  rw [resolve_eq]
  cases ho : r.moduleOf op with
  | none => simp
  | some a =>
    have hseat := h.seated_ne_none.2 ⟨op, ho⟩
    rw [Option.bind_some, Option.isSome_iff_ne_none]
    simp [hseat]

end Consistent

/-- The registry is a partial map from operations to owners. In every registry that is reached, the modules on record are those
with operations, no operation is listed with two of them, an operation is listed with a module exactly when the module owns it,
and it leads somewhere exactly when it is owned. A batch is accepted exactly when the administrator asks for it and each cut fits
the owners left by the cuts before it; then the owners are updated cut by cut. A router whose batch has been refused is as it
was. -/
theorem configure_exact (h : Reached admin cuts r) :
    (∀ a, r.operationsOf a ≠ [] ↔ a ∈ r.modules) ∧
    (∀ a b, a ≠ b → ∀ op, ¬(op ∈ r.operationsOf a ∧ op ∈ r.operationsOf b)) ∧
    (∀ op a, op ∈ r.operationsOf a ↔ r.moduleOf op = some a) ∧
    (∀ op, (r.resolve op).isSome ↔ (r.moduleOf op).isSome) ∧
    (∀ caller batch, (∃ r', r.configure caller batch = .ok r') ↔
      caller = r.admin ∧ ∀ before c after, batch = before ++ c :: after → c.Fits (ownersAfter before r.moduleOf)) ∧
    (∀ caller batch r', r.configure caller batch = .ok r' → r'.moduleOf = ownersAfter batch r.moduleOf) ∧
    ∀ (router : Router), router.registry = r → ∀ caller batch,
      (∀ e router', Router.configure caller batch router = .error e router' →
        r.configure caller batch = .error e ∧ router' = router) ∧
      ∀ u router', Router.configure caller batch router = .ok u router' →
        ∃ r', r.configure caller batch = .ok r' ∧ router' = { router with registry := r' } := by
  have hc := h.follows.consistent
  refine ⟨?_, ?_, hc.listed, hc.isSome_resolve, ?_, ?_, ?_⟩
  · intro a
    exact hc.mem_modules.symm
  · rintro a b hne op ⟨ha, hb⟩
    exact hne (hc.address_unique ha hb)
  · intro caller batch
    exact configure_iff
  · intro caller batch r' hr
    exact moduleOf_configure hr
  · rintro router rfl caller batch
    constructor
    · intro e router' hrun
      obtain ⟨hwrite, rfl⟩ := Step.write_eq_error.1 hrun
      rcases Attempt.bind_eq_error.1 hwrite with hr | ⟨_, -, hr⟩
      · exact ⟨hr, rfl⟩
      · exact absurd hr Attempt.pure_ne_error
    · intro u router' hrun
      obtain ⟨r', hr, hrun⟩ := Attempt.bind_eq_ok.1 (Step.write_eq_ok.1 hrun)
      exact ⟨r', hr, (Attempt.pure_eq_ok.1 hrun).symm⟩

/-- Two operations are given to one module, the second goes on to another, and the first is taken twice over. -/
def sampleBatch : List Cut :=
  [⟨.add, some (.trader (.ofNat 1)), [⟨1, by decide⟩, ⟨2, by decide⟩]⟩, ⟨.replace, some (.lens (.ofNat 2)), [⟨2, by decide⟩]⟩,
    ⟨.remove, none, [⟨1, by decide⟩, ⟨1, by decide⟩]⟩]

theorem allFit_sampleBatch (admin : Address) : AllFit (new admin).moduleOf sampleBatch := by
  have hfree : ∀ op, (new admin).moduleOf op = none := fun op => rfl
  refine allFit_cons.2 ⟨.add (by simp) (by decide) (fun op _ => hfree op), ?_⟩
  refine allFit_cons.2 ⟨.replace (by simp) (by decide) ?_, ?_⟩
  · intro op hop
    obtain rfl := List.mem_singleton.1 hop
    exact ⟨.ofNat 1, rfl, by decide⟩
  · exact allFit_cons.2 ⟨.remove (by simp), allFit_nil _⟩

/-- `configure_exact` before and after the sample batch: the batch is accepted; then the second operation is with the second
module, the first module is forgotten, the first operation leads nowhere, and it cannot be given away twice by one cut. -/
theorem configure_exact_sample :
    ∃ r, (new (.ofNat 7)).configure (.ofNat 7) sampleBatch = .ok r ∧
      ⟨2, by decide⟩ ∈ r.operationsOf (.ofNat 2) ∧ .ofNat 2 ∈ r.modules ∧ .ofNat 1 ∉ r.modules ∧
      ¬(r.resolve ⟨1, by decide⟩).isSome ∧
      ¬∃ r', r.configure (.ofNat 7) [⟨.add, some (.trader (.ofNat 1)), [⟨1, by decide⟩, ⟨1, by decide⟩]⟩] = .ok r' := by
  obtain ⟨-, -, -, -, haccepts, hafter, -⟩ := configure_exact (.new : Reached (.ofNat 7) [] _)
  obtain ⟨r, hr⟩ := (haccepts (.ofNat 7) sampleBatch).2 ⟨rfl, allFit_sampleBatch (.ofNat 7)⟩
  have howners := hafter _ _ _ hr
  obtain ⟨hmodules, -, hlisted, hresolve, haccepts, -, -⟩ := configure_exact (.configure .new hr)
  have hsecond : ⟨2, by decide⟩ ∈ r.operationsOf (.ofNat 2) := (hlisted _ _).2 (congrFun howners _)
  refine ⟨r, hr, hsecond, ?_, ?_, ?_, ?_⟩
  · exact (hmodules _).1 (List.ne_nil_of_mem hsecond)
  · intro hfirst
    obtain ⟨op, hop⟩ := List.exists_mem_of_ne_nil _ ((hmodules _).2 hfirst)
    rw [hlisted, howners] at hop
    simp only [ownersAfter, sampleBatch, List.foldl_cons, List.foldl_nil, Cut.update, Cut.owner, Option.map_some] at hop
    split_ifs at hop with h₁ h₂ h₃
    · exact absurd (Option.some.inj hop) (by decide)
    · rcases List.mem_cons.1 h₃ with rfl | h
      · exact h₁ List.mem_cons_self
      · exact h₂ h
    · cases hop
  · rw [hresolve, howners]
    exact Bool.false_ne_true
  · intro hagain
    obtain ⟨-, hfit⟩ := (haccepts _ _).1 hagain
    cases hfit [] _ [] rfl with
    | add _ honce _ => exact absurd honce (by decide)

end Registry

end MarginRouter
