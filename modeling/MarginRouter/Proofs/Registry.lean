import MarginRouter.Proofs.Router

/-!
# The tables of the registry

What a cut does to the owners of operations and to the modules that are called at their addresses. The registry is kept twice,
by operation and by module; the two tables agree in every registry that can be reached.
-/

namespace MarginRouter.Registry

variable {r r' r'' : Registry} {operation op : OperationId} {m : Module} {a : Address}

/-- The module that is called at an address. -/
def seated (r : Registry) (address : Address) : Option Module :=
  r.records[address]?.map ModuleRecord.module

/-- An operation leads to the module that is called at the address of its owner. -/
theorem resolve_eq (r : Registry) (op : OperationId) : r.resolve op = (r.moduleOf op).bind r.seated := by
  unfold resolve moduleOf
  cases r.owners[op]? with
  | none => rfl
  | some owner => rfl

theorem mem_operationsOf :
    op ∈ r.operationsOf a ↔ ∃ record : ModuleRecord, r.records[a]? = some record ∧ op ∈ record.operations := by
  unfold operationsOf
  cases r.records[a]? with
  | none => simp
  | some record => simp [Std.ExtTreeSet.mem_toList]

/-- The two tables agree: a module on record owns the operations that are listed with it, and at least one. -/
structure Consistent (r : Registry) : Prop where
  listed : ∀ op a, op ∈ r.operationsOf a ↔ r.moduleOf op = some a
  used : ∀ a, r.seated a ≠ none → ∃ op, r.moduleOf op = some a

/-- A module is called at an address exactly when the address owns an operation. -/
theorem Consistent.seated_ne_none (h : r.Consistent) : r.seated a ≠ none ↔ ∃ op, r.moduleOf op = some a := by
  refine ⟨h.used a, ?_⟩
  rintro ⟨op, ho⟩ hn
  obtain ⟨record, hr, -⟩ := mem_operationsOf.1 ((h.listed op a).2 ho)
  rw [seated, hr] at hn
  cases hn

theorem consistent_new (admin : Address) : (new admin).Consistent := by
  refine ⟨fun op a => ?_, fun a h => ?_⟩
  · simp [mem_operationsOf, moduleOf, new]
  · simp [seated, new] at h

/-! ## Giving and taking one operation -/

theorem moduleOf_assign (r : Registry) (operation : OperationId) (m : Module) (op : OperationId) :
    (r.assign operation m).moduleOf op = if op = operation then some m.address else r.moduleOf op := by
  unfold moduleOf assign
  rw [Std.ExtTreeMap.getElem?_insert]
  simp only [Std.LawfulEqCmp.compare_eq_iff_eq, eq_comm (a := operation)]

theorem seated_assign (r : Registry) (operation : OperationId) (m : Module) (a : Address) :
    (r.assign operation m).seated a = if a = m.address then (r.seated a).or (some m) else r.seated a := by
  unfold seated assign
  rw [Std.ExtTreeMap.getElem?_insert]
  simp only [Std.LawfulEqCmp.compare_eq_iff_eq, eq_comm (a := m.address)]
  by_cases ha : a = m.address
  · subst ha
    rw [if_pos rfl, if_pos rfl]
    cases r.records[m.address]? with
    | none => rfl
    | some record => rfl
  · rw [if_neg ha, if_neg ha]

theorem mem_operationsOf_assign :
    op ∈ (r.assign operation m).operationsOf a ↔ a = m.address ∧ op = operation ∨ op ∈ r.operationsOf a := by
  simp only [mem_operationsOf, assign, Std.ExtTreeMap.getElem?_insert, Std.LawfulEqCmp.compare_eq_iff_eq,
    eq_comm (a := m.address)]
  by_cases ha : a = m.address
  · subst ha
    cases hr : r.records[m.address]? with
    | none => simp [Std.ExtTreeSet.mem_insert, eq_comm (a := operation)]
    | some record => simp [Std.ExtTreeSet.mem_insert, eq_comm (a := operation)]
  · simp [ha]

/-- Giving an operation that nobody owns keeps the tables in agreement. -/
theorem Consistent.assign (h : r.Consistent) (hfree : r.moduleOf operation = none) : (r.assign operation m).Consistent := by
  refine ⟨fun op a => ?_, fun a hs => ?_⟩
  · rw [mem_operationsOf_assign, moduleOf_assign, h.listed]
    by_cases ho : op = operation
    · subst ho
      rw [hfree, if_pos rfl, Option.some.injEq, eq_comm (a := m.address)]
      simp
    · simp [ho]
  · by_cases ha : a = m.address
    · exact ⟨operation, by rw [moduleOf_assign, if_pos rfl, ha]⟩
    · rw [seated_assign, if_neg ha] at hs
      obtain ⟨op, ho⟩ := h.used a hs
      refine ⟨op, ?_⟩
      rw [moduleOf_assign, if_neg, ho]
      rintro rfl
      rw [hfree] at ho
      cases ho

theorem moduleOf_release (r : Registry) (operation op : OperationId) :
    (r.release operation).moduleOf op = if op = operation then none else r.moduleOf op := by
  have herase : (r.owners.erase operation)[op]? = if op = operation then none else r.owners[op]? := by
    rw [Std.ExtTreeMap.getElem?_erase]
    simp only [Std.LawfulEqCmp.compare_eq_iff_eq, eq_comm (a := operation)]
  unfold moduleOf release
  cases ho : r.owners[operation]? with
  | none =>
    by_cases hop : op = operation
    · rw [if_pos hop, hop]
      exact ho
    · rw [if_neg hop]
  | some owner =>
    simp only
    cases r.records[owner]? with
    | none => exact herase
    | some record =>
      simp only
      split
      · exact herase
      · exact herase

/-- What the record of a module becomes when an operation is taken from its owner. -/
theorem records_release (r : Registry) (operation : OperationId) (a : Address) :
    (r.release operation).records[a]? =
      if r.moduleOf operation = some a then
        r.records[a]?.bind fun record =>
          if (record.operations.erase operation).isEmpty then none
          else some { record with operations := record.operations.erase operation }
      else r.records[a]? := by
  unfold moduleOf release
  cases ho : r.owners[operation]? with
  | none => simp
  | some owner =>
    simp only [Option.some.injEq]
    cases hr : r.records[owner]? with
    | none =>
      by_cases ha : owner = a
      · subst ha
        simp [hr]
      · rw [if_neg ha]
    | some record =>
      simp only
      by_cases ha : owner = a
      · subst ha
        rw [if_pos rfl, hr, Option.bind_some]
        by_cases he : (record.operations.erase operation).isEmpty = true
        · rw [if_pos he, if_pos he]
          exact Std.ExtTreeMap.getElem?_erase_self
        · rw [if_neg he, if_neg he]
          exact Std.ExtTreeMap.getElem?_insert_self
      · rw [if_neg ha]
        split
        · simp [Std.ExtTreeMap.getElem?_erase, ha]
        · simp [Std.ExtTreeMap.getElem?_insert, ha]

theorem mem_erase {operations : Std.ExtTreeSet OperationId} :
    op ∈ operations.erase operation ↔ op ≠ operation ∧ op ∈ operations := by
  rw [Std.ExtTreeSet.mem_erase, ne_eq, Std.LawfulEqCmp.compare_eq_iff_eq, ne_comm]

/-- Taking an operation leaves every module where it is, or its owner is forgotten. -/
theorem seated_release (r : Registry) (operation : OperationId) (a : Address) :
    (r.release operation).seated a = r.seated a ∨
      r.moduleOf operation = some a ∧ (r.release operation).seated a = none := by
  unfold seated
  rw [records_release]
  by_cases ho : r.moduleOf operation = some a
  · rw [if_pos ho]
    cases r.records[a]? with
    | none => exact .inl rfl
    | some record =>
      rw [Option.bind_some]
      split
      · exact .inr ⟨ho, rfl⟩
      · exact .inl rfl
  · rw [if_neg ho]
    exact .inl rfl

theorem mem_operationsOf_release (h : r.Consistent) :
    op ∈ (r.release operation).operationsOf a ↔ op ≠ operation ∧ op ∈ r.operationsOf a := by
  rw [mem_operationsOf, mem_operationsOf, records_release]
  by_cases ho : r.moduleOf operation = some a
  · rw [if_pos ho]
    cases r.records[a]? with
    | none => simp
    | some record =>
      rw [Option.bind_some]
      by_cases he : (record.operations.erase operation).isEmpty = true
      · have hnone : op ∉ record.operations.erase operation := by
          rw [Std.ExtTreeSet.isEmpty_iff.1 he]
          exact Std.ExtTreeSet.not_mem_empty
        rw [mem_erase] at hnone
        simpa [he] using hnone
      · simp only [he, Bool.false_eq_true, if_false, Option.some.injEq, exists_eq_left', mem_erase]
  · rw [if_neg ho]
    refine ⟨fun hm => ⟨?_, hm⟩, fun hm => hm.2⟩
    rintro rfl
    exact ho ((h.listed op a).1 (mem_operationsOf.2 hm))

/-- Taking an operation keeps the tables in agreement. -/
theorem Consistent.release (h : r.Consistent) : (r.release operation).Consistent := by
  have hlisted : ∀ op a, op ∈ (r.release operation).operationsOf a ↔ (r.release operation).moduleOf op = some a := by
    intro op a
    rw [mem_operationsOf_release h, moduleOf_release, h.listed]
    by_cases ho : op = operation
    · simp [ho]
    · simp [ho]
  refine ⟨hlisted, fun a hs => ?_⟩
  -- a record that is left still lists an operation
  obtain ⟨module, hm⟩ := Option.ne_none_iff_exists'.1 hs
  obtain ⟨record, hr, -⟩ := Option.map_eq_some_iff.1 hm
  have hne : ∃ op, op ∈ record.operations := by
    rw [records_release] at hr
    by_cases ho : r.moduleOf operation = some a
    · rw [if_pos ho] at hr
      obtain ⟨known, -, hk⟩ := Option.bind_eq_some_iff.1 hr
      split at hk
      · cases hk
      · rename_i he
        cases hk
        by_contra hall
        exact he (Std.ExtTreeSet.isEmpty_iff.2 (Std.ExtTreeSet.eq_empty_iff_forall_not_mem.2 (not_exists.1 hall)))
    · rw [if_neg ho] at hr
      have hseated : r.seated a ≠ none := by
        rw [seated, hr]
        simp
      obtain ⟨op, hop⟩ := h.used a hseated
      obtain ⟨known, hk, hmem⟩ := mem_operationsOf.1 ((h.listed op a).2 hop)
      rw [hr] at hk
      cases hk
      exact ⟨op, hmem⟩
  obtain ⟨op, hop⟩ := hne
  exact ⟨op, (hlisted op a).1 (mem_operationsOf.2 ⟨record, hr, hop⟩)⟩

/-! ## What a cut does -/

/-- `r'` is `r` with the operations given to a module, or taken from whoever owns them. A module that is called at the address
already stays there; elsewhere modules stay or are forgotten. -/
structure Gives (m : Option Module) (operations : List OperationId) (r r' : Registry) : Prop where
  moduleOf : ∀ op, r'.moduleOf op = if op ∈ operations then m.map Module.address else r.moduleOf op
  seated : ∀ a, r'.seated a = r.seated a ∨
    m.map Module.address = some a ∧ r'.seated a = (r.seated a).or m ∨
    m.map Module.address ≠ some a ∧ r'.seated a = none
  consistent : r.Consistent → r'.Consistent

namespace Gives

variable {given : Option Module} {operations rest : List OperationId}

theorem nil (given : Option Module) (r : Registry) : Gives given [] r r :=
  ⟨fun _ => by simp, fun _ => .inl rfl, id⟩

theorem trans (h : Gives given operations r r') (h' : Gives given rest r' r'') : Gives given (operations ++ rest) r r'' := by
  refine ⟨fun op => ?_, fun a => ?_, fun hc => h'.consistent (h.consistent hc)⟩
  · rw [h'.moduleOf, h.moduleOf]
    by_cases hrest : op ∈ rest
    · simp [hrest]
    · simp [hrest]
  · rcases h'.seated a with he' | ⟨ha, he'⟩ | ⟨ha, he'⟩
    · rw [he']
      exact h.seated a
    · rw [he']
      rcases h.seated a with he | ⟨-, he⟩ | ⟨hn, -⟩
      · exact .inr (.inl ⟨ha, by rw [he]⟩)
      · refine .inr (.inl ⟨ha, ?_⟩)
        rw [he, Option.or_assoc, Option.or_self]
      · exact absurd ha hn
    · exact .inr (.inr ⟨ha, he'⟩)

theorem release (r : Registry) (operation : OperationId) : Gives none [operation] r (r.release operation) := by
  refine ⟨fun op => ?_, fun a => ?_, fun hc => hc.release⟩
  · rw [moduleOf_release]
    simp
  · rcases seated_release r operation a with he | ⟨-, he⟩
    · exact .inl he
    · exact .inr (.inr ⟨nofun, he⟩)

/-- An operation that nobody owns is given to a module. -/
theorem addOne (h : r.addOne m operation = .ok r') : Gives (some m) [operation] r r' := by
  unfold Registry.addOne at h
  split at h
  · cases h
  · rename_i hfree
    cases h
    refine ⟨fun op => ?_, fun a => ?_, fun hc => hc.assign hfree⟩
    · rw [moduleOf_assign]
      simp
    · rw [seated_assign]
      by_cases ha : a = m.address
      · rw [if_pos ha, ha]
        exact .inr (.inl ⟨rfl, rfl⟩)
      · rw [if_neg ha]
        exact .inl rfl

/-- An operation of another module is given to a module. -/
theorem replaceOne (h : r.replaceOne m operation = .ok r') : Gives (some m) [operation] r r' := by
  unfold Registry.replaceOne at h
  split at h
  · cases h
  rename_i owner howner
  split at h
  · cases h
  rename_i hne
  cases h
  have howner : r.moduleOf operation = some owner := howner
  refine ⟨fun op => ?_, fun a => ?_, fun hc => hc.release.assign ?_⟩
  · rw [moduleOf_assign, moduleOf_release]
    by_cases ho : op = operation
    · simp [ho]
    · simp [ho]
  · rw [seated_assign]
    by_cases ha : a = m.address
    · -- the owner is somebody else, so the module at this address has been left alone
      have hstay : (r.release operation).seated a = r.seated a := by
        rcases seated_release r operation a with he | ⟨ho, -⟩
        · exact he
        · rw [howner] at ho
          exact absurd (Option.some.inj ho) (ha ▸ hne)
      rw [if_pos ha, hstay, ha]
      exact .inr (.inl ⟨rfl, rfl⟩)
    · rw [if_neg ha]
      rcases seated_release r operation a with he | ⟨-, he⟩
      · exact .inl he
      · exact .inr (.inr ⟨fun hm => ha (Option.some.inj hm).symm, he⟩)
  · rw [moduleOf_release, if_pos rfl]

/-- What is done to each operation in turn is done to all of them. -/
theorem foldlM {f : Registry → OperationId → Except RegistryError Registry}
    (hf : ∀ operation r r', f r operation = .ok r' → Gives given [operation] r r') :
    ∀ (operations : List OperationId) {r r' : Registry}, operations.foldlM f r = .ok r' → Gives given operations r r'
  | [], r, r', h => by
    obtain rfl := Attempt.pure_eq_ok.1 h
    exact nil given r
  | operation :: operations, r, r', h => by
    obtain ⟨r₁, h₁, h⟩ := Attempt.bind_eq_ok.1 h
    exact (hf operation r r₁ h₁).trans (foldlM hf operations h)

theorem releaseAll : ∀ (operations : List OperationId) (r : Registry), Gives none operations r (operations.foldl Registry.release r)
  | [], r => nil none r
  | operation :: operations, r => (release r operation).trans (releaseAll operations _)

/-- A cut gives the operations that it lists to its module, or takes them if it has none. -/
theorem apply {c : Cut} (h : r.apply c = .ok r') : Gives c.module c.operations r r' := by
  unfold Registry.apply at h
  split at h
  · cases h
  split at h
  · rename_i m _ hm
    rw [hm]
    exact foldlM (fun _ _ _ ho => addOne ho) _ h
  · rename_i m _ hm
    rw [hm]
    exact foldlM (fun _ _ _ ho => replaceOne ho) _ h
  · rename_i _ hm
    cases h
    rw [hm]
    exact releaseAll _ _
  · cases h
  · cases h

end Gives

end MarginRouter.Registry
