import Mathlib.Algebra.BigOperators.Group.Finset.Basic
import Mathlib.Data.Fintype.BigOperators
import Std.Data.ExtTreeMap

/-!
# Tables

The entries of a table, or of the part of it that belongs to one token or one user, hold each key at most once. So a sum over
the entries is a sum over all keys of what is looked up there, and a write to one key changes one summand. In a sparse table the
lack of an entry stands for a value that no entry holds, so that the table is known by what is looked up in it.
-/

namespace MarginRouter.Table

variable {K V A M : Type} [Ord K] [Std.TransOrd K]

section Entries

variable [Std.LawfulEqOrd K]

theorem nodup_keys (m : Std.ExtTreeMap K V) : (m.toList.map Prod.fst).Nodup := by
  rw [Std.ExtTreeMap.map_fst_toList_eq_keys]
  refine List.Pairwise.imp ?_ m.distinct_keys
  intro a b hab h
  exact hab (Std.LawfulEqCmp.compare_eq_iff_eq.2 h)

section Slice

variable {m : Std.ExtTreeMap K V} {p : K → Bool} {π : K → A} {ι : A → K}

/-- The part of a table whose keys are the `ι a`, listed by `a`, has the entry of `ι a` for each `a`. -/
theorem mem_slice (hι : ∀ a, p (ι a) = true ∧ π (ι a) = a) (hp : ∀ k, p k = true → ι (π k) = k) {a : A} {v : V} :
    (a, v) ∈ (m.toList.filter fun e => p e.1).map (fun e => (π e.1, e.2)) ↔ m[ι a]? = some v := by
  rw [← Std.ExtTreeMap.mem_toList_iff_getElem?_eq_some, List.mem_map]
  constructor
  · rintro ⟨⟨k, w⟩, hk, he⟩
    obtain ⟨hm, hpk⟩ := List.mem_filter.1 hk
    simp only [Prod.mk.injEq] at he
    obtain ⟨rfl, rfl⟩ := he
    rw [hp k hpk]
    exact hm
  · intro hm
    exact ⟨(ι a, v), List.mem_filter.2 ⟨hm, (hι a).1⟩, by rw [(hι a).2]⟩

theorem nodup_slice (hp : ∀ k, p k = true → ι (π k) = k) :
    (((m.toList.filter fun e => p e.1).map fun e => (π e.1, e.2)).map Prod.fst).Nodup := by
  rw [List.map_map]
  have hn : ((m.toList.filter fun e => p e.1).map Prod.fst).Nodup :=
    (nodup_keys m).sublist (List.filter_sublist.map _)
  refine List.Nodup.of_map ι ?_
  rw [List.map_map]
  have he : (m.toList.filter fun e => p e.1).map (ι ∘ Prod.fst ∘ fun e => (π e.1, e.2)) =
      (m.toList.filter fun e => p e.1).map Prod.fst := by
    refine List.map_congr_left fun e he => ?_
    exact hp e.1 (List.mem_filter.1 he).2
  rw [he]
  exact hn

end Slice

end Entries

/-- Entries that hold each key at most once sum up like what is looked up at all keys. -/
theorem sum_entries [Fintype A] [DecidableEq A] [AddCommMonoid M] {es : List (A × V)} {g : A → Option V}
    (hn : (es.map Prod.fst).Nodup) (hg : ∀ a v, (a, v) ∈ es ↔ g a = some v) (f : A → V → M) :
    (es.map fun e => f e.1 e.2).sum = ∑ a, (g a).elim 0 (f a) := by
  calc (es.map fun e => f e.1 e.2).sum
      = ((es.map Prod.fst).map fun a => (g a).elim 0 (f a)).sum := by
        rw [List.map_map]
        congr 1
        refine List.map_congr_left fun e he => ?_
        simp [(hg e.1 e.2).1 he]
    _ = ∑ a ∈ (es.map Prod.fst).toFinset, (g a).elim 0 (f a) := (List.sum_toFinset _ hn).symm
    _ = ∑ a, (g a).elim 0 (f a) := by
        refine Finset.sum_subset (Finset.subset_univ _) fun a _ ha => ?_
        cases h : g a with
        | none => rfl
        | some v => exact absurd (List.mem_toFinset.2 (List.mem_map.2 ⟨(a, v), (hg a v).2 h, rfl⟩)) ha

/-! ## Sparse tables -/

section Sparse

variable {m m' : Std.ExtTreeMap K V} {absent : V}

/-- No entry holds the value that the lack of an entry stands for. -/
def Sparse (absent : V) (m : Std.ExtTreeMap K V) : Prop :=
  ∀ k : K, m[k]? ≠ some absent

theorem sparse_empty (absent : V) : Sparse absent (∅ : Std.ExtTreeMap K V) := by
  intro k
  rw [Std.ExtTreeMap.getElem?_empty]
  exact nofun

namespace Sparse

/-- The entries of a sparse table are what is looked up, where that is not the absent value. -/
theorem getElem?_eq_some (h : Sparse absent m) {k : K} {v : V} :
    m[k]? = some v ↔ m[k]?.getD absent = v ∧ v ≠ absent := by
  have hk := h k
  cases hm : m[k]? with
  | none =>
    refine iff_of_false nofun ?_
    rintro ⟨he, hv⟩
    exact hv he.symm
  | some w =>
    rw [hm, ne_eq, Option.some.injEq] at hk
    rw [Option.some.injEq, Option.getD_some]
    exact ⟨fun he => ⟨he, he ▸ hk⟩, And.left⟩

variable [Std.LawfulEqOrd K]

/-- Sparse tables in which the same is looked up are the same. -/
theorem ext (h : Sparse absent m) (h' : Sparse absent m') (hlook : ∀ k : K, m[k]?.getD absent = m'[k]?.getD absent) : m = m' := by
  refine Std.ExtTreeMap.ext_getElem? fun k => Option.ext fun v => ?_
  rw [h.getElem?_eq_some, h'.getElem?_eq_some, hlook k]

theorem eq_empty_iff (h : Sparse absent m) : m = ∅ ↔ ∀ k : K, m[k]?.getD absent = absent := by
  constructor
  · rintro rfl k
    rw [Std.ExtTreeMap.getElem?_empty, Option.getD_none]
  · intro hlook
    refine h.ext (sparse_empty absent) fun k => ?_
    rw [hlook, Std.ExtTreeMap.getElem?_empty, Option.getD_none]

end Sparse

variable [Std.LawfulEqOrd K]

theorem getElem?_insertIfNew_of_ne {k a : K} (h : a ≠ k) (m : Std.ExtTreeMap K V) (v : V) :
    (m.insertIfNew k v)[a]? = m[a]? := by
  rw [Std.ExtTreeMap.getElem?_insertIfNew, if_neg]
  rintro ⟨he, -⟩
  exact h (Std.LawfulEqCmp.compare_eq_iff_eq.1 he).symm

theorem getElem?_insert_of_ne {k a : K} (h : a ≠ k) (m : Std.ExtTreeMap K V) (v : V) : (m.insert k v)[a]? = m[a]? := by
  rw [Std.ExtTreeMap.getElem?_insert, if_neg]
  intro he
  exact h (Std.LawfulEqCmp.compare_eq_iff_eq.1 he).symm

/-- An entry that has just been made does not show in what is looked up. -/
theorem getD_insertIfNew (m : Std.ExtTreeMap K V) (k a : K) : (m.insertIfNew k absent)[a]?.getD absent = m[a]?.getD absent := by
  rw [Std.ExtTreeMap.getElem?_insertIfNew]
  split
  · rename_i hnew
    obtain rfl := Std.LawfulEqCmp.compare_eq_iff_eq.1 hnew.1
    rw [Std.ExtTreeMap.getElem?_eq_none hnew.2]
    rfl
  · rfl

/-- Where something is looked up there is an entry, and none has to be made. -/
theorem insertIfNew_eq {k : K} (hk : m[k]?.getD absent ≠ absent) : m.insertIfNew k absent = m := by
  have hmem : k ∈ m := by
    by_contra hnot
    rw [Std.ExtTreeMap.getElem?_eq_none hnot] at hk
    exact hk rfl
  refine Std.ExtTreeMap.ext_getElem? fun a => ?_
  rw [Std.ExtTreeMap.getElem?_insertIfNew, if_neg fun hnew => hnew.2 hmem]

/-- Writing what is looked up there changes nothing. -/
theorem insert_getD_eq {k : K} (hk : m[k]?.getD absent ≠ absent) : m.insert k (m[k]?.getD absent) = m := by
  refine Std.ExtTreeMap.ext_getElem? fun a => ?_
  by_cases ha : a = k
  · subst ha
    rw [Std.ExtTreeMap.getElem?_insert_self]
    cases hm : m[a]? with
    | none =>
      rw [hm] at hk
      exact absurd rfl hk
    | some v => rfl
  · exact getElem?_insert_of_ne ha m _

variable [DecidableEq K] [DecidableEq V]

/-- Writes a value; of the absent value no entry is left. -/
def write (absent : V) (m : Std.ExtTreeMap K V) (k : K) (v : V) : Std.ExtTreeMap K V :=
  if v = absent then m.erase k else m.insert k v

theorem getElem?_write (m : Std.ExtTreeMap K V) (k : K) (v : V) (a : K) :
    (write absent m k v)[a]? = if a = k then if v = absent then none else some v else m[a]? := by
  unfold write
  by_cases hv : v = absent
  · simp only [hv, if_true, Std.ExtTreeMap.getElem?_erase, Std.LawfulEqCmp.compare_eq_iff_eq, eq_comm (a := k)]
  · simp only [hv, if_false, Std.ExtTreeMap.getElem?_insert, Std.LawfulEqCmp.compare_eq_iff_eq, eq_comm (a := k)]

theorem getD_write (m : Std.ExtTreeMap K V) (k : K) (v : V) (a : K) :
    (write absent m k v)[a]?.getD absent = if a = k then v else m[a]?.getD absent := by
  rw [getElem?_write]
  split_ifs with ha hv
  · exact hv.symm
  · rfl
  · rfl

/-- What has been under the key before a write does not matter. -/
theorem write_congr {k : K} (h : ∀ a, a ≠ k → m[a]? = m'[a]?) (v : V) : write absent m k v = write absent m' k v := by
  refine Std.ExtTreeMap.ext_getElem? fun a => ?_
  rw [getElem?_write, getElem?_write]
  split_ifs with ha hv
  · rfl
  · rfl
  · exact h a ha

theorem Sparse.write (h : Sparse absent m) (k : K) (v : V) : Sparse absent (write absent m k v) := by
  intro a
  rw [getElem?_write]
  split_ifs with ha hv
  · exact nofun
  · exact fun he => hv (Option.some.inj he)
  · exact h a

end Sparse

end MarginRouter.Table
