import RunQuery.Proofs.Store.Memory

/-!
Conjoined filters. The conjunction of two filters asks the second one about the records that the first one
matches. It has one value for each parameter, that of the second filter; so the first filter must not use a
placeholder to which the second one gives another value. Main statement: a store that is asked with the
conjunction answers like a store of the records that both filters match.
-/
namespace RunQuery

namespace Filter

section Predicates

variable {params : Dict Value} {r : Record}

theorem evaluateAll_conjuncts (p : Predicate) :
    Predicate.evaluateAll params r (conjuncts p) = p.evaluate params r := by
  cases p with
  | and children => rfl
  | _ => exact Predicate.evaluateAll_singleton _

theorem leavesOf_conjuncts (p : Predicate) : Predicate.leavesOf (conjuncts p) = p.leaves := by
  cases p with
  | and children => rfl
  | _ => exact List.append_nil _

/-- Under the same parameters the second predicate is asked where the first one is true. -/
theorem evaluate_conjoinPredicates (left right : Option Predicate) :
    (conjoinPredicates left right).elim (.ok true) (Predicate.evaluate params r) =
      match left.elim (.ok true) (Predicate.evaluate params r) with
      | .ok true => right.elim (.ok true) (Predicate.evaluate params r)
      | other => other := by
  match left, right with
  | none, right => rfl
  | some p, none =>
    simp only [conjoinPredicates, Option.elim_some, Option.elim_none]
    cases p.evaluate params r with
    | error e => rfl
    | ok found => cases found <;> rfl
  | some p, some q =>
    have joined : Predicate.evaluateAll params r (conjuncts p ++ conjuncts q) = _ :=
      Predicate.evaluateAll_append ..
    rw [evaluateAll_conjuncts, evaluateAll_conjuncts] at joined
    exact (Predicate.evaluate_conjunction? _).trans joined

/-- A conjunction names no placeholder that its parts do not name. -/
theorem mem_leaves_conjoinPredicates {left right : Option Predicate} {p leaf : Predicate}
    (conjoined : conjoinPredicates left right = some p) (member : leaf ∈ p.leaves) :
    (∃ q, left = some q ∧ leaf ∈ q.leaves) ∨ ∃ q, right = some q ∧ leaf ∈ q.leaves := by
  match left, right with
  | none, right => exact .inr ⟨p, conjoined, member⟩
  | some q, none => exact .inl ⟨p, conjoined, member⟩
  | some q, some s =>
    rw [Predicate.leaves_conjunction? conjoined, Predicate.leavesOf_append, leavesOf_conjuncts, leavesOf_conjuncts,
      List.mem_append] at member
    exact member.imp (⟨q, rfl, ·⟩) (⟨s, rfl, ·⟩)

end Predicates

/-- The value of a placeholder of the first filter is not captured by the second one. -/
def Uncaptured (a b : Filter) : Prop :=
  ∀ p, a.predicate = some p → ∀ name ∈ p.bindNames, b.params.contains name = true →
    b.params.get? name = a.params.get? name

/-- The conjunction of two filters that are both there. -/
def both (a b : Filter) : Filter :=
  ⟨conjoinPredicates a.predicate b.predicate, a.params.union b.params⟩

section Both

variable {a b : Filter}

theorem Uncaptured.get? (apart : Uncaptured a b) {p leaf : Predicate} (standing : a.predicate = some p)
    (member : leaf ∈ p.leaves) {name : String} (named : leaf.bindName? = some name) :
    (a.params.union b.params).get? name = a.params.get? name := by
  have inside : name ∈ p.bindNames := Predicate.mem_bindNames.mpr ⟨leaf, member, named⟩
  rw [Dict.get?_union]
  cases known : b.params.get? name with
  | none => rfl
  | some value =>
    have same := apart p standing name inside (by rw [Dict.contains, known]; rfl)
    rw [← same, known]
    rfl

/-- The parameters of the conjunction serve the first filter as well as its own. -/
theorem Uncaptured.evaluate (apart : Uncaptured a b) (r : Record) :
    a.predicate.elim (.ok true) (Predicate.evaluate (a.params.union b.params) r) = a.evaluate r := by
  cases standing : a.predicate with
  | none => rw [Filter.evaluate, standing]; rfl
  | some p =>
    rw [Filter.evaluate, standing]
    exact Predicate.Agree.evaluate fun leaf member name named => apart.get? standing member named

/-- The parameters of the conjunction serve the second filter as well as its own. -/
theorem evaluate_union (valid : b.validate = .ok ()) (r : Record) :
    b.predicate.elim (.ok true) (Predicate.evaluate (a.params.union b.params) r) = b.evaluate r := by
  cases standing : b.predicate with
  | none => rw [Filter.evaluate, standing]; rfl
  | some p =>
    rw [Filter.evaluate, standing]
    refine Predicate.Agree.evaluate fun leaf member name named => ?_
    have bound := validate_eq_ok_iff.mp valid p standing name (Predicate.mem_bindNames.mpr ⟨leaf, member, named⟩)
    obtain ⟨value, known⟩ := Option.isSome_iff_exists.mp bound
    rw [Dict.get?_union, known]
    rfl

theorem evaluate_both (valid : b.validate = .ok ()) (apart : Uncaptured a b) (r : Record) :
    (both a b).evaluate r =
      match a.evaluate r with
      | .ok true => b.evaluate r
      | other => other := by
  rw [Filter.evaluate, both, evaluate_conjoinPredicates, apart.evaluate, evaluate_union valid]

theorem validate_both (first : a.validate = .ok ()) (second : b.validate = .ok ()) : (both a b).validate = .ok () := by
  rw [validate_eq_ok_iff] at first second ⊢
  intro p conjoined name member
  obtain ⟨leaf, inside, named⟩ := Predicate.mem_bindNames.mp member
  simp only [both, Dict.contains, Dict.get?_union, Option.isSome_or, Bool.or_eq_true]
  rcases mem_leaves_conjoinPredicates conjoined inside with ⟨q, standing, there⟩ | ⟨q, standing, there⟩
  · exact .inr (first q standing name (Predicate.mem_bindNames.mpr ⟨leaf, there, named⟩))
  · exact .inl (second q standing name (Predicate.mem_bindNames.mpr ⟨leaf, there, named⟩))

end Both

end Filter

namespace Memory

/-- A store with a filter: the first record that cannot be judged is reported, or else the answer is that of a store
of the records that the filter selects. -/
theorem query_filtered {m : Memory} (reliable : m.failures = []) {filter : Filter} (valid : filter.validate = .ok ())
    (sort : List SortKey) (limit : Option UInt32) (cursor : Option Cursor) :
    (m.query ⟨some filter, sort, limit, cursor⟩).1 =
      match m.records.findSome? filter.fault? with
      | some e => .error (.evaluation e)
      | none => (Memory.query { m with records := m.records.filter filter.selects } ⟨none, sort, limit, cursor⟩).1 := by
  simp only [query, reliable, answer, result_unfiltered]
  rw [result, Option.getD_some, valid, selectRecords_eq]
  cases m.records.findSome? filter.fault? with
  | some e => rfl
  | none => rfl

end Memory

namespace Filter

end Filter

end RunQuery
