import RunQuery.Proofs.Predicate.Normal
import RunQuery.Proofs.Store.Conjunction

/-!
Conjunction of filters as an operation on values. Conjunctions are joined into one, exactly one level deep, so it
does not matter which two of three filters are conjoined first. An empty conjunction is the exception: it gives
nothing to the one that it is joined with, and what stands alone there is not wrapped again.
-/
namespace RunQuery.Filter

/-- The predicate of a filter, if both are there, is not the empty conjunction. -/
def Solid (a : Option Filter) : Prop := ∀ f ∈ a, f.predicate ≠ some (.and [])

/-- The predicate of a filter, if both are there, is collapsed. -/
def Collapsed (a : Option Filter) : Prop := ∀ f ∈ a, ∀ p ∈ f.predicate, p.Collapsed

/-- The leaves of the predicate of a filter; there are none without one. -/
def leaves (a : Option Filter) : List Predicate := (a.bind Filter.predicate).elim [] Predicate.leaves

/-- The value that a filter binds to a name. -/
def bound? (a : Option Filter) (name : String) : Option Value := a.bind fun f => f.params.get? name

theorem solid_some {f : Filter} : Solid (some f) ↔ f.predicate ≠ some (.and []) := by simp [Solid]

theorem collapsed_some {f : Filter} : Collapsed (some f) ↔ ∀ p ∈ f.predicate, p.Collapsed := by simp [Collapsed]

@[simp] theorem conjoin_none (a : Option Filter) : conjoin a none = a := by cases a <;> rfl

section Predicates

@[simp] theorem conjoinPredicates_none (left : Option Predicate) : conjoinPredicates left none = left := by
  cases left <;> rfl

theorem conjuncts_ne_nil {p : Predicate} (solid : p ≠ .and []) : conjuncts p ≠ [] := by
  cases p with
  | and children => exact fun none => solid (congrArg Predicate.and none)
  | _ => exact List.cons_ne_nil _ _

/-- Two solid predicates make one conjunction of what each contributes. -/
theorem conjoinPredicates_solid {p q : Predicate} (first : p ≠ .and []) (second : q ≠ .and []) :
    conjoinPredicates (some p) (some q) = some (.and (conjuncts p ++ conjuncts q)) := by
  have left := List.length_pos_iff.mpr (conjuncts_ne_nil first)
  have right := List.length_pos_iff.mpr (conjuncts_ne_nil second)
  have two : 2 ≤ (conjuncts p ++ conjuncts q).length := by
    rw [List.length_append]
    omega
  exact Predicate.collapse_of_two_le two

theorem conjoinPredicates_ne_empty {left right : Option Predicate} (first : left ≠ some (.and []))
    (second : right ≠ some (.and [])) : conjoinPredicates left right ≠ some (.and []) := by
  match left, right with
  | none, right => exact second
  | some p, none => exact first
  | some p, some q =>
    rw [conjoinPredicates_solid (mt (congrArg some) first) (mt (congrArg some) second)]
    simp [conjuncts_ne_nil (mt (congrArg some) first)]

theorem conjoinPredicates_assoc {left middle right : Option Predicate} (first : left ≠ some (.and []))
    (second : middle ≠ some (.and [])) (third : right ≠ some (.and [])) :
    conjoinPredicates (conjoinPredicates left middle) right =
      conjoinPredicates left (conjoinPredicates middle right) := by
  match left, middle, right with
  | none, _, _ => rfl
  | some p, none, right => rfl
  | some p, some q, none => exact conjoinPredicates_none _
  | some p, some q, some r =>
    have pSolid := mt (congrArg some) first
    have qSolid := mt (congrArg some) second
    have rSolid := mt (congrArg some) third
    have outer : Predicate.and (conjuncts p ++ conjuncts q) ≠ .and [] := by simp [conjuncts_ne_nil pSolid]
    have inner : Predicate.and (conjuncts q ++ conjuncts r) ≠ .and [] := by simp [conjuncts_ne_nil qSolid]
    rw [conjoinPredicates_solid pSolid qSolid, conjoinPredicates_solid qSolid rSolid,
      conjoinPredicates_solid outer rSolid, conjoinPredicates_solid pSolid inner]
    exact congrArg (fun all => some (Predicate.and all)) (List.append_assoc ..)

theorem leaves_conjoinPredicates (left right : Option Predicate) :
    (conjoinPredicates left right).elim [] Predicate.leaves =
      left.elim [] Predicate.leaves ++ right.elim [] Predicate.leaves := by
  match left, right with
  | none, right => rfl
  | some p, none => exact (List.append_nil _).symm
  | some p, some q =>
    have joined := Predicate.leavesOf_append (conjuncts p) (conjuncts q)
    rw [leavesOf_conjuncts, leavesOf_conjuncts] at joined
    rw [Option.elim_some, Option.elim_some, ← joined, conjoinPredicates]
    cases conjoined : Predicate.conjunction? (conjuncts p ++ conjuncts q) with
    | some r => exact Predicate.leaves_conjunction? conjoined
    | none =>
      have none : conjuncts p ++ conjuncts q = [] := by
        cases all : conjuncts p ++ conjuncts q with
        | nil => rfl
        | cons child rest => rw [all] at conjoined; cases rest <;> cases conjoined
      rw [none]
      rfl

theorem allCollapsed_conjuncts {p : Predicate} (collapsed : p.Collapsed) : Predicate.AllCollapsed (conjuncts p) := by
  cases p with
  | and children => exact collapsed.2
  | _ => exact ⟨collapsed, trivial⟩

theorem conjoinPredicates_collapsed {left right : Option Predicate} (first : ∀ p ∈ left, p.Collapsed)
    (second : ∀ p ∈ right, p.Collapsed) : ∀ p ∈ conjoinPredicates left right, p.Collapsed := by
  match left, right with
  | none, right => exact second
  | some p, none => exact first
  | some p, some q =>
    refine Predicate.collapse_collapsed And.intro (Predicate.allCollapsed_iff.mpr fun child member => ?_)
    rcases List.mem_append.mp member with inFirst | inSecond
    · exact Predicate.allCollapsed_iff.mp (allCollapsed_conjuncts (first p rfl)) child inFirst
    · exact Predicate.allCollapsed_iff.mp (allCollapsed_conjuncts (second q rfl)) child inSecond

end Predicates

section Filters

variable {a b c : Option Filter}

theorem Solid.conjoin (first : Solid a) (second : Solid b) : Solid (conjoin a b) := by
  match a, b with
  | none, _ => exact second
  | some f, none => exact first
  | some f, some g =>
    exact solid_some.mpr (conjoinPredicates_ne_empty (solid_some.mp first) (solid_some.mp second))

theorem Collapsed.conjoin (first : Collapsed a) (second : Collapsed b) : Collapsed (conjoin a b) := by
  match a, b with
  | none, _ => exact second
  | some f, none => exact first
  | some f, some g =>
    exact collapsed_some.mpr (conjoinPredicates_collapsed (collapsed_some.mp first) (collapsed_some.mp second))

theorem conjoin_assoc (first : Solid a) (second : Solid b) (third : Solid c) :
    conjoin (conjoin a b) c = conjoin a (conjoin b c) := by
  match a, b, c with
  | none, _, _ => rfl
  | some f, none, _ => rfl
  | some f, some g, none => rfl
  | some f, some g, some h =>
    have predicates :=
      conjoinPredicates_assoc (solid_some.mp first) (solid_some.mp second) (solid_some.mp third)
    have params := Dict.union_assoc f.params g.params h.params
    exact congrArg some (congrArg₂ Filter.mk predicates params)

theorem bound?_conjoin (a b : Option Filter) (name : String) :
    bound? (conjoin a b) name = (bound? b name).or (bound? a name) := by
  match a, b with
  | none, b => exact (Option.or_none ..).symm
  | some f, none => rfl
  | some f, some g => exact Dict.get?_union ..

theorem leaves_conjoin (a b : Option Filter) : leaves (conjoin a b) = leaves a ++ leaves b := by
  match a, b with
  | none, b => rfl
  | some f, none => exact (List.append_nil _).symm
  | some f, some g => exact leaves_conjoinPredicates ..

end Filters

/-- Filters whose predicate is not the empty conjunction form a monoid under conjunction, with the absent filter in
the middle of it: they stay among themselves, and both groupings of three are one value, the same tree with the same
parameters. Of a name that several filters bind the rightmost value stays. Of all filters without exception the
leaves stand one after another, so that both groupings have the same leaves; and collapsed filters conjoin to a
collapsed one. -/
theorem conjoin_exact_monoid :
    (∀ a, conjoin none a = a ∧ conjoin a none = a) ∧
    (∀ a b c, Solid a → Solid b → Solid c →
      Solid (conjoin a b) ∧ conjoin (conjoin a b) c = conjoin a (conjoin b c)) ∧
    (∀ a b name, bound? (conjoin a b) name = (bound? b name).or (bound? a name)) ∧
    (∀ a b, leaves (conjoin a b) = leaves a ++ leaves b) ∧
    (∀ a b c, leaves (conjoin (conjoin a b) c) = leaves (conjoin a (conjoin b c))) ∧
    (∀ a b, Collapsed a → Collapsed b → Collapsed (conjoin a b)) := by
  refine ⟨fun a => ⟨rfl, conjoin_none a⟩, fun a b c first second third => ?_, bound?_conjoin, leaves_conjoin,
    fun a b c => ?_, fun a b => Collapsed.conjoin⟩
  · exact ⟨first.conjoin second, conjoin_assoc first second third⟩
  · simp only [leaves_conjoin, List.append_assoc]

/-- A conjunction of one, parameters without a predicate, and a conjunction with an empty disjunction in it. -/
theorem conjoin_exact_monoid_degenerate :
    let leaf (location : String) : Predicate := .compare ⟨location, .eq, .bind "s"⟩
    let a : Option Filter := some ⟨some (.and [leaf "a"]), Dict.ofList [("s", .text "first"), ("t", .none)]⟩
    let b : Option Filter := some ⟨none, Dict.ofList [("s", .text "second")]⟩
    let c : Option Filter := some ⟨some (.and [.or [], leaf "c"]), .empty⟩
    let d : Option Filter := some ⟨some (.and [leaf "d", .not (leaf "e")]), .empty⟩
    (Solid a ∧ Solid b ∧ Solid c) ∧ conjoin (conjoin a b) c = conjoin a (conjoin b c) ∧
    (conjoin (conjoin a b) c).bind Filter.predicate = some (.and [leaf "a", .or [], leaf "c"]) ∧
    bound? (conjoin a b) "s" = some (.text "second") ∧ Collapsed d ∧ Collapsed (conjoin d d) := by
  intro leaf a b c d
  have first : Solid a := solid_some.mpr nofun
  have second : Solid b := solid_some.mpr nofun
  have third : Solid c := solid_some.mpr nofun
  have collapsed : Collapsed d := collapsed_some.mpr fun p standing => by
    cases standing
    exact ⟨Nat.le_refl _, trivial, trivial, trivial⟩
  obtain ⟨-, group, rightmost, -, -, keeps⟩ := conjoin_exact_monoid
  exact ⟨⟨first, second, third⟩, (group a b c first second third).2, rfl, rightmost a b "s", collapsed,
    keeps d d collapsed collapsed⟩

end RunQuery.Filter
