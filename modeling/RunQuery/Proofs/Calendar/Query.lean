import RunQuery.Calendar.Walk
import RunQuery.Proofs.Dict
import RunQuery.Proofs.Store.Memory
import RunQuery.Proofs.Text.Parts

/-!
What the query of a calendar selects: the records of any of its sources that are of any of its kinds. Every
source is bound under a name of its own, so that no placeholder of the query is without a value.
-/
namespace RunQuery.Calendar

/-- The record is of one of the sources and, if kinds are named, of one of the kinds. -/
def selects (config : CalendarConfig) (sources : List String) (r : Record) : Bool :=
  (sources.any fun source => (r.locate config.sourceField).asText? = some source) &&
    (config.kinds.isEmpty || config.kinds.any fun kind => (r.locate config.kindField).asText? = some kind)

theorem selects_sortedTexts (config : CalendarConfig) (sources : List String) :
    selects config (sortedTexts sources) = selects config sources := by
  funext r
  have same : (sortedTexts sources).any (fun source => (r.locate config.sourceField).asText? = some source) =
      sources.any fun source => (r.locate config.sourceField).asText? = some source := by
    rw [Bool.eq_iff_iff, List.any_eq_true, List.any_eq_true]
    simp only [mem_sortedTexts]
  rw [selects, selects, same]

theorem beq_text (v : Value) (s : String) : (v == .text s) = decide (v.asText? = some s) := by
  cases v with
  | text t =>
    show decide (t = s) = decide (some t = some s)
    simp only [Option.some_inj]
  | _ => rfl

/-- The placeholder of every source stands for that source. -/
def Bound (params : Dict Value) (numbered : List (String × Nat)) : Prop :=
  ∀ source ∈ numbered, params.get? (bindName source.2) = some (.text source.1)

theorem bindName_injective : Function.Injective bindName := by
  intro i j same
  have texts : ("source" ++ toString i).toList = ("source" ++ toString j).toList := congrArg String.toList same
  rw [String.toList_append, String.toList_append, List.append_right_inj] at texts
  exact Text.numeral_injective texts

/-- The clauses of a query, with its sources numbered. -/
def clauses (config : CalendarConfig) (numbered : List (String × Nat)) : List Predicate :=
  numbered.flatMap fun source => sourceClauses config (bindName source.2)

/-- The parameters of a query, with its sources numbered. -/
def bindings (numbered : List (String × Nat)) : Dict Value :=
  Dict.ofList (numbered.map fun source => (bindName source.2, .text source.1))

theorem sourceFilter?_eq (config : CalendarConfig) (sources : List String) :
    sourceFilter? config sources =
      (Predicate.disjunction? (clauses config sources.zipIdx)).map fun p => ⟨some p, bindings sources.zipIdx⟩ := by
  rw [sourceFilter?, clauses, bindings, List.mapIdx_eq_zipIdx_map, List.mapIdx_eq_zipIdx_map, List.flatMap_def]

theorem nodup_bindNames (sources : List String) :
    ((sources.zipIdx.map fun source => (bindName source.2, Value.text source.1)).map Prod.fst).Nodup := by
  have names : (Prod.fst ∘ fun source : String × Nat => (bindName source.2, Value.text source.1)) =
      bindName ∘ Prod.snd := rfl
  rw [List.map_map, names, ← List.map_map, List.zipIdx_map_snd]
  exact List.Nodup.map bindName_injective List.nodup_range'

theorem bound_bindings (sources : List String) : Bound (bindings sources.zipIdx) sources.zipIdx := by
  intro source member
  exact Dict.get?_ofList (nodup_bindNames sources) (List.mem_map.mpr ⟨source, member, rfl⟩)

/-- A clause is about the source of a record, and about its kind unless all kinds will do. -/
theorem mem_sourceClauses_iff {config : CalendarConfig} {bind : String} {clause : Predicate} :
    clause ∈ sourceClauses config bind ↔
      if config.kinds = [] then clause = .compare ⟨config.sourceField, .eq, .bind bind⟩
      else ∃ kind ∈ config.kinds, clause = .and [.compare ⟨config.sourceField, .eq, .bind bind⟩,
        .compare ⟨config.kindField, .eq, .literal (.text kind)⟩] := by
  rw [sourceClauses]
  simp only [List.isEmpty_iff]
  split
  · exact List.mem_singleton
  · simp [Predicate.conjunction?, Predicate.collapse, eq_comm]

section Selection

variable {config : CalendarConfig} {params : Dict Value} {r : Record}

theorem evaluate_bind {bind source : String} (bound : params.get? bind = some (.text source)) :
    Predicate.evaluate params r (.compare ⟨config.sourceField, .eq, .bind bind⟩) =
      .ok ((r.locate config.sourceField).asText? = some source) := by
  rw [Predicate.evaluate, Comparison.evaluate, Operand.resolve, bound]
  exact congrArg Except.ok (beq_text _ _)

/-- Of a source and a kind, both have to be there. -/
theorem evaluateAny_kinds {bind source : String} (bound : params.get? bind = some (.text source))
    (kinds : List String) :
    Predicate.evaluateAny params r (kinds.filterMap fun kind => Predicate.conjunction?
        [.compare ⟨config.sourceField, .eq, .bind bind⟩, .compare ⟨config.kindField, .eq, .literal (.text kind)⟩]) =
      .ok (decide ((r.locate config.sourceField).asText? = some source) &&
        kinds.any fun kind => (r.locate config.kindField).asText? = some kind) := by
  induction kinds with
  | nil => rw [List.any_nil, Bool.and_false]; rfl
  | cons kind rest ih =>
    have ofKind : Predicate.evaluate params r (.compare ⟨config.kindField, .eq, .literal (.text kind)⟩) =
        .ok ((r.locate config.kindField).asText? = some kind) := congrArg Except.ok (beq_text _ _)
    have ofBoth : Predicate.evaluate params r (.and [.compare ⟨config.sourceField, .eq, .bind bind⟩,
        .compare ⟨config.kindField, .eq, .literal (.text kind)⟩]) =
        .ok (decide ((r.locate config.sourceField).asText? = some source) &&
          decide ((r.locate config.kindField).asText? = some kind)) := by
      rw [Predicate.evaluate, Predicate.evaluateAll, evaluate_bind bound, Predicate.evaluateAll, ofKind,
        Predicate.evaluateAll]
      cases decide ((r.locate config.sourceField).asText? = some source) <;>
        cases decide ((r.locate config.kindField).asText? = some kind) <;> rfl
    rw [List.filterMap_cons]
    show Predicate.evaluateAny params r (.and _ :: _) = _
    rw [Predicate.evaluateAny, ofBoth, ih, List.any_cons]
    cases decide ((r.locate config.sourceField).asText? = some source) <;>
      cases decide ((r.locate config.kindField).asText? = some kind) <;> rfl

theorem evaluateAny_sourceClauses {bind source : String} (bound : params.get? bind = some (.text source)) :
    Predicate.evaluateAny params r (sourceClauses config bind) =
      .ok (decide ((r.locate config.sourceField).asText? = some source) &&
        (config.kinds.isEmpty || config.kinds.any fun kind => (r.locate config.kindField).asText? = some kind)) := by
  rw [sourceClauses]
  split
  next every =>
    rw [every, Bool.true_or, Bool.and_true, Predicate.evaluateAny, Predicate.evaluateAny, evaluate_bind bound]
    cases decide ((r.locate config.sourceField).asText? = some source) <;> rfl
  next some =>
    rw [Bool.not_eq_true] at some
    rw [some, Bool.false_or]
    exact evaluateAny_kinds bound config.kinds

theorem evaluateAny_clauses {numbered : List (String × Nat)} (bound : Bound params numbered) :
    Predicate.evaluateAny params r (clauses config numbered) = .ok (selects config (numbered.map Prod.fst) r) := by
  induction numbered with
  | nil => rfl
  | cons source rest ih =>
    obtain ⟨first, others⟩ := List.forall_mem_cons.mp bound
    rw [clauses, List.flatMap_cons, Predicate.evaluateAny_append, evaluateAny_sourceClauses first, ← clauses, ih others,
      selects, selects, List.map_cons, List.any_cons, Bool.and_or_distrib_right]
    cases decide ((r.locate config.sourceField).asText? = some source.1) &&
      (config.kinds.isEmpty || config.kinds.any fun kind => (r.locate config.kindField).asText? = some kind) <;> rfl

/-- A leaf of the query that has a placeholder is about a source. -/
theorem bindName?_sourceClauses {bind name : String} {clause leaf : Predicate}
    (member : clause ∈ sourceClauses config bind) (inside : leaf ∈ clause.leaves) (named : leaf.bindName? = some name) :
    name = bind := by
  rw [mem_sourceClauses_iff] at member
  split at member
  · subst member
    obtain rfl := List.mem_singleton.mp inside
    exact (Option.some.inj named).symm
  · obtain ⟨kind, -, rfl⟩ := member
    have leaves : leaf ∈ [Predicate.compare ⟨config.sourceField, .eq, .bind bind⟩,
        .compare ⟨config.kindField, .eq, .literal (.text kind)⟩] := inside
    rcases List.mem_pair.mp leaves with rfl | rfl
    · exact (Option.some.inj named).symm
    · cases named

end Selection

/-- The query of a calendar is valid, and selects without an error. -/
theorem sourceFilter?_selects {config : CalendarConfig} {sources : List String} {filter : Filter}
    (query : sourceFilter? config sources = some filter) :
    filter.validate = .ok () ∧
      ∀ r, filter.predicate.elim (.ok true) (Predicate.evaluate filter.params r) = .ok (selects config sources r) := by
  rw [sourceFilter?_eq, Option.map_eq_some_iff] at query
  obtain ⟨p, collapsed, rfl⟩ := query
  have bound := bound_bindings sources
  refine ⟨?_, fun r => ?_⟩
  · have present : ∀ name ∈ p.bindNames, ((bindings sources.zipIdx).get? name).isSome = true := by
      intro name member
      obtain ⟨leaf, inside, named⟩ := List.mem_filterMap.mp (mem_sortedTexts.mp member)
      rw [Predicate.leaves_disjunction? collapsed] at inside
      obtain ⟨clause, standing, within⟩ := Predicate.mem_leavesOf.mp inside
      obtain ⟨source, numbered, ofSource⟩ := List.mem_flatMap.mp standing
      rw [bindName?_sourceClauses ofSource within named, bound source numbered]
      rfl
    have none : Filter.missingBinds ⟨some p, bindings sources.zipIdx⟩ = [] := by
      rw [Filter.missingBinds, List.filter_eq_nil_iff]
      intro name member
      rw [Dict.contains, present name member]
      decide
    rw [Filter.validate, none]
    rfl
  · rw [Option.elim_some, Predicate.evaluate_disjunction? collapsed, evaluateAny_clauses bound, List.zipIdx_map_fst]

end RunQuery.Calendar
