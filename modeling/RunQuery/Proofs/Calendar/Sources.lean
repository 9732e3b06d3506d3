import RunQuery.Proofs.Calendar.Query
import RunQuery.Proofs.Calendar.Turn
import RunQuery.Proofs.Predicate.Normal

/-!
The query of a calendar as a whole. However many sources and kinds there are, its clauses are collapsed, each source
is one parameter under a name of its own, and a record is selected exactly if it is of one of the sources and of one of
the kinds.
-/
namespace RunQuery

theorem Value.asText?_eq_some_iff {v : Value} {s : String} : v.asText? = some s ↔ v = .text s := by
  cases v <;> simp [Value.asText?]

namespace Calendar

theorem collapsed_of_mem_sourceClauses {config : CalendarConfig} {bind : String} {clause : Predicate}
    (member : clause ∈ sourceClauses config bind) : clause.Collapsed := by
  rw [mem_sourceClauses_iff] at member
  split at member
  · subst member
    exact trivial
  · obtain ⟨kind, -, rfl⟩ := member
    exact ⟨Nat.le_refl 2, trivial, trivial, trivial⟩

theorem collapsed_of_disjunction? {config : CalendarConfig} {numbered : List (String × Nat)} {p : Predicate}
    (query : Predicate.disjunction? (clauses config numbered) = some p) : p.Collapsed := by
  have all : Predicate.AllCollapsed (clauses config numbered) := by
    refine Predicate.allCollapsed_iff.mpr fun clause member => ?_
    obtain ⟨source, -, ofSource⟩ := List.mem_flatMap.mp member
    exact collapsed_of_mem_sourceClauses ofSource
  have level : ∀ q ∈ Predicate.collapse .or (clauses config numbered), q.Collapsed :=
    Predicate.collapse_collapsed (fun several all => ⟨several, all⟩) all
  exact level p query

/-- Distinct sources are numbered by where they stand. -/
theorem map_zipIdx_of_nodup {α : Type} {sources : List String} (distinct : sources.Nodup) (f : String × Nat → α) :
    sources.zipIdx.map f = sources.map fun source => f (source, sources.idxOf source) := by
  refine List.ext_getElem (by simp) fun i first second => ?_
  rw [List.getElem_map, List.getElem_map, List.getElem_zipIdx, distinct.idxOf_getElem, Nat.zero_add]

theorem selects_iff {config : CalendarConfig} {sources : List String} {r : Record} :
    selects config sources r = true ↔
      (∃ source ∈ sources, r.locate config.sourceField = .text source) ∧
      (config.kinds ≠ [] → ∃ kind ∈ config.kinds, r.locate config.kindField = .text kind) := by
  simp [selects, Value.asText?_eq_some_iff, Decidable.or_iff_not_imp_left]

/-- Whatever a calendar is made of, and however many sources it is asked for, there is a query: it is valid and
collapsed, each source is one parameter under a name of its own, and there are no others. It is answered for every
record, and selects those whose source is one of the sources and whose kind is one of the kinds, if kinds are named. -/
theorem query_selects_exactly (config : CalendarConfig) {sources : List String} (asked : sources ≠ []) :
    let set := sortedTexts sources
    ∃ filter p, sourceFilter? config set = some filter ∧ filter.predicate = some p ∧ p.Collapsed ∧
      filter.validate = .ok () ∧
      (∃ name : String → String, (set.map name).Nodup ∧
        filter.params.entries.Perm (set.map fun source => (name source, .text source))) ∧
      ∀ r, ∃ found, filter.evaluate r = .ok found ∧
        (found = true ↔ (∃ source ∈ sources, r.locate config.sourceField = .text source) ∧
          (config.kinds ≠ [] → ∃ kind ∈ config.kinds, r.locate config.kindField = .text kind)) := by
  intro set
  have distinct : set.Nodup := (pairwise_sortedTexts sources).imp String.ne_of_lt
  obtain ⟨filter, query⟩ : ∃ filter, sourceFilter? config set = some filter := by
    refine Option.ne_none_iff_exists'.mp fun none => asked ?_
    exact sortedTexts_eq_nil_iff.mp (sourceFilter?_eq_none_iff.mp none)
  obtain ⟨valid, judged⟩ := sourceFilter?_selects query
  have parts := query
  rw [sourceFilter?_eq, Option.map_eq_some_iff] at parts
  obtain ⟨p, shape, rfl⟩ := parts
  have unique := nodup_bindNames set
  have kept : (bindings set.zipIdx).entries.Perm _ := Dict.perm_ofList unique
  rw [map_zipIdx_of_nodup distinct] at unique kept
  rw [List.map_map] at unique
  refine ⟨_, p, query, rfl, collapsed_of_disjunction? shape, valid, ⟨_, unique, kept⟩, fun r => ⟨_, judged r, ?_⟩⟩
  rw [selects_sortedTexts, selects_iff]

/-- One field holds both source and kind. Of two sources, one given twice, the one that is a kind is selected. -/
theorem query_selects_exactly_of_one_field :
    let config : CalendarConfig := { (default : CalendarConfig) with sourceField := "status", kinds := ["failed"] }
    let sources := ["ok", "failed", "ok"]
    let run (status : Value) : Record := ⟨"r", "execution", 1, .map [("status", status)]⟩
    sources ≠ [] ∧
    ∃ filter p, sourceFilter? config (sortedTexts sources) = some filter ∧ filter.predicate = some p ∧ p.Collapsed ∧
      filter.validate = .ok () ∧ filter.params.size = 2 ∧ filter.evaluate (run (.text "failed")) = .ok true ∧
      filter.evaluate (run (.text "ok")) = .ok false ∧ filter.evaluate (run .none) = .ok false := by
  intro config sources run
  have asked : sources ≠ [] := by decide
  obtain ⟨filter, p, query, whole, collapsed, valid, ⟨name, -, kept⟩, judged⟩ := query_selects_exactly config asked
  have fields : config.sourceField = "status" ∧ config.kindField = "status" := ⟨rfl, rfl⟩
  have located (v : Value) : (run v).locate "status" = v := by rfl
  have verdict (v : Value) {found : Bool} (told : found = true ↔ (∃ source ∈ sources, v = .text source) ∧
      (config.kinds ≠ [] → ∃ kind ∈ config.kinds, v = .text kind)) : filter.evaluate (run v) = .ok found := by
    obtain ⟨other, evaluated, same⟩ := judged (run v)
    rw [fields.1, fields.2, located] at same
    rw [evaluated, Bool.eq_iff_iff.mpr (same.trans told.symm)]
  refine ⟨asked, filter, p, query, whole, collapsed, valid, ?_, verdict _ ?_, verdict _ ?_, verdict _ ?_⟩
  · exact kept.length_eq.trans ((List.length_map ..).trans (by decide +kernel))
  all_goals simp [sources, config]

end Calendar

end RunQuery
