import RunQuery.Proofs.Predicate.Meaning
import RunQuery.Proofs.Store.Conjunction

/-!
Queries that a memory store refuses. A placeholder without a value is found before any record is looked at,
wherever it stands. A node of an unknown kind is found only where evaluation comes to it: there has to be a record,
and nothing before the node may decide a level above it. So a filter with such a node is answered by an empty store,
and by any store of records for which the node does not matter.
-/
namespace RunQuery

namespace Predicate

variable {params : Dict Value} {r : Record} {e : EvalError} {kind : String}

/-- Evaluation for a record comes to a leaf with this error: on the way down, each conjunction is still true before
the child that is entered, and each disjunction still false. -/
inductive Raises (params : Dict Value) (r : Record) : EvalError → Predicate → Prop where
  | unknown (kind : String) (raw : Wire) : Raises params r (.unsupported kind) (.unknown kind raw)
  | unbound {name : String} (location : String) (operation : Operation) (missing : params.get? name = none) :
      Raises params r (.unbound name) (.compare ⟨location, operation, .bind name⟩)
  | not {e : EvalError} {child : Predicate} (below : Raises params r e child) : Raises params r e child.not
  | and {e : EvalError} {early late : List Predicate} {child : Predicate}
      (undecided : ∀ p ∈ early, p.evaluate params r = .ok true) (below : Raises params r e child) :
      Raises params r e (.and (early ++ child :: late))
  | or {e : EvalError} {early late : List Predicate} {child : Predicate}
      (undecided : ∀ p ∈ early, p.evaluate params r = .ok false) (below : Raises params r e child) :
      Raises params r e (.or (early ++ child :: late))

theorem evaluateAll_of_true {early : List Predicate} (undecided : ∀ p ∈ early, p.evaluate params r = .ok true) :
    evaluateAll params r early = .ok true := by
  induction early with
  | nil => rfl
  | cons child rest ih =>
    rw [evaluateAll, undecided child List.mem_cons_self]
    exact ih fun p member => undecided p (List.mem_cons_of_mem _ member)

theorem evaluateAny_of_false {early : List Predicate} (undecided : ∀ p ∈ early, p.evaluate params r = .ok false) :
    evaluateAny params r early = .ok false := by
  induction early with
  | nil => rfl
  | cons child rest ih =>
    rw [evaluateAny, undecided child List.mem_cons_self]
    exact ih fun p member => undecided p (List.mem_cons_of_mem _ member)

theorem Raises.evaluate {p : Predicate} (raised : Raises params r e p) : p.evaluate params r = .error e := by
  induction raised with
  | unknown kind raw => rfl
  | unbound location operation missing =>
    rw [Predicate.evaluate, Comparison.evaluate, Operand.resolve, missing]
    rfl
  | not _ ih =>
    rw [Predicate.evaluate, ih]
    rfl
  | and undecided _ ih =>
    rw [Predicate.evaluate, evaluateAll_append, evaluateAll_of_true undecided, evaluateAll, ih]
  | or undecided _ ih =>
    rw [Predicate.evaluate, evaluateAny_append, evaluateAny_of_false undecided, evaluateAny, ih]

theorem Raises.of_comparison {c : Comparison} (failed : c.evaluate params r = .error e) :
    Raises params r e (.compare c) := by
  rcases c with ⟨location, operation, name | value | path⟩
  · rw [Comparison.evaluate, Operand.resolve] at failed
    cases known : params.get? name with
    | some value =>
      rw [known] at failed
      cases failed
    | none =>
      rw [known] at failed
      cases failed
      exact .unbound location operation known
  · cases failed
  · cases failed

mutual

theorem Raises.of_evaluate {p : Predicate} (failed : p.evaluate params r = .error e) : Raises params r e p := by
  match p with
  | .and children =>
    obtain ⟨early, child, late, rfl, undecided, below⟩ := Raises.of_evaluateAll failed
    exact .and undecided below
  | .or children =>
    obtain ⟨early, child, late, rfl, undecided, below⟩ := Raises.of_evaluateAny failed
    exact .or undecided below
  | .not child =>
    refine .not (Raises.of_evaluate (p := child) ?_)
    rw [Predicate.evaluate] at failed
    cases judged : child.evaluate params r with
    | error cause =>
      rw [judged] at failed
      exact failed
    | ok found =>
      rw [judged] at failed
      cases failed
  | .compare c => exact .of_comparison failed
  | .unknown kind raw =>
    cases failed
    exact .unknown kind raw

theorem Raises.of_evaluateAll {children : List Predicate} (failed : evaluateAll params r children = .error e) :
    ∃ early child late, children = early ++ child :: late ∧ (∀ p ∈ early, p.evaluate params r = .ok true) ∧
      Raises params r e child := by
  match children with
  | [] => cases failed
  | child :: rest =>
    rw [evaluateAll] at failed
    split at failed
    next held =>
      obtain ⟨early, below, late, rfl, undecided, raised⟩ := Raises.of_evaluateAll failed
      exact ⟨child :: early, below, late, rfl, List.forall_mem_cons.mpr ⟨held, undecided⟩, raised⟩
    next => exact ⟨[], child, rest, rfl, List.forall_mem_nil _, Raises.of_evaluate failed⟩

theorem Raises.of_evaluateAny {children : List Predicate} (failed : evaluateAny params r children = .error e) :
    ∃ early child late, children = early ++ child :: late ∧ (∀ p ∈ early, p.evaluate params r = .ok false) ∧
      Raises params r e child := by
  match children with
  | [] => cases failed
  | child :: rest =>
    rw [evaluateAny] at failed
    split at failed
    next held =>
      obtain ⟨early, below, late, rfl, undecided, raised⟩ := Raises.of_evaluateAny failed
      exact ⟨child :: early, below, late, rfl, List.forall_mem_cons.mpr ⟨held, undecided⟩, raised⟩
    next => exact ⟨[], child, rest, rfl, List.forall_mem_nil _, Raises.of_evaluate failed⟩

end

theorem evaluate_eq_error_iff {p : Predicate} : p.evaluate params r = .error e ↔ Raises params r e p :=
  ⟨.of_evaluate, Raises.evaluate⟩

/-- Where all placeholders have values, an error comes from a node of an unknown kind. -/
theorem Raises.unsupported {p : Predicate} (raised : Raises params r e p)
    (bound : ∀ leaf ∈ p.leaves, ∀ name, leaf.bindName? = some name → params.get? name ≠ none) :
    ∃ kind, e = .unsupported kind := by
  have inside {early late : List Predicate} {child leaf : Predicate} (below : leaf ∈ child.leaves) :
      leaf ∈ leavesOf (early ++ child :: late) :=
    mem_leavesOf.mpr ⟨child, List.mem_append_right _ List.mem_cons_self, below⟩
  induction raised with
  | unknown kind raw => exact ⟨kind, rfl⟩
  | unbound location operation missing => exact absurd missing (bound _ (List.mem_singleton_self _) _ rfl)
  | not _ ih => exact ih bound
  | and _ _ ih => exact ih fun leaf below => bound leaf (inside below)
  | or _ _ ih => exact ih fun leaf below => bound leaf (inside below)

theorem Populated.head?_leaves {child leaf : Predicate} {rest : List Predicate} (filled : child.Populated)
    (first : (leavesOf (child :: rest)).head? = some leaf) : child.leaves.head? = some leaf := by
  rw [leavesOf, List.head?_append_of_ne_nil _ filled.leaves_ne_nil] at first
  exact first

/-- Where all levels have a child, evaluation begins with the first leaf. -/
theorem Populated.raises_first {p leaf : Predicate} (populated : p.Populated) (first : p.leaves.head? = some leaf)
    (raised : Raises params r e leaf) : Raises params r e p := by
  match p, populated with
  | .and (child :: rest), ⟨_, filled, _⟩ =>
    exact @Raises.and _ _ _ [] rest child (List.forall_mem_nil _) (filled.raises_first (filled.head?_leaves first) raised)
  | .or (child :: rest), ⟨_, filled, _⟩ =>
    exact @Raises.or _ _ _ [] rest child (List.forall_mem_nil _) (filled.raises_first (filled.head?_leaves first) raised)
  | .not child, inner => exact .not (Populated.raises_first (p := child) inner first raised)
  | .compare c, _ => exact Option.some.inj first ▸ raised
  | .unknown kind raw, _ => exact Option.some.inj first ▸ raised

end Predicate

/-- The token of a cursor is no offset. -/
def Cursor.Unreadable (cursor : Cursor) : Prop := ∃ e, Offset.ofToken cursor.token = .error e

theorem Window.of_eq_error_iff {total limit : Nat} {cursor : Option Cursor} :
    (∃ e, Window.of total limit cursor = .error e) ↔ ∃ c ∈ cursor, c.Unreadable := by
  rcases cursor with _ | ⟨token | token⟩
  · simp [Window.of]
  · cases read : Offset.ofToken token <;> simp [Window.of, Cursor.Unreadable, Cursor.token, read, Except.map]
  · cases read : Offset.ofToken token <;> simp [Window.of, Cursor.Unreadable, Cursor.token, read, Except.map]

namespace Filter

variable {p : Predicate} {params : Dict Value} {r : Record}

theorem mem_missingBinds {name : String} :
    name ∈ missingBinds ⟨some p, params⟩ ↔ name ∈ p.bindNames ∧ params.get? name = none := by
  simp [missingBinds, Dict.contains]

theorem fault?_eq_some_iff {e : EvalError} : fault? ⟨some p, params⟩ r = some e ↔ p.Raises params r e := by
  rw [← Predicate.evaluate_eq_error_iff, fault?, evaluate, Option.elim_some]
  cases p.evaluate params r <;> simp

theorem fault?_eq_none_iff : fault? ⟨some p, params⟩ r = none ↔ ∃ kept, p.evaluate params r = .ok kept := by
  rw [fault?, evaluate, Option.elim_some]
  cases p.evaluate params r <;> simp

end Filter

namespace Memory

variable {m : Memory} {sort : List SortKey} {limit : Option UInt32} {cursor : Option Cursor}

/-- Without a filter nothing but the cursor can be at fault. -/
theorem query_unfiltered (reliable : m.failures = []) :
    let sorted := sortRecords sort m.records
    (m.query ⟨none, sort, limit, cursor⟩).1 =
      ((Window.of sorted.length (limit.elim sorted.length UInt32.toNat) cursor).mapError .token).map
        (·.page sorted) := by
  rw [query, reliable]
  simp only [answer, result_unfiltered, ok_bind]
  rfl

section Filtered

variable {f : Filter} (reliable : m.failures = [])

include reliable

theorem query_of_missing (missing : f.missingBinds ≠ []) :
    (m.query ⟨some f, sort, limit, cursor⟩).1 = .error (.filter (.missingBind f.missingBinds)) := by
  have invalid : f.validate = .error (.missingBind f.missingBinds) := by
    rw [Filter.validate, if_neg (by simpa using missing)]
  rw [query, reliable]
  simp only [answer, result, Option.getD_some, invalid]
  rfl

variable (valid : f.validate = .ok ())

include valid

theorem query_evaluation_error_iff {e : EvalError} :
    (m.query ⟨some f, sort, limit, cursor⟩).1 = .error (.evaluation e) ↔ m.records.findSome? f.fault? = some e := by
  rw [query_filtered reliable valid]
  cases m.records.findSome? f.fault? with
  | some cause => simp
  | none =>
    simp only [query_unfiltered (m := { m with records := m.records.filter f.selects }) reliable]
    cases Window.of _ _ cursor <;> simp [Except.mapError, Except.map]

theorem query_error_iff :
    (∃ e, (m.query ⟨some f, sort, limit, cursor⟩).1 = .error e) ↔
      (∃ r ∈ m.records, ∃ e, f.fault? r = some e) ∨ ∃ c ∈ cursor, c.Unreadable := by
  rw [query_filtered reliable valid]
  cases faults : m.records.findSome? f.fault? with
  | some e =>
    obtain ⟨early, r, late, split, fault, -⟩ := List.findSome?_eq_some_iff.mp faults
    have member : r ∈ m.records := split ▸ List.mem_append_right _ List.mem_cons_self
    exact iff_of_true ⟨_, rfl⟩ (.inl ⟨r, member, e, fault⟩)
  | none =>
    have judged : ¬ ∃ r ∈ m.records, ∃ e, f.fault? r = some e := by
      rintro ⟨r, member, e, fault⟩
      rw [List.findSome?_eq_none_iff.mp faults r member] at fault
      cases fault
    simp only [query_unfiltered (m := { m with records := m.records.filter f.selects }) reliable]
    rw [or_iff_right judged, ← Window.of_eq_error_iff]
    cases Window.of _ _ cursor <;> simp [Except.mapError, Except.map]

end Filtered

/-- Which queries with a predicate are refused. A placeholder without a value is always reported, with all others of
its kind. If there is none, a node of an unknown kind is reported where evaluation comes to it, for the first record
for which it does; nothing else is refused, but for a cursor that cannot be read. A node that is the first leaf of a
predicate without empty levels is thus refused by every store that holds a record. -/
theorem query_refused_iff (reliable : m.failures = []) (p : Predicate) (params : Dict Value)
    (sort : List SortKey) (limit : Option UInt32) (cursor : Option Cursor) :
    let answered := (m.query ⟨some ⟨some p, params⟩, sort, limit, cursor⟩).1
    ((∃ name ∈ p.bindNames, params.get? name = none) →
      ∃ names, answered = .error (.filter (.missingBind names)) ∧
        ∀ name, name ∈ names ↔ name ∈ p.bindNames ∧ params.get? name = none) ∧
    ((∀ name ∈ p.bindNames, params.get? name ≠ none) →
      (∀ kind, answered = .error (.evaluation (.unsupported kind)) ↔
        ∃ early r late, m.records = early ++ r :: late ∧ p.Raises params r (.unsupported kind) ∧
          ∀ s ∈ early, ∃ kept, p.evaluate params s = .ok kept) ∧
      ((∃ e, answered = .error e) ↔
        (∃ r ∈ m.records, ∃ kind, p.Raises params r (.unsupported kind)) ∨ ∃ c ∈ cursor, c.Unreadable) ∧
      ∀ kind raw, p.Populated → p.leaves.head? = some (.unknown kind raw) → m.records ≠ [] →
        answered = .error (.evaluation (.unsupported kind))) := by
  intro answered
  refine ⟨?_, fun bound => ?_⟩
  · rintro ⟨name, named, unset⟩
    have missing := List.ne_nil_of_mem (Filter.mem_missingBinds.mpr ⟨named, unset⟩)
    exact ⟨_, query_of_missing reliable missing, fun _ => Filter.mem_missingBinds⟩
  · have valid : Filter.validate ⟨some p, params⟩ = .ok () := by
      refine Filter.validate_eq_ok_iff.mpr fun q standing name named => ?_
      cases standing
      exact Option.isSome_iff_ne_none.mpr (bound name named)
    have unsupported {r : Record} {e : EvalError} (raised : p.Raises params r e) : ∃ kind, e = .unsupported kind :=
      raised.unsupported fun leaf inside name named =>
        bound name (Predicate.mem_bindNames.mpr ⟨leaf, inside, named⟩)
    have located (kind : String) : answered = .error (.evaluation (.unsupported kind)) ↔
        ∃ early r late, m.records = early ++ r :: late ∧ p.Raises params r (.unsupported kind) ∧
          ∀ s ∈ early, ∃ kept, p.evaluate params s = .ok kept := by
      rw [query_evaluation_error_iff reliable valid, List.findSome?_eq_some_iff]
      simp only [Filter.fault?_eq_some_iff, Filter.fault?_eq_none_iff]
    refine ⟨located, ?_, ?_⟩
    · rw [query_error_iff reliable valid]
      simp only [Filter.fault?_eq_some_iff]
      refine or_congr_left (exists_congr fun r => and_congr_right fun _ => ⟨?_, ?_⟩)
      · rintro ⟨e, raised⟩
        obtain ⟨kind, rfl⟩ := unsupported raised
        exact ⟨kind, raised⟩
      · rintro ⟨kind, raised⟩
        exact ⟨_, raised⟩
    · intro kind raw populated first present
      obtain ⟨r, rest, whole⟩ := List.exists_cons_of_ne_nil present
      exact (located kind).mpr ⟨[], r, rest, whole, populated.raises_first first (.unknown kind raw), List.forall_mem_nil _⟩

/-- A node in a first leaf below two levels, and a placeholder without a value that no record is asked for. -/
theorem query_refused_iff_of_first :
    let near : Predicate := .unknown "near" .null
    let ranked : Predicate := .compare ⟨"rank", .gt, .bind "low"⟩
    let p : Predicate := .or [.not near, ranked]
    let m := ofRecords [⟨"a", "run", 1, .none⟩]
    (m.failures = [] ∧ (m.query ⟨some ⟨some p, Dict.ofList [("low", .text "1")]⟩, [], none, none⟩).1 =
        .error (.evaluation (.unsupported "near"))) ∧
      empty.failures = [] ∧ ∃ names, "low" ∈ names ∧
        (empty.query ⟨some ⟨some p, .empty⟩, [], none, none⟩).1 = .error (.filter (.missingBind names)) := by
  intro near ranked p m
  have named : p.bindNames = ["low"] := rfl
  have unset : ∃ name ∈ p.bindNames, Dict.get? (.empty : Dict Value) name = none :=
    ⟨"low", named ▸ List.mem_singleton_self _, rfl⟩
  have bound : ∀ name ∈ p.bindNames, (Dict.ofList [("low", Value.text "1")]).get? name ≠ none := by
    intro name member
    obtain rfl := List.mem_singleton.mp (named ▸ member)
    nofun
  have populated : p.Populated := ⟨List.cons_ne_nil _ _, trivial, trivial, trivial⟩
  obtain ⟨-, judged⟩ := query_refused_iff (m := m) rfl p (Dict.ofList [("low", .text "1")]) [] none none
  obtain ⟨missing, -⟩ := query_refused_iff (m := empty) rfl p .empty [] none none
  obtain ⟨names, refused, members⟩ := missing unset
  exact ⟨⟨rfl, (judged bound).2.2 "near" .null populated rfl (List.cons_ne_nil _ _)⟩, rfl, names,
    (members "low").mpr ⟨named ▸ List.mem_singleton_self _, rfl⟩, refused⟩

/-- Not every filter with a node of an unknown kind is refused: an empty store has nothing to evaluate, and a record
for which a conjunction is false already is not asked about the rest. -/
theorem unknown_nodes_answered :
    let near : Predicate := .unknown "near" (.map [(.text "kind", .text "near")])
    let failed : Predicate := .compare ⟨"status", .eq, .literal (.text "failed")⟩
    let run : Record := ⟨"r0", "run", 1, .map [("status", .text "ok")]⟩
    let Refuses (m : Memory) (p : Predicate) : Prop := m.failures = [] → p.hasUnknown = true →
      ∃ e, (m.query ⟨some ⟨some p, .empty⟩, [], none, none⟩).1 = .error e
    ¬ Refuses empty near ∧ ¬ Refuses (ofRecords [run]) (.and [failed, near]) := by
  intro near failed run Refuses
  have answered {m : Memory} {p : Predicate} (reliable : m.failures = [])
      (valid : Filter.validate ⟨some p, .empty⟩ = .ok ())
      (judged : ∀ r ∈ m.records, Filter.fault? ⟨some p, .empty⟩ r = none) :
      ¬ ∃ e, (m.query ⟨some ⟨some p, .empty⟩, [], none, none⟩).1 = .error e := by
    rw [query_error_iff reliable valid]
    rintro (⟨r, member, e, fault⟩ | ⟨c, nowhere, -⟩)
    · cases (judged r member).symm.trans fault
    · cases nowhere
  refine ⟨fun refuses => ?_, fun refuses => ?_⟩
  · exact answered rfl rfl (List.forall_mem_nil _) (refuses rfl rfl)
  · refine answered rfl rfl (fun r member => ?_) (refuses rfl rfl)
    obtain rfl : r = run := List.mem_singleton.mp member
    rfl

end Memory

end RunQuery
