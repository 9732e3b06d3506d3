import RunQuery.Proofs.Predicate.Leaves
import RunQuery.Store.Evaluate

/-!
Evaluation of predicates, taken apart. Children are evaluated from left to right, so that a list of them can be
cut anywhere; and a verdict depends on the values of the placeholders that the predicate names, and on no other
parameter.
-/
namespace RunQuery

namespace Predicate

variable {params : Dict Value} {r : Record}

theorem evaluateAll_append (first second : List Predicate) :
    evaluateAll params r (first ++ second) =
      match evaluateAll params r first with
      | .ok true => evaluateAll params r second
      | other => other := by
  induction first with
  | nil => rfl
  | cons child rest ih =>
    rw [List.cons_append, evaluateAll, evaluateAll, ih]
    cases evaluate params r child with
    | error e => rfl
    | ok found => cases found <;> rfl

theorem evaluateAny_append (first second : List Predicate) :
    evaluateAny params r (first ++ second) =
      match evaluateAny params r first with
      | .ok false => evaluateAny params r second
      | other => other := by
  induction first with
  | nil => rfl
  | cons child rest ih =>
    rw [List.cons_append, evaluateAny, evaluateAny, ih]
    cases evaluate params r child with
    | error e => rfl
    | ok found => cases found <;> rfl

theorem evaluateAll_singleton (p : Predicate) : evaluateAll params r [p] = evaluate params r p := by
  rw [evaluateAll, evaluateAll]
  cases evaluate params r p with
  | error e => rfl
  | ok found => cases found <;> rfl

theorem evaluateAny_singleton (p : Predicate) : evaluateAny params r [p] = evaluate params r p := by
  rw [evaluateAny, evaluateAny]
  cases evaluate params r p with
  | error e => rfl
  | ok found => cases found <;> rfl

/-- A conjunction says the same when it is collapsed; nothing at all counts as true. -/
theorem evaluate_conjunction? (children : List Predicate) :
    (conjunction? children).elim (.ok true) (evaluate params r) = evaluateAll params r children := by
  match children with
  | [] => rfl
  | [child] => exact (evaluateAll_singleton child).symm
  | _ :: _ :: _ => rfl

/-- A disjunction says the same when it is collapsed. -/
theorem evaluate_disjunction? {clauses : List Predicate} {p : Predicate} (collapsed : disjunction? clauses = some p) :
    evaluate params r p = evaluateAny params r clauses := by
  match clauses, collapsed with
  | [child], rfl => exact (evaluateAny_singleton child).symm
  | _ :: _ :: _, rfl => rfl

/-- Two sets of parameters that give the placeholders of some leaves the same values. -/
def Agree (d e : Dict Value) (leaves : List Predicate) : Prop :=
  ∀ leaf ∈ leaves, ∀ name, leaf.bindName? = some name → d.get? name = e.get? name

section Agree

variable {d e : Dict Value}

theorem Agree.left {first second : List Predicate} (agree : Agree d e (first ++ second)) : Agree d e first :=
  fun leaf member => agree leaf (List.mem_append_left _ member)

theorem Agree.right {first second : List Predicate} (agree : Agree d e (first ++ second)) : Agree d e second :=
  fun leaf member => agree leaf (List.mem_append_right _ member)

theorem Agree.comparison {c : Comparison} (agree : Agree d e [.compare c]) (r : Record) :
    c.evaluate d r = c.evaluate e r := by
  rcases c with ⟨location, operation, operand⟩
  cases operand with
  | bind name =>
    have same : d.get? name = e.get? name := agree _ List.mem_cons_self name rfl
    rw [Comparison.evaluate, Comparison.evaluate, Operand.resolve, Operand.resolve, same]
  | literal value => rfl
  | field path => rfl

mutual

theorem Agree.evaluate {p : Predicate} (agree : Agree d e p.leaves) : p.evaluate d r = p.evaluate e r := by
  match p with
  | .and children => exact Agree.evaluateAll agree
  | .or children => exact Agree.evaluateAny agree
  | .not child => rw [Predicate.evaluate, Predicate.evaluate, Agree.evaluate (p := child) agree]
  | .compare c => exact agree.comparison r
  | .unknown _ _ => rfl

theorem Agree.evaluateAll {children : List Predicate} (agree : Agree d e (leavesOf children)) :
    evaluateAll d r children = evaluateAll e r children := by
  match children with
  | [] => rfl
  | child :: rest =>
    have others : Predicate.evaluateAll d r rest = Predicate.evaluateAll e r rest := Agree.evaluateAll agree.right
    rw [Predicate.evaluateAll, Predicate.evaluateAll, Agree.evaluate (p := child) agree.left, others]

theorem Agree.evaluateAny {children : List Predicate} (agree : Agree d e (leavesOf children)) :
    evaluateAny d r children = evaluateAny e r children := by
  match children with
  | [] => rfl
  | child :: rest =>
    have others : Predicate.evaluateAny d r rest = Predicate.evaluateAny e r rest := Agree.evaluateAny agree.right
    rw [Predicate.evaluateAny, Predicate.evaluateAny, Agree.evaluate (p := child) agree.left, others]

end

end Agree

end Predicate

namespace Filter

/-- Whether a filter matches a record. Without a predicate it matches every record. -/
def evaluate (f : Filter) (r : Record) : Except EvalError Bool :=
  f.predicate.elim (.ok true) (Predicate.evaluate f.params r)

def fault? (f : Filter) (r : Record) : Option EvalError :=
  match f.evaluate r with
  | .ok _ => none
  | .error e => some e

def selects (f : Filter) (r : Record) : Bool :=
  match f.evaluate r with
  | .ok found => found
  | .error _ => false

theorem validate_eq_ok_iff {f : Filter} :
    f.validate = .ok () ↔
      ∀ p, f.predicate = some p → ∀ name ∈ p.bindNames, f.params.contains name = true := by
  rcases f with ⟨none | p, params⟩
  · exact ⟨fun _ p standing => (nomatch standing), fun _ => rfl⟩
  · simp only [validate, missingBinds, List.isEmpty_iff, List.filter_eq_nil_iff, Bool.not_eq_true', Bool.not_eq_false,
      Option.some.injEq, forall_eq']
    split
    next all => exact iff_of_true rfl all
    next missed => exact iff_of_false (fun same => nomatch same) missed

end Filter

/-- Either some record cannot be judged, and the first of these is reported, or those that match are selected. -/
theorem selectRecords_eq (f : Filter) (records : List Record) :
    selectRecords f.predicate f.params records =
      match records.findSome? f.fault? with
      | some e => .error e
      | none => .ok (records.filter f.selects) := by
  induction records with
  | nil => rfl
  | cons r rest ih =>
    rw [selectRecords, ih, ← Filter.evaluate, List.findSome?_cons, List.filter_cons, Filter.fault?, Filter.selects]
    cases f.evaluate r with
    | error e => rfl
    | ok found =>
      cases rest.findSome? f.fault? with
      | some e => rfl
      | none => rfl

end RunQuery
