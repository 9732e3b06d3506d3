import RunQuery.Proofs.Predicate.Walk
import RunQuery.Proofs.Store.Refusal

/-!
Filters that were validated. Whatever evaluation reports, it met at a leaf of the tree, and a leaf can only miss a value
or be of an unknown kind. Validation asks for all values that some leaf misses, wherever it stands; so evaluating a
validated filter comes to a verdict, or to a node of an unknown kind.
-/
namespace RunQuery

namespace Predicate

variable {params : Dict Value} {r : Record}

/-- What evaluation reports is the error of a leaf to which some path leads. -/
theorem Raises.at? {e : EvalError} {p : Predicate} (raised : Raises params r e p) :
    ∃ path leaf, p.at? path = some leaf ∧ leaf.isLeaf = true ∧ leaf.evaluate params r = .error e := by
  induction raised with
  | unknown kind raw => exact ⟨[], _, rfl, rfl, rfl⟩
  | unbound location operation missing => exact ⟨[], _, rfl, rfl, (Raises.unbound location operation missing).evaluate⟩
  | not _ ih =>
    obtain ⟨path, leaf, found, isLeaf, failed⟩ := ih
    exact ⟨0 :: path, leaf, at?_cons.mpr ⟨_, rfl, found⟩, isLeaf, failed⟩
  | @and _ early late child _ _ ih =>
    obtain ⟨path, leaf, found, isLeaf, failed⟩ := ih
    exact ⟨early.length :: path, leaf, at?_cons.mpr ⟨child, by simp [children], found⟩, isLeaf, failed⟩
  | @or _ early late child _ _ ih =>
    obtain ⟨path, leaf, found, isLeaf, failed⟩ := ih
    exact ⟨early.length :: path, leaf, at?_cons.mpr ⟨child, by simp [children], found⟩, isLeaf, failed⟩

/-- A comparison fails only for the placeholder that it names, and only if that has no value. -/
theorem evaluate_compare_eq_unbound_iff {c : Comparison} {name : String} :
    evaluate params r (.compare c) = .error (.unbound name) ↔
      c.operand.bindName? = some name ∧ params.get? name = none := by
  rw [evaluate_eq_error_iff]
  constructor
  · rintro ⟨⟩
    exact ⟨rfl, ‹_›⟩
  · obtain ⟨location, operation, operand⟩ := c
    rintro ⟨named, missing⟩
    cases operand with
    | bind other =>
      obtain rfl : other = name := Option.some.inj named
      exact .unbound location operation missing
    | _ => cases named

/-- A leaf that misses a value is a comparison. -/
theorem compare_of_unbound {leaf : Predicate} {name : String} (isLeaf : leaf.isLeaf = true)
    (failed : leaf.evaluate params r = .error (.unbound name)) : ∃ c, leaf = .compare c := by
  cases leaf with
  | compare c => exact ⟨c, rfl⟩
  | unknown kind raw => cases failed
  | _ => cases isLeaf

theorem unknown_of_unsupported {leaf : Predicate} {kind : String} (isLeaf : leaf.isLeaf = true)
    (failed : leaf.evaluate params r = .error (.unsupported kind)) : ∃ raw, leaf = .unknown kind raw := by
  cases leaf with
  | compare c =>
    cases Raises.of_comparison failed
  | unknown other raw =>
    cases failed
    exact ⟨raw, rfl⟩
  | _ => cases isLeaf

theorem mem_bindNames_iff {p : Predicate} {name : String} :
    name ∈ p.bindNames ↔ ∃ path c, p.at? path = some (.compare c) ∧ c.operand.bindName? = some name := by
  simp only [mem_bindNames, mem_leaves_iff]
  constructor
  · rintro ⟨leaf, ⟨isLeaf, path, found⟩, named⟩
    cases leaf with
    | compare c => exact ⟨path, c, found, named⟩
    | _ => cases named
  · rintro ⟨path, c, found, named⟩
    exact ⟨.compare c, ⟨rfl, path, found⟩, named⟩

theorem hasUnknown_iff {p : Predicate} :
    p.hasUnknown = true ↔ ∃ path kind raw, p.at? path = some (.unknown kind raw) := by
  simp only [hasUnknown, List.any_eq_true, mem_leaves_iff]
  constructor
  · rintro ⟨leaf, ⟨isLeaf, path, found⟩, unknown⟩
    cases leaf with
    | unknown kind raw => exact ⟨path, kind, raw, found⟩
    | _ => cases unknown
  · rintro ⟨path, kind, raw, found⟩
    exact ⟨.unknown kind raw, ⟨rfl, path, found⟩, rfl⟩

end Predicate

namespace Filter

variable {f : Filter} {r : Record}

theorem pairwise_missingBinds (f : Filter) : f.missingBinds.Pairwise fun a b => a < b := by
  rcases f with ⟨_ | p, params⟩
  · exact List.Pairwise.nil
  · exact (pairwise_sortedTexts _).filter _

/-- The names that are missing are those for which some comparison of the tree fails. -/
theorem mem_missingBinds_iff {name : String} :
    name ∈ f.missingBinds ↔ ∃ p path c, f.predicate = some p ∧ p.at? path = some (.compare c) ∧
      Predicate.evaluate f.params r (.compare c) = .error (.unbound name) := by
  rcases f with ⟨_ | p, params⟩
  · simp [missingBinds]
  · rw [mem_missingBinds, Predicate.mem_bindNames_iff]
    constructor
    · rintro ⟨⟨path, c, found, named⟩, missing⟩
      exact ⟨p, path, c, rfl, found, Predicate.evaluate_compare_eq_unbound_iff.mpr ⟨named, missing⟩⟩
    · rintro ⟨_, path, c, ⟨⟩, found, failed⟩
      obtain ⟨named, missing⟩ := Predicate.evaluate_compare_eq_unbound_iff.mp failed
      exact ⟨⟨path, c, found, named⟩, missing⟩

theorem missingBinds_eq_nil (valid : f.validate = .ok ()) : f.missingBinds = [] := by
  rw [validate] at valid
  split at valid
  next none => exact List.isEmpty_iff.mp none
  next => cases valid

/-- No node of a validated filter misses a value. -/
theorem evaluate_ne_unbound {p node : Predicate} {path : Path} {name : String} (valid : f.validate = .ok ())
    (standing : f.predicate = some p) (found : p.at? path = some node) :
    node.evaluate f.params r ≠ .error (.unbound name) := by
  intro failed
  obtain ⟨below, leaf, inside, isLeaf, failed⟩ := (Predicate.Raises.of_evaluate failed).at?
  obtain ⟨c, rfl⟩ := Predicate.compare_of_unbound isLeaf failed
  have whole : p.at? (path ++ below) = some (.compare c) := by
    rw [Predicate.at?_append, found, Option.bind_some, inside]
  have missed : name ∈ f.missingBinds := mem_missingBinds_iff.mpr ⟨p, path ++ below, c, standing, whole, failed⟩
  rw [missingBinds_eq_nil valid] at missed
  cases missed

/-- Without nodes of unknown kinds there is nothing that a validated filter could fail at. -/
theorem exists_evaluate_eq_ok (valid : f.validate = .ok ())
    (known : ∀ p path kind raw, f.predicate = some p → p.at? path ≠ some (.unknown kind raw)) (r : Record) :
    ∃ found, f.evaluate r = .ok found := by
  rcases f with ⟨_ | p, params⟩
  · exact ⟨true, rfl⟩
  cases judged : p.evaluate params r with
  | ok found => exact ⟨found, judged⟩
  | error e =>
    obtain ⟨path, leaf, found, isLeaf, failed⟩ := (Predicate.Raises.of_evaluate judged).at?
    cases e with
    | unbound name => exact absurd failed (evaluate_ne_unbound valid rfl found)
    | unsupported kind =>
      obtain ⟨raw, rfl⟩ := Predicate.unknown_of_unsupported isLeaf failed
      exact absurd found (known p path kind raw rfl)

/-- Any validated filter without nodes of unknown kinds comes to a verdict on every record; and no node of a validated
filter fails for want of a value, whatever other nodes there are. The names that are missing stand in order, each once,
and are those for which some comparison of the tree fails on a record, and so on every record. The names that are asked
for are what a set collects on a walk that keeps one path, and such a walk tells whether there is a node of an unknown
kind. -/
theorem validated_filter_judges (f : Filter) (r : Record) :
    (f.validate = .ok () → (∀ p path kind raw, f.predicate = some p → p.at? path ≠ some (.unknown kind raw)) →
      ∃ found, f.evaluate r = .ok found) ∧
    (f.validate = .ok () → ∀ p path node name, f.predicate = some p → p.at? path = some node →
      node.evaluate f.params r ≠ .error (.unbound name)) ∧
    (f.missingBinds.Pairwise fun a b => a < b) ∧
    (∀ name, name ∈ f.missingBinds ↔ ∃ p path c, f.predicate = some p ∧ p.at? path = some (.compare c) ∧
      Predicate.evaluate f.params r (.compare c) = .error (.unbound name)) ∧
    ∀ p, f.predicate = some p →
      p.bindNames = (Predicate.tour Predicate.collectName p ([], .empty)).2.keys ∧
      p.hasUnknown = (Predicate.tour Predicate.noteUnknown p ([], false)).2 ∧
      (p.hasUnknown = true ↔ ∃ path kind raw, p.at? path = some (.unknown kind raw)) := by
  refine ⟨fun valid known => exists_evaluate_eq_ok valid known r, ?_, pairwise_missingBinds f,
    fun name => mem_missingBinds_iff, fun p _ => ?_⟩
  · intro valid p path node name standing found
    exact evaluate_ne_unbound valid standing found
  · exact ⟨p.bindNames_eq_tour, p.hasUnknown_eq_tour, Predicate.hasUnknown_iff⟩

/-- Placeholders behind a decided level and below a negation, with and without their values. -/
theorem validated_filter_judges_behind_decided :
    let status : Comparison := ⟨"status", .eq, .bind "s"⟩
    let rank : Comparison := ⟨"rank", .gt, .bind "low"⟩
    let p : Predicate := .and [.or [], .not (.or [.compare rank, .compare status]), .compare rank]
    let f : Filter := ⟨some p, .ofList [("s", .text "ok"), ("low", .bool true)]⟩
    let r : Record := ⟨"r0", "execution", 1, .none⟩
    f.validate = .ok () ∧ (∃ found, f.evaluate r = .ok found) ∧
    (Predicate.compare rank).evaluate f.params r ≠ .error (.unbound "low") ∧
    missingBinds ⟨some p, .empty⟩ = ["low", "s"] ∧
    ∃ path c, p.at? path = some (.compare c) ∧
      Predicate.evaluate .empty r (.compare c) = .error (.unbound "s") := by
  intro status rank p f r
  have valid : f.validate = .ok () := rfl
  obtain ⟨judges, bound, -⟩ := validated_filter_judges f r
  obtain ⟨-, -, -, missing, -⟩ := validated_filter_judges ⟨some p, .empty⟩ r
  have known : p.hasUnknown = false := rfl
  obtain ⟨_, path, c, ⟨⟩, found, failed⟩ := (missing "s").mp (by decide)
  refine ⟨valid, judges valid ?_, bound valid p [2] _ "low" rfl rfl, by decide, path, c, found, failed⟩
  rintro _ path kind raw ⟨⟩ found
  rw [Predicate.hasUnknown_iff.mpr ⟨path, kind, raw, found⟩] at known
  cases known

end Filter

end RunQuery
