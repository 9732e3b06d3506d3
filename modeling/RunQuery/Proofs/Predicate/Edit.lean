import RunQuery.Proofs.Predicate.Descent
import RunQuery.Proofs.Predicate.Normal

/-!
Editing as substitution. `substitute` puts a predicate at a position and changes nothing else; an edit of a
collapsed predicate is that, and then the normal form. An edit rebuilds the levels on its path only: the others
are collapsed already, and the normal form leaves them as they are. So no run of edits leaves a connective with
fewer than two children.
-/
namespace RunQuery

namespace Predicate

/-- The tree with another node at a path. -/
def substitute (new : Predicate) : Path → Predicate → Predicate
  | [], _ => new
  | index :: rest, .and children => .and (children.modify index (substitute new rest))
  | index :: rest, .or children => .or (children.modify index (substitute new rest))
  | 0 :: rest, .not child => .not (substitute new rest child)
  | _ :: _, p => p

theorem children_substitute (new : Predicate) (index : Nat) (rest : Path) (root : Predicate) :
    (substitute new (index :: rest) root).children = root.children.modify index (substitute new rest) := by
  cases root with
  | and children => rfl
  | or children => rfl
  | not child =>
    cases index with
    | zero => rfl
    | succ index => simp [substitute, children]
  | compare c => simp [substitute, children]
  | unknown kind raw => simp [substitute, children]

/-- What was put at a path is found there. -/
theorem at?_substitute (new : Predicate) {path : Path} {root node : Predicate}
    (found : root.at? path = some node) : (substitute new path root).at? path = some new := by
  induction path generalizing root with
  | nil => rfl
  | cons index rest ih =>
    obtain ⟨child, here, below⟩ := at?_cons.mp found
    refine at?_cons.mpr ⟨substitute new rest child, ?_, ih below⟩
    rw [children_substitute, List.getElem?_modify_eq, here]
    rfl

/-- Paths that branch off find what they found before. -/
theorem at?_substitute_of_branching (new : Predicate) {path other : Path} (root : Predicate)
    (notBelow : ¬ path <+: other) (notAbove : ¬ other <+: path) :
    (substitute new path root).at? other = root.at? other := by
  induction path generalizing root other with
  | nil => exact absurd List.nil_prefix notBelow
  | cons index rest ih =>
    cases other with
    | nil => exact absurd List.nil_prefix notAbove
    | cons first others =>
      rw [at?, at?, children_substitute, List.getElem?_modify]
      by_cases same : index = first
      · subst same
        cases root.children[index]? with
        | none => rfl
        | some child =>
          simp only [List.cons_prefix_cons, true_and] at notBelow notAbove
          simpa using ih child notBelow notAbove
      · cases root.children[first]? <;> simp [same]

/-- What does not tell a child from the changed one does not tell the level from the changed level. -/
theorem map_modify_of_eq {β : Type} (view : Predicate → β) {children : List Predicate} {index : Nat} {child : Predicate}
    (inside : children[index]? = some child) {change : Predicate → Predicate}
    (alike : view (change child) = view child) :
    (children.modify index change).map view = children.map view := by
  refine List.ext_getElem? fun i => ?_
  rw [List.getElem?_map, List.getElem?_map, List.getElem?_modify]
  by_cases own : index = i
  · subst own
    simp [inside, alike]
  · simp [own]

/-- A level with one child changed, as an edit rebuilds it. -/
theorem normalizedAll_modify {children : List Predicate} (all : AllCollapsed children) {index : Nat}
    {child : Predicate} (found : children[index]? = some child) (change : Predicate → Predicate) :
    normalizedAll (children.modify index change) = spliced children index (change child).normalized? := by
  induction children generalizing index with
  | nil => cases found
  | cons first rest ih =>
    cases index with
    | zero =>
      cases found
      rw [List.modify_zero_cons, normalizedAll, all.2.normalizedAll]
      rfl
    | succ index =>
      rw [List.modify_succ_cons, normalizedAll, all.1.normalized?, ih all.2 found]
      rfl

theorem AllCollapsed.child {children : List Predicate} (all : AllCollapsed children) {index : Nat}
    {child : Predicate} (found : children[index]? = some child) : child.Collapsed :=
  allCollapsed_iff.mp all child (List.mem_of_getElem? found)

/-- Below a collapsed node, replacing by a normal form is substituting and normalizing. -/
theorem replaceIn_eq (full : Path) (new : Predicate) {path : Path} {root node : Predicate}
    (collapsed : root.Collapsed) (found : root.at? path = some node) :
    replaceIn full new.normalized? path root = .ok (substitute new path root).normalized? := by
  induction path, root, found using at?_induction with
  | here => cases node <;> rfl
  | and index rest children child inside _ ih =>
    have level := normalizedAll_modify collapsed.2 inside (substitute new rest)
    simp only [replaceIn, inside, ih (collapsed.2.child inside), substitute, normalized?, level]
    rfl
  | or index rest children child inside _ ih =>
    have level := normalizedAll_modify collapsed.2 inside (substitute new rest)
    simp only [replaceIn, inside, ih (collapsed.2.child inside), substitute, normalized?, level]
    rfl
  | not rest child _ ih =>
    have inner : child.Collapsed := collapsed
    simp only [replaceIn, if_pos, ih inner, substitute, normalized?]
    rfl

theorem replaceAt_eq {root node : Predicate} (collapsed : root.Collapsed) {path : Path}
    (found : root.at? path = some node) (replacement : Option Predicate) :
    root.replaceAt path replacement =
      .ok (substitute (replacement.getD (.and [])) path root).normalized? := by
  have normal : replacement.bind normalized? = (replacement.getD (.and [])).normalized? := by
    cases replacement <;> rfl
  rw [replaceAt, normal]
  exact replaceIn_eq path _ collapsed found

theorem replaceAt_collapsed {root : Predicate} (collapsed : root.Collapsed) {path : Path}
    {replacement after : Option Predicate} (done : root.replaceAt path replacement = .ok after) :
    ∀ p ∈ after, p.Collapsed := by
  obtain ⟨node, found⟩ := at?_of_replaceAt done
  rw [replaceAt_eq collapsed found, Except.ok.injEq] at done
  subst done
  exact normalized?_collapsed _

theorem editComparison_collapsed {root : Predicate} (collapsed : root.Collapsed) {path : Path}
    {edit : Comparison → Comparison} {after : Predicate}
    (done : root.editComparison path edit = .ok after) : after.Collapsed := by
  unfold editComparison at done
  split at done
  · cases done
  · split at done
    next replaced => exact replaceAt_collapsed collapsed replaced after (Except.ok.inj done ▸ rfl)
    · cases done
    · cases done
  · cases done

/-- What can be done to a predicate. -/
inductive Edit where
  | replace (path : Path) (replacement : Option Predicate)
  | replaceChild (index : Nat) (replacement : Option Predicate)
  | setOperation (path : Path) (operation : Operation)
  | setOperand (path : Path) (operand : Operand)

def Edit.apply (p : Predicate) : Edit → Except EditError (Option Predicate)
  | .replace path replacement => p.replaceAt path replacement
  | .replaceChild index replacement => p.replaceChild index replacement
  | .setOperation path operation => (p.setOperation path operation).map some
  | .setOperand path operand => (p.setOperand path operand).map some

/-- An edit that fails leaves the tree as it is; of no tree nothing is left to edit. -/
def edited (tree : Option Predicate) (edit : Edit) : Option Predicate :=
  tree.bind fun p =>
    match edit.apply p with
    | .ok after => after
    | .error _ => some p

theorem Edit.apply_collapsed {p : Predicate} (collapsed : p.Collapsed) {edit : Edit}
    {after : Option Predicate} (done : edit.apply p = .ok after) : ∀ q ∈ after, q.Collapsed := by
  have comparison {path : Path} {change : Comparison → Comparison}
      (changed : (p.editComparison path change).map some = .ok after) : ∀ q ∈ after, q.Collapsed := by
    cases whole : p.editComparison path change with
    | error error =>
      rw [whole] at changed
      cases changed
    | ok new =>
      rw [whole] at changed
      cases changed
      rintro q ⟨⟩
      exact editComparison_collapsed collapsed whole
  cases edit with
  | replace path replacement => exact replaceAt_collapsed collapsed done
  | replaceChild index replacement => exact replaceAt_collapsed collapsed done
  | setOperation path operation => exact comparison done
  | setOperand path operand => exact comparison done

theorem edited_collapsed {tree : Option Predicate} (collapsed : ∀ p ∈ tree, p.Collapsed) (edit : Edit) :
    ∀ p ∈ edited tree edit, p.Collapsed := by
  cases tree with
  | none => exact collapsed
  | some p =>
    have whole : p.Collapsed := collapsed p rfl
    unfold edited
    rw [Option.bind_some]
    split
    next done => exact edit.apply_collapsed whole done
    next => exact collapsed

theorem foldl_edited_collapsed {tree : Option Predicate} (collapsed : ∀ p ∈ tree, p.Collapsed)
    (edits : List Edit) : ∀ p ∈ edits.foldl edited tree, p.Collapsed := by
  induction edits generalizing tree with
  | nil => exact collapsed
  | cons edit rest ih => exact ih (edited_collapsed collapsed edit)

/-- An edit of a collapsed tree puts the replacement at its place, an empty conjunction if there is none, and
normalizes the whole; so after any run of edits the tree is collapsed, or gone. -/
theorem edit_is_normalized_substitution {root : Predicate} (collapsed : root.Collapsed) :
    (∀ (path : Path) (node : Predicate), root.at? path = some node → ∀ replacement : Option Predicate,
      root.replaceAt path replacement =
        .ok (substitute (replacement.getD (.and [])) path root).normalized?) ∧
    (∀ edits : List Edit, ∀ p ∈ edits.foldl edited (some root), p.Collapsed) := by
  refine ⟨fun path node found replacement => replaceAt_eq collapsed found replacement,
    foldl_edited_collapsed ?_⟩
  rintro p ⟨⟩
  exact collapsed

/-- An empty negation takes the place of one of two children below a negation: three levels collapse. -/
theorem edit_below_negation_collapses :
    let leaf (location : String) : Predicate := .compare ⟨location, .eq, .bind location⟩
    let root : Predicate := .or [leaf "a", .not (.and [leaf "b", leaf "c"])]
    root.Collapsed ∧ root.at? [1, 0, 0] = some (leaf "b") ∧
    root.replaceAt [1, 0, 0] (some (.not (.or []))) = .ok (some (.or [leaf "a", .not (leaf "c")])) ∧
    [Edit.replace [1, 0, 0] none, .replaceChild 0 (some (.and []))].foldl edited (some root) =
      some (.not (leaf "c")) ∧
    (leaf "c").not.Collapsed := by
  intro leaf root
  have collapsed : root.Collapsed := ⟨by decide, trivial, ⟨by decide, trivial, trivial, trivial⟩, trivial⟩
  have edits := edit_is_normalized_substitution collapsed
  exact ⟨collapsed, rfl, edits.1 [1, 0, 0] (leaf "b") rfl _, rfl,
    edits.2 [.replace [1, 0, 0] none, .replaceChild 0 (some (.and []))] _ rfl⟩

end Predicate

end RunQuery
