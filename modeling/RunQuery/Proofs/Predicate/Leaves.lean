import RunQuery.Proofs.Dict
import RunQuery.Proofs.Except
import RunQuery.Proofs.Predicate.Edit

/-!
Leaves of predicates from left to right. To collapse a level or to normalize a tree moves none of them. A path cuts
them in three, those before it, those of the node that it names and those after it; and an edit exchanges the middle
part for the leaves that are put there.
-/
namespace RunQuery.Predicate

theorem mem_leavesOf {children : List Predicate} {leaf : Predicate} :
    leaf ∈ leavesOf children ↔ ∃ child ∈ children, leaf ∈ child.leaves := by
  induction children with
  | nil => simp [leavesOf]
  | cons child rest ih => simp [leavesOf, ih]

@[simp] theorem leavesOf_append (first second : List Predicate) :
    leavesOf (first ++ second) = leavesOf first ++ leavesOf second := by
  induction first with
  | nil => rfl
  | cons child rest ih => simp [leavesOf, ih]

@[simp] theorem leavesOf_singleton (p : Predicate) : leavesOf [p] = p.leaves := by simp [leavesOf]

theorem leavesOf_collapse {wrap : List Predicate → Predicate} {children : List Predicate}
    (wraps : (wrap children).leaves = leavesOf children) :
    leavesOf (collapse wrap children).toList = leavesOf children := by
  match children, wraps with
  | [], _ => rfl
  | [_], _ => rfl
  | _ :: _ :: _, wraps => simp [collapse, wraps]

theorem leaves_conjunction? {children : List Predicate} {p : Predicate} (collapsed : conjunction? children = some p) :
    p.leaves = leavesOf children := by
  have whole : leavesOf (conjunction? children).toList = leavesOf children := leavesOf_collapse rfl
  simpa [collapsed] using whole

theorem leaves_disjunction? {clauses : List Predicate} {p : Predicate} (collapsed : disjunction? clauses = some p) :
    p.leaves = leavesOf clauses := by
  have whole : leavesOf (disjunction? clauses).toList = leavesOf clauses := leavesOf_collapse rfl
  simpa [collapsed] using whole

theorem leavesOf_map_not (p : Option Predicate) : leavesOf (p.map .not).toList = leavesOf p.toList := by
  cases p with
  | none => rfl
  | some p => simp [leaves]

mutual

theorem leavesOf_normalized? (p : Predicate) : leavesOf p.normalized?.toList = p.leaves := by
  match p with
  | .and children => exact (leavesOf_collapse rfl).trans (leavesOf_normalizedAll children)
  | .or children => exact (leavesOf_collapse rfl).trans (leavesOf_normalizedAll children)
  | .not child => exact (leavesOf_map_not child.normalized?).trans (leavesOf_normalized? child)
  | .compare _ => rfl
  | .unknown _ _ => rfl

theorem leavesOf_normalizedAll (children : List Predicate) : leavesOf (normalizedAll children) = leavesOf children := by
  match children with
  | [] => rfl
  | child :: rest =>
    rw [normalizedAll, leavesOf_append, leavesOf_normalized? child, leavesOf_normalizedAll rest]
    rfl

end

theorem mem_bindNames {p : Predicate} {name : String} :
    name ∈ p.bindNames ↔ ∃ leaf ∈ p.leaves, leaf.bindName? = some name := by
  rw [bindNames, mem_sortedTexts, List.mem_filterMap]

/-- The leaves before a path. -/
def leavesBefore : Path → Predicate → List Predicate
  | [], _ => []
  | index :: rest, p =>
    leavesOf (p.children.take index) ++ (p.children[index]?).elim [] (leavesBefore rest)

/-- The leaves after a path. -/
def leavesAfter : Path → Predicate → List Predicate
  | [], _ => []
  | index :: rest, p =>
    (p.children[index]?).elim [] (leavesAfter rest) ++ leavesOf (p.children.drop (index + 1))

section Path

variable {root node : Predicate} {path : Path}

theorem leavesOf_cut {children : List Predicate} {index : Nat} {child : Predicate}
    (here : children[index]? = some child) :
    leavesOf children = leavesOf (children.take index) ++ child.leaves ++ leavesOf (children.drop (index + 1)) := by
  obtain ⟨inside, rfl⟩ := List.getElem?_eq_some_iff.mp here
  have cut := leavesOf_append (children.take index) (children.drop index)
  rw [List.take_append_drop, List.drop_eq_getElem_cons inside] at cut
  rw [cut, leavesOf, List.append_assoc]

theorem leaves_of_child {index : Nat} {child : Predicate} (here : root.children[index]? = some child) :
    root.leaves = leavesOf root.children := by
  cases root with
  | and children => rfl
  | or children => rfl
  | not inner => simp [leaves, children]
  | compare c => simp [children] at here
  | unknown kind raw => simp [children] at here

theorem leaves_at? (found : root.at? path = some node) :
    root.leaves = leavesBefore path root ++ node.leaves ++ leavesAfter path root := by
  induction path generalizing root with
  | nil =>
    cases found
    simp [leavesBefore, leavesAfter]
  | cons index rest ih =>
    obtain ⟨child, here, below⟩ := at?_cons.mp found
    rw [leaves_of_child here, leavesOf_cut here, ih below]
    simp [leavesBefore, leavesAfter, here]

theorem leavesOf_spliced (children : List Predicate) (index : Nat) (new : Option Predicate) :
    leavesOf (spliced children index new) =
      leavesOf (children.take index) ++ leavesOf new.toList ++ leavesOf (children.drop (index + 1)) := by
  simp [spliced]

/-- Each level on the path takes out one child and puts in what is left of it; then it is collapsed. -/
theorem leaves_replaceIn {full : Path} {new after : Option Predicate} (found : root.at? path = some node)
    (done : replaceIn full new path root = .ok after) :
    leavesOf after.toList = leavesBefore path root ++ leavesOf new.toList ++ leavesAfter path root := by
  induction path, root, found using at?_induction generalizing after with
  | here =>
    rw [replaceIn_nil] at done
    cases done
    simp [leavesBefore, leavesAfter]
  | and index rest children child inside _ ih =>
    simp only [replaceIn, inside] at done
    obtain ⟨inner, made, rfl⟩ := map_eq_ok done
    rw [conjunction?, leavesOf_collapse rfl, leavesOf_spliced, ih made]
    simp [leavesBefore, leavesAfter, Predicate.children, inside]
  | or index rest children child inside _ ih =>
    simp only [replaceIn, inside] at done
    obtain ⟨inner, made, rfl⟩ := map_eq_ok done
    rw [disjunction?, leavesOf_collapse rfl, leavesOf_spliced, ih made]
    simp [leavesBefore, leavesAfter, Predicate.children, inside]
  | not rest child _ ih =>
    simp only [replaceIn, if_pos] at done
    obtain ⟨inner, made, rfl⟩ := map_eq_ok done
    rw [leavesOf_map_not, ih made]
    simp [leavesBefore, leavesAfter, Predicate.children, leavesOf]

/-- An edit puts the leaves of the replacement in the place of those of the node at the path. -/
theorem leaves_replaceAt {replacement after : Option Predicate} (done : root.replaceAt path replacement = .ok after) :
    ∃ node, root.at? path = some node ∧
      leavesOf after.toList = leavesBefore path root ++ leavesOf replacement.toList ++ leavesAfter path root := by
  have normal : leavesOf (replacement.bind normalized?).toList = leavesOf replacement.toList := by
    cases replacement with
    | none => rfl
    | some new => exact (leavesOf_normalized? new).trans (leavesOf_singleton new).symm
  obtain ⟨node, found⟩ := at?_of_replaceAt done
  exact ⟨node, found, by rw [leaves_replaceIn found done, normal]⟩

end Path

end RunQuery.Predicate
